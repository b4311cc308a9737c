import Batchwork.Http.Url
import Batchwork.Json.Document
import Batchwork.Repository

/-!
# Items behind an address

A repository that fetches a JSON array from an address. The server is a function of the request it
gets and of its own state, and may be out of reach.
-/

namespace Batchwork.Http

structure Request where
  url : Url
  authorization : Option String := none
  deriving Repr, DecidableEq, Inhabited

inductive Reply where
  /-- No answer came: the connection failed or was dropped. -/
  | unreachable
  | answer (status : Nat) (body : List UInt8)
  deriving Repr, DecidableEq, Inhabited

abbrev Server (σ : Type) : Type := Request → Act σ ComponentLog Reply

/-- Where a fetch is made from. -/
inductive Caller where
  | anywhere
  /-- A place where waiting for an answer would stop everything. -/
  | singleThread
  deriving Repr, DecidableEq, Inhabited

structure Endpoint where
  url : Url
  token : Option String := none
  fields : List (String × String) := []
  deriving Repr, DecidableEq, Inhabited

inductive FetchFault where
  | singleThread
  | badHeader
  | badScheme (url : Url)
  | unreachable (url : Url)
  | refused (status : Nat)
  | undecodable (url : Url)
  deriving Repr, DecidableEq, Inhabited

/-- The usual names of states of an answer. -/
def statusNames : List (Nat × String) :=
  [(100, "Continue"), (101, "Switching Protocols"), (102, "Processing"), (300, "Multiple Choices"),
    (301, "Moved Permanently"), (302, "Found"), (303, "See Other"), (304, "Not Modified"),
    (305, "Use Proxy"), (307, "Temporary Redirect"), (308, "Permanent Redirect"),
    (400, "Bad Request"), (401, "Unauthorized"), (402, "Payment Required"), (403, "Forbidden"),
    (404, "Not Found"), (405, "Method Not Allowed"), (406, "Not Acceptable"),
    (407, "Proxy Authentication Required"), (408, "Request Timeout"), (409, "Conflict"),
    (410, "Gone"), (411, "Length Required"), (412, "Precondition Failed"),
    (413, "Payload Too Large"), (414, "URI Too Long"), (415, "Unsupported Media Type"),
    (416, "Range Not Satisfiable"), (417, "Expectation Failed"), (418, "I'm a teapot"),
    (421, "Misdirected Request"), (422, "Unprocessable Entity"), (423, "Locked"),
    (424, "Failed Dependency"), (425, "Too Early"), (426, "Upgrade Required"),
    (428, "Precondition Required"), (429, "Too Many Requests"),
    (431, "Request Header Fields Too Large"), (451, "Unavailable For Legal Reasons"),
    (500, "Internal Server Error"), (501, "Not Implemented"), (502, "Bad Gateway"),
    (503, "Service Unavailable"), (504, "Gateway Timeout"), (505, "HTTP Version Not Supported"),
    (506, "Variant Also Negotiates"), (507, "Insufficient Storage"), (508, "Loop Detected"),
    (510, "Not Extended"), (511, "Network Authentication Required")]

def statusText (status : Nat) : String :=
  let name := (statusNames.lookup status).getD "<unknown status code>"
  s!"{status} {name}"

/-- What went wrong with a fetch from an address. -/
def FetchFault.message (address : String) : FetchFault → String
  | singleThread =>
    s!"GET {address}: a blocking HTTP request cannot run on a current-thread runtime"
  | badHeader => s!"GET {address}: builder error"
  | badScheme url => s!"GET {address}: builder error for url ({url.text})"
  | unreachable url => s!"GET {address}: error sending request for url ({url.text})"
  | refused status => s!"GET {address} returned {statusText status}"
  | undecodable url =>
    s!"GET {address}: undecodable body: error decoding response body for url ({url.text})"

namespace Endpoint

/-- Whether a text may stand in a header. -/
def fitsHeader (text : String) : Bool :=
  text.toUTF8.toList.all fun b => (b ≥ 32 && b ≠ 127) || b = 9

/-- The address that a request goes to, which does not show who asks. -/
def target (endpoint : Endpoint) : Url :=
  { endpoint.url.withFields endpoint.fields with userInfo := [] }

/-- The request of a fetch, or why there can be none. -/
def request (endpoint : Endpoint) : Except FetchFault Request :=
  if !endpoint.token.all fitsHeader then .error .badHeader
  else if endpoint.url.scheme ≠ "http" ∧ endpoint.url.scheme ≠ "https" then
    .error (.badScheme endpoint.target)
  else
    let authorization := endpoint.token.map fun token => s!"Bearer {token}"
    .ok { url := endpoint.target, authorization }

/-- The items in an answer. -/
def items {α : Type} (shape : Json.Shape α) (url : Url) : Reply → Except FetchFault (List α)
  | .unreachable => .error (.unreachable url)
  | .answer status body =>
    if status < 200 ∨ 300 ≤ status then .error (.refused status)
    else
      match Json.decode (.list shape) body with
      | .ok items => .ok items
      | .error _ => .error (.undecodable url)

variable {σ α : Type}

/-- Sends one request and decodes the answer. -/
def fetch (endpoint : Endpoint) (server : Server σ) (shape : Json.Shape α) :
    Act σ ComponentLog (Except FetchFault (List α)) := do
  Act.tell (.requesting endpoint.url.text)
  match endpoint.request with
  | .error fault => return .error fault
  | .ok request => return items shape request.url (← server request)

def asRepository (endpoint : Endpoint) (server : Server σ) (shape : Json.Shape α)
    (caller : Caller := .anywhere) : Repository σ ComponentLog α where
  findAll := do
    let answer ←
      match caller with
      | .anywhere => endpoint.fetch server shape
      | .singleThread => pure (.error .singleThread)
    match answer with
    | .ok items => return .ok items
    | .error fault => return .error (.itemReader (fault.message endpoint.url.text))

end Endpoint

structure EndpointBuilder where
  base : Option String := none
  path : Option String := none
  token : Option String := none
  fields : List (String × String) := []
  deriving Repr, DecidableEq, Inhabited

namespace EndpointBuilder

def withBase (builder : EndpointBuilder) (base : String) : EndpointBuilder :=
  { builder with base := some base }

def withPath (builder : EndpointBuilder) (path : String) : EndpointBuilder :=
  { builder with path := some path }

/-- Sets the token to send, or that none is sent. -/
def withToken (builder : EndpointBuilder) (token : Option String) : EndpointBuilder :=
  { builder with token }

def addField (builder : EndpointBuilder) (name value : String) : EndpointBuilder :=
  { builder with fields := builder.fields ++ [(name, value)] }

/-- The base and the path with a single slash between them. -/
def address (base : String) : Option String → String
  | none => base
  | some path =>
    let front := base.toList.reverse.dropWhile (· = '/') |>.reverse
    String.ofList (front ++ '/' :: path.toList.dropWhile (· = '/'))

def build (builder : EndpointBuilder) : Result Endpoint :=
  match builder.base with
  | none => .error (.configuration "a base URL is required")
  | some base =>
    let raw := address base builder.path
    match Url.parse raw with
    | .error fault => .error (.configuration s!"invalid URL {raw}: {fault.message}")
    | .ok url => .ok { url, token := builder.token, fields := builder.fields }

end EndpointBuilder

end Batchwork.Http
