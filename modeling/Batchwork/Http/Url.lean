import Batchwork.Http.Host

/-!
# Addresses

Reading the address of a resource and writing it in its normal form: small letters in the scheme and
the host, no default port, no dot segments, and every character that needs it escaped.
-/

namespace Batchwork.Http

inductive UrlPath where
  | segments (segments : List (List Char))
  | opaquePath (text : List Char)
  deriving Repr, DecidableEq, Inhabited

structure Url where
  scheme : String
  userInfo : List Char := []
  host : Option (List Char) := none
  port : Option Nat := none
  path : UrlPath := .segments []
  query : Option (List Char) := none
  fragment : Option (List Char) := none
  deriving Repr, DecidableEq, Inhabited

namespace Url

/-- The schemes of the web, with the port that each takes if none is given. -/
def defaultPorts : List (String × Option Nat) :=
  [("http", some 80), ("https", some 443), ("ws", some 80), ("wss", some 443), ("ftp", some 21),
    ("file", none)]

def isSpecialScheme (scheme : String) : Bool := (defaultPorts.lookup scheme).isSome

def defaultPort? (scheme : String) : Option Nat := (defaultPorts.lookup scheme).join

/-- What is read for a text: no blanks around it, and no tabs or line ends in it. -/
def clean (text : String) : List Char :=
  let outer (c : Char) := c ≤ ' '
  let trimmed := (text.toList.dropWhile outer).reverse.dropWhile outer |>.reverse
  trimmed.filter fun c => c ≠ '\t' ∧ c ≠ '\n' ∧ c ≠ '\r'

/-- The scheme and what follows its colon. -/
def splitScheme? (cs : List Char) : Option (String × List Char) :=
  let isMark (c : Char) := c.isAlphanum || c = '+' || c = '-' || c = '.'
  match cs.takeWhile isMark, cs.dropWhile isMark with
  | first :: more, ':' :: rest =>
    if first.isAlpha then some (String.ofList ((first :: more).map Char.toLower), rest) else none
  | _, _ => none

/-- The marks that end the part of an address that names its server. -/
def endsAuthority (special : Bool) (c : Char) : Bool :=
  c = '/' || c = '?' || c = '#' || (special && c = '\\')

/-- Splits at the last of some marks. -/
def splitLast? (mark : Char) (cs : List Char) : Option (List Char × List Char) :=
  let tail := (cs.reverse.takeWhile (· ≠ mark)).reverse
  if tail.length < cs.length then some (cs.take (cs.length - tail.length - 1), tail) else none

/-- A user's name and password, escaped, with the mark that ends them. -/
def encodeUserInfo (cs : List Char) : List Char :=
  let name := cs.takeWhile (· ≠ ':')
  let password := (cs.dropWhile (· ≠ ':')).drop 1
  let encode := percentEncode EscapeSet.userInfo
  let text := encode name ++ if password.isEmpty then [] else ':' :: encode password
  if text.isEmpty then [] else text ++ ['@']

/-- The host and what follows it. A colon in brackets does not end a host. -/
def splitHost (inBrackets : Bool) : List Char → List Char × List Char
  | [] => ([], [])
  | c :: rest =>
    if c = ':' && !inBrackets then ([], c :: rest)
    else
      let inside := if c = '[' then true else if c = ']' then false else inBrackets
      let (host, after) := splitHost inside rest
      (c :: host, after)

/-- The port behind a host. -/
def port? (scheme : String) : List Char → Except UrlFault (Option Nat)
  | ':' :: digits =>
    if !digits.all Char.isDigit then .error .invalidPort
    else
      let port := digits.foldl (fun total c => total * 10 + (c.toNat - '0'.toNat)) 0
      if port > 65535 then .error .invalidPort
      else if digits.isEmpty || defaultPort? scheme = some port then .ok none
      else .ok (some port)
  | _ => .ok none

/-- The segments of a path. -/
def splitSegments (special : Bool) (cs : List Char) : List (List Char) :=
  Host.splitOn '/' (cs.map fun c => if special && c = '\\' then '/' else c)

def isDot (segment : List Char) : Bool :=
  [".", "%2e"].contains (String.ofList (segment.map Char.toLower))

def isDoubleDot (segment : List Char) : Bool :=
  ["..", ".%2e", "%2e.", "%2e%2e"].contains (String.ofList (segment.map Char.toLower))

/-- Resolves dot segments. A dot at the end leaves an empty segment. The segments done are the last
ones first. -/
def resolve (done : List (List Char)) : List (List Char) → List (List Char)
  | [] => done.reverse
  | segment :: rest =>
    if isDoubleDot segment then
      let up := done.drop 1
      resolve (if rest.isEmpty then [] :: up else up) rest
    else if isDot segment then resolve (if rest.isEmpty then [] :: done else done) rest
    else resolve (percentEncode EscapeSet.path segment :: done) rest

/-- The path of an address that has a server, or that begins with a slash. -/
def hierarchical (special : Bool) (cs : List Char) : UrlPath :=
  match cs with
  | [] => .segments (if special then [[]] else [])
  | c :: rest =>
    let body := if c = '/' || (special && c = '\\') then rest else c :: rest
    .segments (resolve [] (splitSegments special body))

/-- Splits an address into what stands before its query, its query and its fragment. -/
def splitTail (cs : List Char) : List Char × Option (List Char) × Option (List Char) :=
  let body := cs.takeWhile (· ≠ '#')
  let fragment := if body.length < cs.length then some (cs.drop (body.length + 1)) else none
  let front := body.takeWhile (· ≠ '?')
  let query := if front.length < body.length then some (body.drop (front.length + 1)) else none
  (front, query, fragment)

/-- Reads the server of an address and the path behind it. -/
def withServer (scheme : String) (special : Bool) (cs : List Char) : Except UrlFault Url := do
  let authority := cs.takeWhile (!endsAuthority special ·)
  let path := cs.drop authority.length
  let (user, server) :=
    match splitLast? '@' authority with
    | some (user, server) => (some user, server)
    | none => (none, authority)
  if user.isSome && server.isEmpty then throw .emptyHost
  let (name, after) := splitHost false server
  if special && name.isEmpty then throw .emptyHost
  let host ← if special then Host.special name else Host.plain name
  let port ← port? scheme after
  return {
    scheme, host, port
    userInfo := encodeUserInfo (user.getD [])
    path := hierarchical special path }

/-- Reads the address of a file, whose host may be missing. -/
def withFile (cs : List Char) : Except UrlFault Url := do
  let isSlash (c : Char) := c = '/' || c = '\\'
  match cs with
  | a :: b :: rest =>
    if isSlash a && isSlash b then
      let name := rest.takeWhile (!isSlash ·)
      let path := rest.drop name.length
      let host ← if name.isEmpty then pure [] else Host.special name
      let host := if host = "localhost".toList then [] else host
      return { scheme := "file", host, path := hierarchical true path }
    else return { scheme := "file", host := some [], path := hierarchical true cs }
  | _ => return { scheme := "file", host := some [], path := hierarchical true cs }

def parseBody (scheme : String) (cs : List Char) : Except UrlFault Url :=
  if scheme = "file" then withFile cs
  else if isSpecialScheme scheme then
    withServer scheme true (cs.dropWhile fun c => c = '/' || c = '\\')
  else
    match cs with
    | '/' :: '/' :: rest => withServer scheme false rest
    | '/' :: _ => .ok { scheme, path := hierarchical false cs }
    | _ => .ok { scheme, path := .opaquePath (percentEncode EscapeSet.control cs) }

/-- Reads an address that stands for itself. -/
def parse (text : String) : Except UrlFault Url :=
  match splitScheme? (clean text) with
  | none => .error .relative
  | some (scheme, cs) => do
    let (front, query, fragment) := splitTail cs
    let url ← parseBody scheme front
    let querySet := if isSpecialScheme scheme then EscapeSet.specialQuery else EscapeSet.query
    return { url with
      query := query.map (percentEncode querySet)
      fragment := fragment.map (percentEncode EscapeSet.fragment) }

def pathText : UrlPath → List Char
  | .segments segments => segments.flatMap ('/' :: ·)
  | .opaquePath text => text

def text (url : Url) : String :=
  let server :=
    match url.host with
    | some host =>
      ['/', '/'] ++ url.userInfo ++ host ++ ((url.port.map fun n => s!":{n}").getD "").toList
    | none => []
  let path := pathText url.path
  let path :=
    if url.host.isNone && path.take 2 = ['/', '/'] then ['/', '.'] ++ path else path
  let query := (url.query.map ('?' :: ·)).getD []
  let fragment := (url.fragment.map ('#' :: ·)).getD []
  url.scheme ++ ":" ++ String.ofList (server ++ path ++ query ++ fragment)

/-- Adds fields behind those that the query has. -/
def withFields (url : Url) (fields : List (String × String)) : Url :=
  if fields.isEmpty then url
  else
    let added := (formQuery fields).toList
    match url.query with
    | none | some [] => { url with query := some added }
    | some query => { url with query := some (query ++ '&' :: added) }

end Url

end Batchwork.Http
