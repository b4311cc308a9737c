import Batchwork.Http.Domain
import Batchwork.Http.Percent

/-!
# Hosts

The host of an address: a domain name, or an address of four or of sixteen bytes.
-/

namespace Batchwork.Http

inductive UrlFault where
  | emptyHost
  | invalidDomain
  | invalidPort
  | invalidIpv4
  | invalidIpv6
  | invalidHostCharacter
  | relative
  deriving Repr, DecidableEq, Inhabited

def UrlFault.message : UrlFault → String
  | emptyHost => "empty host"
  | invalidDomain => "invalid international domain name"
  | invalidPort => "invalid port number"
  | invalidIpv4 => "invalid IPv4 address"
  | invalidIpv6 => "invalid IPv6 address"
  | invalidHostCharacter => "invalid domain character"
  | relative => "relative URL without a base"

namespace Host

def splitOn (mark : Char) (cs : List Char) : List (List Char) :=
  cs.foldr (fun c parts =>
    match parts with
    | [] => [[c]]
    | part :: rest => if c = mark then [] :: part :: rest else (c :: part) :: rest) [[]]

def digitValue? (radix : Nat) (c : Char) : Option Nat := do
  let value ← (hexValue? (UInt8.ofNat c.toNat)).map (·.toNat)
  if c.toNat < 128 ∧ value < radix then some value else none

def natural? (radix : Nat) (digits : List Char) : Option Nat :=
  digits.foldlM (fun total c => (digitValue? radix c).map (total * radix + ·)) 0

/-- A number in a spelling of C: hexadecimal, octal or decimal. -/
def ipv4Number? : List Char → Option Nat
  | [] => none
  | '0' :: 'x' :: digits | '0' :: 'X' :: digits => natural? 16 digits
  | '0' :: digit :: digits => natural? 8 (digit :: digits)
  | digits => natural? 10 digits

/-- The parts of a name without the empty one behind a final dot. -/
def ipv4Parts (name : List Char) : List (List Char) :=
  let parts := splitOn '.' name
  if parts.length > 1 ∧ parts.getLast? = some [] then parts.dropLast else parts

/-- Whether a name is to be read as an address of four bytes. -/
def endsInNumber (name : List Char) : Bool :=
  match (ipv4Parts name).getLast? with
  | none | some [] => false
  | some part => part.all Char.isDigit || (ipv4Number? part).isSome

def ipv4 (name : List Char) : Except UrlFault (List Char) :=
  let parts := ipv4Parts name
  match parts.mapM ipv4Number? with
  | none => .error .invalidIpv4
  | some numbers =>
    let leading := numbers.dropLast
    let last := numbers.getLastD 0
    let limit := Nat.pow 256 (5 - parts.length)
    if parts.length > 4 || leading.any (· > 255) || last ≥ limit then .error .invalidIpv4
    else
      let address := leading.zipIdx.foldl (fun sum (n, i) => sum + n * Nat.pow 256 (3 - i)) last
      let bytes := [3, 2, 1, 0].map fun k => toString (address / Nat.pow 256 k % 256)
      .ok (".".intercalate bytes).toList

/-- Sixteen bits in hexadecimal, one to four digits. -/
def piece? (digits : List Char) : Option Nat :=
  if digits.isEmpty || digits.length > 4 then none else natural? 16 digits

/-- The two pieces of a trailing address of four bytes. -/
def dottedPieces? (part : List Char) : Option (List Nat) := do
  let parts := splitOn '.' part
  let bytes ← parts.mapM fun digits =>
    if digits.isEmpty || digits.length > 3 || (digits.length > 1 && digits.head? = some '0') then
      none
    else natural? 10 digits
  match bytes with
  | [a, b, c, d] => if bytes.all (· ≤ 255) then some [a * 256 + b, c * 256 + d] else none
  | _ => none

/-- The pieces between colons. Only the last may be an address of four bytes. -/
def pieces? : List (List Char) → Option (List Nat)
  | [] => some []
  | [part] => if part.contains '.' then dottedPieces? part else (piece? part).map ([·])
  | part :: rest => do return (← piece? part) :: (← pieces? rest)

def groups? (cs : List Char) : Option (List Nat) :=
  if cs.isEmpty then some [] else pieces? (splitOn ':' cs)

/-- Splits at the first pair of colons. -/
def splitGap : List Char → Option (List Char × List Char)
  | ':' :: ':' :: rest => some ([], rest)
  | c :: rest => (splitGap rest).map fun (before, after) => (c :: before, after)
  | [] => none

def ipv6Pieces? (cs : List Char) : Option (List Nat) :=
  match splitGap cs with
  | none => (groups? cs).filter (·.length = 8)
  | some (before, after) => do
    let left ← if before.contains '.' then none else groups? before
    let right ← groups? after
    let known := left.length + right.length
    if known < 8 then some (left ++ List.replicate (8 - known) 0 ++ right) else none

/-- The number of zero pieces at the head. -/
def zerosAt (pieces : List Nat) : Nat := (pieces.takeWhile (· = 0)).length

/-- The first of the longest runs of zero pieces, if it has two pieces at least. -/
def gap? (pieces : List Nat) : Option (Nat × Nat) :=
  let runs := (List.range 8).map fun start => (start, zerosAt (pieces.drop start))
  let best := runs.foldl (fun best run => if run.2 > best.2 then run else best) (0, 0)
  if best.2 ≥ 2 then some best else none

def joinPieces (pieces : List Nat) : List Char :=
  (pieces.map fun n => Nat.toDigits 16 n).intersperse [':'] |>.flatten

def ipv6 (cs : List Char) : Except UrlFault (List Char) :=
  match ipv6Pieces? cs with
  | none => .error .invalidIpv6
  | some pieces =>
    let text :=
      match gap? pieces with
      | none => joinPieces pieces
      | some (start, count) =>
        joinPieces (pieces.take start) ++ [':', ':'] ++ joinPieces (pieces.drop (start + count))
    .ok ('[' :: text ++ [']'])

/-- The host of an address of the web. -/
def special (cs : List Char) : Except UrlFault (List Char) :=
  if cs.head? = some '[' then
    if cs.getLast? = some ']' ∧ cs.length > 1 then ipv6 (cs.drop 1).dropLast
    else .error .invalidIpv6
  else
    let bytes := percentDecode (String.ofList cs).toUTF8.toList
    match (String.fromUTF8? ⟨bytes.toArray⟩).bind fun text => Domain.toAscii? text.toList with
    | none => .error .invalidDomain
    | some [] => .error .emptyHost
    | some domain => if endsInNumber domain then ipv4 domain else .ok domain

def isForbiddenOpaque (c : Char) : Bool :=
  c.toNat = 0 || c = '\t' || c = '\n' || c = '\r' || " #/:<>?@[\\]^|".toList.contains c

/-- The host of an address of any other scheme. -/
def plain (cs : List Char) : Except UrlFault (List Char) :=
  if cs.head? = some '[' then
    if cs.getLast? = some ']' ∧ cs.length > 1 then ipv6 (cs.drop 1).dropLast
    else .error .invalidIpv6
  else if cs.any isForbiddenOpaque then .error .invalidHostCharacter
  else .ok (percentEncode EscapeSet.control cs)

end Host

end Batchwork.Http
