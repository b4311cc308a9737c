/-!
# Percent encoding

Writing the bytes of a text with `%` escapes, except for those that may stand for themselves.
-/

namespace Batchwork.Http

/-- The ASCII characters that one part of an address has to escape. All others are escaped too. -/
abbrev EscapeSet : Type := UInt8 → Bool

namespace EscapeSet

def control : EscapeSet := fun b => b < 32 || b ≥ 127

def adding (set : EscapeSet) (marks : String) : EscapeSet := fun b =>
  set b || marks.toUTF8.toList.contains b

def fragment : EscapeSet := control.adding " \"<>\x60"

def path : EscapeSet := fragment.adding "#?\x7b\x7d"

def userInfo : EscapeSet := path.adding "/:;=@[\\]^|"

def query : EscapeSet := control.adding " \"#<>"

/-- A query of a scheme of the web. -/
def specialQuery : EscapeSet := query.adding "'"

end EscapeSet

def hexDigit (n : Nat) : Char := (Nat.toDigits 16 n).headD '0' |>.toUpper

def escapeByte (b : UInt8) : List Char := ['%', hexDigit (b.toNat / 16), hexDigit (b.toNat % 16)]

def percentEncode (set : EscapeSet) (text : List Char) : List Char :=
  (String.ofList text).toUTF8.toList.flatMap fun b =>
    if set b then escapeByte b else [Char.ofNat b.toNat]

/-- Whether a form writes a byte as it is. -/
def isFormSafe (b : UInt8) : Bool :=
  let c := Char.ofNat b.toNat
  b < 128 && (c.isAlphanum || c = '*' || c = '-' || c = '.' || c = '_')

/-- A text as the fields of a form are written: a space becomes a plus. -/
def formEncode (text : String) : List Char :=
  text.toUTF8.toList.flatMap fun b =>
    if b = 32 then ['+'] else if isFormSafe b then [Char.ofNat b.toNat] else escapeByte b

/-- Fields of a form as a query. -/
def formQuery (fields : List (String × String)) : String :=
  "&".intercalate (fields.map fun (name, value) =>
    String.ofList (formEncode name ++ ['='] ++ formEncode value))

def hexValue? (b : UInt8) : Option UInt8 :=
  if 48 ≤ b && b ≤ 57 then some (b - 48)
  else if 97 ≤ b && b ≤ 102 then some (b - 87)
  else if 65 ≤ b && b ≤ 70 then some (b - 55)
  else none

/-- The bytes of a text whose escapes are resolved. A `%` that begins none stands for itself. -/
def percentDecode : List UInt8 → List UInt8
  | [] => []
  | [a] => [a]
  | [a, b] => [a, b]
  | a :: b :: c :: rest =>
    if a = 37 then
      match hexValue? b, hexValue? c with
      | some high, some low => (high * 16 + low) :: percentDecode rest
      | _, _ => a :: percentDecode (b :: c :: rest)
    else a :: percentDecode (b :: c :: rest)

end Batchwork.Http
