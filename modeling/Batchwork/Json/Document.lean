import Batchwork.Json.Shape

/-!
# Documents

Decoding a JSON text of any shape into a `Value`.
-/

namespace Batchwork.Json

open Decoder

/-- The members of an object up to its end. -/
def members (shape : Decoder Value) :
    (fuel : Nat) → (first : Bool) → Decoder (List (String × Value))
  | 0, _ => fail .eofInObject
  | fuel + 1, first => do
    match ← memberName? first with
    | none => return []
    | some name =>
      colon
      let value ← shape
      return (name, value) :: (← members shape fuel false)

/-- Any value, given how the values inside a container are read, or nothing if there may be no more
containers. -/
def valueOver (inner? : Option (Decoder Value)) : Decoder Value := do
  match ← valueStart with
  | 110 =>
    advance
    word [117, 108, 108]
    return .null
  | 116 =>
    advance
    word [114, 117, 101]
    return .bool true
  | 102 =>
    advance
    word [97, 108, 115, 101]
    return .bool false
  | 45 =>
    advance
    return .number (← number false)
  | 34 =>
    advance
    return .string (← stringBody)
  | 91 =>
    match inner? with
    | none => failPeek .nestedTooDeep
    | some inner =>
      advance
      closedBy (do return .array (← Shape.elements inner ((← get).size + 1) true)) endList
  | 123 =>
    match inner? with
    | none => failPeek .nestedTooDeep
    | some inner =>
      advance
      closedBy (do return .ofMembers (← members inner ((← get).size + 1) true)) endObject
  | byte => if isDigit byte then return .number (← number true) else failPeek .expectedValue

/-- Any value, nested in `depth` containers at most. -/
def document : Shape Value
  | 0 => valueOver none
  | depth + 1 => valueOver (some (document depth))

/-- The number of containers that a decoded text may nest. -/
def maxDepth : Nat := 127

/-- Decodes a text in the given shape. -/
def decode {α : Type} (shape : Shape α) (bytes : List UInt8) : Except Fault α :=
  Decoder.decode (shape maxDepth) bytes

def decodeText {α : Type} (shape : Shape α) (text : String) : Except Fault α :=
  decode shape text.toUTF8.toList

end Batchwork.Json
