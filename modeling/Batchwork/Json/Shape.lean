import Batchwork.Json.Characters
import Batchwork.Json.Numeral
import Batchwork.Error

/-!
# Shapes

A shape says how values of a type are written in JSON: it is a decoder for a text that may nest
containers to a given depth. A shape reads just the text of its value and reports what it found if
that is of another kind.
-/

namespace Batchwork.Json

abbrev Shape (α : Type) : Type := (depth : Nat) → Decoder α

namespace Decoder

variable {α β : Type}

/-- Enters a container, one level deeper. -/
def enter (depth : Nat) (body : Nat → Decoder α) : Decoder α :=
  match depth with
  | 0 => failPeek .nestedTooDeep
  | depth + 1 => do
    advance
    body depth

/-- Whether a list has another element: the first one, or one behind a comma. -/
def hasElement (first : Bool) : Decoder Bool := do
  match ← peekToken? with
  | none => failPeek .eofInList
  | some 93 => return false
  | some 44 =>
    if first then return true
    else
      advance
      match ← peekToken? with
      | some 93 => failPeek .trailingComma
      | some _ => return true
      | none => failPeek .eofInValue
  | some _ => if first then return true else failPeek .expectedListCommaOrEnd

/-- The next element of a list, if there is one. -/
def element? (first : Bool) (shape : Decoder α) : Decoder (Option α) := do
  if ← hasElement first then return some (← shape) else return none

/-- Whether an object has another member. The cursor is then at the quote of its name. -/
def hasMember (first : Bool) : Decoder Bool := do
  match ← peekToken? with
  | none => failPeek .eofInObject
  | some 125 => return false
  | some 34 => if first then return true else failPeek .expectedObjectCommaOrEnd
  | some 44 =>
    if first then failPeek .keyNotString
    else
      advance
      match ← peekToken? with
      | some 34 => return true
      | some 125 => failPeek .trailingComma
      | some _ => failPeek .keyNotString
      | none => failPeek .eofInValue
  | some _ => failPeek (if first then .keyNotString else .expectedObjectCommaOrEnd)

/-- The name of the next member of an object, if there is one. -/
def memberName? (first : Bool) : Decoder (Option String) := do
  if ← hasMember first then
    advance
    return some (← stringBody)
  else return none

def colon : Decoder Unit := do
  match ← peekToken? with
  | some 58 => advance
  | some _ => failPeek .expectedColon
  | none => failPeek .eofInObject

/-- Closes a list whose shape wants no more elements. -/
def endList : Decoder Unit := do
  match ← peekToken? with
  | some 93 => advance
  | some 44 =>
    advance
    match ← peekToken? with
    | some 93 => failPeek .trailingComma
    | _ => failPeek .trailingCharacters
  | some _ => failPeek .trailingCharacters
  | none => failPeek .eofInList

def endObject : Decoder Unit := do
  match ← peekToken? with
  | some 125 => advance
  | some 44 => failPeek .trailingComma
  | some _ => failPeek .trailingCharacters
  | none => failPeek .eofInObject

/-- Reads what stands at the cursor just far enough to say what it is. -/
def found : Decoder Found := do
  match ← peek? with
  | some 110 =>
    advance
    word [117, 108, 108]
    return .null
  | some 116 =>
    advance
    word [114, 117, 101]
    return .bool true
  | some 102 =>
    advance
    word [97, 108, 115, 101]
    return .bool false
  | some 45 =>
    advance
    return .number (← number false)
  | some 34 =>
    advance
    return .string (← stringBody)
  | some 91 => return .sequence
  | some 123 => return .map
  | some byte => if isDigit byte then return .number (← number true) else failPeek .expectedValue
  | none => failPeek .expectedValue

/-- Rejects what stands at the cursor as a value of another type. -/
def mismatch (expected : String) : Decoder α := placed do
  reject (.invalidType (← found) expected)

/-- The first byte of a value. -/
def valueStart : Decoder UInt8 := do
  match ← peekToken? with
  | some byte => return byte
  | none => failPeek .eofInValue

end Decoder

namespace Shape

open Decoder

variable {α β : Type}

def map (f : α → β) (shape : Shape α) : Shape β := fun depth => f <$> shape depth

/-- A number that `accept` takes, or says why not. -/
def numeric (expected : String) (accept : Number → Except Cause α) : Shape α := fun _ => do
  let start ← valueStart
  if start = 45 ∨ isDigit start then
    placed do
      let value ←
        if start = 45 then do
          advance
          number false
        else number true
      match accept value with
      | .ok result => return result
      | .error cause => reject cause
  else mismatch expected

/-- An integer between two bounds, under the name of its type. -/
def integer (name : String) (low high : Int) : Shape Int :=
  numeric name fun
    | .int value =>
      if low ≤ value ∧ value ≤ high then .ok value
      else .error (.invalidValue (.number (.int value)) name)
    | .float value => .error (.invalidType (.number (.float value)) name)

/-- A natural number of `bits` bits, under the name of its type. -/
def natural (name : String) (bits : Nat) : Shape Nat :=
  Shape.map Int.toNat (integer name 0 (Nat.pow 2 bits - 1 : Nat))

/-- Any number, as a floating point number. -/
def float (name : String) : Shape FloatBits :=
  numeric name fun
    | .int value => .ok (FloatBits.ofFloat (Float.ofInt value))
    | .float value => .ok value

def bool : Shape Bool := fun _ => do
  match ← valueStart with
  | 116 =>
    advance
    word [114, 117, 101]
    return true
  | 102 =>
    advance
    word [97, 108, 115, 101]
    return false
  | _ => mismatch "a boolean"

def text (expected : String := "a string") : Shape String := fun _ => do
  match ← valueStart with
  | 34 =>
    advance
    stringBody
  | _ => mismatch expected

def unit : Shape Unit := fun _ => do
  match ← valueStart with
  | 110 =>
    advance
    word [117, 108, 108]
  | _ => mismatch "unit"

/-- `null` or a value. -/
def option (shape : Shape α) : Shape (Option α) := fun depth => do
  match ← peekToken? with
  | some 110 =>
    advance
    word [117, 108, 108]
    return none
  | _ => return some (← shape depth)

/-- The elements of a list up to its end. -/
def elements (shape : Decoder α) : (fuel : Nat) → (first : Bool) → Decoder (List α)
  | 0, _ => fail .eofInList
  | fuel + 1, first => do
    match ← element? first shape with
    | none => return []
    | some value => return value :: (← elements shape fuel false)

def list (shape : Shape α) : Shape (List α) := fun depth => do
  match ← valueStart with
  | 91 =>
    placed (enter depth fun inner =>
      closedBy (do elements (shape inner) ((← get).size + 1) true) endList)
  | _ => mismatch "a sequence"

/-- The elements that a list of fixed length must have. -/
def required (expected : String) (index : Nat) (shape : Decoder α) : Decoder α := do
  match ← element? (index = 0) shape with
  | some value => return value
  | none => reject (.invalidLength index expected)

def pair (left : Shape α) (right : Shape β) : Shape (α × β) := fun depth => do
  let expected := "a tuple of size 2"
  match ← valueStart with
  | 91 =>
    placed (enter depth fun inner =>
      closedBy (do
        let first ← required expected 0 (left inner)
        let second ← required expected 1 (right inner)
        return (first, second)) endList)
  | _ => mismatch expected

/-- One of some names, as `read` knows them: a string, or an object whose only member has the name
and is `null`. -/
def name (known : List String) (read : String → Option α) : Shape α := fun depth => do
  let variant (depth : Nat) : Decoder α := placed do
    let given ← text "variant identifier" depth
    match read given with
    | some value => return value
    | none => reject (.unknownVariant given known)
  match ← peekToken? with
  | none => failPeek .eofInValue
  | some 34 => variant depth
  | some 123 =>
    enter depth fun inner => do
      match ← peekToken? with
      | none => failPeek .eofInValue
      | some 34 =>
        let value ← variant inner
        colon
        unit inner
        match ← peekToken? with
        | some 125 =>
          advance
          return value
        | some _ => fail .expectedValue
        | none => fail .eofInObject
      | some _ => failPeek .keyNotString
  | some _ => failPeek .expectedValue

/-- The kinds of errors by their names. -/
def errorKind : Shape ErrorKind := name (ErrorKind.all.map (·.name)) ErrorKind.ofName?

end Shape

end Batchwork.Json
