import Batchwork.Json.Skipped

/-!
# Records

Records with fixed fields. A record is written as an object of its fields in any order, or as a list
of them in the order in which they are declared.
-/

namespace Batchwork.Json

/-- A field of a record that is gathered as a `δ`. -/
structure Field (δ : Type) where
  name : String
  /-- Whether a draft has the field already. -/
  isSet : δ → Bool
  read : Shape (δ → δ)
  /-- Whether the field may be left out at the end of a list. -/
  optional : Bool := false

/-- How a record `ρ` is gathered field by field. -/
structure Record (δ ρ : Type) where
  name : String
  fields : List (Field δ)
  /-- The draft of a record none of whose fields has been read. -/
  blank : δ
  /-- The record of a draft, or the first field that it lacks. -/
  finish : δ → Except String ρ
  /-- Whether an object may have other members as well. -/
  lenient : Bool := true

namespace Record

open Decoder

variable {δ ρ : Type}

def expected (record : Record δ ρ) : String :=
  s!"struct {record.name} with {record.fields.length} elements"

def complete (record : Record δ ρ) (draft : δ) : Decoder ρ :=
  match record.finish draft with
  | .ok value => pure value
  | .error name => reject (.missingField name)

/-- Reads the fields from a list, in order. -/
def fromList (record : Record δ ρ) (depth : Nat) :
    (index : Nat) → List (Field δ) → δ → Decoder δ
  | _, [], draft => pure draft
  | index, field :: rest, draft => do
    match ← element? (index = 0) (field.read depth) with
    | some set => fromList record depth (index + 1) rest (set draft)
    | none =>
      if field.optional then fromList record depth (index + 1) rest draft
      else reject (.invalidLength index record.expected)

/-- Reads members of an object up to its end. -/
def fromMembers (record : Record δ ρ) (depth : Nat) :
    (fuel : Nat) → (first : Bool) → δ → Decoder δ
  | 0, _, _ => fail .eofInObject
  | fuel + 1, first, draft => do
    match ← memberName? first with
    | none => pure draft
    | some name =>
      match record.fields.find? (·.name == name) with
      | some field =>
        if field.isSet draft then reject (.duplicateField name)
        else
          colon
          let set ← field.read depth
          fromMembers record depth fuel false (set draft)
      | none =>
        if record.lenient then
          colon
          skipValue
          fromMembers record depth fuel false draft
        else reject (.unknownField name (record.fields.map (·.name)))

def shape (record : Record δ ρ) : Shape ρ := fun depth => do
  match ← valueStart with
  | 91 =>
    placed (enter depth fun inner =>
      closedBy (do
        record.complete (← record.fromList inner 0 record.fields record.blank)) endList)
  | 123 =>
    placed (enter depth fun inner =>
      closedBy (do
        record.complete (← record.fromMembers inner ((← get).size + 1) true record.blank))
        endObject)
  | _ => mismatch s!"struct {record.name}"

end Record

end Batchwork.Json
