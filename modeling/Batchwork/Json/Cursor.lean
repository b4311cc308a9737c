import Batchwork.Json.Fault

/-!
# Cursors

The place up to which a text has been decoded, and the decoders that move it. A decoder that fails
leaves the cursor where it stopped.
-/

namespace Batchwork.Json

structure Cursor where
  rest : List UInt8
  position : Position := ⟨1, 0⟩
  /-- The length of the whole text, a bound on the parts that a list or an object of it can have. -/
  size : Nat
  deriving Repr, DecidableEq, Inhabited

namespace Cursor

def ofBytes (bytes : List UInt8) : Cursor := { rest := bytes, size := bytes.length }

end Cursor

namespace Position

/-- The place behind one more byte. -/
def after (place : Position) (byte : UInt8) : Position :=
  if byte = 10 then ⟨place.line + 1, 0⟩ else ⟨place.line, place.column + 1⟩

end Position

namespace Cursor

def advance (cursor : Cursor) : Cursor :=
  match cursor.rest with
  | [] => cursor
  | byte :: rest => { cursor with rest, position := cursor.position.after byte }

/-- Moves over the first `n` bytes. -/
def advanceBy : (n : Nat) → Cursor → Cursor
  | 0, cursor => cursor
  | n + 1, cursor => advanceBy n cursor.advance

end Cursor

abbrev Decoder (α : Type) : Type := EStateM Fault Cursor α

def isBlank (byte : UInt8) : Bool := byte = 32 || byte = 10 || byte = 9 || byte = 13

def isDigit (byte : UInt8) : Bool := 48 ≤ byte && byte ≤ 57

namespace Decoder

variable {α β : Type}

def peek? : Decoder (Option UInt8) := do return (← get).rest.head?

def advance : Decoder Unit := modify Cursor.advance

def next? : Decoder (Option UInt8) := do
  let byte ← peek?
  advance
  return byte

/-- A fault found at the cursor. -/
def fail (cause : Cause) : Decoder α := do throw ⟨cause, some (← get).position⟩

/-- A fault in the byte at the cursor: its place is behind that byte. -/
def failPeek (cause : Cause) : Decoder α := do throw ⟨cause, some (← get).advance.position⟩

/-- A fault of a value that has been read. -/
def reject (cause : Cause) : Decoder α := throw ⟨cause, none⟩

/-- Places a fault of a value where the cursor has come to. -/
def placed (decoder : Decoder α) : Decoder α := fun cursor =>
  match decoder cursor with
  | .ok value after => .ok value after
  | .error fault after => .error (fault.placedAt after.position) after

/-- Skips blanks from a text. -/
def skipBlanksFrom : List UInt8 → Position → List UInt8 × Position
  | [], place => ([], place)
  | byte :: rest, place =>
    if isBlank byte then skipBlanksFrom rest (place.after byte) else (byte :: rest, place)

def skipBlanks : Decoder Unit := modify fun cursor =>
  let (rest, position) := skipBlanksFrom cursor.rest cursor.position
  { cursor with rest, position }

/-- The next byte that is not blank. -/
def peekToken? : Decoder (Option UInt8) := do
  skipBlanks
  peek?

/-- Reads the rest of a word whose first letter has been read. -/
def word : List UInt8 → Decoder Unit
  | [] => pure ()
  | expected :: rest => do
    match ← next? with
    | none => fail .eofInValue
    | some byte => if byte = expected then word rest else fail .expectedWord

/-- Reads a bracketed body and what closes it. The closing is tried even if the body failed, and
moves the cursor on; the fault of the body counts first. -/
def closedBy (body : Decoder α) (close : Decoder Unit) : Decoder α := fun cursor =>
  match body cursor with
  | .ok value after =>
    match close after with
    | .ok () final => .ok value final
    | .error fault final => .error fault final
  | .error fault after =>
    match close after with
    | .ok () final => .error fault final
    | .error _ final => .error fault final

/-- Runs a decoder on a whole text, which may have blanks behind its value. -/
def decode (decoder : Decoder α) (bytes : List UInt8) : Except Fault α :=
  let whole : Decoder α := do
    let value ← decoder
    match ← peekToken? with
    | none => return value
    | some _ => failPeek .trailingCharacters
  match whole (Cursor.ofBytes bytes) with
  | .ok value _ => .ok value
  | .error fault _ => .error fault

end Decoder

end Batchwork.Json
