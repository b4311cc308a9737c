import Batchwork.Json.Shape

/-!
# Skipped values

Passing over the value of a member that nobody asked for. The value is checked to be well formed but
is not built, so it may be nested to any depth and its numbers may be of any size.
-/

namespace Batchwork.Json.Decoder

/-- An open bracket around the cursor. -/
inductive Frame where
  | list
  | object
  deriving Repr, DecidableEq

def skipDigits : Decoder Unit := do
  let _ ← digits

def skipExponent : Decoder Unit := do
  advance
  match ← peek? with
  | some 43 | some 45 => advance
  | _ => pure ()
  match ← next? with
  | some byte => if isDigit byte then skipDigits else fail .invalidNumber
  | none => fail .invalidNumber

def skipFraction : Decoder Unit := do
  advance
  let run ← digits
  if run.isEmpty then failPeek .invalidNumber
  else
    match ← peek? with
    | some 101 | some 69 => skipExponent
    | _ => pure ()

/-- Passes over a number whose sign has been passed. -/
def skipNumber : Decoder Unit := do
  match ← next? with
  | some 48 => if (← peek?).any isDigit then failPeek .invalidNumber
  | some byte => if isDigit byte then skipDigits else fail .invalidNumber
  | none => fail .invalidNumber
  match ← peek? with
  | some 46 => skipFraction
  | some 101 | some 69 => skipExponent
  | _ => pure ()

/-- Passes over a value that is no container, or over the bracket that opens one. -/
def skipStart : Decoder (Option Frame) := do
  match ← peekToken? with
  | none => failPeek .eofInValue
  | some 110 => advance; word [117, 108, 108]; return none
  | some 116 => advance; word [114, 117, 101]; return none
  | some 102 => advance; word [97, 108, 115, 101]; return none
  | some 45 => advance; skipNumber; return none
  | some 34 => advance; skipCharacters ((← get).size + 1); return none
  | some 91 => advance; return some .list
  | some 123 => advance; return some .object
  | some byte =>
    if isDigit byte then
      skipNumber
      return none
    else failPeek .expectedValue

/-- Passes over the brackets that close here: the frames that stay open. `mayContinue` says that a
value stands before the cursor, so that a comma may follow. -/
def skipEnds : (mayContinue : Bool) → List Frame → Decoder (List Frame)
  | _, [] => return []
  | mayContinue, frame :: outer => do
    match ← peekToken?, frame with
    | some 93, .list | some 125, .object =>
      advance
      skipEnds true outer
    | some 44, _ =>
      if mayContinue then advance
      return frame :: outer
    | some _, .list =>
      if mayContinue then failPeek .expectedListCommaOrEnd else return frame :: outer
    | some _, .object =>
      if mayContinue then failPeek .expectedObjectCommaOrEnd else return frame :: outer
    | none, .list => failPeek .eofInList
    | none, .object => failPeek .eofInObject

/-- Passes over the name of a member and its colon. -/
def skipName : Decoder Unit := do
  match ← peekToken? with
  | some 34 => advance
  | some _ => failPeek .keyNotString
  | none => failPeek .eofInObject
  skipCharacters ((← get).size + 1)
  colon

/-- Passes over a value inside the given frames, and over all that follows until they are closed. -/
def skipWithin : (fuel : Nat) → List Frame → Decoder Unit
  | 0, _ => fail .eofInValue
  | fuel + 1, frames => do
    let opened ← skipStart
    match ← skipEnds opened.isNone (opened.toList ++ frames) with
    | [] => return ()
    | frame :: outer =>
      if frame = .object then skipName
      skipWithin fuel (frame :: outer)

/-- Passes over one value. -/
def skipValue : Decoder Unit := do skipWithin ((← get).size + 1) []

end Batchwork.Json.Decoder
