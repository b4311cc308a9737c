import Batchwork.Json.Cursor

/-!
# Numerals

Decoding of JSON numbers. The digits are gathered into a significand of sixty-four bits and a
decimal exponent; an integer that fits stays an integer, everything else becomes a floating point
number. A digit that the significand has no room for only counts for the exponent.
-/

namespace Batchwork.Json

/-- A decimal number as it is read: `significand * 10 ^ exponent`. -/
structure Numeral where
  significand : Nat
  exponent : Int
  deriving Repr, DecidableEq, Inhabited

def maxSignificand : Nat := Nat.pow 2 64 - 1

def digitValue (byte : UInt8) : Nat := byte.toNat - 48

/-- Appends digits as long as the significand stays within `bound`: the significand reached and the
number of digits that were left over. -/
def gather (bound : Nat) : (significand : Nat) → List UInt8 → Nat × Nat
  | significand, [] => (significand, 0)
  | significand, digit :: rest =>
    let next := significand * 10 + digitValue digit
    if next ≤ bound then gather bound next rest else (significand, rest.length + 1)

namespace Numeral

/-- The powers of ten that a floating point number can hold run up to this one. -/
def maxPower : Nat := 308

def power (exponent : Nat) : Float := Float.ofScientific 1 false exponent

/-- Scales down by the largest power while the exponent is below all powers. -/
def scaleDown : (fuel : Nat) → Float → (below : Nat) → Float
  | 0, value, _ => value
  | fuel + 1, value, below =>
    if below ≤ maxPower then value / power below
    else if value == 0 then value
    else scaleDown fuel (value / power maxPower) (below - maxPower)

/-- The number as a floating point number, by one multiplication or by divisions. Nothing if it is
too large. -/
def magnitude? (numeral : Numeral) : Option Float :=
  let value := numeral.significand.toUInt64.toFloat
  match numeral.exponent with
  | .ofNat exponent =>
    if exponent ≤ maxPower then
      let scaled := value * power exponent
      if scaled.isInf then none else some scaled
    else if value == 0 then some value
    else none
  | .negSucc below => some (scaleDown 4 value (below + 1))

end Numeral

namespace Decoder

def signed (positive : Bool) (value : Float) : Number :=
  .float (FloatBits.ofFloat (if positive then value else -value))

def floating (positive : Bool) (numeral : Numeral) : Decoder Number := do
  match numeral.magnitude? with
  | some value => return signed positive value
  | none => fail .numberOutOfRange

/-- An integer without fraction and exponent. Negative zero and numbers below sixty-four bits are
floating point numbers. -/
def integral (positive : Bool) (significand : Nat) : Number :=
  if positive then .int significand
  else if 0 < significand ∧ significand ≤ Nat.pow 2 63 then .int (-significand)
  else signed false significand.toUInt64.toFloat

/-- Takes all digits at the cursor. -/
def digits : Decoder (List UInt8) := do
  let run := (← get).rest.takeWhile isDigit
  modify (Cursor.advanceBy run.length)
  return run

/-- The largest exponent that is still counted. -/
def maxExponent : Nat := 2147483647

def minExponent : Int := -2147483648

/-- Reads an exponent, from its mark on. An exponent beyond all bounds makes the number zero or too
large. -/
def exponent (positive : Bool) (numeral : Numeral) : Decoder Number := do
  advance
  let upward ← do
    match ← peek? with
    | some 43 => advance; pure true
    | some 45 => advance; pure false
    | _ => pure true
  match (← get).rest with
  | [] => fail .eofInValue
  | first :: _ =>
    if !isDigit first then
      advance
      fail .invalidNumber
    else
      let run := (← get).rest.takeWhile isDigit
      let (size, left) := gather maxExponent 0 run
      if left = 0 then
        modify (Cursor.advanceBy run.length)
        let total : Int :=
          if upward then min (numeral.exponent + size) maxExponent
          else max (numeral.exponent - size) minExponent
        floating positive ⟨numeral.significand, total⟩
      else if numeral.significand ≠ 0 ∧ upward then
        modify (Cursor.advanceBy (run.length - left + 1))
        fail .numberOutOfRange
      else
        modify (Cursor.advanceBy run.length)
        return signed positive 0

/-- Reads a fraction, from its point on. -/
def fraction (positive : Bool) (numeral : Numeral) : Decoder Number := do
  advance
  let run ← digits
  if run.isEmpty then
    match ← peek? with
    | some _ => failPeek .invalidNumber
    | none => fail .eofInValue
  else
    let (significand, left) := gather maxSignificand numeral.significand run
    let scaled : Numeral := ⟨significand, numeral.exponent - (run.length - left : Nat)⟩
    match ← peek? with
    | some 101 | some 69 => exponent positive scaled
    | _ => floating positive scaled

/-- Reads a number whose sign has been read. -/
def number (positive : Bool) : Decoder Number := do
  match ← peek? with
  | none => fail .eofInValue
  | some first =>
    if !isDigit first then
      advance
      fail .invalidNumber
    else
      let run ←
        if first = 48 then do
          advance
          pure [first]
        else digits
      if first = 48 ∧ ((← peek?).any isDigit) then failPeek .invalidNumber
      else
        let (significand, left) := gather maxSignificand 0 run
        match ← peek? with
        | some 46 => fraction positive ⟨significand, left⟩
        | some 101 | some 69 => exponent positive ⟨significand, left⟩
        | _ =>
          if left = 0 then return integral positive significand
          else floating positive ⟨significand, left⟩

end Decoder

end Batchwork.Json
