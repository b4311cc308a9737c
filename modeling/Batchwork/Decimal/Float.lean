import Batchwork.Decimal.Shortest

/-!
# Binary floating point numbers as text

A number of sixty-four bits is written with the fewest digits that read back as it: positionally
while its leading digit stands between the fifth place behind the point and the sixteenth before it,
and with an exponent elsewhere.
-/

namespace Batchwork

/-- The bits of a floating point number of sixty-four bits. -/
structure FloatBits where
  bits : UInt64
  deriving Repr, DecidableEq, Inhabited

namespace FloatBits

def ofFloat (x : Float) : FloatBits := ⟨x.toBits⟩

def toFloat (x : FloatBits) : Float := Float.ofBits x.bits

def negative (x : FloatBits) : Bool := x.bits >>> 63 = 1

def biasedExponent (x : FloatBits) : Nat := (x.bits >>> 52 &&& 0x7FF).toNat

def fraction (x : FloatBits) : Nat := (x.bits &&& 0xFFFFFFFFFFFFF).toNat

/-- The magnitude of a finite number other than zero. -/
def magnitude (x : FloatBits) : Binary :=
  if x.biasedExponent = 0 then ⟨x.fraction, -1074, false⟩
  else
    let narrow := x.fraction = 0 && x.biasedExponent ≠ 1
    ⟨0x10000000000000 + x.fraction, x.biasedExponent - 1075, narrow⟩

end FloatBits

/-- How a decimal number is spelled. -/
structure DecimalFormat where
  /-- The exponents of leading digits that are written positionally. -/
  positionalFrom : Int
  positionalBelow : Int
  /-- What stands behind the digits of a number without a fraction. -/
  wholeMark : String
  exponentMark : String
  exponentPlus : String

/-- From `0.00001` to `1000000000000000.0` positionally, else as in `1.5e+16`. -/
def FloatBits.format : DecimalFormat where
  positionalFrom := -5
  positionalBelow := 16
  wholeMark := ".0"
  exponentMark := "e"
  exponentPlus := "+"

namespace DecimalFormat

def zeros (n : Nat) : String := String.ofList (List.replicate n '0')

/-- Puts a point behind the first `n` digits. -/
def pointed (digits : List Char) (n : Nat) : String :=
  String.ofList (digits.take n) ++ "." ++ String.ofList (digits.drop n)

def text (format : DecimalFormat) (decimal : Decimal) : String :=
  let digits := Nat.toDigits 10 decimal.digits
  let leading : Int := decimal.exponent + digits.length - 1
  if format.positionalFrom ≤ leading ∧ leading < format.positionalBelow then
    if decimal.exponent ≥ 0 then
      String.ofList digits ++ zeros decimal.exponent.toNat ++ format.wholeMark
    else if leading ≥ 0 then pointed digits (leading.toNat + 1)
    else "0." ++ zeros (-leading - 1).toNat ++ String.ofList digits
  else
    let mantissa := if digits.length = 1 then String.ofList digits else pointed digits 1
    let sign := if leading < 0 then "-" else format.exponentPlus
    mantissa ++ format.exponentMark ++ sign ++ toString leading.natAbs

end DecimalFormat

def FloatBits.text (x : FloatBits) : String :=
  let sign := if x.negative then "-" else ""
  if x.biasedExponent = 0 ∧ x.fraction = 0 then sign ++ "0.0"
  else sign ++ FloatBits.format.text (Decimal.shortest x.magnitude)

end Batchwork
