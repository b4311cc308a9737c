/-!
# Shortest decimals

The shortest decimal number that reads back as a given binary one. A binary number `m * 2 ^ q`
stands for an interval of reals, those that round to it; of the decimals in that interval the one
with the fewest digits is taken, and of several with as few digits the one nearest to the number.
-/

namespace Batchwork

/-- The number `digits * 10 ^ exponent`. -/
structure Decimal where
  digits : Nat
  exponent : Int
  deriving Repr, DecidableEq, Inhabited

/-- A positive number `mantissa * 2 ^ exponent` of limited precision. `narrowBelow` says that its
lower neighbour is only half as far away as its upper one. -/
structure Binary where
  mantissa : Nat
  exponent : Int
  narrowBelow : Bool
  deriving Repr, DecidableEq, Inhabited

namespace Decimal

/-- A grid of decimals, spaced `10 ^ exponent`, laid over the quarter steps of a binary number. Both
spacings are given in one common unit. -/
structure Grid where
  decimalStep : Nat
  quarterStep : Nat

def Grid.of (number : Binary) (exponent : Int) : Grid where
  decimalStep := Nat.pow 10 exponent.toNat * Nat.pow 2 (2 - number.exponent).toNat
  quarterStep := Nat.pow 2 (number.exponent - 2).toNat * Nat.pow 10 (-exponent).toNat

/-- Whether the point `k` of the grid rounds to the number. The ends of the interval do if the
mantissa is even. -/
def Grid.hits (grid : Grid) (number : Binary) (k : Nat) : Bool :=
  let low := (4 * number.mantissa - if number.narrowBelow then 1 else 2) * grid.quarterStep
  let high := (4 * number.mantissa + 2) * grid.quarterStep
  let point := k * grid.decimalStep
  if number.mantissa % 2 = 0 then low ≤ point && point ≤ high else low < point && point < high

def Grid.distance (grid : Grid) (number : Binary) (k : Nat) : Nat :=
  let centre := 4 * number.mantissa * grid.quarterStep
  let point := k * grid.decimalStep
  (point - centre) + (centre - point)

/-- The point of the grid that rounds to the number, the nearer of the two neighbours if both do.
A tie goes to the even one. -/
def Grid.nearest? (grid : Grid) (number : Binary) : Option Nat :=
  let below := 4 * number.mantissa * grid.quarterStep / grid.decimalStep
  let above := below + 1
  match grid.hits number below, grid.hits number above with
  | false, false => none
  | true, false => some below
  | false, true => some above
  | true, true =>
    let left := grid.distance number below
    let right := grid.distance number above
    if left < right then some below
    else if right < left then some above
    else some (if below % 2 = 0 then below else above)

/-- The exponent of the leading decimal digit. -/
def leadingExponent (number : Binary) : Int :=
  let guard : Nat := 400
  let scaled :=
    number.mantissa * Nat.pow 2 number.exponent.toNat * Nat.pow 10 guard /
      Nat.pow 2 (-number.exponent).toNat
  ((Nat.toDigits 10 scaled).length : Int) - 1 - guard

/-- Moves trailing zeros of the digits into the exponent. -/
def trim : (fuel : Nat) → Decimal → Decimal
  | 0, decimal => decimal
  | fuel + 1, decimal =>
    if decimal.digits ≠ 0 ∧ decimal.digits % 10 = 0 then
      trim fuel ⟨decimal.digits / 10, decimal.exponent + 1⟩
    else decimal

/-- Tries grids with one digit more each. -/
def search (number : Binary) (leading : Int) : (tries used : Nat) → Decimal
  | 0, used =>
    let exponent := leading - used + 1
    let grid := Grid.of number exponent
    ⟨4 * number.mantissa * grid.quarterStep / grid.decimalStep, exponent⟩
  | tries + 1, used =>
    let exponent := leading - used + 1
    match (Grid.of number exponent).nearest? number with
    | some digits => trim used ⟨digits, exponent⟩
    | none => search number leading tries (used + 1)

/-- The shortest decimal that rounds to the number. Seventeen digits are always enough for the
binary numbers of sixty-four bits. -/
def shortest (number : Binary) : Decimal := search number (leadingExponent number) 17 1

end Decimal

end Batchwork
