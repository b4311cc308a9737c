/-!
# Cells

The values of a table and the affinities of its columns. A column of integers takes a text that
spells an integer as that integer, and a column of texts takes an integer as its digits.
-/

namespace Batchwork.Table

inductive Cell where
  | null
  | int (value : Int)
  | text (value : String)
  deriving Repr, DecidableEq, Hashable, Inhabited

inductive Affinity where
  | integer
  | text
  /-- Stores every value as it comes. -/
  | any
  deriving Repr, DecidableEq, Inhabited

def minInt : Int := -9223372036854775808

def maxInt : Int := 9223372036854775807

namespace Numeric

def isSpace (c : Char) : Bool := c = ' ' || ('\t' ≤ c && c ≤ '\r')

def value (digits : List Char) : Nat :=
  digits.foldl (fun total c => total * 10 + (c.toNat - '0'.toNat)) 0

def sign : List Char → Int × List Char
  | '-' :: rest => (-1, rest)
  | '+' :: rest => (1, rest)
  | rest => (1, rest)

def spanDigits (cs : List Char) : List Char × List Char :=
  (cs.takeWhile Char.isDigit, cs.dropWhile Char.isDigit)

/-- The exponent behind a mark, if anything stands there. -/
def exponent? : List Char → Option Int
  | [] => some 0
  | mark :: rest =>
    if mark = 'e' ∨ mark = 'E' then
      let (direction, rest) := sign rest
      let (digits, rest) := spanDigits rest
      if digits.isEmpty || !rest.isEmpty then none else some (direction * value digits)
    else none

/-- A power of ten beyond which no number but zero fits. -/
def largePower : Nat := 64

def scaled? (significand : Nat) (exponent : Int) : Option Nat :=
  if significand = 0 then some 0
  else
    match exponent with
    | .ofNat power => if power ≤ largePower then some (significand * Nat.pow 10 power) else none
    | .negSucc power =>
      let divisor := Nat.pow 10 (power + 1)
      if significand % divisor = 0 then some (significand / divisor) else none

/-- The integer that a text spells, be it with a fraction or an exponent. -/
def integer? (text : String) : Option Int :=
  let trimmed := (text.toList.dropWhile isSpace).reverse.dropWhile isSpace |>.reverse
  let (direction, body) := sign trimmed
  let (whole, rest) := spanDigits body
  let (fraction, rest) :=
    match rest with
    | '.' :: rest => spanDigits rest
    | rest => ([], rest)
  if whole.isEmpty && fraction.isEmpty then none
  else do
    let power ← exponent? rest
    let magnitude ← scaled? (value (whole ++ fraction)) (power - fraction.length)
    let result := direction * magnitude
    if minInt ≤ result ∧ result ≤ maxInt then some result else none

end Numeric

namespace Affinity

/-- The value that a column of the affinity stores. -/
def apply : Affinity → Cell → Cell
  | integer, .text value =>
    match Numeric.integer? value with
    | some n => .int n
    | none => .text value
  | text, .int value => .text (toString value)
  | _, cell => cell

end Affinity

end Batchwork.Table
