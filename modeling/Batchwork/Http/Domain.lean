/-!
# Domain names

Domain names in ASCII. The labels of a name that has other letters are written in the digits of
Punycode, after capital letters have been made small.
-/

namespace Batchwork.Http

namespace Punycode

def base : Nat := 36

def smallest : Nat := 1

def largest : Nat := 26

def digit (d : Nat) : Char :=
  if d < 26 then Char.ofNat ('a'.toNat + d) else Char.ofNat ('0'.toNat + d - 26)

def threshold (k bias : Nat) : Nat := min largest (max smallest (k - bias))

def shrink : (fuel : Nat) → (delta k : Nat) → Nat
  | 0, _, k => k
  | fuel + 1, delta, k =>
    let span := base - smallest
    if delta > span * largest / 2 then shrink fuel (delta / span) (k + base)
    else k + (span + 1) * delta / (delta + 38)

def adapt (delta points : Nat) (first : Bool) : Nat :=
  let delta := if first then delta / 700 else delta / 2
  shrink delta (delta + delta / points) 0

/-- A difference in digits of mixed base. -/
def digits (bias : Nat) : (fuel : Nat) → (rest k : Nat) → List Char
  | 0, _, _ => []
  | fuel + 1, rest, k =>
    let t := threshold k bias
    if rest < t then [digit rest]
    else
      digit (t + (rest - t) % (base - t)) ::
        digits bias fuel ((rest - t) / (base - t)) (k + base)

structure State where
  delta : Nat
  bias : Nat
  handled : Nat
  output : List Char

/-- Writes the occurrences of the code point `n`, counting those that are smaller. -/
def encodePoint (basic n : Nat) (state : State) (c : Nat) : State :=
  if c < n then { state with delta := state.delta + 1 }
  else if c = n then
    { delta := 0
      bias := adapt state.delta (state.handled + 1) (state.handled = basic)
      handled := state.handled + 1
      output := state.output ++ digits state.bias (state.delta + 1) state.delta base }
  else state

/-- Writes the code points from the smallest that is at least `n` on. -/
def encodeFrom (input : List Nat) (basic : Nat) : (fuel : Nat) → (n : Nat) → State → List Char
  | 0, _, state => state.output
  | fuel + 1, n, state =>
    match (input.filter (n ≤ ·)).min? with
    | none => state.output
    | some next =>
      let widened := { state with delta := state.delta + (next - n) * (state.handled + 1) }
      let after := input.foldl (encodePoint basic next) widened
      encodeFrom input basic fuel (next + 1) { after with delta := after.delta + 1 }

def encode (label : List Char) : List Char :=
  let points := label.map Char.toNat
  let plain := label.filter (·.toNat < 128)
  let start := if plain.isEmpty then [] else plain ++ ['-']
  encodeFrom points plain.length (label.length + 1) 128 ⟨0, 72, plain.length, start⟩

end Punycode

namespace Domain

/-- The characters that a name takes for a dot. -/
def isDot (c : Char) : Bool := c = '.' || c = '。' || c = '．' || c = '｡'

/-- The characters that a name leaves out. -/
def isIgnored (c : Char) : Bool :=
  c.toNat = 0xAD || c.toNat = 0x200B || c.toNat = 0x2060 || c.toNat = 0xFEFF

/-- The small letter of a letter of the alphabets of Europe, and the ASCII form of a wide letter. -/
def fold (c : Char) : Char :=
  let n := c.toNat
  let shifted (k : Nat) : Char := Char.ofNat (n + k)
  if 0x41 ≤ n ∧ n ≤ 0x5A then shifted 32
  else if 0xC0 ≤ n ∧ n ≤ 0xDE ∧ n ≠ 0xD7 then shifted 32
  else if 0x100 ≤ n ∧ n ≤ 0x137 ∧ n % 2 = 0 then shifted 1
  else if 0x139 ≤ n ∧ n ≤ 0x148 ∧ n % 2 = 1 then shifted 1
  else if 0x14A ≤ n ∧ n ≤ 0x177 ∧ n % 2 = 0 then shifted 1
  else if 0x391 ≤ n ∧ n ≤ 0x3A9 then shifted 32
  else if 0x410 ≤ n ∧ n ≤ 0x42F then shifted 32
  else if 0x400 ≤ n ∧ n ≤ 0x40F then shifted 80
  else if 0xFF21 ≤ n ∧ n ≤ 0xFF3A then Char.ofNat (n - 0xFF21 + 0x61)
  else if 0xFF01 ≤ n ∧ n ≤ 0xFF5E then Char.ofNat (n - 0xFEE0)
  else c

/-- ASCII characters that no domain has. -/
def isForbidden (c : Char) : Bool :=
  c ≤ ' ' || c.toNat = 127 || "#/:<>?@[\\]^|%".toList.contains c

def splitLabels (cs : List Char) : List (List Char) :=
  cs.foldr (fun c labels =>
    match labels with
    | [] => if isDot c then [[], []] else [[c]]
    | label :: rest => if isDot c then [] :: label :: rest else (c :: label) :: rest) [[]]

def labelText (label : List Char) : List Char :=
  if label.all (·.toNat < 128) then label else "xn--".toList ++ Punycode.encode label

/-- The name in ASCII, or nothing if it is no name. -/
def toAscii? (name : List Char) : Option (List Char) :=
  let labels := (splitLabels (name.filter (!isIgnored ·))).map fun label => label.map fold
  let text := (labels.map labelText).intersperse ['.'] |>.flatten
  if text.any isForbidden then none else some text

end Domain

end Batchwork.Http
