import Batchwork.Proofs.Json.Grammar
import Batchwork.Proofs.Json.Scans
import Batchwork.Proofs.Json.Utf8

/-!
# Where elements end

A scan that enters a JSON value leaves it in the state in which it entered, and finds no delimiter
within: brackets come in pairs, those inside of strings are not counted, and an escaped quote ends
no string. Main statement: `Derives.through`.
-/

namespace Batchwork.Json

namespace Scan

/-- The state behind bytes none of which is a delimiter where it stands. -/
def through? : Scan → List UInt8 → Option Scan
  | scan, [] => some scan
  | scan, byte :: bytes =>
    if scan.delimiter? byte = none then (scan.step byte).through? bytes else none

theorem through?_cons {scan : Scan} {byte : UInt8} (inside : scan.delimiter? byte = none)
    (bytes : List UInt8) : scan.through? (byte :: bytes) = (scan.step byte).through? bytes :=
  if_pos inside

theorem through?_append {scan middle : Scan} {first : List UInt8}
    (passes : scan.through? first = some middle) (second : List UInt8) :
    scan.through? (first ++ second) = middle.through? second := by
  induction first generalizing scan with
  | nil =>
    cases passes
    rfl
  | cons byte bytes ih =>
    by_cases inside : scan.delimiter? byte = none
    · rw [through?_cons inside] at passes
      rw [List.cons_append, through?_cons inside, ih passes]
    · simp [through?, inside] at passes

/-- Part of what a scan passes it passes too. -/
theorem exists_through?_of_prefix {scan after : Scan} {first whole : List UInt8}
    (cut : first <+: whole) (passes : scan.through? whole = some after) :
    ∃ middle, scan.through? first = some middle := by
  induction first generalizing scan whole with
  | nil => exact ⟨scan, rfl⟩
  | cons byte bytes ih =>
    obtain ⟨rest, rfl⟩ := cut
    by_cases inside : scan.delimiter? byte = none
    · rw [List.cons_append, through?_cons inside] at passes
      rw [through?_cons inside]
      exact ih (List.prefix_append bytes rest) passes
    · simp [through?, inside] at passes

end Scan

/-- What a scan passes is in front of all that it passes. -/
theorem Scans.through {scan middle : Scan} {bytes more : List UInt8} {rest last : Stream' Answer}
    {ending : ScanEnd} (passes : scan.through? bytes = some middle)
    (scans : Scans middle rest more ending last) :
    Scans scan (served bytes ++ₛ rest) (bytes ++ more) ending last := by
  induction bytes generalizing scan with
  | nil =>
    cases passes
    exact scans
  | cons byte bytes ih =>
    by_cases inside : scan.delimiter? byte = none
    · rw [Scan.through?_cons inside] at passes
      exact .passed rfl inside (ih passes)
    · simp [Scan.through?, inside] at passes

/-! ## Bytes outside of strings -/

theorem isGap_digit {byte : UInt8} (digit : isDigit byte = true) : isGap byte = false := by
  by_contra blank
  simp only [isGap, isBlank, Bool.not_eq_false, Bool.or_eq_true, decide_eq_true_eq] at blank
  rcases blank with (((rfl | rfl) | rfl) | rfl) | rfl <;> exact absurd digit (by decide)

namespace Scan

/-- Outside of strings, with this many brackets open. -/
abbrev outside (depth : Nat) : Scan := ⟨depth, false, false⟩

/-- Inside of a string. -/
abbrev inside (depth : Nat) : Scan := ⟨depth, true, false⟩

/-- Neither a quote nor a bracket nor a comma. -/
def isOrdinary (byte : UInt8) : Bool :=
  byte != 34 && byte != 44 && byte != 91 && byte != 93 && byte != 123 && byte != 125

theorem isOrdinary_of_isDigit {byte : UInt8} (digit : isDigit byte = true) :
    isOrdinary byte = true := by
  simp only [isDigit, Bool.and_eq_true, decide_eq_true_eq, UInt8.le_iff_toNat_le] at digit
  simp only [isOrdinary, bne_iff_ne, Bool.and_eq_true, ne_eq, ← UInt8.toNat_inj]
  have low : (48 : UInt8).toNat = 48 := rfl
  have high : (57 : UInt8).toNat = 57 := rfl
  refine ⟨⟨⟨⟨⟨?_, ?_⟩, ?_⟩, ?_⟩, ?_⟩, ?_⟩
  all_goals intro same; rw [same] at digit; revert digit; decide

theorem isOrdinary_of_isBlank {byte : UInt8} (blank : isBlank byte = true) :
    isOrdinary byte = true := by
  simp only [isBlank, Bool.or_eq_true, decide_eq_true_eq] at blank
  rcases blank with ((rfl | rfl) | rfl) | rfl <;> rfl

theorem through?_ordinary (depth : Nat) {bytes : List UInt8}
    (ordinary : ∀ byte ∈ bytes, isOrdinary byte = true) :
    (outside depth).through? bytes = some (outside depth) := by
  induction bytes with
  | nil => rfl
  | cons byte bytes ih =>
    have here := ordinary byte List.mem_cons_self
    simp only [isOrdinary, bne_iff_ne, Bool.and_eq_true, ne_eq] at here
    obtain ⟨⟨⟨⟨⟨quote, comma⟩, opening⟩, closing⟩, opening'⟩, closing'⟩ := here
    have within : (outside depth).delimiter? byte = none := by
      simp [delimiter?, comma, closing]
    have same : (outside depth).step byte = outside depth := by
      simp [step, quote, opening, opening', closing, closing']
    rw [through?_cons within, same]
    exact ih fun byte member => ordinary byte (List.mem_cons_of_mem _ member)

theorem through?_blank (depth : Nat) {bytes : List UInt8} (blank : Blank bytes) :
    (outside depth).through? bytes = some (outside depth) :=
  through?_ordinary depth fun byte member => isOrdinary_of_isBlank (blank byte member)

/-! ## Strings -/

/-- Bytes that are neither quote nor backslash are passed inside of a string. -/
theorem through?_plain (depth : Nat) {bytes : List UInt8}
    (plain : ∀ byte ∈ bytes, byte ≠ 34 ∧ byte ≠ 92) :
    (inside depth).through? bytes = some (inside depth) := by
  induction bytes with
  | nil => rfl
  | cons byte bytes ih =>
    obtain ⟨quote, backslash⟩ := plain byte List.mem_cons_self
    have same : (inside depth).step byte = inside depth := by simp [step, quote, backslash]
    rw [through?_cons rfl, same]
    exact ih fun byte member => plain byte (List.mem_cons_of_mem _ member)

theorem through?_escape (depth : Nat) (escaped : UInt8) :
    (inside depth).through? [92, escaped] = some (inside depth) := rfl

end Scan

theorem isHexDigit_plain {byte : UInt8} (hex : isHexDigit byte = true) :
    byte ≠ 34 ∧ byte ≠ 92 := by
  constructor
  · rintro rfl
    exact absurd hex (by decide)
  · rintro rfl
    exact absurd hex (by decide)

theorem CharacterText.through {text : List UInt8} (character : CharacterText text) (depth : Nat) :
    (Scan.inside depth).through? text = some (Scan.inside depth) := by
  cases character with
  | plain printable noQuote noBackslash =>
    exact Scan.through?_plain depth fun byte member => plain_of_mem noQuote noBackslash member
  | @escape letter known => exact Scan.through?_escape depth letter
  | @codePoint digits four hex =>
    have escape := Scan.through?_append (Scan.through?_escape depth 117) digits
    have behind := Scan.through?_plain depth fun digit member => isHexDigit_plain (hex digit member)
    exact escape.trans behind

theorem CharactersText.through {body : List UInt8} (characters : CharactersText body)
    (depth : Nat) : (Scan.inside depth).through? body = some (Scan.inside depth) := by
  induction characters with
  | nil => rfl
  | cons first later ih => rw [Scan.through?_append (first.through depth), ih]

theorem StringText.through {text : List UInt8} (string : StringText text) (depth : Nat) :
    (Scan.outside depth).through? text = some (Scan.outside depth) := by
  cases string with
  | @mk body characters =>
    have opened : (Scan.outside depth).through? (34 :: (body ++ [34])) =
        (Scan.inside depth).through? (body ++ [34]) :=
      Scan.through?_cons (by simp [Scan.delimiter?]) _
    rw [opened, Scan.through?_append (characters.through depth)]
    rfl

/-! ## Numbers -/

theorem Digits.ordinary {run : List UInt8} (digits : Digits run) :
    ∀ byte ∈ run, Scan.isOrdinary byte = true := fun byte member =>
  Scan.isOrdinary_of_isDigit (digits byte member)

theorem NumberText.ordinary {text : List UInt8} (number : NumberText text) :
    ∀ byte ∈ text, Scan.isOrdinary byte = true := by
  obtain @⟨sign, whole, fraction, exponent, signed, integer, fractional, scaled⟩ := number
  have inSign : ∀ byte ∈ sign, Scan.isOrdinary byte = true := by
    rcases signed with rfl | rfl <;> exact List.all_eq_true.mp rfl
  have inWhole : ∀ byte ∈ whole, Scan.isOrdinary byte = true := by
    cases integer with
    | zero => exact List.all_eq_true.mp rfl
    | positive digit nonzero digits =>
      exact List.forall_mem_cons.mpr ⟨Scan.isOrdinary_of_isDigit digit, digits.ordinary⟩
  have inFraction : ∀ byte ∈ fraction, Scan.isOrdinary byte = true := by
    cases fractional with
    | absent => nofun
    | present nonempty digits => exact List.forall_mem_cons.mpr ⟨rfl, digits.ordinary⟩
  have inExponent : ∀ byte ∈ exponent, Scan.isOrdinary byte = true := by
    cases scaled with
    | absent => nofun
    | present marked signed nonempty digits =>
      refine List.forall_mem_cons.mpr ⟨?_, List.forall_mem_append.mpr ⟨?_, digits.ordinary⟩⟩
      · rcases marked with rfl | rfl <;> rfl
      · rcases signed with rfl | rfl | rfl <;> exact List.all_eq_true.mp rfl
  simp only [List.forall_mem_append]
  exact ⟨⟨⟨inSign, inWhole⟩, inFraction⟩, inExponent⟩

/-! ## Values -/

namespace Scan

/-- What stands between two brackets is passed on the way from one to the other. -/
theorem through?_brackets {opening closing : UInt8} (depth : Nat) {body : List UInt8}
    (opens : opening = 91 ∧ closing = 93 ∨ opening = 123 ∧ closing = 125)
    (passes : (outside (depth + 1)).through? body = some (outside (depth + 1))) :
    (outside depth).through? (opening :: (body ++ [closing])) = some (outside depth) := by
  have opened : (outside depth).through? (opening :: (body ++ [closing])) =
      (outside (depth + 1)).through? (body ++ [closing]) := by
    rcases opens with ⟨rfl, -⟩ | ⟨rfl, -⟩
    · exact through?_cons (by simp [delimiter?]) _
    · exact through?_cons (by simp [delimiter?]) _
  rw [opened, through?_append passes]
  rcases opens with ⟨-, rfl⟩ | ⟨-, rfl⟩ <;> rfl

/-- Inside of brackets a comma is a byte like others. -/
theorem through?_comma (depth : Nat) {first rest : List UInt8}
    (passes : (outside (depth + 1)).through? first = some (outside (depth + 1)))
    (later : (outside (depth + 1)).through? rest = some (outside (depth + 1))) :
    (outside (depth + 1)).through? (first ++ 44 :: rest) = some (outside (depth + 1)) := by
  rw [through?_append passes]
  exact (through?_cons rfl rest).trans later

end Scan

/-- A scan passes what the grammar derives and is then where it was. Only lists need a bracket
around them, as their commas are delimiters outside of all brackets. -/
theorem Derives.through {symbol : Symbol} {text : List UInt8} (derives : Derives symbol text) :
    ∀ depth, (symbol = .elements ∨ symbol = .members → depth ≠ 0) →
      (Scan.outside depth).through? text = some (Scan.outside depth) := by
  induction derives with
  | null | true | false =>
    exact fun depth _ => Scan.through?_ordinary depth (List.all_eq_true.mp rfl)
  | number number => exact fun depth _ => Scan.through?_ordinary depth number.ordinary
  | string string => exact fun depth _ => string.through depth
  | emptyArray blank =>
    intro depth _
    exact Scan.through?_brackets depth (.inl ⟨rfl, rfl⟩) (Scan.through?_blank _ blank)
  | array elements ih =>
    exact fun depth _ => Scan.through?_brackets depth (.inl ⟨rfl, rfl⟩) (ih _ fun _ => nofun)
  | emptyObject blank =>
    intro depth _
    exact Scan.through?_brackets depth (.inr ⟨rfl, rfl⟩) (Scan.through?_blank _ blank)
  | object members ih =>
    exact fun depth _ => Scan.through?_brackets depth (.inr ⟨rfl, rfl⟩) (ih _ fun _ => nofun)
  | element leading value trailing ih =>
    intro depth _
    rw [List.append_assoc, Scan.through?_append (Scan.through?_blank depth leading),
      Scan.through?_append (ih depth nofun)]
    exact Scan.through?_blank depth trailing
  | member leading string trailing element ih =>
    intro depth _
    rw [List.append_assoc, List.append_assoc,
      Scan.through?_append (Scan.through?_blank depth leading),
      Scan.through?_append (string.through depth),
      Scan.through?_append (Scan.through?_blank depth trailing), ← List.singleton_append,
      Scan.through?_append (Scan.through?_ordinary depth (List.forall_mem_singleton.mpr rfl))]
    exact ih depth nofun
  | lastElement last ih | lastMember last ih => exact fun depth _ => ih depth nofun
  | elements first later ihFirst ihLater | members first later ihFirst ihLater =>
    intro depth inside
    -- A comma between the parts is passed because a bracket is open around them.
    obtain ⟨depth, rfl⟩ := Nat.exists_eq_succ_of_ne_zero (inside (by simp))
    exact Scan.through?_comma depth (ihFirst _ nofun) (ihLater _ fun _ => nofun)

end Batchwork.Json
