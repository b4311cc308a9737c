import Batchwork.Json.Characters
import Batchwork.Proofs.Json.Grammar
import Batchwork.Proofs.Json.Utf8
import Mathlib.Data.List.Induction

/-!
# How strings are spelled

Which characters a JSON string stands for. A character may be spelled in several ways, but what a
string spells is settled, and so is where it ends. Main statement: `StringText.unique`.
-/

namespace Batchwork.Json

/-- The letters behind a backslash and the characters that they stand for. -/
def letterEscapes : List (UInt8 × Char) :=
  [(34, '"'), (92, '\\'), (47, '/'), (98, '\x08'), (102, '\x0c'), (110, '\n'), (114, '\x0d'),
    (116, '\t')]

/-- The number that hexadecimal digits stand for. -/
def hexNumber (digits : List UInt8) : Nat :=
  digits.foldl (fun number digit => number * 16 + (hexValue? digit).getD 0) 0

theorem hexValue_lt (digit : UInt8) : (hexValue? digit).getD 0 < 16 := by
  unfold hexValue?
  split
  next range =>
    simp only [UInt8.le_iff_toNat_le] at range
    have high : (57 : UInt8).toNat = 57 := rfl
    simp only [Option.getD_some]
    omega
  · split
    next range =>
      simp only [UInt8.le_iff_toNat_le] at range
      have high : (102 : UInt8).toNat = 102 := rfl
      simp only [Option.getD_some]
      omega
    · split
      next range =>
        simp only [UInt8.le_iff_toNat_le] at range
        have high : (70 : UInt8).toNat = 70 := rfl
        simp only [Option.getD_some]
        omega
      · decide

theorem hexNumber_lt (digits : List UInt8) : hexNumber digits < Nat.pow 16 digits.length := by
  -- One more digit makes a number sixteen times as large at most.
  induction digits using List.reverseRecOn with
  | nil => decide
  | append_singleton digits digit ih =>
    have small := hexValue_lt digit
    have grown : Nat.pow 16 (digits ++ [digit]).length = Nat.pow 16 digits.length * 16 := by
      rw [List.length_append]
      rfl
    have number : hexNumber (digits ++ [digit]) =
        hexNumber digits * 16 + (hexValue? digit).getD 0 := by
      rw [hexNumber, List.foldl_append]
      rfl
    rw [grown, number]
    omega

/-- The digits of an escaped code unit. -/
structure CodeUnit (digits : List UInt8) (number : Nat) : Prop where
  four : digits.length = 4
  hex : ∀ digit ∈ digits, isHexDigit digit = true
  value : hexNumber digits = number

/-- The inside of a string as it is written, and the characters that it stands for. -/
inductive Spells : List UInt8 → List Char → Prop
  | nil : Spells [] []
  | plain {c : Char} {rest : List UInt8} {later : List Char} (printable : 32 ≤ c.toNat)
      (noQuote : c ≠ '"') (noBackslash : c ≠ '\\') (spells : Spells rest later) :
      Spells (String.utf8EncodeChar c ++ rest) (c :: later)
  | letter {letter : UInt8} {c : Char} {rest : List UInt8} {later : List Char}
      (known : (letter, c) ∈ letterEscapes) (spells : Spells rest later) :
      Spells (92 :: letter :: rest) (c :: later)
  | codePoint {digits : List UInt8} {c : Char} {rest : List UInt8} {later : List Char}
      (unit : CodeUnit digits c.toNat) (spells : Spells rest later) :
      Spells (92 :: 117 :: (digits ++ rest)) (c :: later)
  /-- A character beyond the code units is spelled as a pair of surrogates. -/
  | pair {digits digits' : List UInt8} {high low : Nat} {c : Char} {rest : List UInt8}
      {later : List Char} (unit : CodeUnit digits (0xD800 + high))
      (unit' : CodeUnit digits' (0xDC00 + low)) (highBound : high < 0x400) (lowBound : low < 0x400)
      (value : c.toNat = 0x10000 + high * 0x400 + low) (spells : Spells rest later) :
      Spells (92 :: 117 :: (digits ++ 92 :: 117 :: (digits' ++ rest))) (c :: later)

/-- The text of a string, and the string. -/
inductive Denotes : List UInt8 → String → Prop
  | mk {body : List UInt8} {characters : List Char} (spells : Spells body characters) :
      Denotes (34 :: (body ++ [34])) (String.ofList characters)

theorem CharactersText.append {first second : List UInt8} (characters : CharactersText first)
    (others : CharactersText second) : CharactersText (first ++ second) := by
  induction characters with
  | nil => exact others
  | cons first later ih =>
    rw [List.append_assoc]
    exact .cons first ih

theorem Spells.append {first second : List UInt8} {characters others : List Char}
    (spells : Spells first characters) (spells' : Spells second others) :
    Spells (first ++ second) (characters ++ others) := by
  induction spells with
  | nil => exact spells'
  | plain printable noQuote noBackslash _ ih =>
    rw [List.append_assoc]
    exact .plain printable noQuote noBackslash ih
  | letter known _ ih => exact .letter known ih
  | codePoint unit _ ih =>
    rw [List.cons_append, List.cons_append, List.append_assoc]
    exact .codePoint unit ih
  | pair unit unit' highBound lowBound value _ ih =>
    rw [List.cons_append, List.cons_append, List.append_assoc, List.cons_append, List.cons_append,
      List.append_assoc]
    exact .pair unit unit' highBound lowBound value ih

/-- What spells characters is the inside of a string. -/
theorem Spells.text {body : List UInt8} {characters : List Char} (spells : Spells body characters) :
    CharactersText body := by
  induction spells with
  | nil => exact .nil
  | plain printable noQuote noBackslash _ ih =>
    exact .cons (.plain printable noQuote noBackslash) ih
  | letter known _ ih =>
    have member : _ ∈ letterEscapes.map Prod.fst := List.mem_map_of_mem known
    exact .cons (.escape member) ih
  | codePoint unit _ ih => exact .cons (.codePoint unit.four unit.hex) ih
  | pair unit unit' _ _ _ _ ih =>
    exact .cons (.codePoint unit.four unit.hex) (.cons (.codePoint unit'.four unit'.hex) ih)

theorem Denotes.text {text : List UInt8} {value : String} (denotes : Denotes text value) :
    StringText text := by
  cases denotes with
  | mk spells => exact .mk spells.text

/-- A character that needs no escape. -/
def isPlain (c : Char) : Bool := 32 ≤ c.toNat && c != '"' && c != '\\'

theorem Spells.plainly (characters : List Char) (plain : ∀ c ∈ characters, isPlain c = true) :
    Spells (characters.flatMap String.utf8EncodeChar) characters := by
  induction characters with
  | nil => exact .nil
  | cons c characters ih =>
    have first := plain c List.mem_cons_self
    simp only [isPlain, Bool.and_eq_true, decide_eq_true_eq, bne_iff_ne, ne_eq] at first
    obtain ⟨⟨printable, noQuote⟩, noBackslash⟩ := first
    rw [List.flatMap_cons]
    apply Spells.plain printable noQuote noBackslash
    apply ih
    intro c member
    exact plain c (List.mem_cons_of_mem _ member)

/-! ## Where strings end -/

theorem CharacterText.front {text : List UInt8} (character : CharacterText text) :
    ∃ byte later, text = byte :: later ∧ byte ≠ 34 := by
  cases character with
  | @plain c printable noQuote noBackslash =>
    obtain ⟨byte, later, encoded, -, -⟩ := utf8EncodeChar_eq_cons c
    refine ⟨byte, later, encoded, (plain_of_mem noQuote noBackslash ?_).1⟩
    rw [encoded]
    exact List.mem_cons_self
  | escape | codePoint => exact ⟨92, _, rfl, by decide⟩

/-- A character that is spelled as itself is no escape. -/
theorem plain_ne_escape {c : Char} (noQuote : c ≠ '"') (noBackslash : c ≠ '\\')
    {rest later : List UInt8} : String.utf8EncodeChar c ++ rest ≠ 92 :: later := by
  intro same
  obtain ⟨byte, behind, encoded, -, -⟩ := utf8EncodeChar_eq_cons c
  rw [encoded, List.cons_append] at same
  obtain ⟨rfl, -⟩ := List.cons.inj same
  exact (plain_of_mem noQuote noBackslash (encoded ▸ List.mem_cons_self)).2 rfl

theorem CharacterText.unique {first second rest rest' : List UInt8} (text : CharacterText first)
    (text' : CharacterText second) (same : first ++ rest = second ++ rest') :
    first = second ∧ rest = rest' := by
  cases text with
  | plain printable noQuote noBackslash =>
    cases text' with
    | plain =>
      obtain ⟨rfl, behind⟩ := utf8EncodeChar_append_inj same
      exact ⟨rfl, behind⟩
    | escape | codePoint => exact absurd same (plain_ne_escape noQuote noBackslash)
  | @escape letter known =>
    cases text' with
    | plain printable noQuote noBackslash =>
      exact absurd same.symm (plain_ne_escape noQuote noBackslash)
    | escape =>
      obtain ⟨rfl, rfl⟩ : letter = _ ∧ rest = rest' := by simpa using same
      exact ⟨rfl, rfl⟩
    | codePoint =>
      obtain ⟨rfl, -⟩ : letter = 117 ∧ _ := by simpa using same
      exact absurd known (by decide)
  | @codePoint digits four hex =>
    cases text' with
    | plain printable noQuote noBackslash =>
      exact absurd same.symm (plain_ne_escape noQuote noBackslash)
    | @escape letter known =>
      obtain ⟨rfl, -⟩ : 117 = letter ∧ _ := by simpa using same
      exact absurd known (by decide)
    | @codePoint digits' four' hex' =>
      have same : digits ++ rest = digits' ++ rest' := by simpa using same
      obtain ⟨rfl, rfl⟩ := List.append_inj same (four.trans four'.symm)
      exact ⟨rfl, rfl⟩

theorem CharactersText.unique {body body' rest rest' : List UInt8} (text : CharactersText body)
    (text' : CharactersText body') (same : body ++ 34 :: rest = body' ++ 34 :: rest') :
    body = body' ∧ rest = rest' := by
  -- The first character of either is the same one, and the closing quote begins none.
  induction text generalizing body' with
  | nil =>
    cases text' with
    | nil => exact ⟨rfl, (List.cons.inj same).2⟩
    | cons first later =>
      obtain ⟨byte, behind, rfl, noQuote⟩ := first.front
      exact absurd (List.cons.inj same).1.symm noQuote
  | cons first later ih =>
    cases text' with
    | nil =>
      obtain ⟨byte, behind, rfl, noQuote⟩ := first.front
      exact absurd (List.cons.inj same).1 noQuote
    | cons first' later' =>
      rw [List.append_assoc, List.append_assoc] at same
      obtain ⟨rfl, behind⟩ := first.unique first' same
      obtain ⟨rfl, left⟩ := ih later' behind
      exact ⟨rfl, left⟩

/-- A string ends at its first quote that is not escaped, whatever stands behind. -/
theorem StringText.unique {text text' rest rest' : List UInt8} (string : StringText text)
    (string' : StringText text') (same : text ++ rest = text' ++ rest') :
    text = text' ∧ rest = rest' := by
  obtain ⟨characters⟩ := string
  obtain ⟨characters'⟩ := string'
  simp only [List.cons_append, List.append_assoc, List.nil_append, List.cons.injEq,
    true_and] at same
  obtain ⟨rfl, rfl⟩ := characters.unique characters' same
  exact ⟨rfl, rfl⟩

end Batchwork.Json
