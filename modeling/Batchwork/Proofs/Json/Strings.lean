import Batchwork.Proofs.Json.Decoding
import Batchwork.Proofs.Json.Spelling

/-!
# Strings that are read

A string that is decoded is written as the grammar says, only with known escapes, no control
characters, and UTF-8 throughout, and stands for what was decoded. The decoder looks at single bytes
and checks only what they come to; as an escape stands for whole characters, no character can be
spread over bytes and escapes. Main statements: `Reads.denotes`, `Reads.stringBody`.
-/

namespace Batchwork.Json

/-! ## Escapes -/

theorem isHexDigit_of_hexValue {byte : UInt8} {n : Nat} (value : hexValue? byte = some n) :
    isHexDigit byte = true := by
  unfold hexValue? at value
  split at value
  next digit => simp [isHexDigit, isDigit, digit]
  · split at value
    next lower => simp [isHexDigit, lower]
    · split at value
      next upper => simp [isHexDigit, upper]
      · cases value

namespace Escape

/-- Four hexadecimal digits are in front. -/
theorem fourDigits_eq_ok {used n : Nat} {bytes : List UInt8}
    (number : fourDigits used bytes = .ok n) :
    ∃ digits rest, bytes = digits ++ rest ∧ CodeUnit digits n := by
  unfold fourDigits at number
  split at number
  next a b c d rest =>
    split at number
    next first second third fourth =>
      cases number
      refine ⟨[a, b, c, d], rest, rfl, rfl, ?_, ?_⟩
      · simp only [List.forall_mem_cons]
        exact ⟨isHexDigit_of_hexValue first, isHexDigit_of_hexValue second,
          isHexDigit_of_hexValue third, isHexDigit_of_hexValue fourth, List.forall_mem_nil _⟩
      · simp [hexNumber, first, second, third, fourth]
    · cases number
  · cases number

theorem fourDigits_eq_error {used : Nat} {bytes : List UInt8} {escape : Escape}
    (short : fourDigits used bytes = .error escape) : ∃ cause, escape.content = .error cause := by
  unfold fourDigits at short
  split at short
  · split at short
    · cases short
    · cases short
      exact ⟨_, rfl⟩
  · cases short
    exact ⟨_, rfl⟩

theorem code_content (n used : Nat) :
    (code n used).content = .ok (String.utf8EncodeChar (Char.ofNat n)) := by
  rw [code, utf8_singleton]

/-- An escape that spells one character, and its bytes. Those of the escape are behind the
backslash. -/
def Written (escape : Escape) (bytes decoded : List UInt8) : Prop :=
  ∃ c, decoded = String.utf8EncodeChar c ∧ Spells (92 :: bytes.take escape.used) [c]

theorem isLeading_iff {n : Nat} :
    isLeading n = true ↔ ∃ high, n = 0xD800 + high ∧ high < 0x400 := by
  simp only [isLeading, Bool.and_eq_true, decide_eq_true_eq]
  constructor
  · exact fun between => ⟨n - 0xD800, by omega, by omega⟩
  · rintro ⟨high, rfl, bound⟩
    omega

theorem isTrailing_iff {n : Nat} :
    isTrailing n = true ↔ ∃ low, n = 0xDC00 + low ∧ low < 0x400 := by
  simp only [isTrailing, Bool.and_eq_true, decide_eq_true_eq]
  constructor
  · exact fun between => ⟨n - 0xDC00, by omega, by omega⟩
  · rintro ⟨low, rfl, bound⟩
    omega

theorem toNat_ofNat {n : Nat} (valid : n.isValidChar) : (Char.ofNat n).toNat = n := by
  rw [Char.ofNat, dif_pos valid]
  rfl

/-- A pair of surrogates stands for a character beyond the code units. -/
theorem toNat_pair {high low : Nat} (highBound : high < 0x400) (lowBound : low < 0x400) :
    (Char.ofNat ((0xD800 + high - 0xD800) * 0x400 + (0xDC00 + low - 0xDC00) + 0x10000)).toNat =
      0x10000 + high * 0x400 + low := by
  have valid : ((0xD800 + high - 0xD800) * 0x400 + (0xDC00 + low - 0xDC00) + 0x10000).isValidChar :=
    .inr ⟨by omega, by omega⟩
  rw [toNat_ofNat valid]
  omega

/-- A code unit that is no surrogate stands for a character. -/
theorem toNat_codeUnit {digits : List UInt8} {n : Nat} (unit : CodeUnit digits n)
    (leading : ¬isLeading n = true) (trailing : ¬isTrailing n = true) :
    (Char.ofNat n).toNat = n := by
  have bound := hexNumber_lt digits
  rw [unit.value, unit.four] at bound
  have bound : n < 0x10000 := bound
  simp only [isLeading, isTrailing, Bool.and_eq_true, decide_eq_true_eq] at leading trailing
  have valid : n.isValidChar := by
    unfold Nat.isValidChar
    omega
  exact toNat_ofNat valid

theorem trailing_written {leading : Nat} {digits rest decoded : List UInt8}
    (unit : CodeUnit digits leading) (leads : isLeading leading = true)
    (read : (trailing leading rest).content = .ok decoded) :
    Written (trailing leading rest) (117 :: (digits ++ rest)) decoded := by
  unfold trailing at read ⊢
  split at read
  · cases read
  · cases read
  next rest =>
    split at read
    next fault =>
      obtain ⟨cause, faulty⟩ := fourDigits_eq_error fault
      rw [faulty] at read
      cases read
    next n number =>
      split at read
      next second =>
        obtain ⟨digits', left, rfl, unit'⟩ := fourDigits_eq_ok number
        rw [code_content] at read
        simp only [second, if_true]
        refine ⟨_, (Except.ok.inj read).symm, ?_⟩
        obtain ⟨high, rfl, highBound⟩ := isLeading_iff.mp leads
        obtain ⟨low, rfl, lowBound⟩ := isTrailing_iff.mp second
        have taken : (117 :: (digits ++ 92 :: 117 :: (digits' ++ left))).take 11 =
            117 :: (digits ++ 92 :: 117 :: (digits' ++ [])) := by
          simp [List.take_append, List.take_of_length_le, unit.four, unit'.four]
        rw [code, taken]
        exact .pair unit unit' highBound lowBound (toNat_pair highBound lowBound) .nil
      · cases read
  · cases read
  · cases read

theorem unicode_written {bytes decoded : List UInt8}
    (read : (unicode bytes).content = .ok decoded) :
    Written (unicode bytes) (117 :: bytes) decoded := by
  unfold unicode at read ⊢
  split at read
  next fault =>
    obtain ⟨cause, faulty⟩ := fourDigits_eq_error fault
    rw [faulty] at read
    cases read
  next n number =>
    obtain ⟨digits, rest, rfl, unit⟩ := fourDigits_eq_ok number
    have behind : (digits ++ rest).drop 4 = rest := by rw [← unit.four, List.drop_left]
    simp only [behind] at read ⊢
    split at read
    · cases read
    next first =>
      rw [if_neg first]
      split at read
      next leading =>
        rw [if_pos leading]
        exact trailing_written unit leading read
      next other =>
        rw [if_neg other]
        rw [code_content] at read
        refine ⟨_, (Except.ok.inj read).symm, ?_⟩
        have taken : (117 :: (digits ++ rest)).take 5 = 117 :: (digits ++ []) := by
          simp [unit.four]
        rw [code, taken]
        exact .codePoint ((toNat_codeUnit unit other first).symm ▸ unit) .nil

/-- The letters of escapes stand for ASCII characters. -/
theorem simple_written {letter byte : UInt8} (known : simple? letter = some byte) :
    (letter, Char.ofNat byte.toNat) ∈ letterEscapes ∧
      [byte] = String.utf8EncodeChar (Char.ofNat byte.toNat) := by
  unfold simple? at known
  split at known
  all_goals cases known
  all_goals exact ⟨by decide, by decide⟩

theorem read_written {bytes decoded : List UInt8} (reads : (read bytes).content = .ok decoded) :
    Written (read bytes) bytes decoded := by
  unfold read at reads ⊢
  split at reads
  · cases reads
  · exact unicode_written reads
  next letter rest other =>
    split at reads
    next byte known =>
      obtain ⟨member, single⟩ := simple_written known
      cases reads
      exact ⟨_, single, .letter member .nil⟩
    · cases reads

end Escape

/-! ## Characters -/

/-- How the bytes of a string, up to its closing quote, come to the bytes of what it stands for. -/
inductive Pieces : List UInt8 → List UInt8 → Prop
  | nil : Pieces [] []
  | byte {byte : UInt8} {written decoded : List UInt8} (printable : ¬byte < 32)
      (noQuote : byte ≠ 34) (noBackslash : byte ≠ 92) (later : Pieces written decoded) :
      Pieces (byte :: written) (byte :: decoded)
  | escape {escape written decoded : List UInt8} (c : Char) (spells : Spells escape [c])
      (later : Pieces written decoded) :
      Pieces (escape ++ written) (String.utf8EncodeChar c ++ decoded)

namespace Pieces

/-- Bytes that begin no character are no escapes. -/
theorem of_later {written later decoded : List UInt8} (pieces : Pieces written (later ++ decoded))
    (inside : ∀ byte ∈ later, ¬byte.IsUTF8FirstByte) :
    ∃ rest, written = later ++ rest ∧ Pieces rest decoded := by
  induction later generalizing written with
  | nil => exact ⟨written, rfl, pieces⟩
  | cons byte later ih =>
    rw [List.cons_append] at pieces
    generalize whole : byte :: (later ++ decoded) = bytes at pieces
    cases pieces with
    | nil => cases whole
    | byte printable noQuote noBackslash others =>
      cases whole
      obtain ⟨rest, rfl, pieces⟩ := ih others fun byte member =>
        inside byte (List.mem_cons_of_mem _ member)
      exact ⟨rest, rfl, pieces⟩
    | escape c characters others =>
      -- What an escape stands for begins with the first byte of a character.
      obtain ⟨first, behind, encoded, begins, -⟩ := utf8EncodeChar_eq_cons c
      rw [encoded, List.cons_append] at whole
      obtain ⟨rfl, -⟩ := List.cons.inj whole
      exact absurd begins (inside byte List.mem_cons_self)

/-- A character whose first byte is written as itself. -/
theorem plain {c : Char} {first : UInt8} {later rest : List UInt8} {characters : List Char}
    (encoded : String.utf8EncodeChar c = first :: later) (printable : ¬first < 32)
    (noQuote : first ≠ 34) (noBackslash : first ≠ 92) (spells : Spells rest characters) :
    Spells (first :: (later ++ rest)) (c :: characters) := by
  have visible : 32 ≤ c.toNat := by
    apply Nat.le_of_not_lt
    intro small
    rw [utf8EncodeChar_ascii (Nat.lt_trans small (by decide))] at encoded
    obtain ⟨rfl, -⟩ := List.cons.inj encoded
    apply printable
    rw [UInt8.lt_iff_toNat_lt, UInt8.toNat_ofNat_of_lt' (Nat.lt_trans small (by decide))]
    exact small
  rw [← List.cons_append, ← encoded]
  apply Spells.plain visible _ _ spells
  · rintro rfl
    have encoded : [34] = first :: later := encoded
    exact noQuote (List.cons.inj encoded).1.symm
  · rintro rfl
    have encoded : [92] = first :: later := encoded
    exact noBackslash (List.cons.inj encoded).1.symm

/-- Where the bytes come to characters, the string spells these characters. -/
theorem spells {written : List UInt8} {characters : List Char}
    (pieces : Pieces written (characters.flatMap String.utf8EncodeChar)) :
    Spells written characters := by
  induction characters generalizing written with
  | nil =>
    generalize whole : [].flatMap String.utf8EncodeChar = bytes at pieces
    cases pieces with
    | nil => exact .nil
    | byte => cases whole
    | escape c characters later =>
      exact absurd (List.append_eq_nil_iff.mp whole.symm).1 String.utf8EncodeChar_ne_nil
  | cons c others ih =>
    rw [List.flatMap_cons] at pieces
    generalize whole : String.utf8EncodeChar c ++ others.flatMap String.utf8EncodeChar = bytes
      at pieces
    cases pieces with
    | nil => exact absurd (List.append_eq_nil_iff.mp whole).1 String.utf8EncodeChar_ne_nil
    | byte printable noQuote noBackslash later =>
      obtain ⟨first, behind, encoded, -, inside⟩ := utf8EncodeChar_eq_cons c
      rw [encoded, List.cons_append] at whole
      obtain ⟨rfl, rfl⟩ := List.cons.inj whole
      -- A character that begins with a plain byte goes on with plain bytes.
      obtain ⟨rest, rfl, pieces⟩ := later.of_later inside
      exact plain encoded printable noQuote noBackslash (ih pieces)
    | escape d escaped later =>
      obtain ⟨rfl, rfl⟩ := utf8EncodeChar_append_inj whole
      exact escaped.append (ih later)

end Pieces

/-! ## Strings -/

namespace Decoder

variable {bytes rest : List UInt8}

theorem Reads.characters {fuel : Nat} {gathered found : List UInt8}
    (reads : Reads (characters fuel gathered) bytes found rest) :
    ∃ written decoded, bytes = written ++ 34 :: rest ∧ found = gathered.reverse ++ decoded ∧
      Pieces written decoded := by
  induction fuel generalizing gathered bytes with
  | zero => exact absurd reads not_reads_fail
  | succ fuel ih =>
    unfold Decoder.characters at reads
    obtain ⟨cursor, rfl, reads⟩ := reads.of_get
    split at reads
    · exact absurd reads not_reads_fail
    next later front =>
      obtain ⟨rfl, rfl⟩ := reads_pure.mp reads.of_advance
      exact ⟨[], [], by rw [front]; rfl, (List.append_nil _).symm, .nil⟩
    next later front =>
      replace reads := reads.of_advanceBy
      rw [front] at reads ⊢
      split at reads
      next decoded content =>
        obtain ⟨c, rfl, spells⟩ := Escape.read_written content
        obtain ⟨written, others, split, rfl, pieces⟩ := ih reads
        refine ⟨92 :: later.take (Escape.read later).used ++ written,
          String.utf8EncodeChar c ++ others, ?_, by simp, .escape c spells pieces⟩
        rw [List.append_assoc, ← split]
        simp
      · exact absurd reads not_reads_fail
    next byte later noQuote noBackslash front =>
      replace reads := reads.of_advance
      rw [front] at reads ⊢
      split at reads
      · exact absurd reads not_reads_fail
      next printable =>
        obtain ⟨written, others, split, rfl, pieces⟩ := ih reads
        have split : later = written ++ 34 :: rest := split
        exact ⟨byte :: written, byte :: others, by rw [split]; rfl, by simp,
          .byte printable noQuote noBackslash pieces⟩

/-- A string whose opening quote has been read. -/
theorem Reads.denotes {value : String} (reads : Reads Decoder.stringBody bytes value rest) :
    ∃ text, 34 :: bytes = text ++ rest ∧ Denotes text value := by
  unfold Decoder.stringBody at reads
  obtain ⟨start, rfl, reads⟩ := reads.of_get
  obtain ⟨decoded, middle, front, reads⟩ := reads.bind
  obtain ⟨written, _, split, rfl, pieces⟩ := front.characters
  split at reads
  next found valid =>
    obtain ⟨rfl, rfl⟩ := reads_pure.mp reads
    obtain ⟨characters, rfl, rfl⟩ := exists_characters valid
    refine ⟨34 :: (written ++ [34]), ?_, .mk pieces.spells⟩
    simp [split]
  · exact absurd reads not_reads_throw

theorem Reads.stringBody {text : String} (reads : Reads stringBody bytes text rest) :
    ∃ string, 34 :: bytes = string ++ rest ∧ StringText string := by
  obtain ⟨string, split, denotes⟩ := reads.denotes
  exact ⟨string, split, denotes.text⟩

end Decoder

end Batchwork.Json
