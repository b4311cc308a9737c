import Batchwork.Proofs.Json.Decoding

/-!
# Numbers that are read

A number that is decoded is written as the grammar says: no point without digits behind it, no
exponent without digits, and no zero in front of other digits. Main statement: `Reads.number`.
-/

namespace Batchwork.Json.Decoder

variable {α : Type} {positive : Bool} {numeral : Numeral} {bytes rest : List UInt8} {value : Number}

/-- What a number is made of does not depend on whether its value can be told. -/
theorem Reads.floating (reads : Reads (floating positive numeral) bytes value rest) :
    rest = bytes := by
  unfold Decoder.floating at reads
  split at reads
  · exact (reads_pure.mp reads).2
  · exact absurd reads not_reads_fail

theorem digits_takeWhile (bytes : List UInt8) : Digits (bytes.takeWhile isDigit) :=
  List.all_eq_true.mp List.all_takeWhile

theorem takeWhile_append_drop (bytes : List UInt8) :
    bytes.takeWhile isDigit ++ bytes.drop (bytes.takeWhile isDigit).length = bytes :=
  List.prefix_iff_eq_append.mp (List.takeWhile_prefix isDigit)

theorem Reads.digits {run : List UInt8} (reads : Reads digits bytes run rest) :
    run = bytes.takeWhile isDigit ∧ bytes = run ++ rest := by
  obtain ⟨cursor, rfl, reads⟩ := reads.of_get
  obtain ⟨rfl, rfl⟩ := reads_pure.mp reads.of_advanceBy
  exact ⟨rfl, (takeWhile_append_drop cursor.rest).symm⟩

/-! ## Exponents -/

/-- A sign that may be left out. -/
theorem reads_sign {next : Bool → Decoder α} {value : α}
    (reads : Reads (do
      match ← peek? with
      | some 43 =>
        advance
        let upward ← pure true
        next upward
      | some 45 =>
        advance
        let upward ← pure false
        next upward
      | _ =>
        let upward ← pure true
        next upward) bytes value rest) :
    ∃ upward sign middle, bytes = sign ++ middle ∧ (sign = [] ∨ sign = [43] ∨ sign = [45]) ∧
      Reads (next upward) middle value rest := by
  replace reads := reads.of_peek
  split at reads
  next plus =>
    obtain ⟨others, rfl⟩ := List.head?_eq_some_iff.mp plus
    exact ⟨true, [43], others, rfl, .inr (.inl rfl), reads.of_advance.of_pure⟩
  next minus =>
    obtain ⟨others, rfl⟩ := List.head?_eq_some_iff.mp minus
    exact ⟨false, [45], others, rfl, .inr (.inr rfl), reads.of_advance.of_pure⟩
  · exact ⟨true, [], bytes, rfl, .inl rfl, reads.of_pure⟩

theorem Reads.exponent (reads : Reads (exponent positive numeral) bytes value rest) :
    ∃ sign run, bytes.tail = sign ++ run ++ rest ∧ (sign = [] ∨ sign = [43] ∨ sign = [45]) ∧
      run ≠ [] ∧ Digits run := by
  unfold Decoder.exponent at reads
  obtain ⟨upward, sign, middle, front, signed, reads⟩ := reads_sign reads.of_advance
  obtain ⟨cursor, rfl, reads⟩ := reads.of_get
  split at reads
  · exact absurd reads not_reads_fail
  next first others begins =>
    split at reads
    · exact absurd reads.of_advance not_reads_fail
    next digit =>
      obtain ⟨other, same, reads⟩ := reads.of_get
      -- Whatever becomes of the exponent, all of its digits are taken.
      have taken : rest = cursor.rest.drop (cursor.rest.takeWhile isDigit).length := by
        simp only [same] at reads
        split at reads
        · exact reads.of_advanceBy.floating
        · split at reads
          · exact absurd reads.of_advanceBy not_reads_fail
          · exact (reads_pure.mp reads.of_advanceBy).2
      have some : cursor.rest.takeWhile isDigit ≠ [] := by
        simp only [Bool.not_eq_true', Bool.not_eq_false] at digit
        simp [begins, digit]
      refine ⟨sign, cursor.rest.takeWhile isDigit, ?_, signed, some, digits_takeWhile _⟩
      rw [front, taken, List.append_assoc, takeWhile_append_drop]

/-- An exponent, its mark included. -/
theorem Reads.exponentText {mark : UInt8} {later : List UInt8} (marked : mark = 101 ∨ mark = 69)
    (reads : Reads (Decoder.exponent positive numeral) (mark :: later) value rest) :
    ∃ text, mark :: later = text ++ rest ∧ ExponentText text := by
  obtain ⟨sign, run, split, signed, nonempty, digits⟩ := reads.exponent
  refine ⟨mark :: (sign ++ run), ?_, .present marked signed nonempty digits⟩
  rw [List.cons_append, ← split]
  rfl

/-! ## Fractions -/

/-- What stands behind the digits of a number: an exponent or nothing. -/
theorem reads_exponent? {scaled : Numeral} {value : Number}
    (reads : Reads (do
      match ← peek? with
      | some 101 | some 69 => Decoder.exponent positive scaled
      | _ => Decoder.floating positive scaled) bytes value rest) :
    ∃ text, bytes = text ++ rest ∧ ExponentText text := by
  replace reads := reads.of_peek
  split at reads
  next mark =>
    obtain ⟨later, rfl⟩ := List.head?_eq_some_iff.mp mark
    exact reads.exponentText (.inl rfl)
  next mark =>
    obtain ⟨later, rfl⟩ := List.head?_eq_some_iff.mp mark
    exact reads.exponentText (.inr rfl)
  · exact ⟨[], reads.floating.symm, .absent⟩

theorem Reads.fraction (reads : Reads (fraction positive numeral) bytes value rest) :
    ∃ run text, bytes.tail = run ++ text ++ rest ∧ run ≠ [] ∧ Digits run ∧ ExponentText text := by
  unfold Decoder.fraction at reads
  obtain ⟨run, middle, front, reads⟩ := reads.of_advance.bind
  obtain ⟨same, split⟩ := front.digits
  split at reads
  · replace reads := reads.of_peek
    split at reads
    · exact absurd reads not_reads_failPeek
    · exact absurd reads not_reads_fail
  next nonempty =>
    obtain ⟨text, later, exponent⟩ := reads_exponent? reads
    refine ⟨run, text, ?_, by simpa using nonempty, same ▸ digits_takeWhile _, exponent⟩
    rw [split, later, List.append_assoc]

/-! ## Numbers -/

/-- The digits in front of a point: a zero alone, or those that begin with another digit. -/
theorem reads_whole {next : List UInt8 → Decoder α} {value : α} {first : UInt8}
    {later : List UInt8} (digit : isDigit first = true)
    (reads : Reads
      (if first = 48 then do
        advance
        let run ← pure [first]
        next run
      else do
        let run ← digits
        next run) (first :: later) value rest) :
    ∃ run middle, first :: later = run ++ middle ∧ IntegerText run ∧
      Reads (next run) middle value rest := by
  split at reads
  next zero =>
    refine ⟨[first], later, rfl, ?_, reads.of_advance.of_pure⟩
    rw [zero]
    exact .zero
  next nonzero =>
    obtain ⟨run, middle, front, reads⟩ := reads.bind
    obtain ⟨rfl, split⟩ := front.digits
    refine ⟨_, middle, split, ?_, reads⟩
    rw [List.takeWhile_cons, if_pos digit]
    exact .positive digit nonzero (digits_takeWhile later)

/-- A number without its sign. -/
theorem Reads.number (reads : Reads (number positive) bytes value rest) :
    ∃ whole fraction exponent, bytes = whole ++ fraction ++ exponent ++ rest ∧ IntegerText whole ∧
      FractionText fraction ∧ ExponentText exponent := by
  unfold Decoder.number at reads
  replace reads := reads.of_peek
  split at reads
  · exact absurd reads not_reads_fail
  next first found =>
    obtain ⟨later, rfl⟩ := List.head?_eq_some_iff.mp found
    split at reads
    · exact absurd reads.of_advance not_reads_fail
    next digit =>
      obtain ⟨whole, middle, front, integer, reads⟩ := reads_whole (by simpa using digit) reads
      rw [front]
      replace reads := reads.of_peek
      split at reads
      · exact absurd reads not_reads_failPeek
      · replace reads := reads.of_peek
        split at reads
        next point =>
          obtain ⟨behind, rfl⟩ := List.head?_eq_some_iff.mp point
          obtain ⟨run, exponent, split, nonempty, digits, scaled⟩ := reads.fraction
          refine ⟨whole, 46 :: run, exponent, ?_, integer, .present nonempty digits, scaled⟩
          have split : behind = run ++ exponent ++ rest := split
          simp [split]
        next mark =>
          obtain ⟨behind, rfl⟩ := List.head?_eq_some_iff.mp mark
          obtain ⟨exponent, split, scaled⟩ := reads.exponentText (.inl rfl)
          refine ⟨whole, [], exponent, ?_, integer, .absent, scaled⟩
          rw [split, List.append_nil, List.append_assoc]
        next mark =>
          obtain ⟨behind, rfl⟩ := List.head?_eq_some_iff.mp mark
          obtain ⟨exponent, split, scaled⟩ := reads.exponentText (.inr rfl)
          refine ⟨whole, [], exponent, ?_, integer, .absent, scaled⟩
          rw [split, List.append_nil, List.append_assoc]
        · have ended : rest = middle := by
            split at reads
            · exact (reads_pure.mp reads).2
            · exact reads.floating
          refine ⟨whole, [], [], ?_, integer, .absent, .absent⟩
          rw [ended, List.append_nil, List.append_nil]

/-- A number whose sign, if it has one, has been read. -/
theorem Reads.numberText {sign : List UInt8} (signed : sign = [] ∨ sign = [45])
    (reads : Reads (Decoder.number positive) bytes value rest) :
    ∃ text, sign ++ bytes = text ++ rest ∧ NumberText text := by
  obtain ⟨whole, fraction, exponent, split, integer, fractional, scaled⟩ := reads.number
  refine ⟨sign ++ whole ++ fraction ++ exponent, ?_, .mk signed integer fractional scaled⟩
  simp only [split, List.append_assoc]

end Batchwork.Json.Decoder
