import Batchwork.Proofs.Json.Strings
import Batchwork.Proofs.Json.Numerals

/-!
# What a decoder takes

A decoder that succeeds wherever certain bytes stand in front, with the value that is settled by
them. The counterpart of what a decoder reads: there a run is taken apart, here it is put together.
Lists and objects are decoded with the length of the whole text for fuel, so a cursor must not have
more in front than that. Main statements: `takes_stringBody`, `takes_number`, and one statement for
each decoder that takes blanks, a word or a bracket.
-/

namespace Batchwork.Json

/-- The cursor is in front of these bytes, which are part of its text. -/
structure Cursor.At (cursor : Cursor) (bytes : List UInt8) : Prop where
  rest : cursor.rest = bytes
  bound : bytes.length ≤ cursor.size

namespace Decoder

variable {α β : Type} {bytes middle rest gap : List UInt8} {value : α}

/-- Wherever these bytes are in front, the decoder gives this value and leaves the rest. -/
def Takes (decoder : Decoder α) (bytes : List UInt8) (value : α) (rest : List UInt8) : Prop :=
  ∀ cursor : Cursor, cursor.At bytes → ∃ after, decoder cursor = .ok value after ∧ after.At rest

theorem takes_pure : Takes (pure value) bytes value bytes :=
  fun cursor stands => ⟨cursor, rfl, stands⟩

theorem Takes.bind {decoder : Decoder α} {next : α → Decoder β} {last : β}
    (front : Takes decoder bytes value middle) (later : Takes (next value) middle last rest) :
    Takes (decoder >>= next) bytes last rest := by
  intro cursor stands
  obtain ⟨between, ran, stands⟩ := front cursor stands
  obtain ⟨after, run, stands⟩ := later between stands
  refine ⟨after, ?_, stands⟩
  change EStateM.bind decoder next cursor = _
  rw [EStateM.bind, ran]
  exact run

theorem Takes.map {decoder : Decoder α} (f : α → β) (takes : Takes decoder bytes value rest) :
    Takes (f <$> decoder) bytes (f value) rest := by
  intro cursor stands
  obtain ⟨after, ran, stands⟩ := takes cursor stands
  refine ⟨after, ?_, stands⟩
  change EStateM.map f decoder cursor = _
  rw [EStateM.map, ran]

/-- What is done with the cursor may depend on it. -/
theorem Takes.of_get {next : Cursor → Decoder α}
    (takes : ∀ cursor : Cursor, cursor.At bytes → Takes (next cursor) bytes value rest) :
    Takes (get >>= next) bytes value rest :=
  fun cursor stands => takes cursor stands cursor stands

theorem takes_peek : Takes peek? bytes bytes.head? bytes := by
  rintro cursor ⟨rfl, bound⟩
  exact ⟨cursor, rfl, rfl, bound⟩

theorem size_advance (cursor : Cursor) : cursor.advance.size = cursor.size := by
  obtain ⟨rest, position, size⟩ := cursor
  cases rest <;> rfl

theorem size_advanceBy (n : Nat) (cursor : Cursor) : (cursor.advanceBy n).size = cursor.size := by
  induction n generalizing cursor with
  | zero => rfl
  | succ n ih => rw [Cursor.advanceBy, ih, size_advance]

theorem takes_advanceBy (bytes : List UInt8) (n : Nat) :
    Takes (modify (Cursor.advanceBy n)) bytes () (bytes.drop n) := by
  rintro cursor ⟨rfl, bound⟩
  refine ⟨cursor.advanceBy n, rfl, rest_advanceBy n cursor, ?_⟩
  rw [size_advanceBy, List.length_drop]
  exact Nat.le_trans (Nat.sub_le _ _) bound

theorem takes_advance {byte : UInt8} : Takes advance (byte :: rest) () rest :=
  takes_advanceBy _ 1

/-! ## Blanks -/

theorem skipBlanksFrom_blank (blank : Blank gap)
    (solid : ∀ byte ∈ rest.head?, isBlank byte = false) (place : Position) :
    (skipBlanksFrom (gap ++ rest) place).1 = rest := by
  induction gap generalizing place with
  | nil =>
    cases rest with
    | nil => rfl
    | cons byte rest =>
      have solid := solid byte rfl
      simp [skipBlanksFrom, solid]
  | cons byte gap ih =>
    have here := blank byte List.mem_cons_self
    rw [List.cons_append, skipBlanksFrom, if_pos here]
    exact ih (fun byte member => blank byte (List.mem_cons_of_mem _ member)) _

theorem takes_peekToken (blank : Blank gap) (solid : ∀ byte ∈ rest.head?, isBlank byte = false) :
    Takes peekToken? (gap ++ rest) rest.head? rest := by
  have skips : Takes skipBlanks (gap ++ rest) () rest := by
    rintro ⟨_, place, size⟩ ⟨rfl, bound⟩
    refine ⟨_, rfl, skipBlanksFrom_blank blank solid place, ?_⟩
    rw [List.length_append] at bound
    exact Nat.le_of_add_left_le bound
  exact skips.bind takes_peek

/-- A byte behind blanks that is none. -/
theorem takes_token {byte : UInt8} (blank : Blank gap) (solid : isBlank byte = false) :
    Takes peekToken? (gap ++ byte :: rest) (some byte) (byte :: rest) :=
  takes_peekToken blank fun other same => by
    cases same
    exact solid

theorem takes_valueStart {byte : UInt8} (blank : Blank gap) (solid : isBlank byte = false) :
    Takes valueStart (gap ++ byte :: rest) byte (byte :: rest) :=
  (takes_token blank solid).bind takes_pure

/-- A text is decoded if a decoder takes all of it but blanks. -/
theorem decode_of_takes {decoder : Decoder α} (takes : Takes decoder bytes value rest)
    (blank : Blank rest) : decode decoder bytes = .ok value := by
  have ended : Takes peekToken? rest none [] := by
    have solid : ∀ byte ∈ ([] : List UInt8).head?, isBlank byte = false := nofun
    simpa using takes_peekToken blank solid
  -- A fresh cursor has the whole text in front, which is as long as its size says.
  obtain ⟨middle, ran, stands⟩ := takes (.ofBytes bytes) ⟨rfl, Nat.le_refl _⟩
  obtain ⟨after, run, -⟩ := ended middle stands
  simp only [decode, bind, EStateM.bind, ran, run]
  rfl

/-! ## Words and brackets -/

theorem takes_word (letters : List UInt8) : Takes (word letters) (letters ++ rest) () rest := by
  induction letters with
  | nil => exact takes_pure
  | cons letter letters ih =>
    have front : Takes next? (letter :: (letters ++ rest)) (some letter) (letters ++ rest) :=
      takes_peek.bind (takes_advance.bind takes_pure)
    refine front.bind ?_
    simp only [if_true]
    exact ih

theorem Takes.placed {decoder : Decoder α} (takes : Takes decoder bytes value rest) :
    Takes (placed decoder) bytes value rest := by
  intro cursor stands
  obtain ⟨after, ran, stands⟩ := takes cursor stands
  exact ⟨after, by rw [Decoder.placed, ran], stands⟩

theorem Takes.closedBy {body : Decoder α} {close : Decoder Unit}
    (takes : Takes body bytes value middle) (closes : Takes close middle () rest) :
    Takes (closedBy body close) bytes value rest := by
  intro cursor stands
  obtain ⟨between, ran, stands⟩ := takes cursor stands
  obtain ⟨after, run, stands⟩ := closes between stands
  refine ⟨after, ?_, stands⟩
  rw [Decoder.closedBy, ran]
  dsimp only
  rw [run]

theorem Takes.enter {depth : Nat} {bracket : UInt8} {body : Nat → Decoder α}
    (takes : Takes (body depth) bytes value rest) :
    Takes (enter (depth + 1) body) (bracket :: bytes) value rest :=
  takes_advance.bind takes

theorem takes_colon (blank : Blank gap) : Takes colon (gap ++ 58 :: rest) () rest :=
  (takes_token blank rfl).bind takes_advance

theorem takes_endList (blank : Blank gap) : Takes endList (gap ++ 93 :: rest) () rest :=
  (takes_token blank rfl).bind takes_advance

theorem takes_endObject (blank : Blank gap) : Takes endObject (gap ++ 125 :: rest) () rest :=
  (takes_token blank rfl).bind takes_advance

end Decoder

/-! ## Strings -/

theorem hexValue_of_isHexDigit {byte : UInt8} (hex : isHexDigit byte = true) :
    hexValue? byte = some ((hexValue? byte).getD 0) := by
  simp only [isHexDigit, isDigit, Bool.or_eq_true, Bool.and_eq_true, decide_eq_true_eq] at hex
  unfold hexValue?
  split
  · rfl
  next notDigit =>
    split
    · rfl
    next notLower =>
      split
      · rfl
      next notUpper =>
        rcases hex with (digit | upper) | lower
        · exact absurd digit notDigit
        · exact absurd upper notUpper
        · exact absurd lower notLower

namespace Escape

theorem fourDigits_of_unit {digits rest : List UInt8} {n : Nat} (unit : CodeUnit digits n)
    (used : Nat) : fourDigits used (digits ++ rest) = .ok n := by
  obtain ⟨four, hex, value⟩ := unit
  match digits, four with
  | [a, b, c, d], _ =>
    simp only [List.forall_mem_cons] at hex
    obtain ⟨first, second, third, fourth, -⟩ := hex
    have value : (((hexValue? a).getD 0 * 16 + (hexValue? b).getD 0) * 16 +
        (hexValue? c).getD 0) * 16 + (hexValue? d).getD 0 = n := by
      simpa [hexNumber] using value
    simp only [List.cons_append, fourDigits]
    rw [hexValue_of_isHexDigit first, hexValue_of_isHexDigit second,
      hexValue_of_isHexDigit third, hexValue_of_isHexDigit fourth]
    exact congrArg Except.ok value

theorem code_eq {n used : Nat} {c : Char} (same : n = c.toNat) :
    code n used = ⟨.ok (String.utf8EncodeChar c), used⟩ := by
  rw [code, utf8_singleton, same, Char.ofNat_toNat]

theorem read_letter {letter : UInt8} {c : Char} (known : (letter, c) ∈ letterEscapes)
    (rest : List UInt8) : read (letter :: rest) = ⟨.ok (String.utf8EncodeChar c), 1⟩ := by
  simp only [letterEscapes, List.mem_cons, Prod.mk.injEq, List.not_mem_nil, or_false] at known
  rcases known with ⟨rfl, rfl⟩ | ⟨rfl, rfl⟩ | ⟨rfl, rfl⟩ | ⟨rfl, rfl⟩ | ⟨rfl, rfl⟩ | ⟨rfl, rfl⟩ |
    ⟨rfl, rfl⟩ | ⟨rfl, rfl⟩
  all_goals rfl

/-- No character is a surrogate. -/
theorem read_codePoint {digits : List UInt8} {c : Char} (unit : CodeUnit digits c.toNat)
    (rest : List UInt8) :
    read (117 :: (digits ++ rest)) = ⟨.ok (String.utf8EncodeChar c), 5⟩ := by
  have scalar : c.toNat.isValidChar := c.valid
  have trails : isTrailing c.toNat = false := by
    simp only [isTrailing, Bool.and_eq_false_imp, decide_eq_true_eq, decide_eq_false_iff_not]
    unfold Nat.isValidChar at scalar
    omega
  have leads : isLeading c.toNat = false := by
    simp only [isLeading, Bool.and_eq_false_imp, decide_eq_true_eq, decide_eq_false_iff_not]
    unfold Nat.isValidChar at scalar
    omega
  simp only [read, unicode, fourDigits_of_unit unit, trails, leads]
  exact code_eq rfl

theorem read_pair {digits digits' : List UInt8} {high low : Nat} {c : Char}
    (unit : CodeUnit digits (0xD800 + high)) (unit' : CodeUnit digits' (0xDC00 + low))
    (highBound : high < 0x400) (lowBound : low < 0x400)
    (value : c.toNat = 0x10000 + high * 0x400 + low) (rest : List UInt8) :
    read (117 :: (digits ++ 92 :: 117 :: (digits' ++ rest))) =
      ⟨.ok (String.utf8EncodeChar c), 11⟩ := by
  have leads : isLeading (0xD800 + high) = true := isLeading_iff.mpr ⟨high, rfl, highBound⟩
  have trails : isTrailing (0xDC00 + low) = true := isTrailing_iff.mpr ⟨low, rfl, lowBound⟩
  have apart : isTrailing (0xD800 + high) = false := by
    simp only [isTrailing, Bool.and_eq_false_imp, decide_eq_true_eq, decide_eq_false_iff_not]
    omega
  have behind : (digits ++ 92 :: 117 :: (digits' ++ rest)).drop 4 =
      92 :: 117 :: (digits' ++ rest) := by
    rw [← unit.four, List.drop_left]
  simp only [read, unicode, fourDigits_of_unit unit, apart, leads, behind, trailing,
    fourDigits_of_unit unit', trails, if_true, Bool.false_eq_true, if_false]
  exact code_eq (by omega)

end Escape

namespace Decoder

variable {rest : List UInt8}

/-- What is decoded of a string is added to what has been gathered. -/
theorem takes_plain {fuel : Nat} {gathered bytes later found : List UInt8}
    (plain : ∀ byte ∈ bytes, ¬byte < 32 ∧ byte ≠ 34 ∧ byte ≠ 92)
    (takes : Takes (characters fuel (bytes.reverse ++ gathered)) later
      ((bytes.reverse ++ gathered).reverse ++ found) rest) :
    Takes (characters (fuel + bytes.length) gathered) (bytes ++ later)
      (gathered.reverse ++ (bytes ++ found)) rest := by
  induction bytes generalizing gathered with
  | nil => exact takes
  | cons byte bytes ih =>
    obtain ⟨printable, noQuote, noBackslash⟩ := plain byte List.mem_cons_self
    refine .of_get fun cursor stands => ?_
    rw [stands.rest, List.cons_append]
    split
    next empty => cases empty
    next quote => exact absurd (List.cons.inj quote).1 noQuote
    next backslash => exact absurd (List.cons.inj backslash).1 noBackslash
    next same =>
      obtain ⟨rfl, -⟩ := List.cons.inj same
      refine takes_advance.bind ?_
      rw [if_neg printable]
      have others := @ih (byte :: gathered)
        (fun byte member => plain byte (List.mem_cons_of_mem _ member)) (by simpa using takes)
      simpa using others

/-- An escape is decoded as a whole. -/
theorem takes_escape {fuel used : Nat} {gathered bytes decoded found later : List UInt8}
    (reads : Escape.read bytes = ⟨.ok decoded, used⟩) (behind : bytes.drop used = later)
    (takes : Takes (characters fuel (decoded.reverse ++ gathered)) later
      ((decoded.reverse ++ gathered).reverse ++ found) rest) :
    Takes (characters (fuel + 1) gathered) (92 :: bytes)
      (gathered.reverse ++ (decoded ++ found)) rest := by
  refine .of_get fun cursor stands => ?_
  rw [stands.rest]
  refine (takes_advanceBy _ _).bind ?_
  rw [reads]
  dsimp only
  rw [List.drop_succ_cons, behind]
  simpa using takes

/-- The bytes of a character that is spelled as itself are no control characters. -/
theorem printable_of_mem {c : Char} {byte : UInt8} (printable : 32 ≤ c.toNat)
    (member : byte ∈ String.utf8EncodeChar c) : ¬byte < 32 := by
  intro small
  have small : byte.toNat < 32 := small
  have apart := ne_of_mem_utf8EncodeChar member (n := byte.toNat) (by omega) (by omega)
  exact apart UInt8.ofNat_toNat.symm

/-- A string is decoded to the bytes of what it spells, up to its closing quote. -/
theorem takes_characters {body : List UInt8} {spelled : List Char} (spells : Spells body spelled)
    {fuel : Nat} (enough : body.length < fuel) (gathered : List UInt8) :
    Takes (characters fuel gathered) (body ++ 34 :: rest)
      (gathered.reverse ++ spelled.flatMap String.utf8EncodeChar) rest := by
  -- The fuel is one more than the bytes. A round takes at least one of them, an escape several.
  induction spells generalizing fuel gathered with
  | nil =>
    obtain ⟨fuel, rfl⟩ := Nat.exists_eq_add_one_of_ne_zero (Nat.ne_zero_of_lt enough)
    refine .of_get fun cursor stands => ?_
    rw [stands.rest, List.flatMap_nil, List.append_nil]
    exact takes_advance.bind takes_pure
  | @plain c body spelled printable noQuote noBackslash spells ih =>
    rw [List.length_append] at enough
    obtain ⟨fuel, rfl⟩ : ∃ left, fuel = left + (String.utf8EncodeChar c).length :=
      ⟨fuel - (String.utf8EncodeChar c).length, by omega⟩
    rw [List.append_assoc, List.flatMap_cons]
    refine takes_plain (fun byte member => ?_) (ih (by omega) _)
    exact ⟨printable_of_mem printable member, plain_of_mem noQuote noBackslash member⟩
  | letter known spells ih =>
    obtain ⟨fuel, rfl⟩ := Nat.exists_eq_add_one_of_ne_zero (Nat.ne_zero_of_lt enough)
    simp only [List.length_cons] at enough
    rw [List.flatMap_cons]
    exact takes_escape (Escape.read_letter known _) rfl (ih (by omega) _)
  | @codePoint digits c body spelled unit spells ih =>
    obtain ⟨fuel, rfl⟩ := Nat.exists_eq_add_one_of_ne_zero (Nat.ne_zero_of_lt enough)
    simp only [List.length_cons, List.length_append] at enough
    have behind : (117 :: (digits ++ (body ++ 34 :: rest))).drop 5 = body ++ 34 :: rest := by
      rw [List.drop_succ_cons, ← unit.four, List.drop_left]
    simp only [List.cons_append, List.append_assoc, List.flatMap_cons]
    exact takes_escape (Escape.read_codePoint unit _) behind (ih (by omega) _)
  | @pair digits digits' high low c body spelled unit unit' highBound lowBound value spells ih =>
    obtain ⟨fuel, rfl⟩ := Nat.exists_eq_add_one_of_ne_zero (Nat.ne_zero_of_lt enough)
    simp only [List.length_cons, List.length_append] at enough
    have behind : (117 :: (digits ++ 92 :: 117 :: (digits' ++ (body ++ 34 :: rest)))).drop 11 =
        body ++ 34 :: rest := by
      simp [List.drop_append, unit.four, unit'.four]
    simp only [List.cons_append, List.append_assoc, List.flatMap_cons]
    exact takes_escape (Escape.read_pair unit unit' highBound lowBound value _) behind
      (ih (by omega) _)

/-- A string whose opening quote has been taken. -/
theorem takes_stringBody {text : List UInt8} {value : String} (denotes : Denotes text value)
    (rest : List UInt8) :
    ∃ later, text ++ rest = 34 :: later ∧ Takes stringBody later value rest := by
  cases denotes with
  | @mk body spelled spells =>
    refine ⟨body ++ 34 :: rest, by simp, .of_get fun cursor stands => ?_⟩
    have bound := stands.bound
    rw [List.length_append] at bound
    refine (takes_characters spells (by omega) []).bind ?_
    rw [List.reverse_nil, List.nil_append, fromUTF8_characters]
    exact takes_pure

end Decoder

/-- A string denotes one value only. -/
theorem Denotes.unique {text : List UInt8} {value value' : String} (denotes : Denotes text value)
    (denotes' : Denotes text value') : value = value' := by
  -- A decoder that takes a string as either of two values has one outcome.
  obtain ⟨later, front, takes⟩ := Decoder.takes_stringBody denotes []
  obtain ⟨later', front', takes'⟩ := Decoder.takes_stringBody denotes' []
  obtain rfl : later = later' := (List.cons.inj (front.symm.trans front')).2
  obtain ⟨after, ran, -⟩ := takes (.ofBytes later) ⟨rfl, Nat.le_refl _⟩
  obtain ⟨after', ran', -⟩ := takes' (.ofBytes later) ⟨rfl, Nat.le_refl _⟩
  cases ran.symm.trans ran'
  rfl

/-! ## Numbers -/

/-- The number that decimal digits stand for. -/
def decimal (digits : List UInt8) : Nat :=
  digits.foldl (fun number digit => number * 10 + digitValue digit) 0

/-- Nothing by which a number goes on is in front. -/
def Apart (rest : List UInt8) : Prop :=
  ∀ byte ∈ rest.head?, isDigit byte = false ∧ byte ≠ 46 ∧ byte ≠ 101 ∧ byte ≠ 69

theorem IntegerText.digits {text : List UInt8} (integer : IntegerText text) : Digits text := by
  cases integer with
  | zero => exact List.forall_mem_singleton.mpr rfl
  | positive digit nonzero digits => exact List.forall_mem_cons.mpr ⟨digit, digits⟩

/-- All digits find room if the number that they come to does. -/
theorem gather_eq {bound start : Nat} {digits : List UInt8}
    (room : digits.foldl (fun number digit => number * 10 + digitValue digit) start ≤ bound) :
    gather bound start digits =
      (digits.foldl (fun number digit => number * 10 + digitValue digit) start, 0) := by
  have grows (digits : List UInt8) (start : Nat) :
      start ≤ digits.foldl (fun number digit => number * 10 + digitValue digit) start := by
    induction digits generalizing start with
    | nil => exact Nat.le_refl start
    | cons digit digits ih =>
      have step := ih (start * 10 + digitValue digit)
      rw [List.foldl_cons]
      omega
  induction digits generalizing start with
  | nil => rfl
  | cons digit digits ih =>
    rw [List.foldl_cons] at room ⊢
    rw [gather, if_pos (Nat.le_trans (grows _ _) room)]
    exact ih room

namespace Decoder

variable {rest : List UInt8}

theorem takes_digits {run : List UInt8} (digits : Digits run)
    (ends : ∀ byte ∈ rest.head?, isDigit byte = false) :
    Takes Decoder.digits (run ++ rest) run rest := by
  have taken : (run ++ rest).takeWhile isDigit = run := by
    rw [List.takeWhile_append_of_pos digits]
    cases rest with
    | nil => simp
    | cons byte rest => simp [ends byte rfl]
  refine .of_get fun cursor stands => ?_
  rw [stands.rest, taken]
  have moved := takes_advanceBy (run ++ rest) run.length
  rw [List.drop_left] at moved
  exact moved.bind takes_pure

/-- What stands behind the digits of an integer. -/
theorem takes_integral {significand : Nat} (apart : Apart rest) :
    Takes (do
      match ← peek? with
      | some 46 => fraction true ⟨significand, 0⟩
      | some 101 | some 69 => exponent true ⟨significand, 0⟩
      | _ => return integral true significand) rest (.int significand) rest := by
  refine takes_peek.bind ?_
  split
  next point => exact absurd rfl (apart 46 point).2.1
  next mark => exact absurd rfl (apart 101 mark).2.2.1
  next mark => exact absurd rfl (apart 69 mark).2.2.2
  · exact takes_pure

/-- An integer that a significand has room for is decoded to its value. -/
theorem takes_number {text : List UInt8} (integer : IntegerText text)
    (room : decimal text ≤ maxSignificand) (apart : Apart rest) :
    Takes (number true) (text ++ rest) (.int (decimal text)) rest := by
  have ends : ∀ byte ∈ rest.head?, isDigit byte = false := fun byte front => (apart byte front).1
  refine takes_peek.bind ?_
  cases integer with
  | zero =>
    have alone : rest.head?.any isDigit = false := by
      cases rest with
      | nil => rfl
      | cons byte rest => exact ends byte rfl
    refine takes_advance.bind (takes_pure.bind (takes_peek.bind ?_))
    rw [if_neg (by simp [alone]), gather_eq room]
    exact takes_integral apart
  | @positive first run digit nonzero digits =>
    have all : Digits (first :: run) := List.forall_mem_cons.mpr ⟨digit, digits⟩
    simp only [List.cons_append, List.head?_cons]
    rw [if_neg (by simp [digit]), if_neg nonzero]
    refine (takes_digits all ends).bind (takes_peek.bind ?_)
    rw [if_neg (by simp [nonzero]), gather_eq room]
    exact takes_integral apart

end Decoder

end Batchwork.Json
