import Batchwork.Proofs.Json.Objects
import Batchwork.Proofs.Json.Taking
import Batchwork.Proofs.Json.Values
import Mathlib.Data.List.Forall2

/-!
# Values of the shapes

How a value of a shape is written, and that the shape accepts it so, with blanks around it; the
other way round, that a shape gives a value for the text of a JSON value only. Main statements:
`accepts_natural`, `accepts_list`, `readsValues_list` and the like for other shapes.
-/

namespace Batchwork.Json

variable {α β : Type}

/-! ## Texts -/

/-- `null`, or a string. -/
inductive OptionText : List UInt8 → Option String → Prop
  | null : OptionText [110, 117, 108, 108] none
  | given {text : List UInt8} {value : String} (denotes : Denotes text value) :
      OptionText text (some value)

inductive BoolText : List UInt8 → Bool → Prop
  | true : BoolText [116, 114, 117, 101] Bool.true
  | false : BoolText [102, 97, 108, 115, 101] Bool.false

/-- A natural number, by its digits. -/
structure NaturalText (text : List UInt8) (value : Nat) : Prop where
  integer : IntegerText text
  value : decimal text = value

/-- A list of strings. -/
inductive StringsText : List UInt8 → List String → Prop
  | mk {opening : List UInt8} {elements : List (Element isBlank)} {values : List String}
      (blank : Blank opening)
      (denote : List.Forall₂ (fun element value => Denotes element.text value) elements values) :
      StringsText (91 :: (opening ++ (ArrayDocument.listed elements ++ [93]))) values

theorem Apart.behind {gap rest : List UInt8} (blank : Blank gap) (apart : Apart rest) :
    Apart (gap ++ rest) := by
  cases gap with
  | nil => exact apart
  | cons byte gap =>
    rintro first ⟨⟩
    have blank := blank byte List.mem_cons_self
    simp only [isBlank, Bool.or_eq_true, decide_eq_true_eq] at blank
    rcases blank with ((rfl | rfl) | rfl) | rfl <;> decide

/-- Neither a comma nor a closing bracket goes on with a number. -/
theorem apart_following {closing : UInt8} (closes : closing = 93 ∨ closing = 125)
    (parts : List (List UInt8)) (rest : List UInt8) :
    Apart (following parts ++ closing :: rest) := by
  cases parts with
  | nil =>
    rintro first ⟨⟩
    rcases closes with rfl | rfl <;> decide
  | cons part parts =>
    rintro first ⟨⟩
    decide

namespace Decoder

variable {text gap between rest later : List UInt8} {value : α} {decoder : Decoder α}

/-- The decoder takes this text as this value, whatever blanks stand in front. -/
def Accepts (decoder : Decoder α) (text : List UInt8) (value : α) : Prop :=
  ∀ ⦃gap rest⦄, Blank gap → Apart rest → Takes decoder (gap ++ (text ++ rest)) value rest

theorem Accepts.map (f : α → β) (accepts : Accepts decoder text value) :
    Accepts (f <$> decoder) text (f value) :=
  fun _ _ blank apart => (accepts blank apart).map f

theorem accepts_text {string : String} (denotes : Denotes text string) (expected : String)
    (depth : Nat) : Accepts (Shape.text expected depth) text string := by
  intro gap rest blank apart
  obtain ⟨later, front, takes⟩ := takes_stringBody denotes rest
  rw [front]
  exact (takes_valueStart blank rfl).bind (takes_advance.bind takes)

theorem accepts_option {value : Option String} (written : OptionText text value) (depth : Nat) :
    Accepts (Shape.option .text depth) text value := by
  intro gap rest blank apart
  cases written with
  | null =>
    exact (takes_token blank rfl).bind
      (takes_advance.bind ((takes_word [117, 108, 108]).bind takes_pure))
  | given denotes =>
    have accepts := accepts_text denotes "a string" depth (List.forall_mem_nil _) apart
    obtain ⟨later, front, -⟩ := takes_stringBody denotes rest
    rw [front] at accepts ⊢
    exact (takes_token blank rfl).bind (accepts.bind takes_pure)

theorem accepts_bool {value : Bool} (written : BoolText text value) (depth : Nat) :
    Accepts (Shape.bool depth) text value := by
  intro gap rest blank apart
  cases written with
  | true =>
    exact (takes_valueStart blank rfl).bind
      (takes_advance.bind ((takes_word [114, 117, 101]).bind takes_pure))
  | false =>
    exact (takes_valueStart blank rfl).bind
      (takes_advance.bind ((takes_word [97, 108, 115, 101]).bind takes_pure))

theorem isBlank_digit {byte : UInt8} (digit : isDigit byte = true) : isBlank byte = false :=
  (Bool.or_eq_false_iff.mp (isGap_digit digit)).1

/-- A number of 64 bits is accepted by its digits. -/
theorem accepts_natural {value : Nat} (written : NaturalText text value)
    (bound : value < Nat.pow 2 64) (name : String) (depth : Nat) :
    Accepts (Shape.natural name 64 depth) text value := by
  obtain ⟨integer, rfl⟩ := written
  have room : decimal text ≤ maxSignificand := Nat.le_sub_one_of_lt bound
  have accepts : Accepts (Shape.integer name 0 (Nat.pow 2 64 - 1 : Nat) depth) text
      (decimal text) := by
    intro gap rest blank apart
    obtain ⟨first, later, front, digit⟩ :
        ∃ first later, text = first :: later ∧ isDigit first = true := by
      cases integer with
      | zero => exact ⟨48, [], rfl, rfl⟩
      | positive digit => exact ⟨_, _, rfl, digit⟩
    have number := takes_number integer room apart
    rw [front] at number ⊢
    refine (takes_valueStart blank (isBlank_digit digit)).bind ?_
    rw [if_pos (.inr digit)]
    refine Takes.placed ?_
    have unsigned : first ≠ 45 := by
      rintro rfl
      cases digit
    rw [if_neg unsigned]
    refine number.bind ?_
    have within : (0 : Int) ≤ decimal (first :: later) ∧
        (decimal (first :: later) : Int) ≤ (Nat.pow 2 64 - 1 : Nat) :=
      ⟨Int.natCast_nonneg _, Int.ofNat_le.mpr (front ▸ room)⟩
    dsimp only
    rw [if_pos within]
    exact takes_pure
  exact accepts.map Int.toNat

theorem accepts_errorKind {kind : ErrorKind} (denotes : Denotes text kind.name) (depth : Nat) :
    Accepts (Shape.errorKind depth) text kind := by
  intro gap rest blank apart
  have accepts := accepts_text denotes "variant identifier" depth (List.forall_mem_nil _) apart
  obtain ⟨later, front, -⟩ := takes_stringBody denotes rest
  rw [front] at accepts ⊢
  refine (takes_token blank rfl).bind (Takes.placed (accepts.bind ?_))
  rw [ErrorKind.ofName?_name]
  exact takes_pure

/-! ## Lists -/

theorem takes_noElement (first : Bool) (blank : Blank gap) :
    Takes (element? first decoder) (gap ++ 93 :: later) none (93 :: later) :=
  Takes.bind ((takes_token blank rfl).bind takes_pure) takes_pure

theorem takes_hasElement_first (blank : Blank gap) :
    Takes (hasElement true) (gap ++ 34 :: later) true (34 :: later) :=
  (takes_token blank rfl).bind takes_pure

theorem takes_hasElement_later (blank : Blank gap) (blank' : Blank between) :
    Takes (hasElement false) (gap ++ 44 :: (between ++ 34 :: later)) true (34 :: later) :=
  (takes_token blank rfl).bind (takes_advance.bind ((takes_token blank' rfl).bind takes_pure))

/-- An element that is a string, taken as this value. -/
def Quotes (decoder : Decoder α) (element : Element isBlank) (value : α) : Prop :=
  Accepts decoder element.text value ∧ ∃ string, Denotes element.text string

/-- An element, once it is known that there is one. -/
theorem Quotes.takes {element : Element isBlank} (quotes : Quotes decoder element value)
    (apart : Apart rest) (gap : List UInt8) {first : Bool}
    (asked : ∀ later, Takes (hasElement first) (gap ++ 34 :: later) true (34 :: later)) :
    Takes (element? first decoder) (gap ++ (element.content ++ rest)) (some value)
      (element.after ++ rest) := by
  obtain ⟨accepts, string, denotes⟩ := quotes
  have accepts := accepts (List.forall_mem_nil _) (apart.behind element.trailing)
  obtain ⟨later, front, -⟩ := takes_stringBody denotes (element.after ++ rest)
  rw [Element.content, List.append_assoc, front]
  rw [front] at accepts
  exact (asked later).bind (accepts.bind takes_pure)

theorem takes_elements_later {elements : List (Element isBlank)} {values : List α}
    (quote : List.Forall₂ (Quotes decoder) elements values) {fuel : Nat}
    (enough : elements.length < fuel) (blank : Blank gap) :
    Takes (Shape.elements decoder fuel false)
      (gap ++ (following (elements.map Element.bytes) ++ 93 :: rest)) values (93 :: rest) := by
  -- The blanks behind an element are those in front of the next comma or of the bracket.
  induction quote generalizing gap fuel with
  | nil =>
    obtain ⟨fuel, rfl⟩ := Nat.exists_eq_add_one_of_ne_zero (Nat.ne_zero_of_lt enough)
    exact (takes_noElement false blank).bind takes_pure
  | @cons element value elements values quotes others ih =>
    obtain ⟨fuel, rfl⟩ := Nat.exists_eq_add_one_of_ne_zero (Nat.ne_zero_of_lt enough)
    have split : gap ++ (following ((element :: elements).map Element.bytes) ++ 93 :: rest) =
        gap ++ 44 :: element.before ++
          (element.content ++ (following (elements.map Element.bytes) ++ 93 :: rest)) := by
      simp [Element.bytes]
    have apart := apart_following (.inl rfl) (elements.map Element.bytes) rest
    have taken := quotes.takes apart (gap ++ 44 :: element.before)
      fun later => by simpa using takes_hasElement_later blank element.leading
    rw [split]
    exact taken.bind ((ih (Nat.lt_of_succ_lt_succ enough) element.trailing).bind takes_pure)

/-- All elements of a list, with fuel for each of its bytes. -/
theorem takes_elements {opening : List UInt8} {elements : List (Element isBlank)} {values : List α}
    (quote : List.Forall₂ (Quotes decoder) elements values) (blank : Blank opening) {fuel : Nat}
    (enough : (opening ++ (ArrayDocument.listed elements ++ 93 :: rest)).length < fuel) :
    Takes (Shape.elements decoder fuel true)
      (opening ++ (ArrayDocument.listed elements ++ 93 :: rest)) values (93 :: rest) := by
  obtain ⟨fuel, rfl⟩ := Nat.exists_eq_add_one_of_ne_zero (Nat.ne_zero_of_lt enough)
  cases quote with
  | nil => exact (takes_noElement true blank).bind takes_pure
  | @cons element value elements values quotes others =>
    have split : opening ++ (ArrayDocument.listed (element :: elements) ++ 93 :: rest) =
        opening ++ element.before ++
          (element.content ++ (following (elements.map Element.bytes) ++ 93 :: rest)) := by
      simp [ArrayDocument.listed_cons, Element.bytes]
    have apart := apart_following (.inl rfl) (elements.map Element.bytes) rest
    have taken := quotes.takes apart (opening ++ element.before)
      fun later => takes_hasElement_first (blank.append element.leading)
    rw [split] at enough ⊢
    have room : elements.length < fuel := by
      have commas := length_le_following (elements.map Element.bytes)
      simp only [List.length_append, List.length_cons, List.length_map] at enough commas
      omega
    exact taken.bind ((takes_elements_later others room element.trailing).bind takes_pure)

/-- A list of strings is accepted if the strings are. -/
theorem accepts_list {shape : Shape α} {depth : Nat} {name : α → String} {values : List α}
    (written : StringsText text (values.map name))
    (accepts : ∀ {text value}, Denotes text (name value) → Accepts (shape depth) text value) :
    Accepts (Shape.list shape (depth + 1)) text values := by
  intro gap rest blank apart
  generalize named : values.map name = names at written
  obtain @⟨opening, elements, _, blank', denote⟩ := written
  subst named
  have quote : List.Forall₂ (Quotes (shape depth)) elements values :=
    (List.forall₂_map_right_iff.mp denote).imp fun _ _ denotes => ⟨accepts denotes, _, denotes⟩
  have split : 91 :: (opening ++ (ArrayDocument.listed elements ++ [93])) ++ rest =
      91 :: (opening ++ (ArrayDocument.listed elements ++ 93 :: rest)) := by simp
  rw [split]
  refine (takes_valueStart blank rfl).bind (Takes.placed (Takes.enter (Takes.closedBy ?_
    (takes_endList (List.forall_mem_nil _)))))
  refine .of_get fun cursor stands => ?_
  exact takes_elements quote blank' (Nat.lt_succ_of_le stands.bound)

/-! ## Only values are read -/

theorem Reads.map {f : α → β} {bytes : List UInt8} {value : β}
    (reads : Reads (f <$> decoder) bytes value rest) :
    ∃ inner, value = f inner ∧ Reads decoder bytes inner rest := by
  obtain ⟨cursor, after, rfl, rfl, run⟩ := reads
  have run : EStateM.map f decoder cursor = .ok value after := run
  unfold EStateM.map at run
  split at run
  next inner middle ran =>
    cases run
    exact ⟨inner, rfl, cursor, after, rfl, rfl, ran⟩
  · cases run

theorem Reads.placed {bytes : List UInt8} (reads : Reads (placed decoder) bytes value rest) :
    Reads decoder bytes value rest := by
  obtain ⟨cursor, after, rfl, rfl, run⟩ := reads
  unfold Decoder.placed at run
  split at run
  next ran =>
    cases run
    exact ⟨cursor, after, rfl, rfl, ran⟩
  · cases run

theorem Reads.enter {bytes : List UInt8} {depth : Nat} {body : Nat → Decoder α}
    (reads : Reads (enter depth body) bytes value rest) :
    ∃ inner, Reads (body inner) bytes.tail value rest := by
  cases depth with
  | zero => exact absurd reads not_reads_failPeek
  | succ inner => exact ⟨inner, reads.of_advance⟩

/-- A value of another type is an error. -/
theorem not_reads_mismatch {expected : String} {bytes : List UInt8} :
    ¬Reads (mismatch expected) bytes value rest := by
  intro reads
  obtain ⟨found, middle, -, rejected⟩ := reads.placed.bind
  exact not_reads_throw rejected

theorem readsValues_map (f : α → β) (sound : ReadsValues decoder) :
    ReadsValues (f <$> decoder) := by
  intro bytes value rest reads
  obtain ⟨inner, -, reads⟩ := reads.map
  exact sound reads

theorem Reads.quoted {expected value : String} {depth : Nat} {bytes : List UInt8}
    (reads : Reads (Shape.text expected depth) bytes value rest) :
    ∃ gap text, Blank gap ∧ bytes = gap ++ (text ++ rest) ∧ StringText text := by
  obtain ⟨gap, byte, later, blank, split, reads⟩ := reads.of_valueStart
  split at reads
  · obtain ⟨text, whole, string⟩ := reads.of_advance.stringBody
    exact ⟨gap, text, blank, by rw [split]; exact congrArg _ whole, string⟩
  · exact absurd reads not_reads_mismatch

theorem readsValues_text (expected : String) (depth : Nat) :
    ReadsValues (Shape.text expected depth) := by
  intro bytes value rest reads
  obtain ⟨gap, text, blank, split, string⟩ := reads.quoted
  exact ⟨gap, text, blank, split, .string string⟩

theorem readsValues_option {shape : Shape α} {depth : Nat} (sound : ReadsValues (shape depth)) :
    ReadsValues (Shape.option shape depth) := by
  intro bytes value rest reads
  obtain ⟨gap, middle, blank, split, reads⟩ := reads.of_peekToken
  split at reads
  next null =>
    obtain ⟨later, rfl⟩ := List.head?_eq_some_iff.mp null
    exact ⟨gap, [110, 117, 108, 108], blank, by rw [split, reads_word reads], .null⟩
  · obtain ⟨inner, last, reads, ended⟩ := reads.bind
    obtain ⟨-, rfl⟩ := reads_pure.mp ended
    obtain ⟨gap', text, blank', split', derives⟩ := sound reads
    exact ⟨gap ++ gap', text, blank.append blank', by rw [split, split', List.append_assoc],
      derives⟩

theorem readsValues_bool (depth : Nat) : ReadsValues (Shape.bool depth) := by
  intro bytes value rest reads
  obtain ⟨gap, byte, later, blank, split, reads⟩ := reads.of_valueStart
  split at reads
  · exact ⟨gap, [116, 114, 117, 101], blank, by rw [split, reads_word reads], .true⟩
  · exact ⟨gap, [102, 97, 108, 115, 101], blank, by rw [split, reads_word reads], .false⟩
  · exact absurd reads not_reads_mismatch

/-- What is made of a number moves no cursor. -/
theorem reads_accepted {accept : Number → Except Cause α} {number : Number} {bytes : List UInt8}
    (reads : Reads (match accept number with
      | .ok result => return result
      | .error cause => reject cause) bytes value rest) : rest = bytes := by
  split at reads
  · exact (reads_pure.mp reads).2
  · exact absurd reads not_reads_throw

theorem readsValues_numeric (expected : String) (accept : Number → Except Cause α) (depth : Nat) :
    ReadsValues (Shape.numeric expected accept depth) := by
  intro bytes value rest reads
  obtain ⟨gap, byte, later, blank, split, reads⟩ := reads.of_valueStart
  split at reads
  · replace reads := reads.placed
    split at reads
    next minus =>
      obtain ⟨number, middle, front, reads⟩ := reads.of_advance.bind
      obtain rfl := reads_accepted reads
      obtain ⟨text, whole, number⟩ := front.numberText (.inr rfl)
      exact ⟨gap, text, blank, by rw [split, minus]; exact congrArg _ whole, .number number⟩
    next =>
      obtain ⟨number, middle, front, reads⟩ := reads.bind
      obtain rfl := reads_accepted reads
      obtain ⟨text, whole, number⟩ := front.numberText (.inl rfl)
      exact ⟨gap, text, blank, by rw [split]; exact congrArg _ whole, .number number⟩
  · exact absurd reads not_reads_mismatch

theorem readsValues_list {shape : Shape α} (sound : ∀ depth, ReadsValues (shape depth))
    (depth : Nat) : ReadsValues (Shape.list shape depth) := by
  intro bytes value rest reads
  obtain ⟨gap, byte, later, blank, split, reads⟩ := reads.of_valueStart
  split at reads
  · obtain ⟨inner, reads⟩ := reads.placed.enter
    obtain ⟨middle, front, closed⟩ := reads.closedBy
    obtain ⟨cursor, -, front⟩ := front.of_get
    obtain ⟨body, behind, derives, split', rfl⟩ := front.elements (sound inner)
    obtain ⟨gap', blanks, closing⟩ := closed.endList
    -- The elements have ended at the bracket, so that it alone is left to be closed.
    obtain rfl := closing_inj rfl blanks closing
    have split' : later = body ++ 93 :: behind := split'
    refine ⟨gap, 91 :: (body ++ [93]), blank, by simp [split, split'], ?_⟩
    rcases derives with blank | elements
    · exact .emptyArray blank
    · exact .array elements
  · exact absurd reads not_reads_mismatch

theorem Reads.unit {depth : Nat} {value : Unit} {bytes : List UInt8}
    (reads : Reads (Shape.unit depth) bytes value rest) :
    ∃ gap, Blank gap ∧ bytes = gap ++ ([110, 117, 108, 108] ++ rest) := by
  obtain ⟨gap, byte, later, blank, split, reads⟩ := reads.of_valueStart
  split at reads
  · have word : later = [117, 108, 108] ++ rest := reads.of_advance.word
    exact ⟨gap, blank, by rw [split, word]; rfl⟩
  · exact absurd reads not_reads_mismatch

theorem reads_variant {known : List String} {read : String → Option α} {depth : Nat}
    {bytes : List UInt8} (reads : Reads (Decoder.placed do
      let given ← Shape.text "variant identifier" depth
      match read given with
      | some value => return value
      | none => reject (.unknownVariant given known)) bytes value rest) :
    ∃ gap text, Blank gap ∧ bytes = gap ++ (text ++ rest) ∧ StringText text := by
  obtain ⟨given, middle, front, reads⟩ := reads.placed.bind
  split at reads
  · obtain ⟨-, rfl⟩ := reads_pure.mp reads
    exact front.quoted
  · exact absurd reads not_reads_throw

/-- A name is read from a string, or from an object whose only member has it and is `null`. -/
theorem readsValues_name (known : List String) (read : String → Option α) (depth : Nat) :
    ReadsValues (Shape.name known read depth) := by
  intro bytes value rest reads
  obtain ⟨gap, middle, blank, split, reads⟩ := reads.of_peekToken
  split at reads
  · exact absurd reads not_reads_failPeek
  · obtain ⟨gap', text, blank', split', string⟩ := reads_variant reads
    exact ⟨gap ++ gap', text, blank.append blank', by rw [split, split', List.append_assoc],
      .string string⟩
  next brace =>
    obtain ⟨later, rfl⟩ := List.head?_eq_some_iff.mp brace
    obtain ⟨inner, reads⟩ := reads.enter
    obtain ⟨leading, front, blank₁, split₁, reads⟩ := reads.of_peekToken
    split at reads
    · exact absurd reads not_reads_failPeek
    · obtain ⟨value, behind, named, reads⟩ := reads.bind
      obtain ⟨leading', name, blank₂, split₂, string⟩ := reads_variant named
      obtain ⟨_, inside, marked, reads⟩ := reads.bind
      obtain ⟨between, blank₃, split₃⟩ := marked.colon
      obtain ⟨_, last, null, reads⟩ := reads.bind
      obtain ⟨before, blank₄, split₄⟩ := null.unit
      obtain ⟨after, closing, blank₅, split₅, reads⟩ := reads.of_peekToken
      split at reads
      next closed =>
        obtain ⟨others, rfl⟩ := List.head?_eq_some_iff.mp closed
        obtain ⟨-, rfl⟩ := reads_pure.mp reads.of_advance
        have split₁ : later = leading ++ front := split₁
        refine ⟨gap, 123 :: (leading ++ leading' ++ name ++ between ++
          58 :: (before ++ [110, 117, 108, 108] ++ after) ++ [125]), blank, ?_, ?_⟩
        · simp [split, split₁, split₂, split₃, split₄, split₅]
        · exact .object (.lastMember (.member (blank₁.append blank₂) string blank₃
            (.element blank₄ .null blank₅)))
      · exact absurd reads not_reads_fail
      · exact absurd reads not_reads_fail
    · exact absurd reads not_reads_failPeek
  · exact absurd reads not_reads_failPeek

end Decoder

end Batchwork.Json
