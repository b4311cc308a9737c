import Batchwork.Proofs.Json.Numerals
import Batchwork.Proofs.Json.Strings

/-!
# Values that are read

What decodes as a value is the text of one, whatever it nests. Main statements: `Reads.document`
for a value in front of other bytes, `decode_derives` for a whole text.
-/

namespace Batchwork.Json

namespace Decoder

variable {α : Type} {bytes rest : List UInt8}

/-- What a decoder moves over: blanks and the text of a value. -/
def ReadsValues (shape : Decoder α) : Prop :=
  ∀ {bytes value rest}, Reads shape bytes value rest →
    ∃ gap text, Blank gap ∧ bytes = gap ++ (text ++ rest) ∧ Derives .value text

/-- What stands behind a part of a list: nothing, or a comma and the other parts. -/
def Others (list : Symbol) (text : List UInt8) : Prop :=
  text = [] ∨ ∃ body, text = 44 :: body ∧ Derives list body

theorem Others.elements {text more : List UInt8} (first : Derives .element text)
    (others : Others .elements more) : Derives .elements (text ++ more) := by
  rcases others with rfl | ⟨body, rfl, later⟩
  · rw [List.append_nil]
    exact .lastElement first
  · exact .elements first later

theorem Others.members {text more : List UInt8} (first : Derives .member text)
    (others : Others .members more) : Derives .members (text ++ more) := by
  rcases others with rfl | ⟨body, rfl, later⟩
  · rw [List.append_nil]
    exact .lastMember first
  · exact .members first later

/-- No blanks are left in front of a closing bracket that has been seen. -/
theorem closing_inj {closing : UInt8} {gap before after : List UInt8}
    (solid : isBlank closing = false) (blank : Blank gap)
    (same : closing :: before = gap ++ closing :: after) : before = after :=
  (Blank.unique (List.forall_mem_nil _) blank solid solid same).2.2

/-! ## Elements -/

theorem Reads.hasElement_none {first : Bool} (reads : Reads (hasElement first) bytes false rest) :
    ∃ gap later, Blank gap ∧ bytes = gap ++ rest ∧ rest = 93 :: later := by
  obtain ⟨gap, middle, blank, split, reads⟩ := reads.of_peekToken
  split at reads
  · exact absurd reads not_reads_failPeek
  next closing =>
    obtain ⟨-, rfl⟩ := reads_pure.mp reads
    obtain ⟨later, rfl⟩ := List.head?_eq_some_iff.mp closing
    exact ⟨gap, later, blank, split, rfl⟩
  · split at reads
    · cases (reads_pure.mp reads).1
    · obtain ⟨_, _, _, _, reads⟩ := reads.of_advance.of_peekToken
      split at reads
      · exact absurd reads not_reads_failPeek
      · cases (reads_pure.mp reads).1
      · exact absurd reads not_reads_failPeek
  · split at reads
    · cases (reads_pure.mp reads).1
    · exact absurd reads not_reads_failPeek

theorem Reads.hasElement_first (reads : Reads (hasElement true) bytes true rest) :
    ∃ gap, Blank gap ∧ bytes = gap ++ rest := by
  obtain ⟨gap, middle, blank, split, reads⟩ := reads.of_peekToken
  have same : rest = middle := by
    split at reads
    · exact absurd reads not_reads_failPeek
    · cases (reads_pure.mp reads).1
    · exact (reads_pure.mp reads).2
    · exact (reads_pure.mp reads).2
  exact ⟨gap, blank, same ▸ split⟩

theorem Reads.hasElement_later (reads : Reads (hasElement false) bytes true rest) :
    ∃ gap between, Blank gap ∧ Blank between ∧ bytes = gap ++ 44 :: (between ++ rest) := by
  obtain ⟨gap, middle, blank, split, reads⟩ := reads.of_peekToken
  split at reads
  · exact absurd reads not_reads_failPeek
  · cases (reads_pure.mp reads).1
  next comma =>
    obtain ⟨later, rfl⟩ := List.head?_eq_some_iff.mp comma
    obtain ⟨between, middle, blank', split', reads⟩ := reads.of_advance.of_peekToken
    have same : rest = middle := by
      split at reads
      · exact absurd reads not_reads_failPeek
      · exact (reads_pure.mp reads).2
      · exact absurd reads not_reads_failPeek
    have split' : later = between ++ middle := split'
    exact ⟨gap, between, blank, blank', by rw [split, split', same]⟩
  · exact absurd reads not_reads_failPeek

/-- Whether there is an element is decided before it is read. -/
theorem Reads.element? {first : Bool} {shape : Decoder α} {value? : Option α}
    (reads : Reads (element? first shape) bytes value? rest) :
    value? = none ∧ Reads (hasElement first) bytes false rest ∨
      ∃ value middle, value? = some value ∧ Reads (hasElement first) bytes true middle ∧
        Reads shape middle value rest := by
  obtain ⟨more, middle, asked, reads⟩ := reads.bind
  cases more with
  | false =>
    obtain ⟨rfl, rfl⟩ := reads_pure.mp reads
    exact .inl ⟨rfl, asked⟩
  | true =>
    obtain ⟨value, last, read, reads⟩ := reads.bind
    obtain ⟨rfl, rfl⟩ := reads_pure.mp reads
    exact .inr ⟨value, middle, rfl, asked, read⟩

/-- The elements behind the first one, up to the closing bracket. -/
theorem Reads.elements_later {shape : Decoder α} (sound : ReadsValues shape) {fuel : Nat}
    {values : List α} (reads : Reads (Shape.elements shape fuel false) bytes values rest) :
    ∃ gap more later, Blank gap ∧ Others .elements more ∧ bytes = gap ++ (more ++ rest) ∧
      rest = 93 :: later := by
  induction fuel generalizing bytes values with
  | zero => exact absurd reads not_reads_fail
  | succ fuel ih =>
    obtain ⟨value?, middle, front, reads⟩ := reads.bind
    obtain ⟨rfl, asked⟩ | ⟨value, behind, rfl, asked, read⟩ := front.element?
    · obtain ⟨-, rfl⟩ := reads_pure.mp reads
      obtain ⟨gap, later, blank, split, closing⟩ := asked.hasElement_none
      exact ⟨gap, [], later, blank, .inl rfl, split, closing⟩
    · obtain ⟨values, last, reads, ended⟩ := reads.bind
      obtain ⟨-, rfl⟩ := reads_pure.mp ended
      obtain ⟨gap, between, blank, blank', split⟩ := asked.hasElement_later
      obtain ⟨before, text, blanks, split', derives⟩ := sound read
      obtain ⟨after, more, later, trailing, others, split'', closing⟩ := ih reads
      -- Of the blanks behind this value it is the next round that tells.
      have element := Derives.element (blank'.append blanks) derives trailing
      refine ⟨gap, 44 :: (between ++ before ++ text ++ after ++ more), later, blank,
        .inr ⟨_, rfl, others.elements element⟩, ?_, closing⟩
      simp [split, split', split'']

/-- What stands between the brackets of an array. -/
theorem Reads.elements {shape : Decoder α} (sound : ReadsValues shape) {fuel : Nat}
    {values : List α} (reads : Reads (Shape.elements shape fuel true) bytes values rest) :
    ∃ body later, (Blank body ∨ Derives .elements body) ∧ bytes = body ++ rest ∧
      rest = 93 :: later := by
  cases fuel with
  | zero => exact absurd reads not_reads_fail
  | succ fuel =>
    obtain ⟨value?, middle, front, reads⟩ := reads.bind
    obtain ⟨rfl, asked⟩ | ⟨value, behind, rfl, asked, read⟩ := front.element?
    · obtain ⟨-, rfl⟩ := reads_pure.mp reads
      obtain ⟨gap, later, blank, split, closing⟩ := asked.hasElement_none
      exact ⟨gap, later, .inl blank, split, closing⟩
    · obtain ⟨values, last, reads, ended⟩ := reads.bind
      obtain ⟨-, rfl⟩ := reads_pure.mp ended
      obtain ⟨gap, blank, split⟩ := asked.hasElement_first
      obtain ⟨before, text, blanks, split', derives⟩ := sound read
      obtain ⟨after, more, later, trailing, others, split'', closing⟩ := reads.elements_later sound
      have element := Derives.element (blank.append blanks) derives trailing
      refine ⟨gap ++ before ++ text ++ after ++ more, later, .inr (others.elements element), ?_,
        closing⟩
      simp [split, split', split'']

theorem Reads.endList {value : Unit} (reads : Reads endList bytes value rest) :
    ∃ gap, Blank gap ∧ bytes = gap ++ 93 :: rest := by
  obtain ⟨gap, middle, blank, split, reads⟩ := reads.of_peekToken
  split at reads
  next closing =>
    obtain ⟨later, rfl⟩ := List.head?_eq_some_iff.mp closing
    obtain rfl := reads_advance.mp reads
    exact ⟨gap, blank, split⟩
  · obtain ⟨_, _, _, _, reads⟩ := reads.of_advance.of_peekToken
    split at reads
    · exact absurd reads not_reads_failPeek
    · exact absurd reads not_reads_failPeek
  · exact absurd reads not_reads_failPeek
  · exact absurd reads not_reads_failPeek

/-! ## Members -/

theorem Reads.hasMember_none {first : Bool} (reads : Reads (hasMember first) bytes false rest) :
    ∃ gap later, Blank gap ∧ bytes = gap ++ rest ∧ rest = 125 :: later := by
  obtain ⟨gap, middle, blank, split, reads⟩ := reads.of_peekToken
  split at reads
  · exact absurd reads not_reads_failPeek
  next closing =>
    obtain ⟨-, rfl⟩ := reads_pure.mp reads
    obtain ⟨later, rfl⟩ := List.head?_eq_some_iff.mp closing
    exact ⟨gap, later, blank, split, rfl⟩
  · split at reads
    · cases (reads_pure.mp reads).1
    · exact absurd reads not_reads_failPeek
  · split at reads
    · exact absurd reads not_reads_failPeek
    · obtain ⟨_, _, _, _, reads⟩ := reads.of_advance.of_peekToken
      split at reads
      · cases (reads_pure.mp reads).1
      · exact absurd reads not_reads_failPeek
      · exact absurd reads not_reads_failPeek
      · exact absurd reads not_reads_failPeek
  · exact absurd reads not_reads_failPeek

theorem Reads.hasMember_first (reads : Reads (hasMember true) bytes true rest) :
    ∃ gap later, Blank gap ∧ bytes = gap ++ rest ∧ rest = 34 :: later := by
  obtain ⟨gap, middle, blank, split, reads⟩ := reads.of_peekToken
  split at reads
  · exact absurd reads not_reads_failPeek
  · cases (reads_pure.mp reads).1
  next quote =>
    obtain ⟨-, rfl⟩ := reads_pure.mp reads
    obtain ⟨later, rfl⟩ := List.head?_eq_some_iff.mp quote
    exact ⟨gap, later, blank, split, rfl⟩
  · exact absurd reads not_reads_failPeek
  · exact absurd reads not_reads_failPeek

theorem Reads.hasMember_later (reads : Reads (hasMember false) bytes true rest) :
    ∃ gap between later, Blank gap ∧ Blank between ∧ bytes = gap ++ 44 :: (between ++ rest) ∧
      rest = 34 :: later := by
  obtain ⟨gap, middle, blank, split, reads⟩ := reads.of_peekToken
  split at reads
  · exact absurd reads not_reads_failPeek
  · cases (reads_pure.mp reads).1
  · exact absurd reads not_reads_failPeek
  next comma =>
    obtain ⟨behind, rfl⟩ := List.head?_eq_some_iff.mp comma
    obtain ⟨between, middle, blank', split', reads⟩ := reads.of_advance.of_peekToken
    split at reads
    next quote =>
      obtain ⟨-, rfl⟩ := reads_pure.mp reads
      obtain ⟨later, rfl⟩ := List.head?_eq_some_iff.mp quote
      have split' : behind = between ++ 34 :: later := split'
      exact ⟨gap, between, later, blank, blank', by rw [split, split'], rfl⟩
    · exact absurd reads not_reads_failPeek
    · exact absurd reads not_reads_failPeek
    · exact absurd reads not_reads_failPeek
  · exact absurd reads not_reads_failPeek

/-- Whether there is a member is decided before its name is read. -/
theorem Reads.memberName? {first : Bool} {name? : Option String}
    (reads : Reads (memberName? first) bytes name? rest) :
    name? = none ∧ Reads (hasMember first) bytes false rest ∨
      ∃ name middle, name? = some name ∧ Reads (hasMember first) bytes true middle ∧
        Reads Decoder.stringBody middle.tail name rest := by
  obtain ⟨more, middle, asked, reads⟩ := reads.bind
  cases more with
  | false =>
    obtain ⟨rfl, rfl⟩ := reads_pure.mp reads
    exact .inl ⟨rfl, asked⟩
  | true =>
    obtain ⟨name, last, read, reads⟩ := reads.of_advance.bind
    obtain ⟨rfl, rfl⟩ := reads_pure.mp reads
    exact .inr ⟨name, middle, rfl, asked, read⟩

theorem Reads.colon {value : Unit} (reads : Reads colon bytes value rest) :
    ∃ gap, Blank gap ∧ bytes = gap ++ 58 :: rest := by
  obtain ⟨gap, middle, blank, split, reads⟩ := reads.of_peekToken
  split at reads
  next mark =>
    obtain ⟨later, rfl⟩ := List.head?_eq_some_iff.mp mark
    obtain rfl := reads_advance.mp reads
    exact ⟨gap, blank, split⟩
  · exact absurd reads not_reads_failPeek
  · exact absurd reads not_reads_failPeek

theorem Reads.endObject {value : Unit} (reads : Reads endObject bytes value rest) :
    ∃ gap, Blank gap ∧ bytes = gap ++ 125 :: rest := by
  obtain ⟨gap, middle, blank, split, reads⟩ := reads.of_peekToken
  split at reads
  next closing =>
    obtain ⟨later, rfl⟩ := List.head?_eq_some_iff.mp closing
    obtain rfl := reads_advance.mp reads
    exact ⟨gap, blank, split⟩
  · exact absurd reads not_reads_failPeek
  · exact absurd reads not_reads_failPeek
  · exact absurd reads not_reads_failPeek

/-- A member of an object, from the opening quote of its name to the end of its value. -/
theorem reads_member {shape : Decoder α} (sound : ReadsValues shape) {name : String}
    {value : α} {middle inside : List UInt8} {u : Unit}
    (named : Reads stringBody bytes name middle) (marked : Reads colon middle u inside)
    (read : Reads shape inside value rest) :
    ∃ string between before text, StringText string ∧ Blank between ∧ Blank before ∧
      Derives .value text ∧
      34 :: bytes = string ++ between ++ 58 :: (before ++ (text ++ rest)) := by
  obtain ⟨string, front, quoted⟩ := named.stringBody
  obtain ⟨between, blank, rfl⟩ := marked.colon
  obtain ⟨before, text, blank', rfl, derives⟩ := sound read
  exact ⟨string, between, before, text, quoted, blank, blank', derives, by rw [front]; simp⟩

/-- The members behind the first one, up to the closing bracket. -/
theorem Reads.members_later {shape : Decoder Value} (sound : ReadsValues shape) {fuel : Nat}
    {values : List (String × Value)} (reads : Reads (members shape fuel false) bytes values rest) :
    ∃ gap more later, Blank gap ∧ Others .members more ∧ bytes = gap ++ (more ++ rest) ∧
      rest = 125 :: later := by
  induction fuel generalizing bytes values with
  | zero => exact absurd reads not_reads_fail
  | succ fuel ih =>
    obtain ⟨name?, middle, front, reads⟩ := reads.bind
    obtain ⟨rfl, asked⟩ | ⟨name, quote, rfl, asked, named⟩ := front.memberName?
    · obtain ⟨-, rfl⟩ := reads_pure.mp reads
      obtain ⟨gap, later, blank, split, closing⟩ := asked.hasMember_none
      exact ⟨gap, [], later, blank, .inl rfl, split, closing⟩
    · obtain ⟨_, inside, marked, reads⟩ := reads.bind
      obtain ⟨value, behind, read, reads⟩ := reads.bind
      obtain ⟨values, last, reads, ended⟩ := reads.bind
      obtain ⟨-, rfl⟩ := reads_pure.mp ended
      obtain ⟨gap, leading, letters, blank, blank', split, rfl⟩ := asked.hasMember_later
      obtain ⟨string, between, before, text, quoted, blanks, blanks', derives, split'⟩ :=
        reads_member sound named marked read
      obtain ⟨after, more, later, trailing, others, split'', closing⟩ := ih reads
      have split' : 34 :: letters =
          string ++ between ++ 58 :: (before ++ (text ++ behind)) := split'
      have member := Derives.member blank' quoted blanks (.element blanks' derives trailing)
      refine ⟨gap, 44 :: (leading ++ string ++ between ++ 58 :: (before ++ text ++ after) ++ more),
        later, blank, .inr ⟨_, rfl, others.members member⟩, ?_, closing⟩
      rw [split, split']
      simp [split'']

/-- What stands between the brackets of an object. -/
theorem Reads.members {shape : Decoder Value} (sound : ReadsValues shape) {fuel : Nat}
    {values : List (String × Value)}
    (reads : Reads (Json.members shape fuel true) bytes values rest) :
    ∃ body later, (Blank body ∨ Derives .members body) ∧ bytes = body ++ rest ∧
      rest = 125 :: later := by
  cases fuel with
  | zero => exact absurd reads not_reads_fail
  | succ fuel =>
    obtain ⟨name?, middle, front, reads⟩ := reads.bind
    obtain ⟨rfl, asked⟩ | ⟨name, quote, rfl, asked, named⟩ := front.memberName?
    · obtain ⟨-, rfl⟩ := reads_pure.mp reads
      obtain ⟨gap, later, blank, split, closing⟩ := asked.hasMember_none
      exact ⟨gap, later, .inl blank, split, closing⟩
    · obtain ⟨_, inside, marked, reads⟩ := reads.bind
      obtain ⟨value, behind, read, reads⟩ := reads.bind
      obtain ⟨values, last, reads, ended⟩ := reads.bind
      obtain ⟨-, rfl⟩ := reads_pure.mp ended
      obtain ⟨leading, letters, blank, split, rfl⟩ := asked.hasMember_first
      obtain ⟨string, between, before, text, quoted, blanks, blanks', derives, split'⟩ :=
        reads_member sound named marked read
      obtain ⟨after, more, later, trailing, others, split'', closing⟩ := reads.members_later sound
      have split' : 34 :: letters =
          string ++ between ++ 58 :: (before ++ (text ++ behind)) := split'
      have member := Derives.member blank quoted blanks (.element blanks' derives trailing)
      refine ⟨leading ++ string ++ between ++ 58 :: (before ++ text ++ after) ++ more, later,
        .inr (others.members member), ?_, closing⟩
      rw [split, split']
      simp [split'']

/-! ## Values -/

/-- A word whose first letter has been seen. -/
theorem reads_word {first : UInt8} {later letters : List UInt8} {given value : α}
    (reads : Reads (do
      advance
      word letters
      return given) (first :: later) value rest) : first :: later = first :: letters ++ rest := by
  obtain ⟨_, middle, front, reads⟩ := reads.of_advance.bind
  obtain ⟨-, rfl⟩ := reads_pure.mp reads
  have split : later = letters ++ rest := front.word
  rw [split, List.cons_append]

theorem readsValues_valueOver {inner? : Option (Decoder Value)}
    (sound : ∀ inner, inner? = some inner → ReadsValues inner) :
    ReadsValues (valueOver inner?) := by
  intro bytes value rest reads
  obtain ⟨gap, byte, later, blank, split, reads⟩ := reads.of_valueStart
  -- It is enough to know what stands behind the blanks.
  suffices found : ∃ text, byte :: later = text ++ rest ∧ Derives .value text by
    obtain ⟨text, split', derives⟩ := found
    exact ⟨gap, text, blank, by rw [split, split'], derives⟩
  split at reads
  · exact ⟨[110, 117, 108, 108], reads_word reads, .null⟩
  · exact ⟨[116, 114, 117, 101], reads_word reads, .true⟩
  · exact ⟨[102, 97, 108, 115, 101], reads_word reads, .false⟩
  · obtain ⟨number, middle, front, reads⟩ := reads.of_advance.bind
    obtain ⟨-, rfl⟩ := reads_pure.mp reads
    obtain ⟨text, split', number⟩ := front.numberText (.inr rfl)
    exact ⟨text, split', .number number⟩
  · obtain ⟨text, middle, front, reads⟩ := reads.of_advance.bind
    obtain ⟨-, rfl⟩ := reads_pure.mp reads
    obtain ⟨string, split', quoted⟩ := front.stringBody
    exact ⟨string, split', .string quoted⟩
  · cases inner? with
    | none => exact absurd reads not_reads_failPeek
    | some inner =>
      obtain ⟨middle, front, closed⟩ := reads.of_advance.closedBy
      obtain ⟨cursor, -, front⟩ := front.of_get
      obtain ⟨values, last, front, ended⟩ := front.bind
      obtain ⟨-, rfl⟩ := reads_pure.mp ended
      obtain ⟨body, behind, derives, split', rfl⟩ := front.elements (sound inner rfl)
      obtain ⟨gap, blanks, closing⟩ := closed.endList
      -- The elements have ended at the bracket, so that it alone is left to be closed.
      obtain rfl := closing_inj rfl blanks closing
      have split' : later = body ++ 93 :: behind := split'
      refine ⟨91 :: (body ++ [93]), by simp [split'], ?_⟩
      rcases derives with blank | elements
      · exact .emptyArray blank
      · exact .array elements
  · cases inner? with
    | none => exact absurd reads not_reads_failPeek
    | some inner =>
      obtain ⟨middle, front, closed⟩ := reads.of_advance.closedBy
      obtain ⟨cursor, -, front⟩ := front.of_get
      obtain ⟨values, last, front, ended⟩ := front.bind
      obtain ⟨-, rfl⟩ := reads_pure.mp ended
      obtain ⟨body, behind, derives, split', rfl⟩ := front.members (sound inner rfl)
      obtain ⟨gap, blanks, closing⟩ := closed.endObject
      obtain rfl := closing_inj rfl blanks closing
      have split' : later = body ++ 125 :: behind := split'
      refine ⟨123 :: (body ++ [125]), by simp [split'], ?_⟩
      rcases derives with blank | members
      · exact .emptyObject blank
      · exact .object members
  · split at reads
    · obtain ⟨number, middle, front, reads⟩ := reads.bind
      obtain ⟨-, rfl⟩ := reads_pure.mp reads
      obtain ⟨text, split', number⟩ := front.numberText (.inl rfl)
      exact ⟨text, split', .number number⟩
    · exact absurd reads not_reads_failPeek

/-- Whatever may be nested, what is read is the text of a value. -/
theorem readsValues_document (depth : Nat) : ReadsValues (document depth) := by
  induction depth with
  | zero =>
    apply readsValues_valueOver
    rintro inner ⟨⟩
  | succ depth ih =>
    apply readsValues_valueOver
    rintro inner ⟨⟩
    exact ih

/-- Behind what decodes as a whole text there are only blanks. -/
theorem reads_of_decode {decoder : Decoder α} {value : α}
    (decoded : Decoder.decode decoder bytes = .ok value) :
    ∃ after, Reads decoder bytes value after ∧ Blank after := by
  unfold Decoder.decode at decoded
  dsimp only at decoded
  split at decoded
  next found cursor run =>
    cases decoded
    have reads : Reads _ bytes value cursor.rest := ⟨.ofBytes bytes, cursor, rfl, rfl, run⟩
    obtain ⟨found, middle, front, reads⟩ := reads.bind
    obtain ⟨after, last, blank, split, reads⟩ := reads.of_peekToken
    split at reads
    next ended =>
      obtain ⟨rfl, -⟩ := reads_pure.mp reads
      rw [split, List.head?_eq_none_iff.mp ended, List.append_nil] at front
      exact ⟨after, front, blank⟩
    · exact absurd reads not_reads_failPeek
  · cases decoded

end Decoder

/-- A text that decodes is that of a value, with blanks around it. -/
theorem decode_derives {bytes : List UInt8} {value : Value}
    (decoded : decode document bytes = .ok value) :
    ∃ before text after, Blank before ∧ Derives .value text ∧ Blank after ∧
      bytes = before ++ (text ++ after) := by
  obtain ⟨after, reads, blank⟩ := Decoder.reads_of_decode decoded
  obtain ⟨before, text, blank', split, derives⟩ := Decoder.readsValues_document maxDepth reads
  exact ⟨before, text, after, blank', derives, blank, split⟩

end Batchwork.Json
