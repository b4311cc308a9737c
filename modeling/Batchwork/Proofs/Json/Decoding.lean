import Batchwork.Json.Document
import Batchwork.Proofs.Json.Grammar

/-!
# What a decoder reads

A decoder that succeeds has moved from some bytes to what is left of them, and gives a value. That
is all that is said of a run here: neither its place in the text nor how it fails. Main statements:
`Reads.bind`, which takes a run apart, and one statement for each decoder that reads blanks, a word
or a bracket.
-/

namespace Batchwork.Json.Decoder

variable {α β : Type}

/-- The decoder can give this value, leaving the rest of the bytes. -/
def Reads (decoder : Decoder α) (bytes : List UInt8) (value : α) (rest : List UInt8) : Prop :=
  ∃ cursor after, cursor.rest = bytes ∧ after.rest = rest ∧ decoder cursor = .ok value after

variable {bytes rest : List UInt8}

theorem Reads.bind {decoder : Decoder α} {next : α → Decoder β} {value : β}
    (reads : Reads (decoder >>= next) bytes value rest) :
    ∃ first middle, Reads decoder bytes first middle ∧ Reads (next first) middle value rest := by
  obtain ⟨cursor, after, rfl, rfl, run⟩ := reads
  have run : EStateM.bind decoder next cursor = .ok value after := run
  unfold EStateM.bind at run
  split at run
  next first middle ran => exact ⟨first, middle.rest, ⟨cursor, middle, rfl, rfl, ran⟩,
      ⟨middle, after, rfl, rfl, run⟩⟩
  · cases run

@[simp] theorem reads_pure {given value : α} :
    Reads (pure given) bytes value rest ↔ value = given ∧ rest = bytes := by
  constructor
  · rintro ⟨cursor, after, rfl, rfl, run⟩
    cases run
    exact ⟨rfl, rfl⟩
  · rintro ⟨rfl, rfl⟩
    exact ⟨.ofBytes rest, .ofBytes rest, rfl, rfl, rfl⟩

@[simp] theorem reads_get {cursor : Cursor} :
    Reads get bytes cursor rest ↔ cursor.rest = bytes ∧ rest = bytes := by
  constructor
  · rintro ⟨_, _, rfl, rfl, run⟩
    cases run
    exact ⟨rfl, rfl⟩
  · rintro ⟨rfl, rfl⟩
    exact ⟨cursor, cursor, rfl, rfl, rfl⟩

@[simp] theorem reads_peek {byte? : Option UInt8} :
    Reads peek? bytes byte? rest ↔ byte? = bytes.head? ∧ rest = bytes := by
  constructor
  · rintro ⟨_, _, rfl, rfl, run⟩
    cases run
    exact ⟨rfl, rfl⟩
  · rintro ⟨rfl, rfl⟩
    exact ⟨.ofBytes rest, .ofBytes rest, rfl, rfl, rfl⟩

theorem rest_advance (cursor : Cursor) : cursor.advance.rest = cursor.rest.tail := by
  obtain ⟨rest, position, size⟩ := cursor
  cases rest <;> rfl

theorem rest_advanceBy (n : Nat) (cursor : Cursor) :
    (cursor.advanceBy n).rest = cursor.rest.drop n := by
  induction n generalizing cursor with
  | zero => rfl
  | succ n ih => rw [Cursor.advanceBy, ih, rest_advance, List.drop_tail]

@[simp] theorem reads_advance {value : Unit} :
    Reads advance bytes value rest ↔ rest = bytes.tail := by
  constructor
  · rintro ⟨cursor, _, rfl, rfl, run⟩
    cases run
    exact rest_advance cursor
  · rintro rfl
    exact ⟨.ofBytes bytes, _, rfl, rest_advance _, rfl⟩

@[simp] theorem reads_advanceBy {n : Nat} {value : Unit} :
    Reads (modify (Cursor.advanceBy n)) bytes value rest ↔ rest = bytes.drop n := by
  constructor
  · rintro ⟨cursor, _, rfl, rfl, run⟩
    cases run
    exact rest_advanceBy n cursor
  · rintro rfl
    exact ⟨.ofBytes bytes, _, rfl, rest_advanceBy n _, rfl⟩

namespace Reads

variable {value : β}

theorem of_pure {given : α} {next : α → Decoder β}
    (reads : Reads (pure given >>= next) bytes value rest) :
    Reads (next given) bytes value rest := by
  obtain ⟨first, middle, front, later⟩ := reads.bind
  obtain ⟨rfl, rfl⟩ := reads_pure.mp front
  exact later

theorem of_peek {next : Option UInt8 → Decoder β}
    (reads : Reads (peek? >>= next) bytes value rest) :
    Reads (next bytes.head?) bytes value rest := by
  obtain ⟨first, middle, front, later⟩ := reads.bind
  obtain ⟨rfl, rfl⟩ := reads_peek.mp front
  exact later

theorem of_advance {next : Unit → Decoder β} (reads : Reads (advance >>= next) bytes value rest) :
    Reads (next ()) bytes.tail value rest := by
  obtain ⟨first, middle, front, later⟩ := reads.bind
  rw [reads_advance.mp front] at later
  exact later

theorem of_advanceBy {n : Nat} {next : Unit → Decoder β}
    (reads : Reads (modify (Cursor.advanceBy n) >>= next) bytes value rest) :
    Reads (next ()) (bytes.drop n) value rest := by
  obtain ⟨first, middle, front, later⟩ := reads.bind
  rw [reads_advanceBy.mp front] at later
  exact later

theorem of_get {next : Cursor → Decoder β} (reads : Reads (get >>= next) bytes value rest) :
    ∃ cursor : Cursor, cursor.rest = bytes ∧ Reads (next cursor) bytes value rest := by
  obtain ⟨cursor, middle, front, later⟩ := reads.bind
  obtain ⟨same, rfl⟩ := reads_get.mp front
  exact ⟨cursor, same, later⟩

end Reads

@[simp] theorem not_reads_fail {cause : Cause} {value : α} :
    ¬Reads (fail cause) bytes value rest := by
  rintro ⟨_, _, -, -, run⟩
  cases run

@[simp] theorem not_reads_failPeek {cause : Cause} {value : α} :
    ¬Reads (failPeek cause) bytes value rest := by
  rintro ⟨_, _, -, -, run⟩
  cases run

@[simp] theorem not_reads_throw {fault : Fault} {value : α} :
    ¬Reads (throw fault : Decoder α) bytes value rest := by
  rintro ⟨_, _, -, -, run⟩
  cases run

/-! ## Blanks -/

theorem skipBlanksFrom_eq (bytes : List UInt8) (place : Position) :
    ∃ gap, Blank gap ∧ bytes = gap ++ (skipBlanksFrom bytes place).1 := by
  induction bytes generalizing place with
  | nil => exact ⟨[], List.forall_mem_nil _, rfl⟩
  | cons byte bytes ih =>
    by_cases blank : isBlank byte = true
    · obtain ⟨gap, blanks, split⟩ := ih (place.after byte)
      refine ⟨byte :: gap, List.forall_mem_cons.mpr ⟨blank, blanks⟩, ?_⟩
      rw [skipBlanksFrom, if_pos blank, List.cons_append, ← split]
    · refine ⟨[], List.forall_mem_nil _, ?_⟩
      rw [skipBlanksFrom, if_neg blank, List.nil_append]

theorem Reads.peekToken {byte? : Option UInt8} (reads : Reads peekToken? bytes byte? rest) :
    ∃ gap, Blank gap ∧ bytes = gap ++ rest ∧ byte? = rest.head? := by
  obtain ⟨_, middle, ⟨cursor, _, rfl, rfl, skipped⟩, peeked⟩ := reads.bind
  cases skipped
  obtain ⟨rfl, rfl⟩ := reads_peek.mp peeked
  obtain ⟨gap, blank, split⟩ := skipBlanksFrom_eq cursor.rest cursor.position
  exact ⟨gap, blank, split, rfl⟩

theorem Reads.of_peekToken {next : Option UInt8 → Decoder β} {value : β}
    (reads : Reads (peekToken? >>= next) bytes value rest) :
    ∃ gap middle, Blank gap ∧ bytes = gap ++ middle ∧
      Reads (next middle.head?) middle value rest := by
  obtain ⟨byte?, middle, front, later⟩ := reads.bind
  obtain ⟨gap, blank, split, rfl⟩ := front.peekToken
  exact ⟨gap, middle, blank, split, later⟩

theorem Reads.of_valueStart {next : UInt8 → Decoder β} {value : β}
    (reads : Reads (valueStart >>= next) bytes value rest) :
    ∃ gap byte later, Blank gap ∧ bytes = gap ++ byte :: later ∧
      Reads (next byte) (byte :: later) value rest := by
  obtain ⟨byte, middle, front, reads⟩ := reads.bind
  obtain ⟨gap, _, blank, split, front⟩ := front.of_peekToken
  split at front
  next found =>
    obtain ⟨rfl, rfl⟩ := reads_pure.mp front
    obtain ⟨later, rfl⟩ := List.head?_eq_some_iff.mp found
    exact ⟨gap, _, later, blank, split, reads⟩
  · exact absurd front not_reads_failPeek

/-! ## Words and brackets -/

theorem Reads.word {letters : List UInt8} {value : Unit}
    (reads : Reads (word letters) bytes value rest) : bytes = letters ++ rest := by
  induction letters generalizing bytes with
  | nil => exact (reads_pure.mp reads).2.symm
  | cons expected letters ih =>
    obtain ⟨byte?, middle, front, reads⟩ := reads.bind
    obtain ⟨rfl, rfl⟩ := reads_pure.mp front.of_peek.of_advance
    split at reads
    · exact absurd reads not_reads_fail
    next found =>
      split at reads
      next same =>
        obtain ⟨later, rfl⟩ := List.head?_eq_some_iff.mp found
        rw [← same, List.cons_append, ← ih reads]
        rfl
      · exact absurd reads not_reads_fail

theorem Reads.closedBy {body : Decoder α} {close : Decoder Unit} {value : α}
    (reads : Reads (closedBy body close) bytes value rest) :
    ∃ middle, Reads body bytes value middle ∧ Reads close middle () rest := by
  obtain ⟨cursor, after, rfl, rfl, run⟩ := reads
  unfold Decoder.closedBy at run
  cases ran : body cursor with
  | error fault middle =>
    rw [ran] at run
    cases closed : close middle <;> simp [closed] at run
  | ok found middle =>
    rw [ran] at run
    cases closed : close middle with
    | error fault final => simp [closed] at run
    | ok closing final =>
      obtain ⟨rfl, rfl⟩ := by simpa [closed] using run
      exact ⟨middle.rest, ⟨cursor, middle, rfl, rfl, ran⟩, ⟨middle, final, rfl, rfl, closed⟩⟩

end Batchwork.Json.Decoder
