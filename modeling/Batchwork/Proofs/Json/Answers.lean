import Batchwork.Json.ByteSource
import Batchwork.Proofs.Reader.Readings

/-!
# What a source answers

A buffered source is known by what its calls for a byte answer, one after the other. A buffer with
room for a byte answers as the source in front of which it stands: the bytes of all deliveries, in
whatever pieces they come, and between them the failures and the momentary ends. Main statement:
`answers_of_pos`.
-/

namespace Batchwork.Json

/-- What a call for the next byte answers: the byte, nothing at what looks like the end of the
input, or why it failed. -/
abbrev Answer := Except String (Option UInt8)

/-- The answers that hand over these bytes. -/
def served (bytes : List UInt8) : List Answer := bytes.map fun byte => .ok (some byte)

@[simp] theorem served_nil : served [] = [] := rfl

@[simp] theorem served_cons (byte : UInt8) (bytes : List UInt8) :
    served (byte :: bytes) = .ok (some byte) :: served bytes := rfl

@[simp] theorem served_append (first second : List UInt8) :
    served (first ++ second) = served first ++ served second := List.map_append

/-- Bytes that come to their end come without a failure. -/
theorem get_served_ne_error (bytes : List UInt8) (n : Nat) (reason : String) :
    (served bytes ++ₛ .const (.ok none) : Stream' Answer).get n ≠ .error reason := by
  induction bytes generalizing n with
  | nil => exact nofun
  | cons byte bytes ih =>
    cases n with
    | zero => exact nofun
    | succ n => exact ih n

/-- The bytes that an answer hands over. -/
def handedOver (answer : Answer) : List UInt8 :=
  match answer with
  | .ok (some byte) => [byte]
  | .ok none | .error _ => []

/-- The answers out of one delivery. Without bytes it looks like the end of the input once. -/
def Delivery.answers : Delivery → List Answer
  | .bytes [] => [.ok none]
  | .bytes (byte :: rest) => served (byte :: rest)
  | .failure reason => [.error reason]

namespace ByteSource

/-- The answer to all calls behind the last delivery. -/
def finalAnswer (source : ByteSource) : Answer :=
  match source.broken with
  | some reason => .error reason
  | none => .ok none

/-- All answers of a source that is asked for one byte after the other. -/
def answers (source : ByteSource) : Stream' Answer :=
  source.deliveries.flatMap Delivery.answers ++ₛ .const source.finalAnswer

/-- The answers for bytes that the outcome of one call gives rise to. -/
def answersOf : Except String (List UInt8) → List Answer
  | .ok data => (Delivery.bytes data).answers
  | .error reason => [.error reason]

theorem answers_cons (delivery : Delivery) (later : List Delivery) (broken : Option String) :
    answers ⟨delivery :: later, broken⟩ = delivery.answers ++ₛ answers ⟨later, broken⟩ := by
  simp only [answers, List.flatMap_cons, Stream'.append_append_stream, finalAnswer]

/-- A source that delivers its bytes in pieces answers with these bytes. -/
theorem answers_of_pieces (pieces : List (List UInt8)) (nonempty : ∀ piece ∈ pieces, piece ≠ [])
    (broken : Option String) :
    answers ⟨pieces.map .bytes, broken⟩ =
      served pieces.flatten ++ₛ .const (finalAnswer ⟨[], broken⟩) := by
  induction pieces with
  | nil => rfl
  | cons piece pieces ih =>
    have whole : (Delivery.bytes piece).answers = served piece := by
      cases piece with
      | nil => exact absurd rfl (nonempty [] List.mem_cons_self)
      | cons byte bytes => rfl
    have others := ih fun piece member => nonempty piece (List.mem_cons_of_mem _ member)
    rw [List.map_cons, answers_cons, others, whole, List.flatten_cons, served_append,
      Stream'.append_append_stream]

theorem answers_call (source : ByteSource) {room : Nat} (pos : 0 < room) :
    source.answers = answersOf (source.call room).1 ++ₛ (source.call room).2.answers := by
  obtain ⟨deliveries, broken⟩ := source
  cases deliveries with
  | nil =>
    cases broken with
    | none => exact Stream'.const_eq (Except.ok none)
    | some reason => exact Stream'.const_eq (Except.error reason)
  | cons delivery later =>
    rw [answers_cons]
    cases delivery with
    | failure reason => rfl
    | bytes data =>
      cases left : data.drop room with
      | nil => simp only [call, left, answersOf]
      | cons byte rest =>
        -- What there is no room for is left to later calls.
        have whole : data.take room ++ byte :: rest = data := by
          rw [← left, List.take_append_drop]
        cases data with
        | nil => simp at left
        | cons first others =>
          obtain ⟨room, rfl⟩ := Nat.exists_eq_add_of_lt pos
          simp only [call, left, answersOf, answers_cons]
          rw [← Stream'.append_append_stream]
          nth_rewrite 1 [← whole]
          simp [Delivery.answers]

/-- A failing call delivers none of the bytes. -/
theorem remaining_call_error {source after : ByteSource} {room : Nat} {reason : String}
    (h : source.call room = (.error reason, after)) : after.remaining = source.remaining := by
  obtain ⟨deliveries, broken⟩ := source
  cases deliveries with
  | nil =>
    cases broken with
    | none => simp [call] at h
    | some reason =>
      obtain ⟨rfl, rfl⟩ := by simpa [call] using h
      rfl
  | cons delivery later =>
    cases delivery with
    | failure reason =>
      obtain ⟨rfl, rfl⟩ := by simpa [call] using h
      rfl
    | bytes data =>
      simp only [call] at h
      split at h <;> cases h

end ByteSource

namespace BufferedSource

/-- The answers of the calls of `next`, one after the other. -/
def answers (input : BufferedSource) : Stream' Answer :=
  .corec (fun input => input.next.1) (fun input => input.next.2) input

theorem answers_eq (input : BufferedSource) :
    input.answers = .cons input.next.1 input.next.2.answers := Stream'.corec_eq ..

theorem head_answers (input : BufferedSource) : input.answers.head = input.next.1 := rfl

theorem tail_answers (input : BufferedSource) : input.answers.tail = input.next.2.answers := by
  rw [answers_eq, Stream'.tail_cons]

/-- A call takes the first answer off those that buffer and source hold. -/
theorem next_answers (input : BufferedSource) (pos : 0 < input.capacity) :
    served input.buffer ++ₛ input.source.answers =
        .cons input.next.1 (served input.next.2.buffer ++ₛ input.next.2.source.answers) ∧
      input.next.2.capacity = input.capacity := by
  obtain ⟨source, capacity, buffer⟩ := input
  cases buffer with
  | cons byte rest => exact ⟨rfl, rfl⟩
  | nil =>
    simp only [served_nil, Stream'.nil_append_stream, next]
    rw [source.answers_call pos]
    rcases source.call capacity with ⟨reason | ⟨_ | ⟨byte, rest⟩⟩, after⟩
    · exact ⟨rfl, rfl⟩
    · exact ⟨rfl, rfl⟩
    · exact ⟨rfl, rfl⟩

/-- A buffer with room for a byte changes nothing about the answers of its source. -/
theorem answers_of_pos (input : BufferedSource) (pos : 0 < input.capacity) :
    input.answers = served input.buffer ++ₛ input.source.answers := by
  apply Stream'.ext
  intro n
  induction n generalizing input with
  | zero =>
    obtain ⟨eq, -⟩ := input.next_answers pos
    rw [eq]
    rfl
  | succ n ih =>
    obtain ⟨eq, same⟩ := input.next_answers pos
    rw [eq, answers_eq]
    exact ih input.next.2 (same ▸ pos)

/-- A buffer without room asks for no byte. In front of a source that does not fail, it looks like
the end of the input each time. -/
theorem answers_of_no_room (input : BufferedSource) (noRoom : input.capacity = 0)
    (empty : input.buffer = [])
    (sound : ∀ n reason, input.source.answers.get n ≠ .error reason) :
    input.answers = .const (.ok none) := by
  let Holds (input : BufferedSource) : Prop := input.capacity = 0 ∧ input.buffer = [] ∧
    ∀ n reason, input.source.answers.get n ≠ .error reason
  refine corec_const Holds ?_ ⟨noRoom, empty, sound⟩
  rintro ⟨⟨deliveries, broken⟩, capacity, buffer⟩ ⟨rfl, rfl, sound⟩
  cases deliveries with
  | nil =>
    cases broken with
    | none => exact ⟨rfl, rfl, rfl, sound⟩
    | some reason => exact absurd rfl (sound 0 reason)
  | cons delivery later =>
    rcases delivery with (_ | ⟨byte, rest⟩) | reason
    · exact ⟨rfl, rfl, rfl, fun n => sound (n + 1)⟩
    · exact ⟨rfl, rfl, rfl, sound⟩
    · exact absurd rfl (sound 0 reason)

/-- Bytes are consumed when a call hands them over, and not before. -/
theorem remaining_eq (input : BufferedSource) :
    input.remaining = handedOver input.next.1 ++ input.next.2.remaining := by
  obtain ⟨source, capacity, buffer⟩ := input
  cases buffer with
  | cons byte rest => rfl
  | nil =>
    simp only [next, remaining, List.nil_append]
    rcases call : source.call capacity with ⟨reason | data, after⟩
    · exact (ByteSource.remaining_call_error call).symm
    · have same := ByteSource.remaining_call call
      cases data with
      | nil => exact same.symm
      | cons byte rest => exact same.symm

/-- What one call says of the answers and the bytes of its input. -/
theorem answers_of_next {input after : BufferedSource} {answer : Answer}
    (next : input.next = (answer, after)) :
    input.answers.head = answer ∧ input.answers.tail = after.answers ∧
      input.remaining = handedOver answer ++ after.remaining := by
  have remaining := input.remaining_eq
  rw [next] at remaining
  exact ⟨by rw [head_answers, next], by rw [tail_answers, next], remaining⟩

end BufferedSource

end Batchwork.Json
