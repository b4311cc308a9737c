import Batchwork.Proofs.Json.ArrayReadings

/-!
# What is read in front of the opening bracket

A reader that has not found its bracket tells of every byte that cannot begin an array, and looks
for the bracket behind it at the next reading. So a source that never serves a bracket is refused at
every reading, but one whose document is no array is refused only up to the first bracket in it,
where reading begins as if the document began there. Main statement: `readings_from_opening`.
-/

namespace Batchwork.Json

namespace Leads

variable {answers rest : Stream' Answer} {gaps : List UInt8} {answer : Answer}

/-- A search leaves the answers behind the one that it found. -/
theorem exists_place (leads : Leads answers gaps answer rest) :
    ∃ place, answers.get place = answer ∧ ∀ n, rest.get n = answers.get (place + 1 + n) := by
  induction leads with
  | @found answers solid =>
    exact ⟨0, rfl, fun n => congrArg answers.get (by omega : n + 1 = 0 + 1 + n)⟩
  | @gap answers _ _ _ _ head blank later ih =>
    obtain ⟨place, found, behind⟩ := ih
    refine ⟨place + 1, found, fun n => (behind n).trans ?_⟩
    exact congrArg answers.get (by omega : place + 1 + n + 1 = place + 1 + 1 + n)

/-- What a search finds is no gap. -/
theorem solid (leads : Leads answers gaps answer rest) {byte : UInt8}
    (found : answer = .ok (some byte)) : isGap byte = false := by
  induction leads with
  | found solid => exact solid byte found
  | gap head blank later ih => exact ih found

end Leads

namespace BufferedSource

/-- A buffer without room gets no byte from a call, and none to keep either. -/
theorem next_of_no_room {input : BufferedSource} (noRoom : input.capacity = 0)
    (empty : input.buffer = []) :
    (∀ byte, input.next.1 ≠ .ok (some byte)) ∧ input.next.2.capacity = 0 ∧
      input.next.2.buffer = [] := by
  obtain ⟨⟨deliveries, broken⟩, capacity, buffer⟩ := input
  subst noRoom empty
  rcases deliveries with _ | ⟨(_ | ⟨first, rest⟩) | reason, later⟩
  · cases broken <;> simp [next, ByteSource.call]
  all_goals simp [next, ByteSource.call]

theorem no_byte_of_no_room {input : BufferedSource} (noRoom : input.capacity = 0)
    (empty : input.buffer = []) (n : Nat) (byte : UInt8) :
    input.answers.get n ≠ .ok (some byte) := by
  induction n generalizing input with
  | zero => exact (next_of_no_room noRoom empty).1 byte
  | succ n ih =>
    obtain ⟨-, still, behind⟩ := next_of_no_room noRoom empty
    rw [answers_eq]
    exact ih still behind

end BufferedSource

/-- A gap in front is not found. -/
theorem firstByte_of_gap {input after : BufferedSource} {byte : UInt8}
    (next : input.next = (.ok (some byte), after)) (gap : isGap byte = true) :
    firstByte input = firstByte after := by
  rw [firstByte]
  split
  case h_1 other later same =>
    obtain ⟨rfl, rfl⟩ : byte = other ∧ after = later := by simpa [next] using same
    rw [if_pos gap]
  case h_2 same => exact (same byte after next).elim

namespace ArrayReader

variable {α : Type} {shape : Shape α} {reader : ArrayReader} {position : Nat} {answer : Answer}
  {answers rest : Stream' Answer} {gaps : List UInt8}

/-- What a reading tells of an answer that comes before the opening bracket. Gaps are passed over
without a reading. -/
def refusal? : Answer → Option (Result (Option α))
  | .ok (some byte) =>
    if isGap byte then none else some (.error (.itemReader (startFault byte).message))
  | .ok none => some (.error (.itemReader (ArrayFault.notAnArray "an empty document").message))
  | .error reason => some (.error (.itemReader (ArrayFault.unreadable reason).message))

theorem refusal?_eq_some {reading : Result (Option α)} (told : refusal? answer = some reading) :
    ∃ message, reading = .error (.itemReader message) := by
  rcases answer with reason | _ | byte
  · exact ⟨_, (Option.some.inj told).symm⟩
  · exact ⟨_, (Option.some.inj told).symm⟩
  · simp only [refusal?] at told
    split at told
    · cases told
    · exact ⟨_, (Option.some.inj told).symm⟩

/-- The answer that opens an array. -/
def opening : Answer := .ok (some 91)

/-- A reader that looks for its bracket, with these answers ahead. -/
structure Unopened (position : Nat) (answers : Stream' Answer) (reader : ArrayReader) : Prop where
  fresh : reader.started = false
  unfinished : reader.finished = false
  position : reader.position = position
  answers : reader.input.answers = answers

namespace Unopened

/-- A reading that finds no bracket tells what it found, and leaves the rest to the next one. -/
theorem read_refused (unopened : reader.Unopened position answers)
    (leads : Leads answers gaps answer rest) (other : answer ≠ opening) (shape : Shape α) :
    refusal? answer = some (reported (read shape reader).value) ∧
      (read shape reader).state.Unopened position rest := by
  obtain ⟨after, found, left, -⟩ := firstByte_of_leads (unopened.answers ▸ leads)
  have stays : Unopened position rest { reader with input := after } :=
    ⟨unopened.fresh, unopened.unfinished, unopened.position, left⟩
  have refused (fault : ArrayFault)
      (began : reader.start = (.error fault, { reader with input := after })) :
      reported (read shape reader).value = .error (.itemReader fault.message) ∧
        (read shape reader).state.Unopened position rest := by
    rw [read_of_unopened unopened.fresh unopened.unfinished began]
    exact ⟨rfl, stays⟩
  -- Each answer but the bracket has a fault of its own.
  rcases answer with reason | _ | byte
  · obtain ⟨told, later⟩ := refused (.unreadable reason) (by simp only [start, found])
    exact ⟨by rw [told]; rfl, later⟩
  · obtain ⟨told, later⟩ :=
      refused (.notAnArray "an empty document") (by simp only [start, found])
    exact ⟨by rw [told]; rfl, later⟩
  · have noBracket : byte ≠ 91 := fun same => other (by rw [same]; rfl)
    obtain ⟨told, later⟩ :=
      refused (startFault byte) (by simp only [start, found, noBracket, if_false])
    refine ⟨?_, later⟩
    simp [told, refusal?, leads.solid rfl]

/-- A gap changes no reading. -/
theorem readings_of_gap {byte : UInt8}
    (unopened : reader.Unopened position (.cons (.ok (some byte)) rest)) (gap : isGap byte = true)
    (shape : Shape α) :
    ∃ later : ArrayReader, later.Unopened position rest ∧
      (asReader shape).readings reader = (asReader shape).readings later := by
  rcases next : reader.input.next with ⟨answer, after⟩
  obtain ⟨head, tail, -⟩ := BufferedSource.answers_of_next next
  rw [unopened.answers] at head tail
  cases head
  have same : reader.start = { reader with input := after : ArrayReader }.start := by
    simp only [start, firstByte_of_gap next gap]
  have read : read shape reader = read shape { reader with input := after } := by
    simp only [ArrayReader.read, same, unopened.fresh, unopened.unfinished, Bool.false_eq_true,
      if_false]
  refine ⟨{ reader with input := after }, ⟨unopened.fresh, unopened.unfinished, unopened.position,
    tail.symm⟩, ?_⟩
  rw [readings_eq shape reader, read, ← readings_eq]

/-- Gaps in front change no reading. -/
theorem readings_of_gaps (blank : ∀ byte ∈ gaps, isGap byte = true)
    (unopened : reader.Unopened position (served gaps ++ₛ rest)) (shape : Shape α) :
    ∃ later : ArrayReader, later.Unopened position rest ∧
      (asReader shape).readings reader = (asReader shape).readings later := by
  induction gaps generalizing reader with
  | nil => exact ⟨reader, unopened, rfl⟩
  | cons byte gaps ih =>
    obtain ⟨middle, stays, same⟩ :=
      unopened.readings_of_gap (blank byte List.mem_cons_self) shape
    obtain ⟨later, left, told⟩ :=
      ih (fun byte member => blank byte (List.mem_cons_of_mem _ member)) stays
    exact ⟨later, left, same.trans told⟩

/-- One answer that does not open the array. -/
theorem readings_of_other (unopened : reader.Unopened position (.cons answer rest))
    (other : answer ≠ opening) (shape : Shape α) :
    ∃ later : ArrayReader, later.Unopened position rest ∧
      (asReader shape).readings reader =
        (refusal? answer).toList ++ₛ (asReader shape).readings later := by
  by_cases gap : ∃ byte, answer = .ok (some byte) ∧ isGap byte = true
  · obtain ⟨byte, rfl, gap⟩ := gap
    obtain ⟨later, stays, same⟩ := unopened.readings_of_gap gap shape
    exact ⟨later, stays, by simp [refusal?, gap, same]⟩
  · have leads : Leads (.cons answer rest) [] answer rest := .found fun byte head => by
      simpa using fun blank => gap ⟨byte, head, blank⟩
    obtain ⟨told, stays⟩ := unopened.read_refused leads other shape
    refine ⟨_, stays, ?_⟩
    rw [readings_eq, told]
    rfl

/-- Answers in front of the bracket are told one by one. -/
theorem readings_of_front (front : List Answer) (others : opening ∉ front)
    (unopened : reader.Unopened position (front ++ₛ rest)) (shape : Shape α) :
    ∃ later : ArrayReader, later.Unopened position rest ∧
      (asReader shape).readings reader =
        front.filterMap refusal? ++ₛ (asReader shape).readings later := by
  induction front generalizing reader with
  | nil => exact ⟨reader, unopened, rfl⟩
  | cons answer front ih =>
    have first : answer ≠ opening := (List.ne_of_not_mem_cons others).symm
    obtain ⟨middle, stays, told⟩ := unopened.readings_of_other first shape
    obtain ⟨later, opens, same⟩ := ih (List.not_mem_of_not_mem_cons others) stays
    refine ⟨later, opens, ?_⟩
    rw [told, same, List.filterMap_cons]
    cases refusal? answer <;> rfl

/-- At its bracket a reader begins with the elements. -/
theorem readings_of_bracket (unopened : reader.Unopened position (.cons opening rest))
    (shape : Shape α) :
    ∃ opened : ArrayReader, opened.Standing position rest ∧
      (asReader shape).readings reader = (asReader shape).readings opened := by
  have leads : Leads (.cons opening rest) [] opening rest := .found fun byte head => by
    cases head
    rfl
  obtain ⟨opened, standing, same⟩ :=
    readings_of_opening unopened.fresh unopened.unfinished (unopened.answers ▸ leads) shape
  exact ⟨opened, unopened.position ▸ standing, same⟩

/-- A reading fails where no bracket is ahead, and afterwards there is none either. -/
theorem read_of_no_bracket (unopened : reader.Unopened position answers)
    (others : ∀ n, answers.get n ≠ opening) (shape : Shape α) :
    (∃ message, reported (read shape reader).value = .error (.itemReader message)) ∧
      ∃ rest, (read shape reader).state.Unopened position rest ∧ ∀ n, rest.get n ≠ opening := by
  obtain ⟨gaps, leads, -⟩ := firstByte_leads reader.input
  rw [unopened.answers] at leads
  obtain ⟨place, found, behind⟩ := leads.exists_place
  obtain ⟨told, stays⟩ := unopened.read_refused leads (found ▸ others place) shape
  refine ⟨refusal?_eq_some told, _, stays, fun n => ?_⟩
  rw [behind]
  exact others _

/-- As long as no bracket comes, every reading fails. -/
theorem readings_of_no_bracket (unopened : reader.Unopened position answers)
    (others : ∀ n, answers.get n ≠ opening) (shape : Shape α) (n : Nat) :
    ∃ message, ((asReader shape).readings reader).get n = .error (.itemReader message) := by
  -- The reader is as it was behind every reading, but for the answers that are ahead.
  induction n generalizing reader answers with
  | zero =>
    rw [readings_eq]
    exact (unopened.read_of_no_bracket others shape).1
  | succ n ih =>
    obtain ⟨-, rest, stays, behind⟩ := unopened.read_of_no_bracket others shape
    rw [readings_eq]
    exact ih stays behind

end Unopened

/-- Every reading fails if no bracket comes or the buffer has no room for it. If one comes, the
answers in front of it are told one by one, gaps apart, and from then on the readings are those of a
reader that stands behind the bracket, whatever was in front. -/
theorem readings_from_opening (shape : Shape α) (source : ByteSource) (room : Nat) :
    let readings := (asReader shape).readings (ofSource source room)
    (room = 0 ∨ (∀ n, source.answers.get n ≠ opening) →
      ∀ n, ∃ message, readings.get n = .error (.itemReader message)) ∧
    (0 < room → ∀ front rest, source.answers = front ++ₛ .cons opening rest → opening ∉ front →
      ∃ opened : ArrayReader, opened.Standing 0 rest ∧
        readings = front.filterMap refusal? ++ₛ (asReader shape).readings opened) := by
  intro readings
  have unopened : Unopened 0 (ofSource source room).input.answers (ofSource source room) :=
    ⟨rfl, rfl, rfl, rfl⟩
  refine ⟨fun barred => ?_, fun pos front rest split others => ?_⟩
  · apply unopened.readings_of_no_bracket
    by_cases noRoom : room = 0
    · exact fun n => BufferedSource.no_byte_of_no_room noRoom rfl n 91
    · rw [BufferedSource.answers_of_pos _ (Nat.pos_of_ne_zero noRoom)]
      exact barred.resolve_left noRoom
  · rw [BufferedSource.answers_of_pos _ pos] at unopened
    have ahead : served (ofSource source room).input.buffer ++ₛ source.answers =
        front ++ₛ .cons opening rest := split
    obtain ⟨later, opens, told⟩ := (ahead ▸ unopened).readings_of_front front others shape
    obtain ⟨opened, standing, same⟩ := opens.readings_of_bracket shape
    exact ⟨opened, standing, by rw [← same]; exact told⟩

/-- `{"":[7]}`, an object that has an array in it. -/
def nested : ByteSource := .ofBytes [123, 34, 34, 58, 91, 55, 93, 125]

theorem nested_sound (n : Nat) (reason : String) : nested.answers.get n ≠ .error reason :=
  get_served_ne_error [123, 34, 34, 58, 91, 55, 93, 125] n reason

/-- The first four readings refuse the object, and the fifth begins within it. -/
theorem readings_from_nested :
    nested.answers = served [123, 34, 34, 58] ++ₛ
        .cons opening (served [55, 93, 125] ++ₛ .const (.ok none)) ∧
      ∃ opened : ArrayReader,
        opened.Standing 0 (served [55, 93, 125] ++ₛ .const (.ok none)) ∧
        (asReader Json.document).readings (ofSource nested) =
          [.error (.itemReader "expected a JSON array, found an object"),
            .error (.itemReader "expected a JSON array, found a string"),
            .error (.itemReader "expected a JSON array, found a string"),
            .error (.itemReader "malformed JSON: unexpected ':' at the start of the document")] ++ₛ
          (asReader Json.document).readings opened := by
  have split : nested.answers = served [123, 34, 34, 58] ++ₛ
      .cons opening (served [55, 93, 125] ++ₛ .const (.ok none)) := rfl
  obtain ⟨-, begins⟩ := readings_from_opening Json.document nested defaultCapacity
  obtain ⟨opened, standing, told⟩ := begins (by decide) _ _ split (by decide)
  refine ⟨split, opened, standing, ?_⟩
  rw [told]
  rfl

/-- A document that is no array hands out an item and tells its end, behind the errors. -/
theorem nested_array_read :
    (∀ n reason, nested.answers.get n ≠ .error reason) ∧ nested.remaining.head? = some 123 ∧
      isGap 123 = false ∧
      ((asReader Json.document).readings (ofSource nested)).get 4 = .ok (some (.nat 7)) ∧
      ((asReader Json.document).readings (ofSource nested)).get 5 = .ok none := by
  let seven : Element isGap :=
    ⟨[], [55], [], List.forall_mem_nil _, derives_digit rfl (by decide), List.forall_mem_nil _⟩
  have unopened : Unopened 0 (served [123, 34, 34, 58] ++ₛ
      .cons opening (served ([] ++ ArrayDocument.listed [seven] ++ [93]) ++ₛ
        (served [125] ++ₛ .const (.ok none)))) (ofSource nested) :=
    ⟨rfl, rfl, rfl, BufferedSource.answers_of_pos _ (by decide)⟩
  obtain ⟨later, opens, told⟩ := unopened.readings_of_front _ (by decide) Json.document
  obtain ⟨opened, standing, same⟩ := opens.readings_of_bracket Json.document
  have elements := standing.readings (fun _ gap => gap) Json.document _ seven []
    (List.forall_mem_nil _)
  rw [told, same, elements]
  exact ⟨nested_sound, rfl, rfl, rfl, rfl⟩

end ArrayReader

end Batchwork.Json
