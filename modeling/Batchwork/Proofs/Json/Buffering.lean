import Batchwork.Proofs.Json.Scans
import Batchwork.Proofs.Reader.Readings

/-!
# Reading and buffering

The readings of an array depend on nothing but the answers of its input. As a buffer with room for
a byte gives the answers of its source, the pieces in which a source delivers its bytes and the size
of the buffer make no difference to any reading, nor do failures and momentary ends in between.
Main statement: `readings_of_answers_eq`.
-/

namespace Batchwork

namespace Json.ArrayReader

variable {α : Type} {shape : Shape α}

/-- What the caller of a reader is told of a reading. -/
def reported (reading : Except ArrayFault (Option α)) : Result (Option α) :=
  reading.mapError fun fault => .itemReader fault.message

theorem asReader_next_value (shape : Shape α) (reader : ArrayReader) :
    ((asReader shape).next reader).value = reported (read shape reader).value := by
  simp only [asReader, Act.bind_run]
  cases (read shape reader).value <;> rfl

theorem asReader_next_state (shape : Shape α) (reader : ArrayReader) :
    ((asReader shape).next reader).state = (read shape reader).state := by
  simp only [asReader, Act.bind_run]
  cases (read shape reader).value <;> rfl

theorem readings_eq (shape : Shape α) (reader : ArrayReader) :
    (asReader shape).readings reader =
      .cons (reported (read shape reader).value)
        ((asReader shape).readings (read shape reader).state) := by
  rw [Reader.readings_eq, asReader_next_value, asReader_next_state]

/-! ## Readers with the same answers -/

theorem firstByte_alike {first second : BufferedSource} (same : first.answers = second.answers) :
    (firstByte first).1 = (firstByte second).1 ∧
      (firstByte first).2.answers = (firstByte second).2.answers := by
  obtain ⟨gaps, leads, -⟩ := firstByte_leads first
  obtain ⟨after, found, left, -⟩ := firstByte_of_leads (same ▸ leads)
  rw [found]
  exact ⟨rfl, left.symm⟩

theorem scanElement_alike {first second : BufferedSource} (same : first.answers = second.answers) :
    (scanElement {} [] first).element = (scanElement {} [] second).element ∧
      (scanElement {} [] first).ending = (scanElement {} [] second).ending ∧
      (scanElement {} [] first).input.answers = (scanElement {} [] second).input.answers := by
  obtain ⟨bytes, scans, element, -⟩ := scanElement_scans {} [] first fun _ => rfl
  obtain ⟨after, scanned, left, -⟩ := scanElement_of_scans (same ▸ scans)
  rw [scanned]
  exact ⟨element, rfl, left.symm⟩

/-- Two readers that stand at the same place of the same answers. -/
structure Alike (first second : ArrayReader) : Prop where
  answers : first.input.answers = second.input.answers
  started : first.started = second.started
  finished : first.finished = second.finished
  position : first.position = second.position

namespace Alike

variable {first second : ArrayReader}

theorem start (alike : Alike first second) :
    first.start.1 = second.start.1 ∧ Alike first.start.2 second.start.2 := by
  obtain ⟨found, left⟩ := firstByte_alike alike.answers
  unfold ArrayReader.start
  generalize firstByte first.input = search at found left ⊢
  generalize firstByte second.input = search' at found left ⊢
  obtain ⟨answer, input⟩ := search
  obtain ⟨_, input'⟩ := search'
  cases found
  rcases answer with reason | _ | byte
  · exact ⟨rfl, left, alike.started, alike.finished, alike.position⟩
  · exact ⟨rfl, left, alike.started, alike.finished, alike.position⟩
  · by_cases opening : byte = 91
    · simp only [opening, if_true]
      exact ⟨trivial, left, rfl, alike.finished, alike.position⟩
    · simp only [opening, if_false]
      exact ⟨trivial, left, alike.started, alike.finished, alike.position⟩

theorem nextElement (alike : Alike first second) :
    first.nextElement.1 = second.nextElement.1 ∧
      Alike first.nextElement.2 second.nextElement.2 := by
  obtain ⟨gathered, stopped, left⟩ := scanElement_alike alike.answers
  unfold ArrayReader.nextElement
  generalize scanElement {} [] first.input = scanned at gathered stopped left ⊢
  generalize scanElement {} [] second.input = scanned' at gathered stopped left ⊢
  obtain ⟨element, ending, input⟩ := scanned
  obtain ⟨_, _, input'⟩ := scanned'
  cases gathered
  cases stopped
  have position := alike.position
  rcases ending with (_ | _) | _ | reason
  · cases element with
    | nil => exact ⟨by simp [position], left, alike.started, alike.finished, position⟩
    | cons byte bytes => exact ⟨rfl, left, alike.started, alike.finished, position⟩
  · cases element with
    | nil =>
      by_cases behind : 0 < second.position
      · simp only [position, behind, List.isEmpty_nil, Bool.not_true, Bool.false_eq_true, if_false,
          if_true]
        exact ⟨trivial, left, alike.started, rfl, rfl⟩
      · simp only [position, behind, List.isEmpty_nil, Bool.not_true, Bool.false_eq_true, if_false]
        exact ⟨trivial, left, alike.started, rfl, rfl⟩
    | cons byte bytes => exact ⟨rfl, left, alike.started, rfl, position⟩
  · exact ⟨rfl, left, alike.started, alike.finished, position⟩
  · exact ⟨rfl, left, alike.started, alike.finished, position⟩

theorem readElement (alike : Alike first second) (shape : Shape α) :
    (ArrayReader.readElement shape first).value = (ArrayReader.readElement shape second).value ∧
      Alike (ArrayReader.readElement shape first).state
        (ArrayReader.readElement shape second).state := by
  obtain ⟨found, left⟩ := alike.nextElement
  unfold ArrayReader.readElement
  generalize first.nextElement = scanned at found left ⊢
  generalize second.nextElement = scanned' at found left ⊢
  obtain ⟨outcome, reader⟩ := scanned
  obtain ⟨_, reader'⟩ := scanned'
  cases found
  have position := left.position
  rcases outcome with fault | _ | bytes
  · exact ⟨rfl, left⟩
  · exact ⟨rfl, left⟩
  · simp only at position ⊢
    rw [position]
    cases decode shape bytes with
    | error fault => exact ⟨rfl, left.answers, left.started, left.finished, rfl⟩
    | ok value => exact ⟨rfl, left.answers, left.started, left.finished, rfl⟩

/-- One reading keeps two readers alike and tells the same of both. -/
theorem read (alike : Alike first second) (shape : Shape α) :
    (ArrayReader.read shape first).value = (ArrayReader.read shape second).value ∧
      Alike (ArrayReader.read shape first).state (ArrayReader.read shape second).state := by
  unfold ArrayReader.read
  rw [alike.finished, alike.started]
  split
  · exact ⟨rfl, alike⟩
  · split
    · exact alike.readElement shape
    · obtain ⟨found, left⟩ := alike.start
      generalize first.start = started at found left ⊢
      generalize second.start = started' at found left ⊢
      obtain ⟨outcome, reader⟩ := started
      obtain ⟨_, reader'⟩ := started'
      cases found
      cases outcome with
      | error fault => exact ⟨rfl, left⟩
      | ok _ => exact left.readElement shape

theorem readings (alike : Alike first second) (shape : Shape α) :
    (asReader shape).readings first = (asReader shape).readings second := by
  apply Stream'.ext
  intro n
  induction n generalizing first second with
  | zero =>
    rw [readings_eq shape first, readings_eq shape second, (alike.read shape).1]
    rfl
  | succ n ih =>
    rw [readings_eq shape first, readings_eq shape second]
    exact ih (alike.read shape).2

end Alike

/-- What is read from two sources with the same answers is the same, whatever room there is for
their bytes: the same items, the same ends and the same errors, call by call. -/
theorem readings_of_answers_eq (shape : Shape α) {first second : ByteSource}
    (same : first.answers = second.answers) {room room' : Nat} (pos : 0 < room) (pos' : 0 < room') :
    (asReader shape).readings (ofSource first room) =
      (asReader shape).readings (ofSource second room') := by
  have alike : Alike (ofSource first room) (ofSource second room') := by
    refine ⟨?_, rfl, rfl, rfl⟩
    rw [BufferedSource.answers_of_pos _ pos, BufferedSource.answers_of_pos _ pos']
    simpa [ofSource] using same
  exact alike.readings shape

/-- `[1,2]`, with an interruption behind the comma. -/
def inTwoPieces : ByteSource := ⟨[.bytes [91, 49, 44], .interrupted, .bytes [50, 93]], none⟩

/-- The same array with the same interruption, cut elsewhere. -/
def inFourPieces : ByteSource :=
  ⟨[.bytes [91], .bytes [49, 44], .interrupted, .bytes [50], .bytes [93]], none⟩

theorem readings_in_pieces :
    inTwoPieces.answers = inFourPieces.answers ∧
      (asReader (Shape.natural "u8" 8)).readings (ofSource inTwoPieces 1) =
        (asReader (Shape.natural "u8" 8)).readings (ofSource inFourPieces 8192) := by
  have same : inTwoPieces.answers = inFourPieces.answers := rfl
  exact ⟨same, readings_of_answers_eq _ same Nat.one_pos (by decide)⟩

end Json.ArrayReader

end Batchwork
