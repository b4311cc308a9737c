import Batchwork.Memory
import Batchwork.Proofs.Json.ArrayReadings
import Batchwork.Proofs.Json.Delimiters
import Batchwork.Proofs.Step.Bystanders
import Batchwork.Proofs.Step.FiniteSupply
import Batchwork.Proofs.Step.Stopping

/-!
# The bytes that elements cost

Every element that an array hands out takes two bytes of its source, one of its own and a delimiter,
and the opening bracket takes one more before the first of them. No call gives a byte back, whatever
it answers. So the bytes of a source bound what any number of runs can read from it, in spite of
failures and momentary ends in between, and every run on it comes to an end. Main statement:
`execute_byte_budget`.
-/

namespace Batchwork.Json

variable {α : Type}

/-! ## The price of an element -/

/-- How many bytes an answer takes at least: an element has one of its own, and its delimiter. -/
def price {ε β : Type} : Except ε (Option β) → Nat
  | .ok (some _) => 2
  | _ => 0

namespace ArrayReader

/-- A call for the next element does not look for the opening bracket, and hands out no element
without bytes. -/
theorem nextElement_kept (reader : ArrayReader) :
    reader.nextElement.2.started = reader.started ∧
      ∀ bytes, reader.nextElement.1 = .ok (some bytes) → bytes ≠ [] := by
  unfold nextElement
  generalize scanElement {} [] reader.input = scanned
  obtain ⟨element, ending, input⟩ := scanned
  rcases ending with delimiter | _ | reason
  · cases delimiter with
    | comma => cases element <;> simp
    | bracket =>
      cases element with
      | nil => by_cases behind : reader.position > 0 <;> simp [behind]
      | cons byte bytes => simp
  · simp
  · simp

theorem nextElement_price (reader : ArrayReader) :
    price reader.nextElement.1 + reader.nextElement.2.input.remaining.length ≤
      reader.input.remaining.length := by
  obtain ⟨left, handed, -, stopped⟩ := reader.nextElement_scanned
  obtain ⟨gaps, consumes⟩ := scanElement_consumes reader.input
  rw [left, consumes.remaining]
  simp only [List.length_append]
  rcases answer : reader.nextElement.1 with fault | _ | bytes
  · simp only [price]; omega
  · simp only [price]; omega
  · -- An element has a byte, and was delimited.
    have own : 1 ≤ bytes.length := List.length_pos_iff.mpr (reader.nextElement_kept.2 bytes answer)
    have delimited : 1 ≤ (scanElement {} [] reader.input).ending.bytes.length := by
      apply List.length_pos_iff.mpr
      intro none
      rcases stopped.mp none with failed | ⟨reason, failed⟩ <;> simp [answer] at failed
    rw [handed bytes answer] at own
    simp only [price]
    omega

theorem readElement_price (shape : Shape α) (reader : ArrayReader) :
    price (readElement shape reader).value +
        (readElement shape reader).state.input.remaining.length ≤ reader.input.remaining.length ∧
      (readElement shape reader).state.started = reader.started := by
  have paid := reader.nextElement_price
  have kept := reader.nextElement_kept.1
  rcases next : reader.nextElement with ⟨fault | _ | bytes, after⟩
  · rw [readElement_of_error next]
    rw [next] at paid kept
    exact ⟨paid, kept⟩
  · rw [readElement_of_none next]
    rw [next] at paid kept
    exact ⟨paid, kept⟩
  · -- An element that does not decode takes its bytes all the same.
    rw [next] at paid kept
    simp only [readElement, next]
    cases decode shape bytes with
    | ok value => exact ⟨paid, kept⟩
    | error fault => exact ⟨Nat.le_trans (Nat.add_le_add_right (Nat.zero_le _) _) paid, kept⟩

/-- The bytes that are left for elements: the first bracket is none of them. -/
def budget (reader : ArrayReader) : Nat :=
  reader.input.remaining.length - if reader.started then 0 else 1

/-- Looking for the opening bracket takes nothing from elements. -/
theorem start_budget {reader : ArrayReader} (fresh : reader.started = false) :
    reader.start.2.budget ≤ reader.budget ∧
      (reader.start.1 = .ok () → reader.start.2.started = true) := by
  -- Only the byte that may be the bracket is taken besides gaps, and it is not in the budget.
  obtain ⟨gaps, -, remaining⟩ := firstByte_leads reader.input
  unfold start budget
  rw [remaining, fresh]
  rcases firstByte reader.input with ⟨reason | _ | byte, after⟩
  · simp
    omega
  · simp
    omega
  · by_cases opening : byte = 91
    · simp [opening, handedOver]
    · simp [opening, handedOver]
      omega

/-- A reader behind the opening bracket may spend all that is left. -/
theorem readElement_budget {reader : ArrayReader} (started : reader.started = true)
    (shape : Shape α) :
    price (readElement shape reader).value + (readElement shape reader).state.budget ≤
      reader.budget := by
  obtain ⟨paid, kept⟩ := readElement_price shape reader
  simpa only [budget, kept, started, if_true, Nat.sub_zero] using paid

theorem read_budget (shape : Shape α) (reader : ArrayReader) :
    price (read shape reader).value + (read shape reader).state.budget ≤ reader.budget := by
  cases finished : reader.finished with
  | true =>
    rw [read_of_finished finished]
    exact Nat.le_of_eq (Nat.zero_add _)
  | false =>
    cases started : reader.started with
    | true =>
      rw [read_of_started started finished]
      exact readElement_budget started shape
    | false =>
      obtain ⟨found, opens⟩ := start_budget started
      rcases began : reader.start with ⟨fault | ⟨⟩, opened⟩
      · -- The bracket is looked for again by the next call.
        rw [read_of_unopened started finished began]
        rw [began] at found
        simpa [price] using found
      · rw [read_of_opened started finished began]
        rw [began] at found opens
        exact (readElement_budget (opens rfl) shape).trans found

theorem next_budget (shape : Shape α) (reader : ArrayReader) :
    price ((asReader shape).next reader).value + ((asReader shape).next reader).state.budget ≤
      reader.budget := by
  rw [asReader_next_value, asReader_next_state]
  have paid := read_budget shape reader
  cases answer : (read shape reader).value with
  | error fault => exact (Nat.add_le_add_right (Nat.zero_le _) _).trans paid
  | ok item =>
    rw [answer] at paid
    cases item <;> exact paid

theorem stateAfter_budget (shape : Shape α) (calls : Nat) (reader : ArrayReader) :
    ((asReader shape).stateAfter calls reader).budget ≤ reader.budget := by
  induction calls generalizing reader with
  | zero => exact Nat.le_refl _
  | succ calls ih =>
    have paid := next_budget shape reader
    exact (ih _).trans (Nat.le_of_add_left_le paid)

theorem ofSource_budget (source : ByteSource) (capacity : Nat) :
    (ofSource source capacity).budget = source.remaining.length - 1 := rfl

end ArrayReader

/-! ## Runs on one reader -/

variable {σ ε ω : Type}

/-- A step that reads the elements of an array. What else it calls may read from the same reader,
but leaves it as some calls of the reader would. -/
structure ReadsArray (step : ChunkStep σ ε α ω) (shape : Shape α) (place : Place σ ArrayReader)
    (name : ComponentLog → ε) : Prop where
  lawful : place.Lawful
  reader : step.reader = (ArrayReader.asReader shape).within place name
  others : ∀ {before call after}, step.Makes before call after → (∀ answer, call ≠ .next answer) →
    ∃ calls, place.get after = (ArrayReader.asReader shape).stateAfter calls (place.get before)

variable {step : ChunkStep σ ε α ω} {shape : Shape α} {place : Place σ ArrayReader}
  {name : ComponentLog → ε}

/-- The bytes left to the reader pay for the items of a run. -/
theorem ReadsArray.pays (reads : ReadsArray step shape place name) :
    step.Pays (fun state => (place.get state).budget) 2 := by
  intro before call after makes
  cases call with
  | next answer =>
    cases makes with
    | next answers =>
      rw [reads.reader] at answers
      obtain ⟨events, inner⟩ := reads.lawful.within_eq answers
      have paid := ArrayReader.next_budget shape (place.get before)
      rw [inner] at paid
      rcases answer with error | _ | item <;> simpa [price] using paid
  | _ =>
    -- What another part has read from the array is lost to the run, but not to the bound.
    obtain ⟨calls, left⟩ := reads.others makes nofun
    have spared := ArrayReader.stateAfter_budget shape calls (place.get before)
    rw [← left] at spared
    simpa using spared

/-- Runs on one reader, one after the other, with the number of items that they read in all. Each
may be a run of another step, on books of its own and with other parts around the reader. -/
inductive Drains (shape : Shape α) (first : ArrayReader) : Nat → ArrayReader → Prop
  | start : Drains shape first 0 first
  | run {σ ε ω : Type} {step : ChunkStep σ ε α ω} {place : Place σ ArrayReader}
      {name : ComponentLog → ε} {p : Progress σ} {total items rounds : Nat}
      (before : Drains shape first total (place.get p.state))
      (reads : ReadsArray step shape place name)
      (count : (step.execute rounds p).state.ledger.readCount = p.ledger.readCount + items) :
      Drains shape first (total + items) (place.get (step.execute rounds p).state.state)

theorem Drains.budget {first last : ArrayReader} {total : Nat}
    (drains : Drains shape first total last) : 2 * total + last.budget ≤ first.budget := by
  induction drains with
  | start => simp
  | @run σ ε ω step place name p total items rounds before reads count ih =>
    -- The run spends what the runs before it have left.
    obtain ⟨-, more, books, paid⟩ := ChunkStep.execute_supply reads.pays rounds p
    obtain rfl : items = more := by
      rw [count] at books
      omega
    omega

/-- Any run on an array reader comes to an end, however many runs there were before, and together
they read at most half as many items as their source has bytes, less than that if any at all. -/
theorem execute_byte_budget {source : ByteSource} {capacity total : Nat} {p : Progress σ}
    (drains : Drains shape (.ofSource source capacity) total (place.get p.state))
    (reads : ReadsArray step shape place name) (rounds : Nat) :
    let run := step.execute rounds p
    let bytes := source.remaining.length
    (step.HasRoom → bytes / 2 < rounds * step.chunkSize → run.value.isSome) ∧
    ∃ items, run.state.ledger.readCount = p.ledger.readCount + items ∧
      (total + items = 0 ∨ 2 * (total + items) + 1 ≤ bytes) ∧ total + items ≤ bytes / 2 := by
  have spent := drains.budget
  rw [ArrayReader.ofSource_budget] at spent
  obtain ⟨ends, items, count, paid⟩ := ChunkStep.execute_supply reads.pays rounds p
  refine ⟨?_, items, count, ?_, ?_⟩
  · intro room enough
    exact ends room (by omega)
  · omega
  · omega

/-- A step that copies the numbers of an array into a store, one by one. -/
def copying : ChunkStep (ArrayReader × ItemStore Nat) ComponentLog Nat Nat where
  name := "copying"
  reader := (ArrayReader.asReader (.natural "u8" 8)).within (.first _ _) id
  processor := ⟨fun item => pure (.ok (some item))⟩
  writer := ItemStore.asWriter.within (.second _ _) id
  transactions := ItemStore.asTransactions.within (.second _ _) id
  policy := .never _ _
  chunkSize := 1
  chunkSize_pos := Nat.one_pos
  itemSize := 1

theorem copying_readsArray (size : Nat) (positive : 0 < size) :
    ReadsArray (copying.withChunkSize size positive) (.natural "u8" 8) (.first _ _) id where
  lawful := Place.first_lawful _ _
  reader := rfl
  others makes other := by
    refine ⟨0, ?_⟩
    cases makes with
    | next answers => exact absurd rfl (other _)
    | beforeChunk registered | onSkip registered | afterChunk registered
    | afterChunkError registered => cases registered
    | openStore answers | begin answers | process answers | shouldSkip answers | write answers
    | flush answers | commit answers | rollback answers | closeStore answers =>
      cases answers
      rfl

/-- The first run fails where the source is interrupted, and the second one reads the rest. Five bytes
are just enough for the two items. -/
theorem copying_interrupted :
    let books : Ledger := { id := ⟨1⟩, name := "copying" }
    let first := copying.execute 3 ⟨books, .ofSource ArrayReader.inTwoPieces 1, {}⟩
    let p : Progress (ArrayReader × ItemStore Nat) := ⟨books, first.state.state⟩
    let second := copying.execute 3 p
    first.state.ledger.readCount = 0 + 1 ∧ second.value.isSome ∧
      ∃ items, second.state.ledger.readCount = 0 + items ∧
        (0 + 1 + items = 0 ∨ 2 * (0 + 1 + items) + 1 ≤ 5) ∧ 0 + 1 + items ≤ 2 := by
  intro books first p second
  have one : first.state.ledger.readCount = 0 + 1 := by decide +kernel
  have reads : ReadsArray copying (.natural "u8" 8) (.first _ _) id := copying_readsArray 1 _
  have drains : Drains (.natural "u8" 8) (.ofSource ArrayReader.inTwoPieces 1) (0 + 1)
      ((Place.first _ _).get p.state) := .run .start reads one
  obtain ⟨ends, rest⟩ := execute_byte_budget drains reads 3
  exact ⟨one, ends (by decide) (by decide), rest⟩

/-- Without room for a chunk a run does not return, whatever its source holds. -/
theorem copying_vast :
    let start : Progress (ArrayReader × ItemStore Nat) :=
      ⟨{ id := ⟨1⟩, name := "copying" }, .ofSource ArrayReader.inTwoPieces 1, {}⟩
    ReadsArray copying.vast (.natural "u8" 8) (.first _ _) id ∧
    ∀ rounds, (copying.vast.execute rounds start).value = none ∧
      stops (copying.vast.execute (rounds + 1) start).events = [ChunkStep.capacityOverflow] :=
  ⟨copying_readsArray _ _, copying.execute_vast (by decide) rfl⟩

end Batchwork.Json
