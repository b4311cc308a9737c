import Batchwork.Proofs.Memory.StoredChunks
import Batchwork.Proofs.Step.Breakdown
import Batchwork.Proofs.Step.Passage
import Batchwork.Proofs.Step.Stopping

/-!
# The size of chunks does not matter

A step whose reader, processor and policy keep to themselves computes the same whatever the size of
its chunks is: the passage of all items through processor and policy. The size only decides how much
of the passage is stored if an item is fatal: the chunks before the one of that item. Main
statement: `execute_chunkSizes`.
-/

namespace Batchwork

variable {σ ρ υ τ ε ι ω : Type}

/-- A reader that hands out these items one by one, then says that there are no more, and does not
fail on the way. -/
inductive Reader.Yields (source : Reader ρ ε ι) : ρ → List ι → Prop
  | exhausted {state : ρ} (answer : (source.next state).value = .ok none) : Yields source state []
  | item {state : ρ} {item : ι} {items : List ι}
      (answer : (source.next state).value = .ok (some item))
      (rest : Yields source (source.next state).state items) : Yields source state (item :: items)

/-- What is stored of a passage by chunks of a size: all outputs if no item is fatal, and those of
the chunks before the one of the fatal item otherwise. -/
def Passage.kept (passage : Passage υ ι ω) (size : Nat) : List (Option ω) :=
  match passage.ending with
  | .ok () => passage.outputs
  | .error _ => passage.outputs.take (size * (passage.outputs.length / size))

/-- A chunk before a passage is stored as well. -/
theorem Passage.kept_behind {later : Passage υ ι ω} {made : List (Call ι ω)}
    {outputs : List (Option ω)} {size : Nat} (full : outputs.length = size) (positive : 0 < size) :
    (later.behind made outputs).kept size = outputs ++ later.kept size := by
  obtain ⟨_, rest, ending, _, _⟩ := later
  cases ending with
  | ok done => rfl
  | error reason =>
    -- The outputs before count as one more full chunk.
    have chunks : (outputs ++ rest).length / size = rest.length / size + 1 := by
      rw [List.length_append, full, Nat.add_div_left _ positive]
    have upTo : size * (rest.length / size + 1) = outputs.length + size * (rest.length / size) := by
      rw [Nat.mul_succ, full, Nat.add_comm]
    simp only [kept, behind]
    rw [chunks, upTo, List.take_length_add_append]

/-- A fatal item in the first chunk leaves nothing stored. -/
theorem Passage.kept_of_short {passage : Passage υ ι ω} {size : Nat} {error : Error}
    (fatal : passage.ending = .error error) (short : passage.outputs.length < size) :
    passage.kept size = [] := by
  simp [kept, fatal, Nat.div_eq_of_lt short]

theorem Passage.kept_prefix {passage : Passage υ ι ω} {size other : Nat} {error : Error}
    (fatal : passage.ending = .error error)
    (less : size * (passage.outputs.length / size) ≤ other * (passage.outputs.length / other)) :
    (passage.kept size).reduceOption <+: (passage.kept other).reduceOption := by
  simp only [kept, fatal]
  exact (List.take_prefix_take_left less).filterMap _

/-- Small chunks store at least what large ones do that consist of them. -/
theorem mul_div_le_mul_div_of_dvd {size other : Nat} (divides : size ∣ other) (count : Nat)
    (positive : 0 < size) : other * (count / other) ≤ size * (count / size) := by
  obtain ⟨ratio, rfl⟩ := divides
  rw [Nat.mul_assoc]
  apply Nat.mul_le_mul_left
  rw [Nat.le_div_iff_mul_le positive, Nat.mul_comm, ← Nat.mul_assoc]
  exact Nat.mul_div_le _ _

namespace ChunkStep

/-- A step whose reader keeps to a state of its own, as do processor and policy, and that stores its
chunks in a store which also manages its transactions. The listeners leave all three alone. -/
structure Independent (step : ChunkStep σ ε ι ω) (input : Place σ ρ) (work : Place σ υ)
    (place : Place σ (ItemStore ω)) (source : Reader ρ ε ι) (processor : Processor υ ε ι ω)
    (policy : SkipPolicy υ ε) (name : ComponentLog → ε) : Prop where
  inputLawful : input.Lawful
  workLawful : work.Lawful
  storeLawful : place.Lawful
  inputWork : input.Apart work
  inputStore : input.Apart place
  workStore : work.Apart place
  reader : step.reader = source.within input id
  processor : step.processor = processor.within work id
  policy : step.policy = policy.within work id
  writer : step.writer = ItemStore.asWriter.within place name
  transactions : step.transactions = ItemStore.asTransactions.within place name
  chunkListeners : ∀ listener ∈ step.chunkListeners,
    listener.StandsBy (fun state => (input.get state, work.get state, place.get state))
      fun _ _ => True
  skipListeners : ∀ listener ∈ step.skipListeners, ∀ item error,
    Bystander (fun state => (input.get state, work.get state, place.get state)) (fun _ _ => True)
      (listener.onSkip item error)

section

variable {step : ChunkStep σ ε ι ω} {input : Place σ ρ} {work : Place σ υ}
  {place : Place σ (ItemStore ω)} {source : Reader ρ ε ι} {processor : Processor υ ε ι ω}
  {policy : SkipPolicy υ ε} {name : ComponentLog → ε} {p after : Progress σ}
  {events : List (StepEvent ι ω ε)}

/-! ## Who leaves what alone -/

namespace Independent

variable (independent : step.Independent input work place source processor policy name)

include independent

theorem works : step.WorksAt work processor policy where
  lawful := independent.workLawful
  processor := independent.processor
  policy := independent.policy
  skipListeners listener member item error :=
    (independent.skipListeners listener member item error).look (·.2.1) fun _ _ => trivial

/-- The reader touches nothing that is kept elsewhere. -/
theorem reading {τ : Type} {view : σ → τ}
    (apart : ∀ part state, view (input.put part state) = view state) :
    Bystander view (fun _ _ => True) step.reader.next := by
  rw [independent.reader]
  exact .within apart (fun _ _ => trivial) _

/-- Nothing that is called while a chunk is processed touches input or store. -/
theorem processing {holds : ε → τ → Prop} (look : ρ × υ × ItemStore ω → τ)
    (apart : ∀ part state,
      look (input.get (work.put part state), work.get (work.put part state),
        place.get (work.put part state)) =
        look (input.get state, work.get state, place.get state))
    (silent : ∀ event seen, holds event seen) :
    step.ProcessingStandsBy
      (fun state => look (input.get state, work.get state, place.get state)) holds := by
  constructor
  case processor =>
    intro item
    rw [independent.processor]
    exact .within apart (fun _ _ => silent _ _) _
  case policy =>
    intro error skipped
    rw [independent.policy]
    exact .within apart (fun _ _ => silent _ _) _
  case skipListeners =>
    intro listener member item error
    exact (independent.skipListeners listener member item error).look look silent
  case chunkListeners =>
    exact fun listener member => (independent.chunkListeners listener member).look look silent

/-- The calls on the store touch nothing that is kept elsewhere. -/
theorem storing {view : σ → τ} (apart : ∀ part state, view (place.put part state) = view state) :
    step.StoringStandsBy view fun _ _ => True := by
  have within : ∀ {α : Type} (act : Act (ItemStore ω) ComponentLog α),
      Bystander view (fun _ _ => True) (act.within place name) :=
    Bystander.within apart fun _ _ => trivial
  constructor
  case openStore | flush | closeStore => rw [independent.writer]; exact within _
  case write => intro outputs; rw [independent.writer]; exact within _
  case begin | commit | rollback => rw [independent.transactions]; exact within _

theorem stores : step.Stores place name fun _ => none where
  lawful := independent.storeLawful
  writer := independent.writer
  transactions := independent.transactions
  silent _ := rfl
  reader := by
    rw [independent.reader]
    exact .within independent.inputStore.keepsSecond (fun _ _ _ observed => nomatch observed) _
  processing := independent.processing (·.2.2) independent.workStore.keepsSecond
    fun _ _ _ observed => nomatch observed

theorem hearing : ∀ listener ∈ step.chunkListeners,
    listener.StandsBy work.get fun _ _ => True :=
  fun listener member =>
    (independent.chunkListeners listener member).look (·.2.1) fun _ _ => trivial

theorem withChunkSize (size : Nat) (positive : 0 < size) :
    (step.withChunkSize size positive).Independent input work place source processor policy name :=
  { independent with }

end Independent

/-! ## One chunk -/

/-- The reader hands out the first of the items that it yields, or says that there is none. -/
theorem Independent.next
    (independent : step.Independent input work place source processor policy name) {state final : σ}
    {value : Result (Option ι)} {told : List ε} {xs : List ι}
    (answer : step.reader.next state = ⟨value, told, final⟩)
    (yields : source.Yields (input.get state) xs) :
    (xs = [] ∧ value = .ok none) ∨
      ∃ item rest, xs = item :: rest ∧ value = .ok (some item) ∧
        source.Yields (input.get final) rest := by
  rw [independent.reader] at answer
  obtain ⟨same, left⟩ := Act.within_run independent.inputLawful answer
  cases yields with
  | exhausted none => exact .inl ⟨rfl, same.symm.trans none⟩
  | item some rest => exact .inr ⟨_, _, rfl, same.symm.trans some, left ▸ rest⟩

/-- A reader that yields items fills chunk after chunk with them. -/
theorem Reads.yields {room : Nat} {items xs : List ι} {ending : Result ChunkStatus}
    (reads : step.Reads room p events items ending after)
    (independent : step.Independent input work place source processor policy name)
    (yields : source.Yields (input.get p.state) xs) :
    items = xs.take room ∧ ending = .ok (if xs.length < room then .finished else .full) ∧
      (room ≤ xs.length → source.Yields (input.get after.state) (xs.drop room)) := by
  induction reads generalizing xs with
  | full => exact ⟨rfl, rfl, fun _ => yields⟩
  | finished answer =>
    obtain ⟨rfl, -⟩ | ⟨item, rest, -, some, -⟩ := independent.next answer yields
    · simp
    · cases some
  | failed answer =>
    obtain ⟨-, none⟩ | ⟨item, rest, -, some, -⟩ := independent.next answer yields
    · cases none
    · cases some
  | item answer rest ih =>
    obtain ⟨-, none⟩ | ⟨item, others, rfl, some, left⟩ := independent.next answer yields
    · cases none
    · cases some
      obtain ⟨taken, ended, still⟩ := ih left
      refine ⟨by rw [taken]; rfl, ?_, ?_⟩
      · rw [ended]
        simp
      · intro fits
        exact still (Nat.le_of_succ_le_succ fits)

/-- What follows the processing of a chunk touches nothing of processor and policy, skips nothing
and does not fail. -/
theorem Completes.keeps {outputs : List ω} {ending : Result Unit}
    (completes : step.Completes outputs ending p events after)
    (independent : step.Independent input work place source processor policy name) :
    work.get after.state = work.get p.state ∧
      after.ledger.processSkipCount = p.ledger.processSkipCount ∧
      failure? (calls events) = none := by
  have storing := independent.storing independent.workStore.keepsFirst
  cases completes with
  | takenBack undo =>
    refine ⟨(undo.leaves independent.hearing storing).kept, ?_, undo.failure⟩
    rw [undo.books]
    rfl
  | stored write commit notice =>
    have wrote := (write.leaves storing).kept
    have told := (notify_leaves notice fun listener member =>
      (independent.hearing listener member).afterChunk outputs).kept
    have done := (Leaves.asked (.commit (.ok ()) : Call ι ω) storing.commit commit).kept
    have books := notify_ledger notice
    have unfailed := notify_failure notice fun _ => rfl
    refine ⟨?_, ?_, ?_⟩
    · rw [told, done, wrote]
    · rw [books, write.books_ok]
    · simp [write.failure, failureAt, unfailed]

/-- A transaction is the passage of the items of its chunk. It fails as the passage does. -/
theorem Transacts.follows {items : List ι} {result : Result (List ω)}
    (transacts : step.Transacts items p events result after)
    (independent : step.Independent input work place source processor policy name)
    (rests : (place.get p.state).AtRest) :
    ∃ outputs ending, result = (ending.map fun () => outputs) ∧
      Follows work (passage processor policy items (work.get p.state) p.ledger.processSkipCount)
        (calls events) outputs ending after ∧
      failure? (calls events) = failureAt .processing ending := by
  have storing := independent.storing independent.workStore.keepsFirst
  cases transacts.carries independent.stores rests with
  | @carried opened middle _ told state heard processing completing outputs ending before answer
      process complete =>
    -- The listeners and the store leave processor and policy as they are.
    have hearing := (notify_leaves before fun listener member =>
      (independent.hearing listener member).beforeChunk).kept
    have begun := (Leaves.asked (.begin (.ok ()) : Call ι ω) storing.begin answer).kept
    have books := notify_ledger before
    obtain ⟨kept, skips, unfailed⟩ := complete.keeps independent
    have follows := process.follows independent.works
    simp only [begun, hearing, books] at follows
    have apart := itemCalls_of_apart (notify_apart before fun _ => rfl)
    refine ⟨outputs, ending, rfl, ⟨?_, follows.outputs, follows.ending, ?_, ?_⟩, ?_⟩
    · rw [calls_append, calls_append, calls_asked, calls_log, calls_append, itemCalls_append,
        itemCalls_append, itemCalls_append, apart, itemCalls_of_apart complete.apart,
        List.append_nil]
      exact follows.made
    · rw [kept, follows.state]
    · rw [skips, follows.skipped]
    · have quiet := notify_failure before fun _ => rfl
      simp [quiet, process.failure, unfailed]

/-- What became of a chunk is the passage of its items, and what it adds to the items `held` in the
store is what it commits. -/
structure Passed (work : Place σ υ) (place : Place σ (ItemStore ω)) (passing : Passage υ ι ω)
    (held : List ω) (made : List (Call ι ω)) (result : Result (List ω)) (after : Progress σ) :
    Prop where
  decided : itemCalls made = passing.made
  ends : result = passing.ending.map fun () => passing.outputs.reduceOption
  failure : failure? made = failureAt .processing passing.ending
  state : work.get after.state = passing.state
  skipped : after.ledger.processSkipCount = passing.skipped
  stored : (place.get after.state).items = held ++ (committedBy result).flatten
  rests : (place.get after.state).AtRest

/-- A chunk that is read and executed. -/
theorem Reads.passedChunk {read : Progress σ} {items : List ι} {status : ChunkStatus}
    {result : Result (List ω)} {reading transaction : List (StepEvent ι ω ε)}
    (reads : step.Reads step.chunkSize p reading items (.ok status) read)
    (transacts : step.Transacts items read transaction result after)
    (independent : step.Independent input work place source processor policy name)
    (rests : (place.get p.state).AtRest) :
    Passed work place
      (passage processor policy items (work.get p.state) p.ledger.processSkipCount)
      (place.get p.state).items (calls (reading ++ transaction)) result after := by
  -- Reading touches neither processor and policy nor the store, and is no call on an item.
  have worked := (reads.leaves (independent.reading independent.inputWork.keepsSecond)).kept
  have held := (reads.leaves (independent.reading independent.inputStore.keepsSecond)).kept
  have skips : read.ledger.processSkipCount = p.ledger.processSkipCount := by
    rw [reads.books]
    rfl
  obtain ⟨outputs, ending, same, follows, failure⟩ := transacts.follows independent (held ▸ rests)
  rw [worked, skips] at follows
  have tracked := (transacts.tracked independent.stores (held ▸ rests)).stands
  have stored := tracked.items
  rw [transacts.along, List.nil_append, held] at stored
  constructor
  case decided =>
    rw [calls_append, itemCalls_append, itemCalls_of_apart reads.apart]
    exact follows.made
  case ends => rw [same, follows.ending, follows.outputs]
  case failure => simp [reads.failure, failureAt, failure, follows.ending]
  case state => exact follows.state
  case skipped => exact follows.skipped
  case stored => exact stored
  case rests => exact ⟨by simp, tracked.staged, tracked.active⟩

/-- Behind a full chunk the reader yields the rest of its items, whatever became of the chunk. -/
theorem Reads.rest {read : Progress σ} {items xs : List ι} {result : Result (List ω)}
    {reading transaction : List (StepEvent ι ω ε)}
    (reads : step.Reads step.chunkSize p reading items (.ok .full) read)
    (transacts : step.Transacts items read transaction result after)
    (independent : step.Independent input work place source processor policy name)
    (yields : source.Yields (input.get p.state) xs) :
    step.chunkSize ≤ xs.length ∧
      source.Yields (input.get after.state) (xs.drop step.chunkSize) := by
  obtain ⟨-, ended, rest⟩ := reads.yields independent yields
  have fits : step.chunkSize ≤ xs.length := by
    split at ended
    next => cases ended
    next fits => exact Nat.not_lt.mp fits
  have kept := (transacts.leaves
    (independent.processing (·.1) independent.inputWork.keepsFirst fun _ _ => trivial)
    (independent.storing independent.inputStore.keepsFirst)).kept
  rw [show input.get after.state = input.get read.state from kept]
  exact ⟨fits, rest fits⟩

/-! ## All chunks -/

/-- A run, or the rest of one, that takes its items through processor and policy as the passage
says. Its chunks have a size, and what they store is added to the items `held` in the store. -/
structure Crosses (size : Nat) (place : Place σ (ItemStore ω)) (passing : Passage υ ι ω)
    (held : List ω) (made : List (Call ι ω)) (result : Result Unit) (after : σ) : Prop where
  decided : itemCalls made = passing.made
  ends : result = passing.ending
  failure : failure? made = failureAt .processing passing.ending
  stored : (place.get after).items = held ++ (passing.kept size).reduceOption

section

variable {passing rest : Passage υ ι ω} {later : υ → Nat → Passage υ ι ω} {held : List ω}
  {first made : List (Call ι ω)} {outputs : List ω} {size : Nat}

/-- A chunk that is lost is not stored, and nothing behind it is processed. -/
theorem Passed.lost {error : Error} {count : Nat}
    (passed : Passed work place passing held first (.error error) after)
    (spans : passing.Spans count) (fits : count ≤ size) :
    Crosses size place (passing.andThen later) held first (.error error) after.state := by
  have fatal : passing.ending = .error error := by
    have ends := passed.ends
    rcases ending : passing.ending with reason | done <;> rw [ending] at ends <;> cases ends
    rfl
  have short : passing.outputs.length < size := by
    rw [Passage.Spans, fatal] at spans
    exact Nat.lt_of_lt_of_le spans fits
  have alone : passing.andThen later = passing := by rw [Passage.andThen, fatal]
  rw [alone]
  refine ⟨passed.decided, fatal.symm, passed.failure, ?_⟩
  rw [passed.stored, Passage.kept_of_short fatal short]
  rfl

theorem Passed.ending_eq (passed : Passed work place passing held first (.ok outputs) after) :
    passing.ending = .ok () ∧ outputs = passing.outputs.reduceOption := by
  have ends := passed.ends
  rcases ending : passing.ending with reason | done <;> rw [ending] at ends <;> cases ends
  exact ⟨rfl, rfl⟩

/-- The last chunk. -/
theorem Passed.whole (passed : Passed work place passing held first (.ok outputs) after) :
    Crosses size place passing held first (.ok ()) after.state := by
  obtain ⟨ended, rfl⟩ := passed.ending_eq
  refine ⟨passed.decided, ended.symm, passed.failure, ?_⟩
  rw [passed.stored, Passage.kept, ended]
  simp [committedBy]

/-- A full chunk is stored in front of the rest. -/
theorem Passed.andThen {final : σ} {result : Result Unit}
    (passed : Passed work place passing held first (.ok outputs) after)
    (full : passing.Spans size) (positive : 0 < size)
    (crosses : Crosses size place (later (work.get after.state) after.ledger.processSkipCount)
      (place.get after.state).items made result final) :
    Crosses size place (passing.andThen later) held (first ++ made) result final := by
  obtain ⟨ended, rfl⟩ := passed.ending_eq
  have goesOn : passing.andThen later =
      (later (work.get after.state) after.ledger.processSkipCount).behind passing.made
        passing.outputs := by
    rw [Passage.andThen, ended, passed.state, passed.skipped]
  have harmless : failure? first = none := by
    rw [passed.failure, ended]
    rfl
  rw [Passage.Spans, ended] at full
  rw [goesOn]
  constructor
  case decided =>
    rw [itemCalls_append, passed.decided, crosses.decided]
    rfl
  case ends => exact crosses.ends
  case failure =>
    rw [failure?_append, harmless, Option.none_or]
    exact crosses.failure
  case stored =>
    rw [crosses.stored, passed.stored, Passage.kept_behind full positive,
      List.reduceOption_append]
    simp [committedBy]

end

/-- A round with a result takes what is left through processor and policy, or fails to. -/
theorem Round.crosses {result : Result Unit} {xs : List ι}
    (round : step.Round p events (some result) after)
    (independent : step.Independent input work place source processor policy name)
    (yields : source.Yields (input.get p.state) xs) (rests : (place.get p.state).AtRest) :
    Crosses step.chunkSize place
      (passage processor policy xs (work.get p.state) p.ledger.processSkipCount)
      (place.get p.state).items (calls events) result after.state := by
  cases round with
  | notRead reads => cases (reads.yields independent yields).2.1
  | exhausted reads =>
    obtain ⟨nothing, -⟩ := reads.yields independent yields
    have empty : xs = [] :=
      (List.take_eq_nil_iff.mp nothing.symm).resolve_left (Nat.ne_of_gt step.chunkSize_pos)
    have kept := (reads.leaves independent.stores.reader).kept
    rw [empty, calls_log]
    refine ⟨itemCalls_of_apart reads.apart, rfl, reads.failure, ?_⟩
    rw [kept]
    exact (List.append_nil _).symm
  | failed reads nonempty transacts =>
    have passed := reads.passedChunk transacts independent rests
    obtain ⟨taken, -⟩ := reads.yields independent yields
    rw [calls_log]
    nth_rewrite 1 [← List.take_append_drop step.chunkSize xs]
    rw [passage_append, ← taken]
    exact passed.lost (passage_spans _ _ _) reads.length_le
  | last reads nonempty transacts =>
    have passed := reads.passedChunk transacts independent rests
    obtain ⟨taken, ended, -⟩ := reads.yields independent yields
    -- A chunk that is not full has all items that were left.
    have short : xs.length < step.chunkSize := by
      split at ended
      next short => exact short
      next => cases ended
    rw [List.take_of_length_le (Nat.le_of_lt short)] at taken
    rw [calls_log, ← taken]
    exact passed.whole

/-- Enough rounds take all items through processor and policy. -/
theorem Rounds.crosses {rounds : Nat} {result : Option (Result Unit)} {xs : List ι}
    (all : step.Rounds rounds p events result after) (room : step.HasRoom)
    (independent : step.Independent input work place source processor policy name)
    (yields : source.Yields (input.get p.state) xs)
    (enough : xs.length / step.chunkSize < rounds) (rests : (place.get p.state).AtRest) :
    ∃ ended, result = some ended ∧ Crosses step.chunkSize place
      (passage processor policy xs (work.get p.state) p.ledger.processSkipCount)
      (place.get p.state).items (calls events) ended after.state := by
  -- A full chunk is a first part of the passage, and the rest of the items goes on from where it
  -- left processor, policy and store.
  induction all generalizing xs with
  | unfinished => cases enough
  | stopped crowded => exact absurd room crowded
  | last round => exact ⟨_, rfl, round.crosses independent yields rests⟩
  | @more rounds _ _ _ _ _ _ round rest ih =>
    cases round with
    | more reads nonempty transacts =>
      have passed := reads.passedChunk transacts independent rests
      obtain ⟨taken, -⟩ := reads.yields independent yields
      obtain ⟨long, later⟩ := reads.rest transacts independent yields
      have full := reads.length_eq rfl
      have fewer : (xs.drop step.chunkSize).length / step.chunkSize < rounds := by
        rw [Nat.div_eq_sub_div step.chunkSize_pos long] at enough
        rw [List.length_drop]
        exact Nat.lt_of_succ_lt_succ enough
      obtain ⟨ended, rfl, crosses⟩ := ih later fewer passed.rests
      refine ⟨ended, rfl, ?_⟩
      rw [calls_append, calls_log]
      nth_rewrite 1 [← List.take_append_drop step.chunkSize xs]
      rw [passage_append, ← taken]
      exact passed.andThen (full ▸ passage_spans _ _ _) step.chunkSize_pos crosses

/-- Opening and closing the store decide nothing about items and store nothing. -/
theorem Runs.crosses {rounds : Nat} {result : Option (Result Unit)} {xs : List ι}
    (runs : step.Runs rounds p events result after) (room : step.HasRoom)
    (independent : step.Independent input work place source processor policy name)
    (yields : source.Yields (input.get p.state) xs)
    (enough : xs.length / step.chunkSize < rounds) (rests : (place.get p.state).AtRest) :
    ∃ ended, result = some ended ∧ Crosses step.chunkSize place
      (passage processor policy xs (work.get p.state) p.ledger.processSkipCount)
      (place.get p.state).items (calls events) ended after.state := by
  cases runs with
  | notOpened answer => cases (independent.stores.opened answer).1
  | unfinished answer all =>
    obtain ⟨-, rfl, rfl⟩ := independent.stores.opened answer
    obtain ⟨ended, same, -⟩ := all.crosses room independent yields enough rests
    cases same
  | closed answer all close =>
    obtain ⟨-, rfl, rfl⟩ := independent.stores.opened answer
    obtain ⟨rfl, rfl, rfl⟩ := independent.stores.closed close
    obtain ⟨ended, same, crosses⟩ := all.crosses room independent yields enough rests
    cases same
    refine ⟨_, rfl, ?_, crosses.ends, ?_, crosses.stored⟩
    · simpa [itemCalls] using crosses.decided
    · simpa using crosses.failure

/-! ## Two runs -/

/-- What a run computes that found `held` in the store: the passage of all items. Only what it
stores depends on the size of its chunks, and what it reads if one of the items is fatal. -/
structure Computes (size : Nat) (place : Place σ (ItemStore ω)) (passing : Passage υ ι ω)
    (before : Ledger) (held : List ω) (made : List (Call ι ω)) (result : Option (Result Unit))
    (after : Progress σ) : Prop where
  value : result = some passing.ending
  decided : itemCalls made = passing.made
  status : after.ledger.status = if passing.ending.isOk then .success else .processorError
  filtered : after.ledger.filterCount = before.filterCount + passing.made.countP Call.isFiltered
  skipped : after.ledger.processSkipCount =
    before.processSkipCount + passing.made.countP Call.isSkipped
  failed : after.ledger.processErrorCount =
    before.processErrorCount + passing.made.countP Call.isFailed
  committed : (committedChunks made).flatten = (passing.kept size).reduceOption
  stored : (place.get after.state).items = held ++ (committedChunks made).flatten
  written : after.ledger.writeCount = before.writeCount + (committedChunks made).flatten.length
  read : passing.ending = .ok () → after.ledger.readCount = before.readCount +
    ((committedChunks made).flatten.length + passing.made.countP Call.isFiltered +
      passing.made.countP Call.isSkipped)

/-- Only calls on items filter, skip or fail one. -/
theorem countP_itemCalls (counted : Call ι ω → Bool)
    (onItem : ∀ call : Call ι ω, counted call = true → call.onItem = true)
    (made : List (Call ι ω)) : (itemCalls made).countP counted = made.countP counted := by
  rw [itemCalls, List.countP_filter]
  apply List.countP_congr
  intro call _
  rw [Bool.and_eq_true]
  exact and_iff_left_of_imp (onItem call)

theorem Runs.computes {rounds : Nat} {result : Option (Result Unit)} {xs : List ι}
    (runs : step.Runs rounds p events result after) (room : step.HasRoom)
    (independent : step.Independent input work place source processor policy name)
    (yields : source.Yields (input.get p.state) xs)
    (enough : xs.length / step.chunkSize < rounds) (rests : (place.get p.state).AtRest) :
    Computes step.chunkSize place
      (passage processor policy xs (work.get p.state) p.ledger.processSkipCount) p.ledger
      (place.get p.state).items (calls events) result after := by
  obtain ⟨ended, rfl, crosses⟩ := runs.crosses room independent yields enough rests
  have stored : (place.get after.state).items =
      (place.get p.state).items ++ (committedChunks (calls events)).flatten :=
    (runs.tracked independent.stores rests).stands.items
  have status := runs.status
  have decides := runs.decides
  obtain ⟨tally, rest, books, balanced⟩ := runs.balanced
  -- The books count the calls on items, and these are the calls of the passage.
  have filters := countP_itemCalls Call.isFiltered
    (fun call => by cases call <;> simp) (calls events)
  have skips := countP_itemCalls Call.isSkipped
    (fun call => by cases call <;> simp) (calls events)
  have fails := countP_itemCalls Call.isFailed
    (fun call => by cases call <;> simp) (calls events)
  rw [crosses.decided] at filters skips fails
  have filtered := filters ▸ decides.filtered
  have skipped := skips ▸ decides.consults.total_eq
  constructor
  case value => rw [crosses.ends]
  case decided => exact crosses.decided
  case status =>
    rw [status, finalStatus, failedStage?, crosses.failure]
    rcases (passage processor policy xs _ _).ending with error | ⟨⟩ <;> rfl
  case filtered => exact filtered
  case skipped => exact skipped
  case failed => exact fails ▸ decides.failed
  case committed => exact List.append_cancel_left (stored.symm.trans crosses.stored)
  case stored => exact stored
  case written =>
    rw [books, ← balanced.written]
    rfl
  case read =>
    intro success
    have unfailed : failedStage? (calls events) = none := by
      rw [failedStage?, crosses.failure, success]
      rfl
    -- Nothing was lost, so every item read was written, filtered or skipped.
    have residue := balanced.residue
    rw [unfailed] at residue
    cases residue
    have read := balanced.balance
    rw [balanced.written] at read
    rw [books] at filtered skipped ⊢
    simp only [Ledger.plus] at filtered skipped ⊢
    omega

/-- Two runs of a step from the same state that differ in the size of their chunks make the same
calls on items and end the same. If they succeed, they have stored and counted the same. If they
fail, what one of them has committed is a prefix of what the other has, and small chunks commit at
least as much as large ones that consist of them. -/
theorem execute_chunkSizes {xs : List ι} {other : Nat} (positive : 0 < other)
    {rounds otherRounds : Nat}
    (room : step.HasRoom) (roomOther : (step.withChunkSize other positive).HasRoom)
    (independent : step.Independent input work place source processor policy name)
    (yields : source.Yields (input.get p.state) xs)
    (reachable : (place.get p.state).Reachable)
    (outside : (place.get p.state).inTransaction = false)
    (enough : xs.length / step.chunkSize < rounds) (enoughOther : xs.length / other < otherRounds) :
    let first := step.execute rounds p
    let second := (step.withChunkSize other positive).execute otherRounds p
    let committed := (committedChunks (calls first.events)).flatten
    let otherCommitted := (committedChunks (calls second.events)).flatten
    ∃ result, first.value = some result ∧ second.value = some result ∧
      itemCalls (calls first.events) = itemCalls (calls second.events) ∧
      first.state.ledger.status = second.state.ledger.status ∧
      first.state.ledger.filterCount = second.state.ledger.filterCount ∧
      first.state.ledger.processSkipCount = second.state.ledger.processSkipCount ∧
      first.state.ledger.processErrorCount = second.state.ledger.processErrorCount ∧
      (place.get first.state.state).items = (place.get p.state).items ++ committed ∧
      (place.get second.state.state).items = (place.get p.state).items ++ otherCommitted ∧
      (result = .ok () →
        (place.get first.state.state).items = (place.get second.state.state).items ∧
          first.state.ledger.readCount = second.state.ledger.readCount ∧
          first.state.ledger.writeCount = second.state.ledger.writeCount) ∧
      ∀ error, result = .error error →
        (committed <+: otherCommitted ∨ otherCommitted <+: committed) ∧
          (step.chunkSize ∣ other → otherCommitted <+: committed) := by
  obtain ⟨events, ended, after, runs, eq⟩ := step.execute_runs rounds p
  obtain ⟨otherEvents, otherEnded, final, otherRuns, otherEq⟩ :=
    (step.withChunkSize other positive).execute_runs otherRounds p
  have rests := reachable.atRest outside
  have one := runs.computes room independent yields enough rests
  have two :=
    otherRuns.computes roomOther (independent.withChunkSize other positive) yields enoughOther rests
  simp only [eq, otherEq]
  -- Both runs are the passage of all items, and what each commits is kept of it by its chunks.
  generalize passage processor policy xs _ _ = passing at one two
  refine ⟨passing.ending, one.value, two.value, one.decided.trans two.decided.symm,
    one.status.trans two.status.symm, one.filtered.trans two.filtered.symm,
    one.skipped.trans two.skipped.symm, one.failed.trans two.failed.symm, one.stored, two.stored,
    ?_, ?_⟩
  · intro success
    have same : (committedChunks (calls events)).flatten =
        (committedChunks (calls otherEvents)).flatten := by
      rw [one.committed, two.committed, Passage.kept, Passage.kept, success]
    rw [one.stored, two.stored, one.read success, two.read success, one.written, two.written, same]
    exact ⟨rfl, rfl, rfl⟩
  · intro error fatal
    rw [one.committed, two.committed]
    refine ⟨?_, ?_⟩
    · exact (Nat.le_total _ _).imp (Passage.kept_prefix fatal) (Passage.kept_prefix fatal)
    · intro divides
      exact Passage.kept_prefix fatal (mul_div_le_mul_div_of_dvd divides _ step.chunkSize_pos)

end

/-- What a small step works on: a queue, a total with the patience for items left, and a store. -/
structure Desk where
  queue : ItemQueue Nat
  total : Nat
  patience : Nat
  store : ItemStore Nat

def Desk.input : Place Desk (ItemQueue Nat) := ⟨queue, fun queue desk => { desk with queue }⟩

def Desk.work : Place Desk (Nat × Nat) :=
  ⟨fun desk => (desk.total, desk.patience),
    fun work desk => { desk with total := work.1, patience := work.2 }⟩

def Desk.place : Place Desk (ItemStore Nat) := ⟨store, fun store desk => { desk with store }⟩

/-- Adds up the items that are not zero. -/
def adding : Processor (Nat × Nat) ComponentLog Nat Nat where
  process item work :=
    if item = 0 then ⟨.error (.validation "zero"), [], work⟩
    else ⟨.ok (some (work.1 + item)), [], (work.1 + item, work.2)⟩

/-- Skips as long as it has patience. -/
def patient : SkipPolicy (Nat × Nat) ComponentLog where
  shouldSkip _ _ work := ⟨.ok (decide (0 < work.2)), [], (work.1, work.2 - 1)⟩

def totals : ChunkStep Desk ComponentLog Nat Nat where
  name := "totals"
  reader := (ItemQueue.asReader Nat ComponentLog).within Desk.input id
  processor := adding.within Desk.work id
  writer := ItemStore.asWriter.within Desk.place id
  transactions := ItemStore.asTransactions.within Desk.place id
  policy := patient.within Desk.work id
  chunkSize := 1
  chunkSize_pos := Nat.one_pos
  itemSize := 8

theorem totals_independent :
    totals.Independent Desk.input Desk.work Desk.place (ItemQueue.asReader Nat ComponentLog) adding
      patient id where
  inputLawful := ⟨fun _ _ => rfl, fun _ => rfl⟩
  workLawful := ⟨fun _ _ => rfl, fun _ => rfl⟩
  storeLawful := ⟨fun _ _ => rfl, fun _ => rfl⟩
  inputWork := ⟨fun _ _ => rfl, fun _ _ => rfl⟩
  inputStore := ⟨fun _ _ => rfl, fun _ _ => rfl⟩
  workStore := ⟨fun _ _ => rfl, fun _ _ => rfl⟩
  reader := rfl
  processor := rfl
  policy := rfl
  writer := rfl
  transactions := rfl
  chunkListeners := nofun
  skipListeners := nofun

/-- The second zero is fatal. Chunks of two lose the item before it, which single items do not. -/
theorem totals_chunkSizes :
    let start : Progress Desk := ⟨{ id := ⟨1⟩, name := "totals" }, ⟨[1, 0, 2, 0]⟩, 0, 1, {}⟩
    let first := totals.execute 5 start
    let second := (totals.withChunkSize 2 (by decide)).execute 3 start
    first.value = some (.error (.validation "zero")) ∧ second.value = first.value ∧
      first.state.state.store.items = [1, 3] ∧ second.state.state.store.items = [1] ∧
      itemCalls (calls first.events) = itemCalls (calls second.events) ∧
      (committedChunks (calls second.events)).flatten <+:
        (committedChunks (calls first.events)).flatten := by
  intro start first second
  have ended : first.value = some (.error (.validation "zero")) := by decide +kernel
  have yields : (ItemQueue.asReader Nat ComponentLog).Yields start.state.queue [1, 0, 2, 0] :=
    .item rfl (.item rfl (.item rfl (.item rfl (.exhausted rfl))))
  obtain ⟨result, value, other, same, -, -, -, -, -, -, -, failing⟩ :=
    execute_chunkSizes (p := start) (by decide : 0 < 2) (by decide) (by decide) totals_independent
      yields .empty rfl (by decide : [1, 0, 2, 0].length / 1 < 5) (by decide : _ < 3)
  have fatal : result = .error (.validation "zero") := Option.some.inj (value.symm.trans ended)
  have kept : first.state.state.store.items = [1, 3] := by decide +kernel
  have lost : second.state.state.store.items = [1] := by decide +kernel
  exact ⟨ended, other.trans value.symm, kept, lost, same, (failing _ fatal).2 (Nat.one_dvd 2)⟩

/-- A single item is added up in a chunk of its own, and not in one that there is no room for. -/
theorem totals_vast :
    let start : Progress Desk := ⟨{ id := ⟨1⟩, name := "totals" }, ⟨[1]⟩, 0, 1, {}⟩
    totals.vast.Independent Desk.input Desk.work Desk.place (ItemQueue.asReader Nat ComponentLog)
      adding patient id ∧
    (totals.execute 2 start).value = some (.ok ()) ∧
    ∀ rounds, (totals.vast.execute rounds start).value = none ∧
      stops (totals.vast.execute (rounds + 1) start).events = [capacityOverflow] :=
  ⟨totals_independent.withChunkSize _ _, by decide +kernel, totals.execute_vast (by decide) rfl⟩

end ChunkStep

end Batchwork
