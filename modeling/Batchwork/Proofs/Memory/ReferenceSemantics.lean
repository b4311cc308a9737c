import Batchwork.Proofs.Memory.QueueToStore
import Batchwork.Proofs.Step.Stopping

/-!
# Reference semantics of a step in memory

A step that reads from a queue, processes with a function, skips by a rule and writes to a store
does what a single pass over the items says. Main statement: `execute_reference`.
-/

namespace Batchwork

variable {σ δ ε ι ω : Type}

namespace ChunkStep

/-- A step that reads from a queue, processes with a function, skips by a rule and stores its chunks
in a store, which also manages its transactions. The listeners touch neither queue nor store. -/
structure InMemory (step : ChunkStep σ ε ι ω) (queue : Place σ (ItemQueue ι))
    (place : Place σ (ItemStore ω)) (input : δ → ε) (name : ComponentLog → ε)
    (f : ι → Result (Option ω)) (rule : SkipLimit) : Prop where
  queueLawful : queue.Lawful
  storeLawful : place.Lawful
  queueApart : ∀ store state, queue.get (place.put store state) = queue.get state
  storeApart : ∀ items state, place.get (queue.put items state) = place.get state
  reader : step.reader = (ItemQueue.asReader ι δ).within queue input
  processor : step.processor = .ofFunction f
  policy : step.policy = rule.policy σ ε ∨ (rule.kinds = [] ∧ step.policy = .never σ ε)
  writer : step.writer = ItemStore.asWriter.within place name
  transactions : step.transactions = ItemStore.asTransactions.within place name
  chunkListeners : ∀ listener ∈ step.chunkListeners,
    listener.StandsBy (fun state => (queue.get state, place.get state)) fun _ _ => True
  skipListeners : ∀ listener ∈ step.skipListeners, ∀ item error,
    Bystander (fun state => (queue.get state, place.get state)) (fun _ _ => True)
      (listener.onSkip item error)

variable {step : ChunkStep σ ε ι ω} {queue : Place σ (ItemQueue ι)} {place : Place σ (ItemStore ω)}
  {input : δ → ε} {name : ComponentLog → ε} {f : ι → Result (Option ω)} {rule : SkipLimit}
  {p after : Progress σ} {events : List (StepEvent ι ω ε)}

/-- The policy answers what a rule says. -/
def RuledBy (step : ChunkStep σ ε ι ω) (rule : SkipLimit) : Prop :=
  ∀ error skipped state,
    (step.policy.shouldSkip error skipped state).value = rule.ruling error skipped

/-- Only the rule decides what is skipped: a policy that never skips is a rule without kinds. -/
theorem InMemory.shouldSkip (memory : step.InMemory queue place input name f rule) (error : Error)
    (skipped : Nat) (state : σ) :
    step.policy.shouldSkip error skipped state = ⟨rule.ruling error skipped, [], state⟩ := by
  rcases memory.policy with policy | ⟨kinds, policy⟩
  · rw [policy]
    rfl
  · obtain ⟨limit, designated⟩ := rule
    cases kinds
    rw [policy, SkipLimit.ruling_of_kinds_nil]
    rfl

theorem InMemory.process (memory : step.InMemory queue place input name f rule) (item : ι)
    (state : σ) : step.processor.process item state = ⟨f item, [], state⟩ := by
  rw [memory.processor]
  rfl

theorem InMemory.ruled (memory : step.InMemory queue place input name f rule) :
    step.RuledBy rule :=
  fun error skipped state => by rw [memory.shouldSkip]

theorem InMemory.queueToStore (memory : step.InMemory queue place input name f rule) :
    step.QueueToStore queue place input name f where
  queueLawful := memory.queueLawful
  storeLawful := memory.storeLawful
  queueApart := memory.queueApart
  storeApart := memory.storeApart
  reader := memory.reader
  answers item state := by rw [memory.process]
  writer := memory.writer
  transactions := memory.transactions
  standsBy :=
    { processor := fun item =>
        ⟨fun state => by rw [memory.process], fun _ _ _ => trivial⟩
      policy := fun error skipped =>
        ⟨fun state => by rw [memory.shouldSkip], fun _ _ _ => trivial⟩
      skipListeners := memory.skipListeners
      chunkListeners := memory.chunkListeners }

theorem RuledBy.answer (ruled : step.RuledBy rule) {error : Error} {skipped : Nat}
    {state next : σ} {answer : Result Bool} {told : List ε}
    (asked : step.policy.shouldSkip error skipped state = ⟨answer, told, next⟩) :
    rule.ruling error skipped = answer := by
  rw [← ruled error skipped state, asked]

theorem Skips.byRule_ok {item : ι} {error : Error}
    (skips : step.Skips item error p events (.ok ()) after) (ruled : step.RuledBy rule) :
    error.kind ∈ rule.kinds ∧ p.ledger.processSkipCount < rule.limit := by
  cases skips with
  | skipped answer notice => exact SkipLimit.ruling_skips (ruled.answer answer)

theorem Skips.byRule_error {item : ι} {error reason : Error}
    (skips : step.Skips item error p events (.error reason) after) (ruled : step.RuledBy rule) :
    (error.kind ∉ rule.kinds ∧ reason = error) ∨
      (error.kind ∈ rule.kinds ∧ rule.limit ≤ p.ledger.processSkipCount ∧
        reason = .skipLimitExceeded rule.limit) := by
  cases skips with
  | refused answer => exact .inl ⟨SkipLimit.ruling_refuses (ruled.answer answer), rfl⟩
  | overruled answer => exact .inr (SkipLimit.ruling_overrules (ruled.answer answer))

/-- Processing is a pass over the items. -/
theorem Processes.passes {items : List ι} {outputs : List ω} {ending : Result Unit}
    (processes : step.Processes items p events outputs ending after)
    (memory : step.QueueToStore queue place input name f) (ruled : step.RuledBy rule)
    (below : p.ledger.processSkipCount ≤ rule.limit) :
    Passes rule f p.ledger items outputs ending after.ledger := by
  -- Each item is a pass of its own, and the rest starts from the books that it leaves. The count of
  -- skipped items stays within the limit, because it grows only where the policy was below it.
  induction processes with
  | done => exact ⟨fun index reason fatal => absurd fatal.lt_length (Nat.not_lt_zero index), rfl,
      rfl, below⟩
  | @output p after told state item items output outputs events ending answer rest ih =>
    have made : f item = .ok (some output) := memory.answer answer
    have alone : passed rule f [item] = {} := by simp [passed, isFiltered, failsSkippably, made]
    have harmless : Harmless rule f p.ledger.processSkipCount [item] :=
      harmless_singleton fun error fails => by rw [made] at fails; cases fails
    have produced : outputsOf f [item] = [output] := by simp [outputsOf, made]
    have whole := Passes.cons harmless (by rw [alone]; exact ih below)
    rwa [produced] at whole
  | @filtered p after told state item items outputs events ending answer rest ih =>
    have made : f item = .ok none := memory.answer answer
    have alone : passed rule f [item] = { filtered := 1 } := by
      simp [passed, isFiltered, failsSkippably, made]
    have harmless : Harmless rule f p.ledger.processSkipCount [item] :=
      harmless_singleton fun error fails => by rw [made] at fails; cases fails
    have produced : outputsOf f [item] = [] := by simp [outputsOf, made]
    have whole := Passes.cons harmless (by rw [alone]; exact ih below)
    rwa [produced] at whole
  | @skipped p middle after told state item items error outputs decision events ending answer skip
      rest ih =>
    have fails : f item = .error error := memory.answer answer
    obtain ⟨designated, room⟩ := skip.byRule_ok ruled
    have alone : passed rule f [item] = { skipped := 1, processErrors := 1 } := by
      simp [passed, isFiltered, failsSkippably, fails, SkipLimit.isSkippable, designated]
    have harmless : Harmless rule f p.ledger.processSkipCount [item] :=
      harmless_singleton fun other same => by
        cases fails.symm.trans same
        exact ⟨designated, Nat.ne_of_lt room⟩
    have produced : outputsOf f [item] = [] := by simp [outputsOf, fails]
    have books := skip.books_ok
    rw [books] at ih
    have whole := Passes.cons harmless (by rw [alone]; exact ih room)
    rwa [produced] at whole
  | @fatal p after told state item items error reason decision answer refusal =>
    have fails : f item = .error error := memory.answer answer
    refine ⟨0, firstFatal_zero (fatalAt_cons_zero.mpr ⟨error, fails, ?_⟩), ?_⟩
    · rcases refusal.byRule_error ruled with undesignated | ⟨designated, full, overruled⟩
      · exact .inl undesignated
      · -- The count never passes the limit, so a policy that refuses stands exactly at it.
        exact .inr ⟨designated, Nat.le_antisymm below full, overruled⟩
    · rw [refusal.books_error]
      rfl

/-- A transaction is a pass over the items of its chunk, which is committed if none of them is fatal
and rolled back otherwise. -/
theorem Transacts.passes {items : List ι} {result : Result (List ω)} {start : List ω}
    {before : Outputs ω} (transacts : step.Transacts items p events result after)
    (memory : step.QueueToStore queue place input name f) (ruled : step.RuledBy rule)
    (below : p.ledger.processSkipCount ≤ rule.limit)
    (stands : (place.get p.state).Stands start before false []) :
    (∀ outputs, result = .ok outputs → ∃ books,
      Passes rule f p.ledger items outputs (.ok ()) books ∧
        after.ledger = books.plus { commits := 1, written := outputs.length } books.status) ∧
    ∀ reason, result = .error reason → ∃ outputs books,
      Passes rule f p.ledger items outputs (.error reason) books ∧
        after.ledger = books.plus { rollbacks := 1 } books.status := by
  cases transacts.carries memory.stores stands with
  | carried notice answer process complete =>
    rw [← notify_ledger notice] at below ⊢
    have passes := process.passes memory ruled below
    cases complete with
    | takenBack undo =>
      refine ⟨fun _ same => (by cases same), fun reason same => ?_⟩
      cases same
      exact ⟨_, _, passes, undo.books⟩
    | stored write commit told =>
      refine ⟨fun outputs same => ?_, fun _ same => (by cases same)⟩
      cases same
      refine ⟨_, passes, ?_⟩
      rw [notify_ledger told, ← write.books_ok]
      rfl

/-- A chunk that is read and committed, with what is seen before and after. -/
theorem Reads.committed {read : Progress σ} {items : List ι} {outputs : List ω}
    {status : ChunkStatus} {reading transaction : List (StepEvent ι ω ε)}
    (reads : step.Reads step.chunkSize p reading items (.ok status) read)
    (transacts : step.Transacts items read transaction (.ok outputs) after)
    (memory : step.QueueToStore queue place input name f) (ruled : step.RuledBy rule)
    (below : p.ledger.processSkipCount ≤ rule.limit) (rests : (place.get p.state).AtRest) :
    Harmless rule f p.ledger.processSkipCount items ∧
      sight queue place after =
        ⟨p.ledger.plus (chunkTally rule f items) p.ledger.status, (queue.get read.state).items,
          (place.get read.state).items ++ outputsOf f items⟩ ∧
      after.ledger.processSkipCount ≤ rule.limit ∧ (place.get after.state).AtRest := by
  obtain ⟨_, _, _, _, kept⟩ := reads.seen memory
  have books := reads.accounts_ok.1
  -- Reading skips nothing, so the pass starts with the count that the round started with.
  have skips : read.ledger.processSkipCount = p.ledger.processSkipCount := by rw [books]; rfl
  obtain ⟨passing, passes, ledger⟩ :=
    (transacts.passes memory ruled (skips ▸ below) (kept ▸ rests)).1 outputs rfl
  obtain ⟨harmless, rfl, passed_books, under⟩ := passes
  obtain ⟨seen, rests⟩ := transacts.seen memory (kept ▸ rests)
  have total : after.ledger = p.ledger.plus (chunkTally rule f items) p.ledger.status := by
    rw [ledger, passed_books, books]
    simp [chunkTally, passed, Tally.add_def, Ledger.plus]
  refine ⟨skips ▸ harmless, ?_, ?_, rests⟩
  · rw [seen, total]
    simp [committedBy]
  · rw [ledger, passed_books]
    exact under

/-- A round with a result finishes the run. -/
theorem Round.finishes {result : Result Unit} (round : step.Round p events (some result) after)
    (memory : step.QueueToStore queue place input name f) (ruled : step.RuledBy rule)
    (below : p.ledger.processSkipCount ≤ rule.limit) (rests : (place.get p.state).AtRest) :
    Finishes rule f step.chunkSize (sight queue place p) (some result)
      (sight queue place after) := by
  have positive := step.chunkSize_pos
  cases round with
  | notRead reads => cases (reads.fromQueue memory).2.2
  | @exhausted read _ reads =>
    obtain ⟨seen, _, more, _, kept⟩ := reads.seen memory
    -- Only a full chunk leaves items in the queue, and this one has none.
    have empty : (queue.get read.state).items = [] :=
      Decidable.byContradiction fun some_left => absurd (more some_left) (Nat.ne_of_lt positive)
    rw [seen, sight, reads.accounts_ok.1, empty]
    exact Finishes.exhausted positive
  | @failed read _ items status _ _ reason reads nonempty transacts =>
    obtain ⟨seen, fits, more, _, kept⟩ := reads.seen memory
    have books := reads.accounts_ok.1
    have skips : read.ledger.processSkipCount = p.ledger.processSkipCount := by rw [books]; rfl
    obtain ⟨_, passing, passes, ledger⟩ :=
      (transacts.passes memory ruled (skips ▸ below) (kept ▸ rests)).2 reason rfl
    obtain ⟨index, first, passed_books⟩ := passes
    have total : after.ledger = p.ledger.plus (passed rule f (items.take index) +
        { read := items.length, rollbacks := 1, processErrors := 1 }) .processorError := by
      rw [ledger, passed_books, books]
      simp [passed, Tally.add_def]
    rw [seen, (transacts.seen memory (kept ▸ rests)).1, total]
    simp only [committedBy, List.flatten_nil, List.append_nil]
    exact Finishes.failed fits more (skips ▸ first)
  | @last read final items outputs _ _ reads nonempty transacts =>
    obtain ⟨seen, _, more, ended, kept⟩ := reads.seen memory
    obtain ⟨harmless, final, _⟩ := reads.committed transacts memory ruled below rests
    -- A chunk that ended with the items is not full, and then the queue is empty.
    have short : items.length < step.chunkSize :=
      Decidable.byContradiction fun full => by rw [if_neg full] at ended; cases ended
    have empty : (queue.get read.state).items = [] :=
      Decidable.byContradiction fun some_left => absurd (more some_left) (Nat.ne_of_lt short)
    rw [seen, empty, List.append_nil]
    simp only [sight, empty, Sight.mk.injEq] at final ⊢
    rw [final.1, final.2.1, final.2.2]
    exact Finishes.last short nonempty harmless

/-- A round without a result commits a full chunk. -/
theorem Round.commits_full (round : step.Round p events none after)
    (memory : step.QueueToStore queue place input name f) (ruled : step.RuledBy rule)
    (below : p.ledger.processSkipCount ≤ rule.limit) (rests : (place.get p.state).AtRest) :
    ∃ chunk later, chunk.length = step.chunkSize ∧ Harmless rule f p.ledger.processSkipCount chunk ∧
      sight queue place p = ⟨p.ledger, chunk ++ later, (place.get p.state).items⟩ ∧
      sight queue place after = ⟨p.ledger.plus (chunkTally rule f chunk) p.ledger.status, later,
        (place.get p.state).items ++ outputsOf f chunk⟩ ∧
      after.ledger.processSkipCount ≤ rule.limit ∧ (place.get after.state).AtRest := by
  cases round with
  | @more read _ items outputs _ _ reads nonempty transacts =>
    obtain ⟨seen, fits, _, ended, kept⟩ := reads.seen memory
    obtain ⟨harmless, final, still, settled⟩ := reads.committed transacts memory ruled below rests
    have full : ¬items.length < step.chunkSize :=
      fun short => by rw [if_pos short] at ended; cases ended
    rw [kept] at seen final
    exact ⟨items, _, by omega, harmless, seen, final, still, settled⟩

theorem Rounds.finishes {rounds : Nat} {result : Option (Result Unit)}
    (all : step.Rounds rounds p events result after) (room : step.HasRoom)
    (memory : step.QueueToStore queue place input name f) (ruled : step.RuledBy rule)
    (enough : (queue.get p.state).items.length / step.chunkSize < rounds)
    (below : p.ledger.processSkipCount ≤ rule.limit) (rests : (place.get p.state).AtRest) :
    Finishes rule f step.chunkSize (sight queue place p) result (sight queue place after) := by
  induction all with
  | unfinished => exact absurd enough (Nat.not_lt_zero _)
  | stopped crowded => exact absurd room crowded
  | last round => exact round.finishes memory ruled below rests
  | @more rounds p middle after _ _ _ round rest ih =>
    obtain ⟨chunk, later, full, harmless, before, seen, still, settled⟩ :=
      round.commits_full memory ruled below rests
    have split : (queue.get p.state).items = chunk ++ later := congrArg Sight.queue before
    have left : (queue.get middle.state).items = later := congrArg Sight.queue seen
    -- The chunk takes one of the rounds, and one chunk off the queue.
    have fewer : (queue.get middle.state).items.length / step.chunkSize < rounds := by
      rw [split, List.length_append, full, Nat.add_div_left _ step.chunkSize_pos] at enough
      rw [left]
      exact Nat.lt_of_succ_lt_succ enough
    have finishes := ih fewer still settled
    rw [seen] at finishes
    rw [before]
    exact Finishes.more full step.chunkSize_pos harmless finishes

theorem Runs.finishesByRule {rounds : Nat} {result : Option (Result Unit)}
    (runs : step.Runs rounds p events result after) (room : step.HasRoom)
    (memory : step.QueueToStore queue place input name f) (ruled : step.RuledBy rule)
    (enough : (queue.get p.state).items.length / step.chunkSize < rounds)
    (below : p.ledger.processSkipCount ≤ rule.limit) (rests : (place.get p.state).AtRest) :
    Finishes rule f step.chunkSize (sight queue place p) result (sight queue place after) := by
  have stores := memory.stores
  -- Opening and closing leave queue and store alone, and the status does not matter to a pass.
  cases runs with
  | notOpened answer => cases (stores.opened answer).1
  | unfinished answer all =>
    obtain ⟨_, rfl, rfl⟩ := stores.opened answer
    have finishes := all.finishes room memory ruled enough below rests
    exact ⟨finishes.whole, finishes.broken⟩
  | closed answer all close =>
    obtain ⟨_, rfl, rfl⟩ := stores.opened answer
    obtain ⟨_, rfl, rfl⟩ := stores.closed close
    have finishes := all.finishes room memory ruled enough below rests
    exact ⟨finishes.whole, finishes.broken⟩

theorem Runs.finishes {rounds : Nat} {result : Option (Result Unit)}
    (runs : step.Runs rounds p events result after) (room : step.HasRoom)
    (memory : step.InMemory queue place input name f rule)
    (enough : (queue.get p.state).items.length / step.chunkSize < rounds)
    (below : p.ledger.processSkipCount ≤ rule.limit) (rests : (place.get p.state).AtRest) :
    Finishes rule f step.chunkSize (sight queue place p) result (sight queue place after) :=
  runs.finishesByRule room memory.queueToStore memory.ruled enough below rests

/-- A step in memory does what a pass over the items in its queue says. If no item is fatal, the run
succeeds and stores all outputs. Otherwise it fails at the first fatal item, and stores the outputs
of the chunks before the one of that item. -/
theorem execute_reference (memory : step.InMemory queue place input name f rule)
    (room : step.HasRoom) (rounds : Nat) {id : RunId} {title : String}
    (fresh : p.ledger = { id, name := title })
    (reachable : (place.get p.state).Reachable)
    (outside : (place.get p.state).inTransaction = false)
    (enough : (queue.get p.state).items.length / step.chunkSize < rounds) :
    let items := (queue.get p.state).items
    let stored := (place.get p.state).items
    let size := step.chunkSize
    let run := step.execute rounds p
    ((∀ index reason, ¬FatalAt rule f 0 items index reason) →
      run.value = some (.ok ()) ∧
        (place.get run.state.state).items = stored ++ outputsOf f items ∧
        (queue.get run.state.state).items = [] ∧
        run.state.ledger =
          { id
            name := title
            status := .success
            readCount := items.length
            filterCount := items.countP (isFiltered f)
            processSkipCount := items.countP (failsSkippably rule f)
            writeCount := (outputsOf f items).length
            commitCount := (items.length + size - 1) / size
            processErrorCount := items.countP (failsSkippably rule f) }) ∧
    ∀ index reason, FatalAt rule f 0 items index reason →
      (∀ earlier < index, ∀ other, ¬FatalAt rule f 0 items earlier other) →
      run.value = some (.error reason) ∧
        (place.get run.state.state).items =
          stored ++ outputsOf f (items.take (size * (index / size))) ∧
        (queue.get run.state.state).items = items.drop (size * (index / size + 1)) ∧
        run.state.ledger =
          { id
            name := title
            status := .processorError
            readCount := min items.length (size * (index / size + 1))
            filterCount := (items.take index).countP (isFiltered f)
            processSkipCount := (items.take index).countP (failsSkippably rule f)
            writeCount := (outputsOf f (items.take (size * (index / size)))).length
            commitCount := index / size
            rollbackCount := 1
            processErrorCount := (items.take index).countP (failsSkippably rule f) + 1 } := by
  obtain ⟨events, result, after, runs, eq⟩ := step.execute_runs rounds p
  have finishes := runs.finishes room memory enough (by rw [fresh]; exact Nat.zero_le _)
    (reachable.atRest outside)
  simp only [eq, sight, fresh] at finishes ⊢
  refine ⟨fun harmless => ?_, fun index reason fatal first => ?_⟩
  · obtain ⟨ended, seen⟩ := finishes.whole harmless
    simp only [Sight.mk.injEq] at seen
    obtain ⟨books, left, held⟩ := seen
    refine ⟨ended, held, left, ?_⟩
    rw [books]
    simp [Ledger.plus, wholePass, passed, Tally.add_def]
  · obtain ⟨ended, seen⟩ := finishes.broken index reason ⟨fatal, first⟩
    simp only [Sight.mk.injEq] at seen
    obtain ⟨books, left, held⟩ := seen
    refine ⟨ended, held, left, ?_⟩
    rw [books]
    simp [Ledger.plus, brokenPass, passed, Tally.add_def]

/-- Lets an item through unless it is zero. -/
def nonzero (item : Nat) : Result (Option Nat) :=
  if item = 0 then .error (.invalidItem "0" "zero") else .ok (some item)

/-- A step from a queue to a store that skips one zero. -/
def lenient : ChunkStep (ItemQueue Nat × ItemStore Nat) ComponentLog Nat Nat where
  name := "lenient"
  reader := (ItemQueue.asReader Nat ComponentLog).within (.first _ _) id
  processor := .ofFunction nonzero
  writer := ItemStore.asWriter.within (.second _ _) id
  transactions := ItemStore.asTransactions.within (.second _ _) id
  policy := { limit := 1, kinds := [.invalidItem] : SkipLimit }.policy _ _
  chunkSize := 2
  chunkSize_pos := Nat.two_pos
  itemSize := 8

theorem lenient_memory : lenient.InMemory (.first _ _) (.second _ _) id id nonzero
    { limit := 1, kinds := [.invalidItem] } where
  queueLawful := Place.first_lawful _ _
  storeLawful := Place.second_lawful _ _
  queueApart _ _ := rfl
  storeApart _ _ := rfl
  reader := rfl
  processor := rfl
  policy := .inl rfl
  writer := rfl
  transactions := rfl
  chunkListeners := nofun
  skipListeners := nofun

theorem lenient_reference :
    (lenient.execute 3 (fresh [1, 0, 3, 0] {})).value = some (.error (.skipLimitExceeded 1)) ∧
      (lenient.execute 3 (fresh [1, 0, 3, 0] {})).state.state.2.items = [1] := by
  have reference := execute_reference lenient_memory (by decide) 3 (p := fresh [1, 0, 3, 0] {}) rfl
    .empty rfl (by decide)
  have fatal : FatalAt { limit := 1, kinds := [.invalidItem] } nonzero 0 [1, 0, 3, 0] 3
      (.skipLimitExceeded 1) := ⟨0, _, rfl, rfl, .inr ⟨by decide, by decide, rfl⟩⟩
  have first : ∀ earlier < 3, ∀ other,
      ¬FatalAt { limit := 1, kinds := [.invalidItem] } nonzero 0 [1, 0, 3, 0] earlier other := by
    rintro earlier before other ⟨item, error, found, fails, why⟩
    obtain rfl | rfl | rfl : earlier = 0 ∨ earlier = 1 ∨ earlier = 2 := by omega
    all_goals cases found; cases fails
    rcases why with ⟨undesignated, _⟩ | ⟨_, full, _⟩
    · exact absurd undesignated (by decide)
    · exact absurd full (by decide)
  obtain ⟨ended, stored, _⟩ := reference.2 3 _ fatal first
  exact ⟨ended, stored⟩

theorem lenient_vast_memory : lenient.vast.InMemory (.first _ _) (.second _ _) id id nonzero
    { limit := 1, kinds := [.invalidItem] } :=
  { lenient_memory with }

/-- Without room for a chunk the step does not get to its item, which is not fatal. -/
theorem lenient_vast :
    lenient.vast.InMemory (.first _ _) (.second _ _) id id nonzero
      { limit := 1, kinds := [.invalidItem] } ∧
    (∀ index reason,
      ¬FatalAt { limit := 1, kinds := [.invalidItem] } nonzero 0 [1] index reason) ∧
    ∀ rounds, (lenient.vast.execute rounds (fresh [1] {})).value = none ∧
      stops (lenient.vast.execute (rounds + 1) (fresh [1] {})).events = [capacityOverflow] := by
  refine ⟨lenient_vast_memory, ?_, lenient.execute_vast (by decide) rfl⟩
  rintro (_ | index) reason ⟨item, error, found, fails, -⟩
  · cases found
    cases fails
  · cases found

end ChunkStep

end Batchwork
