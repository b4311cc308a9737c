import Batchwork.Memory
import Batchwork.Proofs.Step.Bystanders
import Batchwork.Proofs.Step.Conservation

/-!
# Chunk atomicity of an item store

A step that writes to an item store and has the same store manage its transactions leaves in it, at
any time, what was there before and the outputs of the committed chunks. The store stands outside of
a transaction between chunks, and within one it stages exactly what was written for the chunk.
Main statement: `execute_atomic`.
-/

namespace Batchwork

variable {σ ε ι ω : Type}

namespace ItemStore

/-- The states that a store can be brought into. -/
inductive Reachable : ItemStore ω → Prop
  | empty : Reachable {}
  | written {store : ItemStore ω} (reached : Reachable store) (items : List ω) :
      Reachable (write items store).state
  | begun {store : ItemStore ω} (reached : Reachable store) : Reachable (begin store).state
  | committed {store : ItemStore ω} (reached : Reachable store) : Reachable (commit store).state
  | rolledBack {store : ItemStore ω} (reached : Reachable store) :
      Reachable (rollback store).state

/-- Nothing is staged outside of a transaction. -/
theorem Reachable.staged_eq {store : ItemStore ω} (reached : store.Reachable)
    (outside : store.inTransaction = false) : store.staged = #[] := by
  -- Each call that leaves the store outside of a transaction has emptied it or not begun one.
  induction reached with
  | empty => rfl
  | @written store reached items ih =>
    by_cases active : store.inTransaction = true
    · simp [write, active] at outside
    · simp only [write, active] at outside ⊢
      exact ih (by simpa using active)
  | @begun store reached ih =>
    by_cases active : store.inTransaction = true
    · simp [begin, active] at outside
    · simp [begin, active] at outside
  | @committed store reached ih =>
    by_cases active : store.inTransaction = true
    · simp [commit, active]
    · simp only [commit, active] at outside ⊢
      exact ih (by simpa using active)
  | rolledBack reached ih => rfl

/-- What an event says of the items in a store is true. `seen` reads off what it says. -/
def Says (seen : ε → Option (List ω)) (event : ε) (store : ItemStore ω) : Prop :=
  ∀ items, seen event = some items → items = store.items

/-- A store that began with the items `start` stands so after the chunks committed since: `active`
if it is in a transaction, with `staged` for the chunk in progress. -/
structure Stands (start : List ω) (outputs : Outputs ω) (active : Bool) (staged : List ω)
    (store : ItemStore ω) : Prop where
  items : store.items = start ++ outputs.committed.flatten
  staged : store.staged.toList = staged
  active : store.inTransaction = active

/-- A store between chunks. -/
def AtRest (store : ItemStore ω) : Prop := store.Stands store.items {} false []

theorem Reachable.atRest {store : ItemStore ω} (reached : store.Reachable)
    (outside : store.inTransaction = false) : store.AtRest :=
  ⟨by simp, by rw [reached.staged_eq outside], outside⟩

end ItemStore

/-- Whatever is told of the items in a store, they are at that moment the items `start` and the
outputs of the chunks committed so far. -/
def Faithful (seen : ε → Option (List ω)) (start : List ω) :
    Outputs ω → List (StepEvent ι ω ε) → Prop
  | _, [] => True
  | outputs, .told event :: events =>
    (∀ items, seen event = some items → items = start ++ outputs.committed.flatten) ∧
      Faithful seen start outputs events
  | outputs, .call call :: events => Faithful seen start (outputs.after call) events
  | outputs, .log _ :: events | outputs, .stopped _ :: events =>
    Faithful seen start outputs events

section

variable {seen : ε → Option (List ω)} {start : List ω}

theorem Faithful.append {outputs : Outputs ω} {first second : List (StepEvent ι ω ε)}
    (earlier : Faithful seen start outputs first)
    (later : Faithful seen start (outputs.along (calls first)) second) :
    Faithful seen start outputs (first ++ second) := by
  induction first generalizing outputs with
  | nil => exact later
  | cons event events ih =>
    cases event with
    | told event => exact ⟨earlier.1, ih earlier.2 later⟩
    | call call => exact ih earlier later
    | log entry | stopped reason => exact ih earlier later

theorem Faithful.at_told {outputs : Outputs ω} {earlier later : List (StepEvent ι ω ε)} {event : ε}
    (faithful : Faithful seen start outputs (earlier ++ .told event :: later)) (items : List ω)
    (observed : seen event = some items) :
    items = start ++ (outputs.along (calls earlier)).committed.flatten := by
  -- The events before are walked through, and their calls are taken over into `outputs`.
  induction earlier generalizing outputs with
  | nil => exact faithful.1 items observed
  | cons first events ih =>
    cases first with
    | told event => exact ih faithful.2
    | call call | log entry | stopped reason => exact ih faithful

/-- Committed chunks stay committed. -/
theorem Outputs.committed_along (outputs : Outputs ω) (made : List (Call ι ω)) :
    ∃ more, (outputs.along made).committed = outputs.committed ++ more := by
  induction made generalizing outputs with
  | nil => exact ⟨[], (List.append_nil _).symm⟩
  | cons call made ih =>
    obtain ⟨later, eq⟩ := ih (outputs.after call)
    have first : ∃ more, (outputs.after call).committed = outputs.committed ++ more := by
      unfold Outputs.after
      split
      all_goals first | exact ⟨[], (List.append_nil _).symm⟩ | exact ⟨_, rfl⟩
    obtain ⟨more, step⟩ := first
    exact ⟨more ++ later, by rw [Outputs.along_cons, eq, step, List.append_assoc]⟩

/-- Where no chunk is committed, a view of the items that stays the same stays faithful. -/
theorem Faithful.of_told {outputs : Outputs ω} {events : List (StepEvent ι ω ε)}
    (told : ∀ event, .told event ∈ events → ∀ items, seen event = some items →
      items = start ++ outputs.committed.flatten)
    (uncommitted : (outputs.along (calls events)).committed = outputs.committed) :
    Faithful seen start outputs events := by
  induction events generalizing outputs with
  | nil => trivial
  | cons event events ih =>
    have rest : ∀ event, .told event ∈ events → ∀ items, seen event = some items →
        items = start ++ outputs.committed.flatten :=
      fun event member => told event (List.mem_cons_of_mem _ member)
    cases event with
    | told event => exact ⟨told event List.mem_cons_self, ih rest uncommitted⟩
    | log entry | stopped reason => exact ih rest uncommitted
    | call call =>
      -- The chunks committed by this call and those committed later are none together.
      have same : (outputs.after call).committed = outputs.committed := by
        obtain ⟨first, now⟩ := outputs.committed_along [call]
        obtain ⟨later, eq⟩ := (outputs.after call).committed_along (calls events)
        have total := eq.symm.trans uncommitted
        simp only [Outputs.along_cons, Outputs.along_nil] at now
        rw [now, List.append_assoc, List.append_right_eq_self] at total
        rw [now, (List.append_eq_nil_iff.mp total).1, List.append_nil]
      refine ih (same ▸ rest) ?_
      rw [same]
      exact uncommitted

/-- A part of a run after which the store stands so, and which was faithful. -/
structure Tracked (seen : ε → Option (List ω)) (start : List ω) (outputs : Outputs ω)
    (events : List (StepEvent ι ω ε)) (active : Bool) (staged : List ω) (after : ItemStore ω) :
    Prop where
  stands : after.Stands start (outputs.along (calls events)) active staged
  faithful : Faithful seen start outputs events

namespace Tracked

variable {outputs : Outputs ω} {active : Bool} {staged : List ω} {after : ItemStore ω}

theorem append {middle : ItemStore ω} {first second : List (StepEvent ι ω ε)} {began : Bool}
    {held : List ω} (earlier : Tracked seen start outputs first began held middle)
    (later : Tracked seen start (outputs.along (calls first)) second active staged after) :
    Tracked seen start outputs (first ++ second) active staged after where
  stands := by
    rw [calls_append, Outputs.along_append]
    exact later.stands
  faithful := earlier.faithful.append later.faithful

theorem log {events : List (StepEvent ι ω ε)} (entry : StepLog)
    (tracked : Tracked seen start outputs events active staged after) :
    Tracked seen start outputs (.log entry :: events) active staged after where
  stands := tracked.stands
  faithful := tracked.faithful

/-- A call on the store, which does not tell of its items. -/
theorem asked {told : List ε} {call : Call ι ω} (silent : ∀ event ∈ told, seen event = none)
    (stands : after.Stands start (outputs.after call) active staged) :
    Tracked seen start outputs (asked told call) active staged after where
  stands := by simpa using stands
  faithful := by
    refine Faithful.append ?_ (show Faithful seen start _ [.call call] from trivial)
    refine Faithful.of_told (fun event member items observed => ?_) (by simp)
    obtain ⟨_, member, same⟩ := List.mem_map.mp member
    cases same
    rw [silent event member] at observed
    cases observed

end Tracked

theorem Leaves.tracked {place : Place σ (ItemStore ω)} {before after : σ} {outputs : Outputs ω}
    {events : List (StepEvent ι ω ε)} {active : Bool} {staged : List ω}
    (leaves : Leaves place.get (ItemStore.Says seen) before events after)
    (uncommitted : (outputs.along (calls events)).committed = outputs.committed)
    (stands : (place.get before).Stands start outputs active staged) :
    Tracked seen start outputs events active staged (place.get after) where
  stands := by
    rw [leaves.kept]
    exact ⟨by rw [uncommitted, stands.items], stands.staged, stands.active⟩
  faithful := by
    refine Faithful.of_told (fun event member items observed => ?_) uncommitted
    rw [← stands.items]
    exact leaves.told event member items observed

end

namespace ChunkStep

/-- A step that stores its chunks in a store kept at `place`, which also manages its transactions.
The store is silent about its items, and all other parts and listeners are bystanders that tell of
them only what is true: `seen` reads off what an event says of the items. -/
structure Stores (step : ChunkStep σ ε ι ω) (place : Place σ (ItemStore ω))
    (name : ComponentLog → ε) (seen : ε → Option (List ω)) : Prop where
  lawful : place.Lawful
  writer : step.writer = ItemStore.asWriter.within place name
  transactions : step.transactions = ItemStore.asTransactions.within place name
  silent : ∀ entry, seen (name entry) = none
  reader : Bystander place.get (ItemStore.Says seen) step.reader.next
  processing : step.ProcessingStandsBy place.get (ItemStore.Says seen)

section

variable {step : ChunkStep σ ε ι ω} {place : Place σ (ItemStore ω)} {name : ComponentLog → ε}
  {seen : ε → Option (List ω)} {start : List ω} {outputs : Outputs ω} {told : List ε}
  {state after : σ} {answer : Result Unit}

/-! ## Calls on the store -/

theorem Stores.begun (stores : step.Stores place name seen)
    (call : step.transactions.begin state = ⟨answer, told, after⟩)
    (stands : (place.get state).Stands start outputs false []) :
    answer = .ok () ∧ Tracked seen start outputs
      (asked told (.begin answer : Call ι ω)) true [] (place.get after) := by
  rw [stores.transactions] at call
  simp only [TransactionManager.within, Act.within, ItemStore.asTransactions, ItemStore.begin,
    stands.active] at call
  cases call
  refine ⟨rfl, Tracked.asked nofun ?_⟩
  rw [stores.lawful.get_put]
  exact ⟨stands.items, rfl, rfl⟩

theorem Stores.written {produced : List ω} (stores : step.Stores place name seen)
    (call : step.writer.write produced state = ⟨answer, told, after⟩)
    (stands : (place.get state).Stands start outputs true []) :
    answer = .ok () ∧ Tracked seen start outputs
      (asked told (.write produced answer : Call ι ω)) true produced (place.get after) := by
  rw [stores.writer] at call
  simp only [Writer.within, Act.within, ItemStore.asWriter, ItemStore.write, stands.active,
    ↓reduceIte] at call
  cases call
  refine ⟨rfl, Tracked.asked nofun ?_⟩
  rw [stores.lawful.get_put]
  exact ⟨stands.items, by simp [stands.staged], rfl⟩

theorem Stores.flushed {staged : List ω} (stores : step.Stores place name seen)
    (call : step.writer.flush state = ⟨answer, told, after⟩)
    (stands : (place.get state).Stands start outputs true staged) :
    answer = .ok () ∧ Tracked seen start outputs
      (asked told (.flush answer : Call ι ω)) true staged (place.get after) := by
  rw [stores.writer] at call
  simp only [Writer.within, Act.within, ItemStore.asWriter, Act.pure_run] at call
  cases call
  refine ⟨rfl, Tracked.asked nofun ?_⟩
  rw [stores.lawful.get_put]
  exact stands

/-- A commit adds to the items exactly what is staged. -/
theorem Stores.committed {staged : List ω} (stores : step.Stores place name seen)
    (call : step.transactions.commit state = ⟨answer, told, after⟩)
    (pending : outputs.pending = staged)
    (stands : (place.get state).Stands start outputs true staged) :
    answer = .ok () ∧ Tracked seen start outputs
      (asked told (.commit answer : Call ι ω)) false [] (place.get after) := by
  -- The committed chunk is by the calls what is pending, and in the store what is staged.
  rw [stores.transactions] at call
  simp only [TransactionManager.within, Act.within, ItemStore.asTransactions, ItemStore.commit,
    stands.active, ↓reduceIte] at call
  cases call
  refine ⟨rfl, Tracked.asked (by simpa using stores.silent _) ?_⟩
  rw [stores.lawful.get_put]
  refine ⟨?_, rfl, rfl⟩
  have before := stands.items
  simp only [ItemStore.items] at before
  simp [ItemStore.items, Outputs.after, before, stands.staged, pending]

theorem Stores.rolledBack {staged : List ω} (stores : step.Stores place name seen)
    (call : step.transactions.rollback state = ⟨answer, told, after⟩)
    (stands : (place.get state).Stands start outputs true staged) :
    Tracked seen start outputs
      (asked told (.rollback answer : Call ι ω)) false [] (place.get after) := by
  rw [stores.transactions] at call
  simp only [TransactionManager.within, Act.within, ItemStore.asTransactions,
    ItemStore.rollback] at call
  cases call
  refine Tracked.asked (by simpa using stores.silent _) ?_
  rw [stores.lawful.get_put]
  exact ⟨stands.items, rfl, rfl⟩

/-- Opening and closing say nothing to the store. -/
theorem Stores.opened (stores : step.Stores place name seen)
    (call : step.writer.openStore state = ⟨answer, told, after⟩) :
    answer = .ok () ∧ told = [] ∧ after = state := by
  rw [stores.writer] at call
  simp only [Writer.within, Act.within, ItemStore.asWriter, Act.pure_run,
    stores.lawful.put_get] at call
  cases call
  exact ⟨rfl, rfl, rfl⟩

theorem Stores.closed (stores : step.Stores place name seen)
    (call : step.writer.closeStore state = ⟨answer, told, after⟩) :
    answer = .ok () ∧ told = [] ∧ after = state := by
  rw [stores.writer] at call
  simp only [Writer.within, Act.within, ItemStore.asWriter, Act.pure_run,
    stores.lawful.put_get] at call
  cases call
  exact ⟨rfl, rfl, rfl⟩

end

/-! ## Stages -/

section

variable {step : ChunkStep σ ε ι ω} {place : Place σ (ItemStore ω)} {name : ComponentLog → ε}
  {seen : ε → Option (List ω)} {start : List ω} {outputs : Outputs ω} {p after : Progress σ}
  {events : List (StepEvent ι ω ε)}

theorem Reads.tracked {room : Nat} {items : List ι} {ending : Result ChunkStatus}
    (reads : step.Reads room p events items ending after)
    (stores : step.Stores place name seen)
    (stands : (place.get p.state).Stands start outputs false []) :
    Tracked seen start outputs events false [] (place.get after.state) :=
  (reads.leaves stores.reader).tracked (by rw [reads.along]) stands

theorem Processes.tracked {items : List ι} {produced : List ω} {ending : Result Unit}
    (processes : step.Processes items p events produced ending after)
    (stores : step.Stores place name seen)
    (stands : (place.get p.state).Stands start outputs true []) :
    Tracked seen start outputs events true [] (place.get after.state) :=
  (processes.leaves stores.processing).tracked (by rw [processes.along]) stands

/-- Writing stages the outputs of the chunk, and does not fail. -/
theorem Writes.tracked {produced : List ω} {answer : Result Unit}
    (writes : step.Writes produced p events answer after)
    (stores : step.Stores place name seen)
    (stands : (place.get p.state).Stands start outputs true []) :
    answer = .ok () ∧ Tracked seen start outputs events true produced (place.get after.state) := by
  cases writes with
  | nothing empty =>
    -- Without outputs the writer is not called, and nothing is staged either.
    subst empty
    exact ⟨rfl, stands, trivial⟩
  | written nonempty answer flush =>
    obtain ⟨_, wrote⟩ := stores.written answer stands
    obtain ⟨_, flushed⟩ := stores.flushed flush wrote.stands
    exact ⟨rfl, (wrote.append flushed).log _⟩
  | notWritten nonempty answer => cases (stores.written answer stands).1
  | notFlushed nonempty answer flush =>
    obtain ⟨_, wrote⟩ := stores.written answer stands
    cases (stores.flushed flush wrote.stands).1

theorem RollsBack.tracked {cause : Error} {staged : List ω}
    (undo : step.RollsBack cause p events after) (stores : step.Stores place name seen)
    (stands : (place.get p.state).Stands start outputs true staged) :
    Tracked seen start outputs events false [] (place.get after.state) := by
  cases undo with
  | @rolledBack _ _ _ undone _ answer notice =>
    have undid := stores.rolledBack answer stands
    have heard := notify_leaves notice fun listener member =>
      (stores.processing.chunkListeners listener member).afterChunkError cause
    have noting := (heard.noted .rollbackFailed undone).tracked
      (by simp [notify_along notice fun _ _ => rfl]) undid.stands
    exact (undid.append noting).log _

/-- A transaction on a store outside of one always begins. -/
theorem Stores.opens {opened : Progress σ} {heard : List (StepEvent ι ω ε)} {told : List ε}
    {state : σ} {answer : Result Unit} (stores : step.Stores place name seen)
    (before : notify (·.beforeChunk) .beforeChunk 0 step.chunkListeners p = ⟨(), heard, opened⟩)
    (call : step.transactions.begin opened.state = ⟨answer, told, state⟩)
    (stands : (place.get p.state).Stands start outputs false []) :
    answer = .ok () ∧ Tracked seen start outputs (heard ++ asked told (.begin answer)) true []
      (place.get state) := by
  have hears := notify_leaves before fun listener member =>
    (stores.processing.chunkListeners listener member).beforeChunk
  have opened := hears.tracked (by rw [notify_along before fun _ _ => rfl]) stands
  obtain ⟨began, begun⟩ := stores.begun call opened.stands
  exact ⟨began, opened.append begun⟩

/-- What was written for a chunk is what its calls show as pending. -/
theorem Writes.pending {opened middle : Progress σ} {heard processing : List (StepEvent ι ω ε)}
    {told : List ε} {items : List ι} {produced : List ω} {answer began : Result Unit}
    (writes : step.Writes produced middle events answer after)
    (process : step.Processes items opened processing produced (.ok ()) middle) :
    (((outputs.along (calls (heard ++ asked told (.begin began)))).along (calls processing)).along
      (calls events)).pending = produced := by
  simp [process.along, writes.along, Outputs.after]

/-- A transaction on a store outside of one leaves it outside, with the outputs of the chunk if it
was committed and without them if not. -/
theorem Transacts.tracked {items : List ι} {result : Result (List ω)}
    (transacts : step.Transacts items p events result after)
    (stores : step.Stores place name seen)
    (stands : (place.get p.state).Stands start outputs false []) :
    Tracked seen start outputs events false [] (place.get after.state) := by
  -- The store refuses nothing, so a transaction that fails does so while its items are processed.
  cases transacts with
  | notBegun before answer notice => cases (stores.opens before answer stands).1
  | notProcessed before answer process undo =>
    obtain ⟨_, begun⟩ := stores.opens before answer stands
    have processed := process.tracked stores begun.stands
    have undone := undo.tracked stores processed.stands
    rw [← List.append_assoc]
    exact begun.append ((processed.append undone).log _)
  | notWritten before answer process write undo =>
    obtain ⟨_, begun⟩ := stores.opens before answer stands
    have processed := process.tracked stores begun.stands
    cases (write.tracked stores processed.stands).1
  | notCommitted before answer process write commit undo =>
    obtain ⟨_, begun⟩ := stores.opens before answer stands
    have processed := process.tracked stores begun.stands
    obtain ⟨_, wrote⟩ := write.tracked stores processed.stands
    cases (stores.committed commit (write.pending process) wrote.stands).1
  | committed before answer process write commit notice =>
    obtain ⟨_, begun⟩ := stores.opens before answer stands
    have processed := process.tracked stores begun.stands
    obtain ⟨_, wrote⟩ := write.tracked stores processed.stands
    -- What is staged by now is what the calls show as pending, so the commit adds just that.
    obtain ⟨_, done⟩ := stores.committed commit (write.pending process) wrote.stands
    have heard := notify_leaves notice fun listener member =>
      (stores.processing.chunkListeners listener member).afterChunk _
    have told := heard.tracked (by rw [notify_along notice fun _ _ => rfl]) done.stands
    rw [← List.append_assoc]
    exact begun.append ((processed.append (wrote.append (done.append (told.log _)))).log _)

theorem Round.tracked {result : Option (Result Unit)}
    (round : step.Round p events result after) (stores : step.Stores place name seen)
    (stands : (place.get p.state).Stands start outputs false []) :
    Tracked seen start outputs events false [] (place.get after.state) := by
  cases round with
  | notRead reads | exhausted reads => exact (reads.tracked stores stands).log _
  | failed reads nonempty transacts | last reads nonempty transacts
  | more reads nonempty transacts =>
    have read := reads.tracked stores stands
    exact (read.append (transacts.tracked stores read.stands)).log _

theorem Rounds.tracked {rounds : Nat} {result : Option (Result Unit)}
    (all : step.Rounds rounds p events result after) (stores : step.Stores place name seen)
    (stands : (place.get p.state).Stands start outputs false []) :
    Tracked seen start outputs events false [] (place.get after.state) := by
  -- Between two rounds the store is as it was between the ones before, with more chunks committed.
  induction all generalizing outputs with
  | unfinished | stopped crowded => exact ⟨stands, trivial⟩
  | last round => exact round.tracked stores stands
  | more round rest ih =>
    have first := round.tracked stores stands
    exact first.append (ih first.stands)

theorem Runs.tracked {rounds : Nat} {result : Option (Result Unit)}
    (runs : step.Runs rounds p events result after) (stores : step.Stores place name seen)
    (stands : (place.get p.state).Stands start {} false []) :
    Tracked seen start {} events false [] (place.get after.state) := by
  cases runs with
  | notOpened answer => cases (stores.opened answer).1
  | unfinished answer all =>
    obtain ⟨_, rfl, rfl⟩ := stores.opened answer
    exact ((Tracked.asked nofun stands).append (all.tracked stores stands)).log _
  | closed answer all close =>
    obtain ⟨_, rfl, rfl⟩ := stores.opened answer
    obtain ⟨rfl, rfl, rfl⟩ := stores.closed close
    have ran := all.tracked stores stands
    refine Tracked.log _ (Tracked.append (Tracked.asked nofun stands) (ran.append ?_))
    refine Tracked.append (Tracked.asked nofun ran.stands) ?_
    exact Tracked.log _ ⟨ran.stands, trivial⟩

/-- A store that is in a transaction does not begin another, and stays as it is. -/
theorem Stores.refuses {opened : Progress σ} {heard : List (StepEvent ι ω ε)} {told : List ε}
    {state : σ} {answer : Result Unit} (stores : step.Stores place name seen)
    (before : notify (·.beforeChunk) .beforeChunk 0 step.chunkListeners p = ⟨(), heard, opened⟩)
    (call : step.transactions.begin opened.state = ⟨answer, told, state⟩)
    (active : (place.get p.state).inTransaction = true) :
    answer = .error (.transaction "a transaction is already active") ∧
      place.get state = place.get p.state := by
  have hears := notify_leaves before fun listener member =>
    (stores.processing.chunkListeners listener member).beforeChunk
  have kept := hears.kept
  rw [stores.transactions] at call
  simp only [TransactionManager.within, Act.within, ItemStore.asTransactions, ItemStore.begin,
    kept, active, ↓reduceIte] at call
  cases call
  exact ⟨rfl, stores.lawful.get_put _ _⟩

/-- A transaction on a store that is in one already is refused, and leaves the store as it is. -/
theorem Transacts.refused {items : List ι} {result : Result (List ω)}
    (transacts : step.Transacts items p events result after) (stores : step.Stores place name seen)
    (active : (place.get p.state).inTransaction = true) :
    result = .error (.transaction "a transaction is already active") ∧
      after.ledger.status = .transactionError ∧ place.get after.state = place.get p.state := by
  cases transacts with
  | notBegun before answer notice =>
    obtain ⟨refusal, same⟩ := stores.refuses before answer active
    cases refusal
    have heard := notify_leaves notice fun listener member =>
      (stores.processing.chunkListeners listener member).afterChunkError _
    refine ⟨rfl, ?_, heard.kept.trans same⟩
    rw [notify_ledger notice]
  | notProcessed before answer process undo => cases (stores.refuses before answer active).1
  | notWritten before answer process write undo => cases (stores.refuses before answer active).1
  | notCommitted before answer process write commit undo =>
    cases (stores.refuses before answer active).1
  | committed before answer process write commit notice =>
    cases (stores.refuses before answer active).1

/-- A run that reads items while the store is in a transaction fails and leaves the store as it
is. -/
theorem execute_refused (stores : step.Stores place name seen) (rounds : Nat) {items : List ι}
    {status : ChunkStatus} (active : (place.get p.state).inTransaction = true)
    (reads : (step.readChunk ⟨{ p.ledger with status := .started }, p.state⟩).value =
      some (.ok (items, status))) (nonempty : items ≠ []) :
    (step.execute (rounds + 1) p).value =
        some (.error (.transaction "a transaction is already active")) ∧
      (step.execute (rounds + 1) p).state.ledger.status = .transactionError ∧
      place.get (step.execute (rounds + 1) p).state.state = place.get p.state := by
  rcases opening : step.writer.openStore p.state with ⟨answer, told, state⟩
  obtain ⟨rfl, rfl, rfl⟩ := stores.opened opening
  have room := hasRoom_of_readChunk reads
  obtain ⟨reading, handed, ending, read, chunk, eq⟩ :=
    step.readItems_reads step.chunkSize ⟨{ p.ledger with status := .started }, p.state⟩
  rcases ending with error | ending
  · simp [readChunk_of_room room, log_run, eq, Except.map] at reads
  · obtain ⟨rfl, rfl⟩ : handed = items ∧ ending = status := by
      simpa [readChunk_of_room room, log_run, eq, Except.map] using reads
    obtain ⟨transaction, result, after, transacts, executed⟩ :=
      step.executeChunk_transacts handed read
    have kept := (chunk.leaves stores.reader).kept
    obtain ⟨rfl, failed, same⟩ := transacts.refused stores (kept ▸ active)
    -- The refused transaction ends the first round, and closing does not touch the store.
    rcases closing : step.writer.closeStore after.state with ⟨answer, told, state⟩
    obtain ⟨rfl, rfl, rfl⟩ := stores.closed closing
    simp [execute, runOpened, runChunks, readChunk_of_room room, ask_run, setStatus_run,
      ledger_run, log_run, opening, eq, nonempty, executed, closing, Except.map, failed, same, kept]

/-- What a run leaves in the store it writes to. If the store is outside of a transaction, it is so
afterwards with nothing staged, and its items are at any time those it had and the outputs of the
chunks committed so far, of which every chunk listener is told. If the store is in a transaction, a
run that reads an item fails and leaves it as it is. -/
theorem execute_atomic (stores : step.Stores place name seen) (rounds : Nat) (p : Progress σ)
    (reachable : (place.get p.state).Reachable) :
    let run := step.execute rounds p
    let chunks := committedChunks (calls run.events)
    let before := place.get p.state
    let after := place.get run.state.state
    (before.inTransaction = false →
      after.inTransaction = false ∧ after.staged = #[] ∧
        after.items = before.items ++ chunks.flatten ∧
        (∀ listener < step.chunkListeners.length, heardBy listener (calls run.events) = chunks) ∧
        run.state.ledger.writeCount = p.ledger.writeCount + chunks.flatten.length ∧
        ∀ earlier event later items, run.events = earlier ++ .told event :: later →
          seen event = some items →
            items = before.items ++ (committedChunks (calls earlier)).flatten) ∧
    (before.inTransaction = true → 0 < rounds → ∀ items status,
      (step.readChunk ⟨{ p.ledger with status := .started }, p.state⟩).value =
        some (.ok (items, status)) → items ≠ [] →
        run.value = some (.error (.transaction "a transaction is already active")) ∧
          run.state.ledger.status = .transactionError ∧ after = before) := by
  refine ⟨fun outside => ?_, fun active positive items status reads nonempty => ?_⟩
  · obtain ⟨events, result, after, runs, eq⟩ := step.execute_runs rounds p
    have tracked := runs.tracked stores (reachable.atRest outside)
    obtain ⟨tally, rest, books, balanced⟩ := runs.balanced
    simp only [eq]
    refine ⟨tracked.stands.active, ?_, tracked.stands.items, fun _ => runs.heardBy, ?_, ?_⟩
    · simpa using tracked.stands.staged
    · rw [books, ← balanced.written]
      rfl
    · intro earlier event later items split observed
      subst split
      exact tracked.faithful.at_told items observed
  · obtain ⟨rounds, rfl⟩ := Nat.exists_eq_succ_of_ne_zero (Nat.pos_iff_ne_zero.mp positive)
    exact execute_refused stores rounds active reads nonempty

end

/-- A step from a queue to a store, with a listener that looks at the items of the store. -/
def watched : ChunkStep (ItemQueue Nat × ItemStore Nat) (ComponentLog ⊕ List Nat) Nat Nat where
  name := "watched"
  reader := (ItemQueue.asReader Nat ComponentLog).within (.first _ _) .inl
  processor := .ofFunction fun item =>
    if item < 5 then .ok (if item = 2 then none else some item) else .error (.validation "large")
  writer := ItemStore.asWriter.within (.second _ _) .inl
  transactions := ItemStore.asTransactions.within (.second _ _) .inl
  policy := .never _ _
  chunkSize := 2
  chunkSize_pos := Nat.two_pos
  itemSize := 8
  chunkListeners := [{ beforeChunk := fun state => ⟨(), [.inr state.2.items], state⟩ }]

theorem watched_stores : watched.Stores (.second _ _) .inl Sum.getRight? where
  lawful := Place.second_lawful _ _
  writer := rfl
  transactions := rfl
  silent _ := rfl
  reader := Bystander.within (fun _ _ => rfl) (fun _ _ _ observed => nomatch observed) _
  processing := by
    have honest : ∀ (state : ItemQueue Nat × ItemStore Nat) event, event ∈ [Sum.inr state.2.items] →
        ItemStore.Says Sum.getRight? (event : ComponentLog ⊕ List Nat) state.2 := by
      intro state event member items observed
      cases List.mem_singleton.mp member
      exact (Option.some.inj observed).symm
    refine ⟨fun _ => .pure _ _ _, fun _ _ => .pure _ _ _, nofun, fun listener member => ?_⟩
    cases List.mem_singleton.mp member
    exact ⟨⟨fun _ => rfl, honest⟩, fun _ => .pure _ _ _, fun _ => .pure _ _ _⟩

/-- A run on a new ledger, with a queue to read from and a store to write to. -/
def fresh (queue : List Nat) (store : ItemStore Nat) : Progress (ItemQueue Nat × ItemStore Nat) :=
  ⟨{ id := ⟨1⟩, name := "watched" }, ⟨queue⟩, store⟩

theorem watched_atomic :
    (watched.execute 4 (fresh [1, 2, 3, 4, 5, 6] {})).state.state.2.items = [1, 3, 4] ∧
      (watched.execute 4 (fresh [1] (ItemStore.begin {}).state)).value =
        some (.error (.transaction "a transaction is already active")) := by
  obtain ⟨_, _, items, _⟩ :=
    (execute_atomic watched_stores 4 (fresh [1, 2, 3, 4, 5, 6] {}) .empty).1 rfl
  have refused :=
    (execute_atomic watched_stores 4 (fresh [1] (ItemStore.begin {}).state) (.begun .empty)).2 rfl
      (by decide) [1] .finished (by rfl) (by decide)
  have chunks : committedChunks (calls (watched.execute 4 (fresh [1, 2, 3, 4, 5, 6] {})).events) =
      [[1], [3, 4]] := by decide +kernel
  rw [chunks] at items
  exact ⟨items, refused.1⟩

end ChunkStep

end Batchwork
