import Batchwork.Proofs.Memory.ChunkAtomicity
import Batchwork.Proofs.Step.Coupling

/-!
# A store without transactions

A step that writes to an item store may have the store manage its transactions, or nobody. In the
one run the outputs of a chunk are staged and then committed, in the other one they join the items
at once. Nothing can come between the two: a chunk is written by one call after all of its items are
processed, and in front of an item store nothing behind this call fails. So the runs are the same in
all that other parts can see. Main statement: `execute_plainly`.
-/

namespace Batchwork

variable {σ ε ι ω α κ : Type}

/-- A place that forgets what was put there before. -/
structure Place.Precise {τ : Type} (place : Place σ τ) : Prop extends place.Lawful where
  put_put : ∀ first second state, place.put second (place.put first state) = place.put second state

theorem Place.second_precise (σ τ : Type) : (Place.second σ τ).Precise where
  toLawful := Place.second_lawful σ τ
  put_put _ _ _ := rfl

/-! ## States that differ in a store -/

/-- How a store that is written to without transactions is ahead of one that manages its own: it has
the outputs among its items that are staged in the other one. -/
structure Ahead (active : Bool) (outputs : List ω) (managed plain : ItemStore ω) : Prop where
  inTransaction : managed.inTransaction = active
  outside : plain.inTransaction = false
  staged : active = true → managed.staged.toList = outputs
  items : plain.items = managed.items ++ outputs

namespace Ahead

variable {outputs : List ω} {managed plain : ItemStore ω}

theorem begin (ahead : Ahead false [] managed plain) :
    (ItemStore.begin managed).value = .ok () ∧
      Ahead true [] (ItemStore.begin managed).state plain := by
  simp only [ItemStore.begin, ahead.inTransaction, Bool.false_eq_true, if_false]
  exact ⟨trivial, rfl, ahead.outside, fun _ => rfl, ahead.items⟩

theorem write (ahead : Ahead true [] managed plain) (outputs : List ω) :
    (ItemStore.write outputs managed).value = .ok () ∧
      (ItemStore.write outputs plain).value = .ok () ∧
      Ahead true outputs (ItemStore.write outputs managed).state
        (ItemStore.write outputs plain).state := by
  have same := ahead.items
  simp only [ItemStore.items, List.append_nil] at same
  simp only [ItemStore.write, ahead.inTransaction, ahead.outside, Bool.false_eq_true, if_true,
    if_false]
  refine ⟨trivial, trivial, rfl, rfl, ?_, ?_⟩
  · intro _
    simp [ahead.staged rfl]
  · simp [ItemStore.items, same]

/-- What is staged when a chunk is committed is what the plain store is ahead by. -/
theorem commit (ahead : Ahead true outputs managed plain) :
    (ItemStore.commit managed).value = .ok () ∧
      Ahead false [] (ItemStore.commit managed).state plain := by
  have same := ahead.items
  simp only [ItemStore.items] at same
  simp only [ItemStore.commit, ahead.inTransaction, if_true]
  refine ⟨trivial, rfl, ahead.outside, ?_, ?_⟩
  · intro never
    exact absurd never Bool.false_ne_true
  · simp [ItemStore.items, same, ahead.staged rfl]

/-- A chunk is rolled back before anything of it is written. -/
theorem rollback (ahead : Ahead true [] managed plain) :
    (ItemStore.rollback managed).value = .ok () ∧
      Ahead false [] (ItemStore.rollback managed).state plain :=
  ⟨rfl, rfl, ahead.outside, fun never => absurd never Bool.false_ne_true, ahead.items⟩

end Ahead

/-- Two states that are the same but for the stores at a place. -/
structure Beside (place : Place σ (ItemStore ω)) (holds : ItemStore ω → ItemStore ω → Prop)
    (s t : σ) : Prop where
  same : place.put (place.get t) s = t
  holds : holds (place.get s) (place.get t)

/-- Two states between chunks. -/
abbrev Resting (place : Place σ (ItemStore ω)) : σ → σ → Prop := Beside place (Ahead false [])

/-- Two states within a chunk, of which these outputs are written. -/
abbrev Staging (place : Place σ (ItemStore ω)) (outputs : List ω) : σ → σ → Prop :=
  Beside place (Ahead true outputs)

/-- Two states within a chunk that has come to this result: only outputs that it has are written. -/
abbrev Produced (place : Place σ (ItemStore ω)) (result : Result (List ω)) : σ → σ → Prop :=
  Staging place (result.toOption.getD [])

/-- An act that looks at no more of a store than its items, and leaves the store alone. -/
def Place.Aside (place : Place σ (ItemStore ω)) (act : Act σ ε α) : Prop :=
  ∀ store state, store.items = (place.get state).items →
    act (place.put store state) =
      ⟨(act state).value, (act state).events, place.put store (act state).state⟩

section

variable {place : Place σ (ItemStore ω)} {holds holds' : ItemStore ω → ItemStore ω → Prop}
  {s t : σ}

theorem Beside.put (precise : place.Precise) (beside : Beside place holds s t)
    {managed plain : ItemStore ω} (related : holds' managed plain) :
    Beside place holds' (place.put managed s) (place.put plain t) where
  same := by
    rw [precise.get_put, precise.put_put, ← beside.same, precise.put_put]
  holds := by
    rw [precise.get_put, precise.get_put]
    exact related

/-- The plain store may stay as it is. -/
theorem Beside.put_managed (precise : place.Precise) (beside : Beside place holds s t)
    {managed : ItemStore ω} (related : holds' managed (place.get t)) :
    Beside place holds' (place.put managed s) t := by
  have both := beside.put precise related
  rwa [precise.put_get] at both

theorem Place.Aside.keeps {act : Act σ ε α} (aside : place.Aside act) (precise : place.Precise)
    (state : σ) : place.get (act state).state = place.get state := by
  have unmoved := congrArg Outcome.state (aside (place.get state) state rfl)
  rw [precise.put_get] at unmoved
  rw [unmoved, precise.get_put]

theorem Place.Aside.bystander {act : Act σ ε α} (aside : place.Aside act) (precise : place.Precise) :
    Bystander place.get (ItemStore.Says fun _ => none) act where
  keeps := aside.keeps precise
  honest _ _ _ _ observed := nomatch observed

/-- Between chunks and before a chunk is written, the stores have the same items. -/
theorem Place.Aside.agree {act : Act σ ε α} (aside : place.Aside act) (precise : place.Precise)
    (active : Bool) : Agree (Beside place (Ahead active [])) act act := by
  -- The second state is the first one with another store put in, which the act does not notice.
  have run : ∀ s t, Beside place (Ahead active []) s t →
      act t = ⟨(act s).value, (act s).events, place.put (place.get t) (act s).state⟩ := by
    intro s t beside
    have seen := aside (place.get t) s (by rw [beside.holds.items, List.append_nil])
    rwa [beside.same] at seen
  constructor
  · intro s t beside
    rw [run s t beside]
  · intro s t beside
    constructor
    · rw [run s t beside, precise.get_put]
    · rw [run s t beside, precise.get_put, aside.keeps precise]
      exact beside.holds

end

namespace ChunkStep

/-- The same step with nobody to manage its transactions. -/
def plainly (step : ChunkStep σ ε ι ω) : ChunkStep σ ε ι ω :=
  { step with transactions := .resourceless σ ε }

structure ListensAside (place : Place σ (ItemStore ω)) (listener : ChunkListener σ ε ω) : Prop where
  beforeChunk : place.Aside listener.beforeChunk
  afterChunk : ∀ outputs, place.Aside (listener.afterChunk outputs)
  afterChunkError : ∀ error, place.Aside (listener.afterChunkError error)

/-- A step that writes to a store which manages its transactions too, and whose other parts and
listeners stand aside. -/
structure StoresAside (step : ChunkStep σ ε ι ω) (place : Place σ (ItemStore ω))
    (name : ComponentLog → ε) : Prop where
  precise : place.Precise
  writer : step.writer = ItemStore.asWriter.within place name
  transactions : step.transactions = ItemStore.asTransactions.within place name
  reader : place.Aside step.reader.next
  processor : ∀ item, place.Aside (step.processor.process item)
  policy : ∀ error skipped, place.Aside (step.policy.shouldSkip error skipped)
  skipListeners : ∀ listener ∈ step.skipListeners, ∀ item error,
    place.Aside (listener.onSkip item error)
  chunkListeners : ∀ listener ∈ step.chunkListeners, ListensAside place listener

variable {step : ChunkStep σ ε ι ω} {place : Place σ (ItemStore ω)} {name : ComponentLog → ε}

/-! ## Calls on the stores -/

section

variable {shown : Call ι ω → κ} {holds holds' : ItemStore ω → ItemStore ω → Prop}

/-- A call on a store that manages transactions, beside one that says nothing to the plain store. -/
theorem ask_managed (precise : place.Precise) {act : ItemStore.Action ω (Result Unit)}
    (call : Result Unit → Call ι ω)
    (succeed : ∀ {managed plain}, holds managed plain →
      (act managed).value = .ok () ∧ holds' (act managed).state plain) :
    Coupled shown (Level (Beside place holds)) (ask (act.within place name) call)
      (ask (pure (.ok ()) : Act σ ε (Result Unit)) call) (Succeed (Beside place holds')) := by
  refine Coupled.ask_succeeding call fun s t beside => ?_
  obtain ⟨value, related⟩ := succeed beside.holds
  exact ⟨value, rfl, beside.put_managed precise related⟩

/-- The same call on both stores. -/
theorem ask_both (precise : place.Precise) {act : ItemStore.Action ω (Result Unit)}
    (call : Result Unit → Call ι ω)
    (succeed : ∀ {managed plain}, holds managed plain → (act managed).value = .ok () ∧
      (act plain).value = .ok () ∧ holds' (act managed).state (act plain).state) :
    Coupled shown (Level (Beside place holds)) (ask (act.within place name) call)
      (ask (act.within place name) call) (Succeed (Beside place holds')) := by
  refine Coupled.ask_succeeding call fun s t beside => ?_
  obtain ⟨first, second, related⟩ := succeed beside.holds
  exact ⟨first, second, beside.put precise related⟩

/-! ## Stages -/

theorem StoresAside.processing (stores : step.StoresAside place name) (active : Bool) :
    ProcessingAgrees (Beside place (Ahead active [])) step step.plainly where
  processor item := (stores.processor item).agree stores.precise active
  policy error skipped := (stores.policy error skipped).agree stores.precise active
  skipListeners := List.forall₂_same.mpr fun listener member item error =>
    (stores.skipListeners listener member item error).agree stores.precise active

/-- Chunk listeners are told of the end of a chunk when the stores have the same items again. -/
theorem StoresAside.notify_chunk (stores : step.StoresAside place name)
    {act : ChunkListener σ ε ω → Act σ ε Unit}
    (aside : ∀ listener, ListensAside place listener → place.Aside (act listener))
    (call : Nat → Call ι ω) :
    Coupled shown (Level (Resting place)) (notify act call 0 step.chunkListeners)
      (notify act call 0 step.plainly.chunkListeners) (Alike (Resting place) fun _ => True) :=
  .notify _ _ (List.forall₂_same.mpr fun listener member =>
    (aside listener (stores.chunkListeners listener member)).agree stores.precise false)

/-- Writing succeeds in either store. -/
theorem writeChunk_plainly (stores : step.StoresAside place name) (outputs : List ω) :
    Coupled shown (Level (Staging place [])) (step.writeChunk outputs)
      (step.plainly.writeChunk outputs) (Succeed (Staging place outputs)) := by
  have write : Coupled shown (Level (Staging place []))
      (ask (step.writer.write outputs) (.write outputs) : StepAct σ ε ι ω _)
      (ask (step.writer.write outputs) (.write outputs)) (Succeed (Staging place outputs)) := by
    rw [stores.writer]
    exact ask_both stores.precise _ fun ahead => ahead.write outputs
  have flush : Coupled shown (Level (Staging place outputs))
      (ask step.writer.flush .flush : StepAct σ ε ι ω _) (ask step.writer.flush .flush)
      (Succeed (Staging place outputs)) := by
    rw [stores.writer]
    exact ask_both stores.precise _ fun ahead => ⟨rfl, rfl, ahead⟩
  unfold writeChunk
  split
  next empty =>
    -- Nothing is written, so the stores stay as they are.
    rw [List.isEmpty_iff.mp empty]
    exact (Coupled.log _).always fun _ => .succeed
  next => exact (Coupled.log _).always fun _ => write.succeeding (flush.succeeding .succeed)

/-- How the states are related depends on whether the outputs were written. -/
theorem produce_plainly (stores : step.StoresAside place name) (items : List ι) :
    Coupled shown (Level (Staging place [])) (step.produce items) (step.plainly.produce items)
      (AlikeBy (Produced place)) := by
  refine (processChunk_coupled (stores.processing true) items).always fun processed => ?_
  rcases processed with error | outputs
  · exact .answer (Produced place) (Except.error error)
  · refine (writeChunk_plainly stores outputs).succeeding ?_
    exact .answer (Produced place) (Except.ok outputs)

/-- A chunk is rolled back only before anything of it is written. -/
theorem rollBack_plainly (stores : step.StoresAside place name) (cause : Error) :
    Coupled shown (Level (Staging place [])) (step.rollBack cause) (step.plainly.rollBack cause)
      (Alike (Resting place) fun _ => True) := by
  have rollback : Coupled shown (Level (Staging place []))
      (ask step.transactions.rollback .rollback : StepAct σ ε ι ω _)
      (ask step.plainly.transactions.rollback .rollback) (Succeed (Resting place)) := by
    rw [stores.transactions]
    exact ask_managed stores.precise _ fun ahead => ahead.rollback
  refine (Coupled.log _).always fun _ => (Coupled.book _).always fun _ => ?_
  exact rollback.succeeding (stores.notify_chunk (fun _ aside => aside.afterChunkError cause) _)

/-- A chunk ends with the stores at rest and with the same items in them, whether it failed or
not. -/
theorem executeChunk_plainly (stores : step.StoresAside place name) (items : List ι) :
    Coupled shown (Level (Resting place)) (step.executeChunk items)
      (step.plainly.executeChunk items) (Alike (Resting place) fun _ => True) := by
  have opening : Coupled shown (Level (Resting place))
      (ask step.transactions.begin .begin : StepAct σ ε ι ω _)
      (ask step.plainly.transactions.begin .begin) (Succeed (Staging place [])) := by
    rw [stores.transactions]
    exact ask_managed stores.precise _ fun ahead => ahead.begin
  have commit (outputs : List ω) : Coupled shown (Level (Staging place outputs))
      (ask step.transactions.commit .commit : StepAct σ ε ι ω _)
      (ask step.plainly.transactions.commit .commit) (Succeed (Resting place)) := by
    rw [stores.transactions]
    exact ask_managed stores.precise _ fun ahead => ahead.commit
  refine (stores.notify_chunk (fun _ aside => aside.beforeChunk) _).always fun _ => ?_
  refine opening.succeeding ((produce_plainly stores items).byAnswer fun produced => ?_)
  rcases produced with error | outputs
  · exact (rollBack_plainly stores error).always fun _ => .pure _
  · refine (commit outputs).succeeding ?_
    refine (Coupled.book _).always fun _ => (Coupled.log _).always fun _ => ?_
    exact (stores.notify_chunk (fun _ aside => aside.afterChunk outputs) _).always fun _ => .pure _

theorem runChunks_plainly (stores : step.StoresAside place name) (rounds : Nat) :
    Coupled shown (Level (Resting place)) (step.runChunks rounds) (step.plainly.runChunks rounds)
      (Alike (Resting place) fun _ => True) := by
  induction rounds with
  | zero => exact .pure _
  | succ rounds ih =>
    have read : Coupled shown (Level (Resting place)) step.readChunk step.plainly.readChunk
        (Alike (Resting place) fun _ => True) :=
      readChunk_coupled rfl rfl (stores.reader.agree stores.precise false)
    refine read.always fun chunk => ?_
    rcases chunk with _ | error | ⟨items, status⟩
    · exact .pure _
    · exact (Coupled.setStatus _).always fun _ => .pure _
    · rcases items with _ | ⟨item, items⟩
      · -- There is nothing to execute, so the status of the chunk decides.
        cases status with
        | full => exact ih
        | finished => exact (Coupled.setStatus _).always fun _ => .pure _
      · refine (executeChunk_plainly stores _).always fun done => ?_
        rcases done with error | ⟨⟩
        · exact .pure _
        · cases status with
          | full => exact ih
          | finished => exact (Coupled.setStatus _).always fun _ => .pure _

theorem runOpened_plainly (stores : step.StoresAside place name) (rounds : Nat) :
    Coupled shown (Level (Resting place)) (step.runOpened rounds) (step.plainly.runOpened rounds)
      (Alike (Resting place) fun _ => True) := by
  have opening : Coupled shown (Level (Resting place))
      (ask step.writer.openStore .openStore : StepAct σ ε ι ω _)
      (ask step.writer.openStore .openStore) (Succeed (Resting place)) := by
    rw [stores.writer]
    exact ask_both stores.precise _ fun ahead => ⟨rfl, rfl, ahead⟩
  have closing : Coupled shown (Level (Resting place))
      (ask step.writer.closeStore .closeStore : StepAct σ ε ι ω _)
      (ask step.writer.closeStore .closeStore) (Succeed (Resting place)) := by
    rw [stores.writer]
    exact ask_both stores.precise _ fun ahead => ⟨rfl, rfl, ahead⟩
  refine opening.succeeding ((runChunks_plainly stores rounds).always fun result => ?_)
  rcases result with _ | result
  · exact .pure _
  · exact closing.succeeding (.pure _)

theorem execute_plainly_coupled (stores : step.StoresAside place name) (rounds : Nat) :
    Coupled shown (Level (Resting place)) (step.execute rounds) (step.plainly.execute rounds)
      (Alike (Resting place) fun _ => True) := by
  refine (Coupled.setStatus _).always fun _ => Coupled.ledger.always fun opening => ?_
  refine (Coupled.log _).always fun _ => (runOpened_plainly stores rounds).always fun result => ?_
  rcases result with _ | result
  · exact .pure _
  · refine Coupled.ledger.always fun books => ?_
    rcases result with error | ⟨⟩ <;> exact (Coupled.log _).always fun _ => .pure _

end

/-! ## Runs -/

theorem StoresAside.stores (aside : step.StoresAside place name) :
    step.Stores place name fun _ => none where
  lawful := aside.precise.toLawful
  writer := aside.writer
  transactions := aside.transactions
  silent _ := rfl
  reader := aside.reader.bystander aside.precise
  processing :=
    { processor := fun item => (aside.processor item).bystander aside.precise
      policy := fun error skipped => (aside.policy error skipped).bystander aside.precise
      skipListeners := fun listener member item error =>
        (aside.skipListeners listener member item error).bystander aside.precise
      chunkListeners := fun listener member =>
        have listens := aside.chunkListeners listener member
        { beforeChunk := listens.beforeChunk.bystander aside.precise
          afterChunk := fun outputs => (listens.afterChunk outputs).bystander aside.precise
          afterChunkError := fun error => (listens.afterChunkError error).bystander aside.precise } }

/-- Over a store outside of a transaction it makes no difference whether the store manages the
transactions of a step or nobody does: the results are the same, the books, all calls on parts and
listeners, and what is left of the state but for the store. The stores have the same items, which
are those from before and the outputs of committed chunks. -/
theorem execute_plainly (aside : step.StoresAside place name) (rounds : Nat) (p : Progress σ)
    (reachable : (place.get p.state).Reachable)
    (outside : (place.get p.state).inTransaction = false) :
    let managed := step.execute rounds p
    let plain := step.plainly.execute rounds p
    let chunks := committedChunks (calls managed.events)
    plain.value = managed.value ∧ plain.state.ledger = managed.state.ledger ∧
      calls plain.events = calls managed.events ∧
      plain.state.state = place.put (place.get plain.state.state) managed.state.state ∧
      (place.get managed.state.state).items = (place.get p.state).items ++ chunks.flatten ∧
      (place.get plain.state.state).items = (place.get p.state).items ++ chunks.flatten := by
  have coupled : Coupled id _ _ _ _ := execute_plainly_coupled aside rounds
  have start : Level (Resting place) p p := by
    refine ⟨rfl, aside.precise.put_get _, outside, outside, nofun, ?_⟩
    exact (List.append_nil _).symm
  have made := coupled.calls p p start
  obtain ⟨value, books, beside⟩ := coupled.ends p p start
  have rests := beside trivial
  -- Which items the managed store ends with is known from its log, and the plain one has the same.
  obtain ⟨events, result, after, runs, eq⟩ := step.execute_runs rounds p
  have tracked := runs.tracked aside.stores (reachable.atRest outside)
  rw [eq] at made value books rests
  simp only [eq]
  refine ⟨value.symm, books.symm, ?_, rests.same.symm, tracked.stands.items, ?_⟩
  · simpa using made.symm
  · rw [rests.holds.items, List.append_nil]
    exact tracked.stands.items

theorem watched_storesAside : watched.StoresAside (.second _ _) .inl where
  precise := Place.second_precise _ _
  writer := rfl
  transactions := rfl
  reader _ _ _ := rfl
  processor _ _ _ _ := rfl
  policy _ _ _ _ _ := rfl
  skipListeners := nofun
  chunkListeners listener member := by
    cases List.mem_singleton.mp member
    refine ⟨fun store state same => ?_, fun _ _ _ _ => rfl, fun _ _ _ _ => rfl⟩
    -- The listener tells of the items, which are the same in both stores.
    change (⟨(), [Sum.inr store.items], _⟩ : Outcome _ _ _) = _
    rw [same]
    rfl

/-- The output of the third item is in neither store, because the fourth one fails the chunk. -/
theorem watched_plainly :
    let managed := watched.execute 4 (fresh [1, 2, 3, 5] {})
    let plain := watched.plainly.execute 4 (fresh [1, 2, 3, 5] {})
    plain.value = managed.value ∧ plain.state.ledger = managed.state.ledger ∧
      calls plain.events = calls managed.events ∧
      managed.state.state.2.items = [1] ∧ plain.state.state.2.items = [1] := by
  intro managed plain
  obtain ⟨value, books, made, -, items, same⟩ :=
    execute_plainly watched_storesAside 4 (fresh [1, 2, 3, 5] {}) .empty rfl
  have chunks : committedChunks (calls (watched.execute 4 (fresh [1, 2, 3, 5] {})).events) =
      [[1]] := by decide +kernel
  rw [chunks] at items same
  exact ⟨value, books, made, items, same⟩

end ChunkStep

end Batchwork
