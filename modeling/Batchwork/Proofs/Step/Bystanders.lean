import Batchwork.Proofs.Step.Stages

/-!
# Bystanders

A bystander leaves a view of the shared state as it is, and what it tells of that view is true. A
stage of a run in which only bystanders are called does the same.
-/

namespace Batchwork

variable {σ τ ε δ ι ω : Type}

/-- A place from which one reads what was put there last, and where putting back what was read
changes nothing. -/
structure Place.Lawful (place : Place σ τ) : Prop where
  get_put : ∀ part state, place.get (place.put part state) = part
  put_get : ∀ state, place.put (place.get state) state = state

theorem Place.first_lawful (σ τ : Type) : (Place.first σ τ).Lawful where
  get_put _ _ := rfl
  put_get _ := rfl

theorem Place.second_lawful (σ τ : Type) : (Place.second σ τ).Lawful where
  get_put _ _ := rfl
  put_get _ := rfl

/-- An act within a place is the act on what is kept there. -/
theorem Place.Lawful.within_eq {κ β : Type} {place : Place σ τ} {name : κ → ε} {act : Act τ κ β}
    {state after : σ} {value : β} {told : List ε} (lawful : place.Lawful)
    (call : act.within place name state = ⟨value, told, after⟩) :
    ∃ events, act (place.get state) = ⟨value, events, place.get after⟩ := by
  cases call
  exact ⟨_, by rw [lawful.get_put]⟩

/-- A call that a part does not answer to leaves what is kept at its place. -/
theorem Place.Lawful.within_pure {κ : Type} {place : Place σ τ} {name : κ → ε}
    {state after : σ} {answer : Result Unit} {told : List ε} (lawful : place.Lawful)
    (call : (pure (.ok ()) : Act τ κ (Result Unit)).within place name state =
      ⟨answer, told, after⟩) : answer = .ok () ∧ place.get after = place.get state := by
  obtain ⟨events, inner⟩ := lawful.within_eq call
  obtain ⟨value, -, rest⟩ := Outcome.mk.inj inner
  exact ⟨value.symm, rest.symm⟩

/-- An act that leaves `view` as it is and tells only events that are true of it. -/
structure Bystander {α : Type} (view : σ → τ) (holds : ε → τ → Prop) (act : Act σ ε α) : Prop where
  keeps : ∀ state, view (act state).state = view state
  honest : ∀ state, ∀ event ∈ (act state).events, holds event (view state)

theorem Bystander.pure {α : Type} (view : σ → τ) (holds : ε → τ → Prop) (value : α) :
    Bystander view holds (pure value : Act σ ε α) where
  keeps _ := rfl
  honest _ _ member := nomatch member

/-- Who leaves a view alone leaves alone whatever is looked at of it. -/
theorem Bystander.look {α υ : Type} {view : σ → τ} {holds : ε → υ → Prop} {act : Act σ ε α}
    (bystander : Bystander view (fun _ _ => True) act) (look : τ → υ)
    (silent : ∀ event seen, holds event seen) :
    Bystander (fun state => look (view state)) holds act where
  keeps state := congrArg look (bystander.keeps state)
  honest _ _ _ := silent _ _

/-- An act within a place that the view does not look at, and whose events are not about it. -/
theorem Bystander.within {α υ : Type} {view : σ → υ} {holds : ε → υ → Prop} {place : Place σ τ}
    {name : δ → ε} (apart : ∀ part state, view (place.put part state) = view state)
    (silent : ∀ event seen, holds (name event) seen) (act : Act τ δ α) :
    Bystander view holds (act.within place name) where
  keeps _ := apart _ _
  honest state event member := by
    obtain ⟨inner, _, rfl⟩ := List.mem_map.mp member
    exact silent inner _

structure ChunkListener.StandsBy (view : σ → τ) (holds : ε → τ → Prop)
    (listener : ChunkListener σ ε ω) : Prop where
  beforeChunk : Bystander view holds listener.beforeChunk
  afterChunk : ∀ outputs, Bystander view holds (listener.afterChunk outputs)
  afterChunkError : ∀ error, Bystander view holds (listener.afterChunkError error)

theorem ChunkListener.StandsBy.look {υ : Type} {view : σ → τ} {holds : ε → υ → Prop}
    {listener : ChunkListener σ ε ω} (standsBy : listener.StandsBy view fun _ _ => True)
    (look : τ → υ) (silent : ∀ event seen, holds event seen) :
    listener.StandsBy (fun state => look (view state)) holds where
  beforeChunk := standsBy.beforeChunk.look look silent
  afterChunk outputs := (standsBy.afterChunk outputs).look look silent
  afterChunkError error := (standsBy.afterChunkError error).look look silent

/-- A part of a run that leaves `view` as it is. -/
structure Leaves (view : σ → τ) (holds : ε → τ → Prop) (before : σ)
    (events : List (StepEvent ι ω ε)) (after : σ) : Prop where
  kept : view after = view before
  told : ∀ event, .told event ∈ events → holds event (view before)

namespace Leaves

variable {view : σ → τ} {holds : ε → τ → Prop} {before middle after : σ}
  {first second : List (StepEvent ι ω ε)}

theorem nil (state : σ) : Leaves view holds state ([] : List (StepEvent ι ω ε)) state where
  kept := rfl
  told _ member := nomatch member

theorem append (earlier : Leaves view holds before first middle)
    (later : Leaves view holds middle second after) :
    Leaves view holds before (first ++ second) after where
  kept := later.kept.trans earlier.kept
  told event member := by
    rcases List.mem_append.mp member with old | new
    · exact earlier.told event old
    · exact earlier.kept ▸ later.told event new

theorem log (entry : StepLog) (leaves : Leaves view holds before first after) :
    Leaves view holds before (.log entry :: first) after where
  kept := leaves.kept
  told event member := by
    rcases List.mem_cons.mp member with same | old
    · cases same
    · exact leaves.told event old

theorem noted (entry : Error → StepLog) (answer : Result Unit)
    (leaves : Leaves view holds before first after) :
    Leaves view holds before (noted entry answer ++ first) after := by
  rcases answer with error | ⟨⟩
  · exact leaves.log _
  · exact leaves

theorem asked {α : Type} {act : Act σ ε α} {value : α} {told : List ε} (call : Call ι ω)
    (bystander : Bystander view holds act) (answer : act before = ⟨value, told, after⟩) :
    Leaves view holds before (asked told call) after where
  kept := by
    have kept := bystander.keeps before
    rwa [answer] at kept
  told event member := by
    have honest := bystander.honest before event
    rw [answer] at honest
    simp only [Batchwork.asked, List.mem_append, List.mem_map, List.mem_singleton] at member
    rcases member with ⟨_, member, same⟩ | same
    · cases same
      exact honest member
    · cases same

end Leaves

namespace ChunkStep

variable {step : ChunkStep σ ε ι ω} {view : σ → τ} {holds : ε → τ → Prop} {p after : Progress σ}
  {events : List (StepEvent ι ω ε)}

/-- The parts that are called while a chunk is processed, and all listeners. -/
structure ProcessingStandsBy (step : ChunkStep σ ε ι ω) (view : σ → τ) (holds : ε → τ → Prop) :
    Prop where
  processor : ∀ item, Bystander view holds (step.processor.process item)
  policy : ∀ error skipped, Bystander view holds (step.policy.shouldSkip error skipped)
  skipListeners : ∀ listener ∈ step.skipListeners, ∀ item error,
    Bystander view holds (listener.onSkip item error)
  chunkListeners : ∀ listener ∈ step.chunkListeners, listener.StandsBy view holds

/-- The parts through which a chunk is stored. -/
structure StoringStandsBy (step : ChunkStep σ ε ι ω) (view : σ → τ) (holds : ε → τ → Prop) :
    Prop where
  openStore : Bystander view holds step.writer.openStore
  write : ∀ outputs, Bystander view holds (step.writer.write outputs)
  flush : Bystander view holds step.writer.flush
  closeStore : Bystander view holds step.writer.closeStore
  begin : Bystander view holds step.transactions.begin
  commit : Bystander view holds step.transactions.commit
  rollback : Bystander view holds step.transactions.rollback

theorem notify_leaves {κ : Type} {act : κ → Act σ ε Unit} {call : Nat → Call ι ω} {index : Nat}
    {listeners : List κ} (notice : notify act call index listeners p = ⟨(), events, after⟩)
    (bystanders : ∀ listener ∈ listeners, Bystander view holds (act listener)) :
    Leaves view holds p.state events after.state := by
  induction listeners generalizing index p events with
  | nil =>
    cases notice
    exact .nil _
  | cons listener listeners ih =>
    obtain ⟨first, others⟩ := List.forall_mem_cons.mp bystanders
    cases notice
    exact (Leaves.asked _ first rfl).append (ih rfl others)

theorem Reads.leaves {room : Nat} {items : List ι} {ending : Result ChunkStatus}
    (reads : step.Reads room p events items ending after)
    (reader : Bystander view holds step.reader.next) :
    Leaves view holds p.state events after.state := by
  induction reads with
  | full => exact (Leaves.nil _).log _
  | finished answer | failed answer =>
    exact (Leaves.asked _ reader answer).append ((Leaves.nil _).log _)
  | item answer rest ih => exact (Leaves.asked _ reader answer).append ih

theorem Skips.leaves {item : ι} {error : Error} {verdict : Result Unit}
    (skips : step.Skips item error p events verdict after)
    (processing : step.ProcessingStandsBy view holds) :
    Leaves view holds p.state events after.state := by
  cases skips with
  | skipped answer notice =>
    have heard := notify_leaves notice fun listener member =>
      processing.skipListeners listener member item error
    exact (Leaves.asked _ (processing.policy _ _) answer).append (heard.log _)
  | refused answer | overruled answer =>
    exact (Leaves.asked _ (processing.policy _ _) answer).append ((Leaves.nil _).log _)

theorem Processes.leaves {items : List ι} {outputs : List ω} {ending : Result Unit}
    (processes : step.Processes items p events outputs ending after)
    (processing : step.ProcessingStandsBy view holds) :
    Leaves view holds p.state events after.state := by
  induction processes with
  | done => exact .nil _
  | output answer rest ih => exact (Leaves.asked _ (processing.processor _) answer).append ih
  | filtered answer rest ih =>
    exact (Leaves.asked _ (processing.processor _) answer).append (ih.log _)
  | skipped answer skip rest ih =>
    have decision := skip.leaves processing
    exact (Leaves.asked _ (processing.processor _) answer).append (decision.append ih)
  | fatal answer refusal =>
    have decision := refusal.leaves processing
    exact (Leaves.asked _ (processing.processor _) answer).append decision

theorem Writes.leaves {outputs : List ω} {answer : Result Unit}
    (writes : step.Writes outputs p events answer after)
    (storing : step.StoringStandsBy view holds) :
    Leaves view holds p.state events after.state := by
  cases writes with
  | nothing empty => exact (Leaves.nil _).log _
  | written nonempty answer flush =>
    exact ((Leaves.asked _ (storing.write outputs) answer).append
      (Leaves.asked _ storing.flush flush)).log _
  | notWritten nonempty answer =>
    exact ((Leaves.asked _ (storing.write outputs) answer).append ((Leaves.nil _).log _)).log _
  | notFlushed nonempty answer flush =>
    exact ((Leaves.asked _ (storing.write outputs) answer).append
      ((Leaves.asked _ storing.flush flush).append ((Leaves.nil _).log _))).log _

theorem RollsBack.leaves {cause : Error} (undo : step.RollsBack cause p events after)
    (hearing : ∀ listener ∈ step.chunkListeners, listener.StandsBy view holds)
    (storing : step.StoringStandsBy view holds) :
    Leaves view holds p.state events after.state := by
  cases undo with
  | @rolledBack _ _ _ undone _ answer notice =>
    have heard := notify_leaves notice fun listener member =>
      (hearing listener member).afterChunkError cause
    have noting := heard.noted .rollbackFailed undone
    exact ((Leaves.asked _ storing.rollback answer).append noting).log _

theorem Transacts.leaves {items : List ι} {result : Result (List ω)}
    (transacts : step.Transacts items p events result after)
    (processing : step.ProcessingStandsBy view holds) (storing : step.StoringStandsBy view holds) :
    Leaves view holds p.state events after.state := by
  -- Whatever happens, the listeners are called first and then the transaction is asked for.
  have hears : ∀ listener ∈ step.chunkListeners, Bystander view holds listener.beforeChunk :=
    fun listener member => (processing.chunkListeners listener member).beforeChunk
  cases transacts with
  | notBegun before answer notice =>
    have told := notify_leaves notice fun listener member =>
      (processing.chunkListeners listener member).afterChunkError _
    exact (notify_leaves before hears).append ((Leaves.asked _ storing.begin answer).append told)
  | notProcessed before answer process undo =>
    refine (notify_leaves before hears).append
      ((Leaves.asked _ storing.begin answer).append (Leaves.log _ ?_))
    exact (process.leaves processing).append (undo.leaves processing.chunkListeners storing)
  | notWritten before answer process write undo =>
    refine (notify_leaves before hears).append
      ((Leaves.asked _ storing.begin answer).append (Leaves.log _ ?_))
    exact (process.leaves processing).append
      ((write.leaves storing).append (undo.leaves processing.chunkListeners storing))
  | notCommitted before answer process write commit undo =>
    refine (notify_leaves before hears).append
      ((Leaves.asked _ storing.begin answer).append (Leaves.log _ ?_))
    refine (process.leaves processing).append ((write.leaves storing).append ?_)
    have undone := undo.leaves processing.chunkListeners storing
    exact (Leaves.asked _ storing.commit commit).append undone
  | committed before answer process write commit notice =>
    have told := notify_leaves notice fun listener member =>
      (processing.chunkListeners listener member).afterChunk _
    refine (notify_leaves before hears).append
      ((Leaves.asked _ storing.begin answer).append (Leaves.log _ ?_))
    refine (process.leaves processing).append ((write.leaves storing).append ?_)
    exact (Leaves.asked _ storing.commit commit).append (told.log _)

end ChunkStep

end Batchwork
