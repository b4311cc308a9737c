import Batchwork.Proofs.Step.Events
import Mathlib.Data.List.Forall2

/-!
# Coupled runs

Two acts, perhaps over different states, are coupled if from related beginnings they make calls that
look alike and come to related ends. Coupled acts compose, so steps whose parts are coupled run side
by side. `AgreeButForCleanUp` asks this of all parts but those that only clean up: rolling back,
telling listeners of a failed chunk, and closing the store. Main statement: `execute_coupled`.
-/

namespace Batchwork

variable {σ τ ε δ ι ω α β κ : Type}

/-- From beginnings related by `before`, both acts make calls of which the same is shown, and their
answers and ends are related by `after`. -/
structure Coupled (shown : Call ι ω → κ) (before : Progress σ → Progress τ → Prop)
    (act : StepAct σ ε ι ω α) (other : StepAct τ δ ι ω β)
    (after : α → β → Progress σ → Progress τ → Prop) : Prop where
  calls : ∀ p q, before p q →
    (calls (act p).events).map shown = (calls (other q).events).map shown
  ends : ∀ p q, before p q →
    after (act p).value (other q).value (act p).state (other q).state

/-- The books are the same, and the states are related. -/
def Level (related : σ → τ → Prop) (p : Progress σ) (q : Progress τ) : Prop :=
  p.ledger = q.ledger ∧ related p.state q.state

/-- The answers and the books are the same, and after an answer of which `keeps` is true the states
are related. -/
def Alike (related : σ → τ → Prop) (keeps : α → Prop) (first second : α) (p : Progress σ)
    (q : Progress τ) : Prop :=
  first = second ∧ p.ledger = q.ledger ∧ (keeps first → related p.state q.state)

/-- The answers and the books are the same, and how the states are related depends on the answer. -/
def AlikeBy (related : α → σ → τ → Prop) (first second : α) (p : Progress σ) (q : Progress τ) :
    Prop :=
  first = second ∧ Level (related first) p q

/-- Both answers are successes, the books are the same, and the states are related. -/
def Succeed (related : σ → τ → Prop) (first second : Result Unit) (p : Progress σ)
    (q : Progress τ) : Prop :=
  first = .ok () ∧ second = .ok () ∧ Level related p q

/-- Any two states. -/
def Unrelated (_ : σ) (_ : τ) : Prop := True

/-- Acts of parts that answer the same from related states, and leave related states. -/
structure Agree (related : σ → τ → Prop) (act : Act σ ε α) (other : Act τ δ α) : Prop where
  value : ∀ s t, related s t → (act s).value = (other t).value
  state : ∀ s t, related s t → related (act s).state (other t).state

/-! ## Composing coupled acts -/

namespace Coupled

variable {shown : Call ι ω → κ} {before : Progress σ → Progress τ → Prop}
  {related : σ → τ → Prop} {keeps : α → Prop}

section

variable {υ : Type} {act : StepAct σ ε ι ω α} {other : StepAct τ δ ι ω β}
  {next : α → StepAct σ ε ι ω υ} {middle : α → β → Progress σ → Progress τ → Prop}
  {after : υ → υ → Progress σ → Progress τ → Prop}

theorem bind {later : β → StepAct τ δ ι ω υ} (first : Coupled shown before act other middle)
    (rest : ∀ a b, Coupled shown (middle a b) (next a) (later b) after) :
    Coupled shown before (act >>= next) (other >>= later) after where
  calls p q start := by
    have made := (rest _ _).calls _ _ (first.ends p q start)
    simp only [Act.bind_run, calls_append, List.map_append, first.calls p q start, made]
  ends p q start := (rest _ _).ends _ _ (first.ends p q start)

/-- Acts that answer alike go on from one answer, and from related states if it kept them so. -/
theorem andThen {other : StepAct τ δ ι ω α} {later : α → StepAct τ δ ι ω υ}
    (first : Coupled shown before act other (Alike related keeps))
    (kept : ∀ a, keeps a → Coupled shown (Level related) (next a) (later a) after)
    (lost : ∀ a, ¬keeps a → Coupled shown (Level Unrelated) (next a) (later a) after) :
    Coupled shown before (act >>= next) (other >>= later) after := by
  refine first.bind fun a b => ⟨?_, ?_⟩
  all_goals
    rintro p q ⟨rfl, books, states⟩
    by_cases keep : keeps a
  · exact (kept a keep).calls p q ⟨books, states keep⟩
  · exact (lost a keep).calls p q ⟨books, trivial⟩
  · exact (kept a keep).ends p q ⟨books, states keep⟩
  · exact (lost a keep).ends p q ⟨books, trivial⟩

theorem always {other : StepAct τ δ ι ω α} {later : α → StepAct τ δ ι ω υ}
    (first : Coupled shown before act other (Alike related fun _ => True))
    (rest : ∀ a, Coupled shown (Level related) (next a) (later a) after) :
    Coupled shown before (act >>= next) (other >>= later) after :=
  first.andThen (fun a _ => rest a) fun _ lost => absurd trivial lost

theorem never {other : StepAct τ δ ι ω α} {later : α → StepAct τ δ ι ω υ}
    (first : Coupled shown before act other (Alike related fun _ => False))
    (rest : ∀ a, Coupled shown (Level Unrelated) (next a) (later a) after) :
    Coupled shown before (act >>= next) (other >>= later) after :=
  first.andThen (fun _ kept => kept.elim) fun a _ => rest a

theorem byAnswer {other : StepAct τ δ ι ω α} {later : α → StepAct τ δ ι ω υ}
    {related : α → σ → τ → Prop} (first : Coupled shown before act other (AlikeBy related))
    (rest : ∀ a, Coupled shown (Level (related a)) (next a) (later a) after) :
    Coupled shown before (act >>= next) (other >>= later) after := by
  refine first.bind fun a b => ⟨?_, ?_⟩
  · rintro p q ⟨rfl, level⟩
    exact (rest a).calls p q level
  · rintro p q ⟨rfl, level⟩
    exact (rest a).ends p q level

/-- Acts that always succeed go on from that. -/
theorem succeeding {act : StepAct σ ε ι ω (Result Unit)} {other : StepAct τ δ ι ω (Result Unit)}
    {next : Result Unit → StepAct σ ε ι ω υ} {later : Result Unit → StepAct τ δ ι ω υ}
    (first : Coupled shown before act other (Succeed related))
    (rest : Coupled shown (Level related) (next (.ok ())) (later (.ok ())) after) :
    Coupled shown before (act >>= next) (other >>= later) after := by
  refine first.bind fun a b => ⟨?_, ?_⟩
  · rintro p q ⟨rfl, rfl, level⟩
    exact rest.calls p q level
  · rintro p q ⟨rfl, rfl, level⟩
    exact rest.ends p q level

/-- What is only logged does not show in the calls. -/
theorem log_left {entry : StepLog} {act : StepAct σ ε ι ω α}
    {after : α → β → Progress σ → Progress τ → Prop}
    (coupled : Coupled shown before act other after) :
    Coupled shown before (ChunkStep.log entry >>= fun _ => act) other after where
  calls := coupled.calls
  ends := coupled.ends

theorem log_right {entry : StepLog} {act : StepAct σ ε ι ω α}
    {after : α → β → Progress σ → Progress τ → Prop}
    (coupled : Coupled shown before act other after) :
    Coupled shown before act (ChunkStep.log entry >>= fun _ => other) after where
  calls := coupled.calls
  ends := coupled.ends

end

theorem pure (value : α) :
    Coupled shown (Level related) (Pure.pure value : StepAct σ ε ι ω α)
      (Pure.pure value : StepAct τ δ ι ω α) (Alike related keeps) where
  calls _ _ _ := rfl
  ends _ _ level := ⟨rfl, level.1, fun _ => level.2⟩

theorem succeed :
    Coupled shown (Level related) (Pure.pure (.ok ()) : StepAct σ ε ι ω (Result Unit))
      (Pure.pure (.ok ()) : StepAct τ δ ι ω (Result Unit)) (Succeed related) where
  calls _ _ _ := rfl
  ends _ _ level := ⟨rfl, rfl, level⟩

theorem answer (related : α → σ → τ → Prop) (value : α) :
    Coupled shown (Level (related value)) (Pure.pure value : StepAct σ ε ι ω α)
      (Pure.pure value : StepAct τ δ ι ω α) (AlikeBy related) where
  calls _ _ _ := rfl
  ends _ _ level := ⟨rfl, level⟩

/-- An answer after which nothing is asked of the states. -/
theorem stop {value : α} (ended : ¬keeps value) {start : σ → τ → Prop} :
    Coupled shown (Level start) (Pure.pure value : StepAct σ ε ι ω α)
      (Pure.pure value : StepAct τ δ ι ω α) (Alike related keeps) where
  calls _ _ _ := rfl
  ends _ _ level := ⟨rfl, level.1, fun keep => absurd keep ended⟩

theorem map {act : StepAct σ ε ι ω α} {other : StepAct τ δ ι ω α} (f : α → β) {keeps : β → Prop}
    (coupled : Coupled shown before act other (Alike related fun a => keeps (f a))) :
    Coupled shown before (f <$> act) (f <$> other) (Alike related keeps) where
  calls := coupled.calls
  ends p q start :=
    have ⟨same, books, states⟩ := coupled.ends p q start
    ⟨congrArg f same, books, states⟩

/-! ## The acts that stages are made of -/

theorem log (entry : StepLog) :
    Coupled shown (Level related) (ChunkStep.log entry : StepAct σ ε ι ω Unit)
      (ChunkStep.log entry : StepAct τ δ ι ω Unit) (Alike related fun _ => True) where
  calls _ _ _ := rfl
  ends _ _ level := ⟨rfl, level.1, fun _ => level.2⟩

theorem book (change : Ledger → Ledger) :
    Coupled shown (Level related) (ChunkStep.book change : StepAct σ ε ι ω Unit)
      (ChunkStep.book change : StepAct τ δ ι ω Unit) (Alike related fun _ => True) where
  calls _ _ _ := rfl
  ends _ _ level := ⟨rfl, congrArg change level.1, fun _ => level.2⟩

theorem setStatus (status : StepStatus) :
    Coupled shown (Level related) (ChunkStep.setStatus status : StepAct σ ε ι ω Unit)
      (ChunkStep.setStatus status : StepAct τ δ ι ω Unit) (Alike related fun _ => True) :=
  book _

theorem stopped (reason : String) :
    Coupled shown (Level related) (Act.tell (.stopped reason) : StepAct σ ε ι ω Unit)
      (Act.tell (.stopped reason) : StepAct τ δ ι ω Unit) (Alike related fun _ => True) where
  calls _ _ _ := rfl
  ends _ _ level := ⟨rfl, level.1, fun _ => level.2⟩

theorem ledger :
    Coupled shown (Level related) (ChunkStep.ledger : StepAct σ ε ι ω Ledger)
      (ChunkStep.ledger : StepAct τ δ ι ω Ledger) (Alike related fun _ => True) where
  calls _ _ _ := rfl
  ends _ _ level := ⟨level.1, level.1, fun _ => level.2⟩

theorem ask {act : Act σ ε α} {other : Act τ δ α} (agree : Agree related act other)
    (call : α → Call ι ω) :
    Coupled shown (Level related) (ChunkStep.ask act call) (ChunkStep.ask other call)
      (Alike related fun _ => True) where
  calls p q level := by simp [ChunkStep.ask_run, agree.value _ _ level.2]
  ends _ _ level := ⟨agree.value _ _ level.2, level.1, fun _ => agree.state _ _ level.2⟩

theorem ask_succeeding {act : Act σ ε (Result Unit)} {other : Act τ δ (Result Unit)}
    {start : σ → τ → Prop} (call : Result Unit → Call ι ω)
    (succeed : ∀ s t, start s t → (act s).value = .ok () ∧ (other t).value = .ok () ∧
      related (act s).state (other t).state) :
    Coupled shown (Level start) (ChunkStep.ask act call) (ChunkStep.ask other call)
      (Succeed related) where
  calls p q level := by
    obtain ⟨first, second, -⟩ := succeed _ _ level.2
    simp [ChunkStep.ask_run, first, second]
  ends p q level :=
    have ⟨first, second, states⟩ := succeed _ _ level.2
    ⟨first, second, level.1, states⟩

/-- Parts that need not answer the same may be called with any states, if the calls look alike
whatever the answers are. -/
theorem ask_unrelated {act : Act σ ε α} {other : Act τ δ α} {call : α → Call ι ω}
    (hidden : ∀ a b, shown (call a) = shown (call b)) :
    Coupled shown (Level related) (ChunkStep.ask act call) (ChunkStep.ask other call)
      (fun _ _ => Level Unrelated) where
  calls p q level := by simp [ChunkStep.ask_run, hidden _ (other q.state).value]
  ends _ _ level := ⟨level.1, trivial⟩

section

variable {μ ν : Type} {act : μ → Act σ ε Unit} {other : ν → Act τ δ Unit}
  {listeners : List μ} {others : List ν}

theorem notify (call : Nat → Call ι ω) (index : Nat)
    (agree : List.Forall₂ (fun m n => Agree related (act m) (other n)) listeners others) :
    Coupled shown (Level related) (ChunkStep.notify act call index listeners)
      (ChunkStep.notify other call index others) (Alike related fun _ => True) := by
  induction agree generalizing index with
  | nil => exact .pure ()
  | cons first _ ih => exact (ask first _).always fun _ => ih (index + 1)

theorem notify_unrelated {start : σ → τ → Prop} (call : Nat → Call ι ω) (index : Nat)
    (same : listeners.length = others.length) :
    Coupled shown (Level start) (ChunkStep.notify act call index listeners)
      (ChunkStep.notify other call index others) (Alike related fun _ => False) where
  calls p q level := by
    rw [ChunkStep.notify_calls rfl, ChunkStep.notify_calls rfl, same]
  ends p q level := by
    refine ⟨rfl, ?_, False.elim⟩
    rw [ChunkStep.notify_ledger rfl, ChunkStep.notify_ledger rfl, level.1]

end

end Coupled

/-! ## Steps that agree but for clean-up -/

/-- A call without the answer that it got, if it only cleans up. -/
def Call.hidingCleanUp : Call ι ω → Call ι ω
  | .rollback _ => .rollback (.ok ())
  | .closeStore _ => .closeStore (.ok ())
  | call => call

namespace ChunkStep

/-- Chunk listeners that agree as long as no chunk fails. -/
structure ListenersAgree (related : σ → τ → Prop) (listener : ChunkListener σ ε ω)
    (other : ChunkListener τ δ ω) : Prop where
  beforeChunk : Agree related listener.beforeChunk other.beforeChunk
  afterChunk : ∀ outputs, Agree related (listener.afterChunk outputs) (other.afterChunk outputs)

/-- Steps of which all parts answer the same from related states and leave related states, with the
exception of what is called only to clean up: rolling back, closing the store, and telling listeners
of a failed chunk may do and answer anything. -/
structure AgreeButForCleanUp (related : σ → τ → Prop) (step : ChunkStep σ ε ι ω)
    (other : ChunkStep τ δ ι ω) : Prop where
  chunkSize : step.chunkSize = other.chunkSize
  itemSize : step.itemSize = other.itemSize
  reader : Agree related step.reader.next other.reader.next
  processor : ∀ item, Agree related (step.processor.process item) (other.processor.process item)
  policy : ∀ error skipped,
    Agree related (step.policy.shouldSkip error skipped) (other.policy.shouldSkip error skipped)
  openStore : Agree related step.writer.openStore other.writer.openStore
  write : ∀ outputs, Agree related (step.writer.write outputs) (other.writer.write outputs)
  flush : Agree related step.writer.flush other.writer.flush
  begin : Agree related step.transactions.begin other.transactions.begin
  commit : Agree related step.transactions.commit other.transactions.commit
  chunkListeners : List.Forall₂ (ListenersAgree related) step.chunkListeners other.chunkListeners
  skipListeners : List.Forall₂
    (fun listener partner => ∀ item error,
      Agree related (listener.onSkip item error) (partner.onSkip item error))
    step.skipListeners other.skipListeners

/-- The parts that are called while a chunk is processed answer the same from related states and
leave related states. -/
structure ProcessingAgrees (related : σ → τ → Prop) (step : ChunkStep σ ε ι ω)
    (other : ChunkStep τ δ ι ω) : Prop where
  processor : ∀ item, Agree related (step.processor.process item) (other.processor.process item)
  policy : ∀ error skipped,
    Agree related (step.policy.shouldSkip error skipped) (other.policy.shouldSkip error skipped)
  skipListeners : List.Forall₂
    (fun listener partner => ∀ item error,
      Agree related (listener.onSkip item error) (partner.onSkip item error))
    step.skipListeners other.skipListeners

variable {shown : Call ι ω → κ} {related : σ → τ → Prop} {step : ChunkStep σ ε ι ω}
  {other : ChunkStep τ δ ι ω}

theorem AgreeButForCleanUp.processing (agree : AgreeButForCleanUp related step other) :
    ProcessingAgrees related step other :=
  ⟨agree.processor, agree.policy, agree.skipListeners⟩

theorem readItems_coupled (reader : Agree related step.reader.next other.reader.next)
    (room : Nat) :
    Coupled shown (Level related) (step.readItems room) (other.readItems room)
      (Alike related fun _ => True) := by
  induction room with
  | zero => exact (Coupled.log _).always fun _ => .pure _
  | succ room ih =>
    refine (Coupled.ask reader _).always fun answer => ?_
    rcases answer with error | _ | item
    · exact (Coupled.log _).always fun _ => (Coupled.book _).always fun _ => .pure _
    · exact (Coupled.log _).always fun _ => .pure _
    · exact (Coupled.book _).always fun _ => ih.map _

theorem skipItem_coupled (agree : ProcessingAgrees related step other) (item : ι)
    (error : Error) :
    Coupled shown (Level related) (step.skipItem item error)
      (other.skipItem item error) (Alike related fun _ => True) := by
  refine (Coupled.book _).always fun _ => Coupled.ledger.always fun books => ?_
  refine (Coupled.ask (agree.policy error _) _).always fun answer => ?_
  rcases answer with refusal | _ | _
  · exact (Coupled.log _).always fun _ => (Coupled.setStatus _).always fun _ => .pure _
  · exact (Coupled.log _).always fun _ => (Coupled.setStatus _).always fun _ => .pure _
  · refine (Coupled.log _).always fun _ => (Coupled.book _).always fun _ => ?_
    have hear := agree.skipListeners.imp fun _ _ hears => hears item error
    exact (Coupled.notify _ _ hear).always fun _ => .pure _

theorem processItems_coupled (agree : ProcessingAgrees related step other) (items : List ι) :
    Coupled shown (Level related) (step.processItems items)
      (other.processItems items) (Alike related fun _ => True) := by
  induction items with
  | nil => exact .pure _
  | cons item items ih =>
    refine (Coupled.ask (agree.processor item) _).always fun answer => ?_
    rcases answer with error | _ | output
    · refine (skipItem_coupled agree item error).always fun verdict => ?_
      rcases verdict with fatal | ⟨⟩
      · exact .pure _
      · exact ih
    · exact (Coupled.log _).always fun _ => (Coupled.book _).always fun _ => ih
    · exact ih.map _

theorem readChunk_coupled (size : step.chunkSize = other.chunkSize)
    (itemSize : step.itemSize = other.itemSize)
    (reader : Agree related step.reader.next other.reader.next) :
    Coupled shown (Level related) step.readChunk other.readChunk
      (Alike related fun _ => True) := by
  have same : step.HasRoom ↔ other.HasRoom := by rw [HasRoom, HasRoom, size, itemSize]
  refine (Coupled.log _).always fun _ => ?_
  -- There is room on both sides or on neither.
  by_cases room : step.HasRoom
  · rw [if_pos room, if_pos (same.mp room), ← size]
    exact (readItems_coupled reader _).map some
  · rw [if_neg room, if_neg (mt same.mpr room)]
    exact (Coupled.stopped _).always fun _ => .pure _

theorem processChunk_coupled (agree : ProcessingAgrees related step other) (items : List ι) :
    Coupled shown (Level related) (step.processChunk items) (other.processChunk items)
      (Alike related fun _ => True) :=
  (Coupled.log _).always fun _ => processItems_coupled agree items

theorem writeChunk_coupled (agree : AgreeButForCleanUp related step other) (outputs : List ω) :
    Coupled Call.hidingCleanUp (Level related) (step.writeChunk outputs)
      (other.writeChunk outputs) (Alike related fun _ => True) := by
  unfold writeChunk
  split
  · exact (Coupled.log _).always fun _ => .pure _
  · refine (Coupled.log _).always fun _ => ?_
    refine (Coupled.ask (agree.write outputs) _).always fun written => ?_
    -- The answer is that of the write if this failed, and that of the flush otherwise.
    rcases written with error | ⟨⟩
    · refine (Coupled.pure _).always fun answer => ?_
      rcases answer with error | ⟨⟩
      · exact (Coupled.log _).always fun _ => (Coupled.book _).always fun _ => .pure _
      · exact .pure _
    · refine (Coupled.ask agree.flush _).always fun answer => ?_
      rcases answer with error | ⟨⟩
      · exact (Coupled.log _).always fun _ => (Coupled.book _).always fun _ => .pure _
      · exact .pure _

theorem notifyChunkError_coupled {start : σ → τ → Prop}
    (agree : AgreeButForCleanUp related step other) (error : Error) :
    Coupled Call.hidingCleanUp (Level start) (step.notifyChunkError error)
      (other.notifyChunkError error) (Alike related fun _ => False) :=
  .notify_unrelated _ _ agree.chunkListeners.length_eq

/-- Rolling back may do and answer anything: what is called behind it does not depend on it. -/
theorem rollBack_coupled (agree : AgreeButForCleanUp related step other) (cause : Error) :
    Coupled Call.hidingCleanUp (Level related) (step.rollBack cause) (other.rollBack cause)
      (Alike related fun _ => False) := by
  refine (Coupled.log _).always fun _ => (Coupled.book _).always fun _ => ?_
  refine (Coupled.ask_unrelated fun _ _ => rfl).bind fun undone done => ?_
  have told : Coupled Call.hidingCleanUp (Level Unrelated) _ _ _ :=
    notifyChunkError_coupled agree cause
  rcases undone with _ | ⟨⟩ <;> rcases done with _ | ⟨⟩
  · exact told.log_left.log_right
  · exact told.log_left
  · exact told.log_right
  · exact told

theorem produce_coupled (agree : AgreeButForCleanUp related step other) (items : List ι) :
    Coupled Call.hidingCleanUp (Level related) (step.produce items) (other.produce items)
      (Alike related fun _ => True) := by
  refine (processChunk_coupled agree.processing items).always fun processed => ?_
  rcases processed with error | outputs
  · exact .pure _
  · refine (writeChunk_coupled agree outputs).always fun written => ?_
    rcases written with error | ⟨⟩ <;> exact .pure _

/-- Only a chunk that is committed keeps the states related. -/
theorem executeChunk_coupled (agree : AgreeButForCleanUp related step other) (items : List ι) :
    Coupled Call.hidingCleanUp (Level related) (step.executeChunk items) (other.executeChunk items)
      (Alike related fun result => result = .ok ()) := by
  have before := agree.chunkListeners.imp fun _ _ hears => hears.beforeChunk
  refine (Coupled.notify _ _ before).always fun _ => ?_
  refine (Coupled.ask agree.begin _).always fun begun => ?_
  rcases begun with error | ⟨⟩
  · refine (Coupled.setStatus _).always fun _ => ?_
    exact (notifyChunkError_coupled agree error).never fun _ => .stop nofun
  · refine (produce_coupled agree items).always fun produced => ?_
    rcases produced with error | outputs
    · exact (rollBack_coupled agree error).never fun _ => .stop nofun
    · refine (Coupled.ask agree.commit _).always fun committed => ?_
      rcases committed with error | ⟨⟩
      · refine (Coupled.setStatus _).always fun _ => ?_
        exact (rollBack_coupled agree error).never fun _ => .stop nofun
      · have told := agree.chunkListeners.imp fun _ _ hears => hears.afterChunk outputs
        refine (Coupled.book _).always fun _ => (Coupled.log _).always fun _ => ?_
        exact (Coupled.notify _ _ told).always fun _ => .pure _

theorem runChunks_coupled (agree : AgreeButForCleanUp related step other) (rounds : Nat) :
    Coupled Call.hidingCleanUp (Level related) (step.runChunks rounds) (other.runChunks rounds)
      (Alike related fun _ => False) := by
  induction rounds with
  | zero => exact .stop id
  | succ rounds ih =>
    refine (readChunk_coupled agree.chunkSize agree.itemSize agree.reader).always fun chunk => ?_
    rcases chunk with _ | error | ⟨items, status⟩
    · exact .stop id
    · exact (Coupled.setStatus _).always fun _ => .stop id
    · rcases items with _ | ⟨item, items⟩
      · -- There is nothing to execute, so the status of the chunk decides.
        cases status with
        | full => exact ih
        | finished => exact (Coupled.setStatus _).always fun _ => .stop id
      · refine (executeChunk_coupled agree _).andThen (fun done passed => ?_) fun done failed => ?_
        · subst passed
          cases status with
          | full => exact ih
          | finished => exact (Coupled.setStatus _).always fun _ => .stop id
        · rcases done with error | ⟨⟩
          · exact .stop id
          · exact absurd rfl failed

theorem runOpened_coupled (agree : AgreeButForCleanUp related step other) (rounds : Nat) :
    Coupled Call.hidingCleanUp (Level related) (step.runOpened rounds) (other.runOpened rounds)
      (Alike related fun _ => False) := by
  refine (Coupled.ask agree.openStore _).always fun opened => ?_
  rcases opened with error | ⟨⟩
  · exact (Coupled.setStatus _).always fun _ => .stop id
  · refine (runChunks_coupled agree rounds).never fun result => ?_
    rcases result with _ | result
    · exact .stop id
    · refine (Coupled.ask_unrelated fun _ _ => rfl).bind fun closed shut => ?_
      have ended : Coupled Call.hidingCleanUp (Level Unrelated)
        (pure (some result) : StepAct σ ε ι ω (Option (Result Unit)))
        (pure (some result) : StepAct τ δ ι ω (Option (Result Unit)))
        (Alike related fun _ => False) := .stop id
      rcases closed with _ | ⟨⟩ <;> rcases shut with _ | ⟨⟩
      · exact ended.log_left.log_right
      · exact ended.log_left
      · exact ended.log_right
      · exact ended

/-- Runs of steps that agree but for clean-up come to the same result and the same books, by the
same calls on all parts and listeners. -/
theorem execute_coupled (agree : AgreeButForCleanUp related step other) (rounds : Nat) :
    Coupled Call.hidingCleanUp (Level related) (step.execute rounds) (other.execute rounds)
      (Alike related fun _ => False) := by
  refine (Coupled.setStatus _).always fun _ => Coupled.ledger.always fun opening => ?_
  refine (Coupled.log _).always fun _ => (runOpened_coupled agree rounds).never fun result => ?_
  rcases result with _ | result
  · exact .stop id
  · refine Coupled.ledger.always fun books => ?_
    rcases result with error | ⟨⟩ <;> exact (Coupled.log _).always fun _ => .stop id

end ChunkStep

end Batchwork
