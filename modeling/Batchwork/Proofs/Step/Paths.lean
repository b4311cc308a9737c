import Batchwork.Proofs.Step.Stages

/-!
# Paths

The shared state changes only while a part is called. A path is a sequence of calls, each of them
made in the state that the one before has left, and the calls of a run are such a path from the
state that the run finds to the state that it leaves. So what a single call preserves a whole run
preserves, in whatever order its stages make their calls. Main statement: `execute_path`.
-/

namespace Batchwork

variable {σ ε ι ω : Type}

namespace ChunkStep

variable (step : ChunkStep σ ε ι ω)

/-- One call of the step on one of its parts, with the state in which it is made and the state that
it leaves. -/
inductive Makes : σ → Call ι ω → σ → Prop
  | openStore {before after : σ} {answer : Result Unit} {told : List ε}
      (answers : step.writer.openStore before = ⟨answer, told, after⟩) :
      Makes before (.openStore answer) after
  | next {before after : σ} {answer : Result (Option ι)} {told : List ε}
      (answers : step.reader.next before = ⟨answer, told, after⟩) :
      Makes before (.next answer) after
  | beforeChunk {before after : σ} {told : List ε} {index : Nat}
      {listener : ChunkListener σ ε ω} (registered : step.chunkListeners[index]? = some listener)
      (answers : listener.beforeChunk before = ⟨(), told, after⟩) :
      Makes before (.beforeChunk index) after
  | begin {before after : σ} {answer : Result Unit} {told : List ε}
      (answers : step.transactions.begin before = ⟨answer, told, after⟩) :
      Makes before (.begin answer) after
  | process {before after : σ} {item : ι} {answer : Result (Option ω)} {told : List ε}
      (answers : step.processor.process item before = ⟨answer, told, after⟩) :
      Makes before (.process item answer) after
  | shouldSkip {before after : σ} {error : Error} {skipped : Nat} {answer : Result Bool}
      {told : List ε} (answers : step.policy.shouldSkip error skipped before =
        ⟨answer, told, after⟩) :
      Makes before (.shouldSkip error skipped answer) after
  | onSkip {before after : σ} {told : List ε} {index : Nat} {listener : SkipListener σ ε ι}
      {item : ι} {error : Error} (registered : step.skipListeners[index]? = some listener)
      (answers : listener.onSkip item error before = ⟨(), told, after⟩) :
      Makes before (.onSkip index item error) after
  | write {before after : σ} {outputs : List ω} {answer : Result Unit} {told : List ε}
      (answers : step.writer.write outputs before = ⟨answer, told, after⟩) :
      Makes before (.write outputs answer) after
  | flush {before after : σ} {answer : Result Unit} {told : List ε}
      (answers : step.writer.flush before = ⟨answer, told, after⟩) :
      Makes before (.flush answer) after
  | commit {before after : σ} {answer : Result Unit} {told : List ε}
      (answers : step.transactions.commit before = ⟨answer, told, after⟩) :
      Makes before (.commit answer) after
  | rollback {before after : σ} {answer : Result Unit} {told : List ε}
      (answers : step.transactions.rollback before = ⟨answer, told, after⟩) :
      Makes before (.rollback answer) after
  | afterChunk {before after : σ} {told : List ε} {index : Nat} {listener : ChunkListener σ ε ω}
      {outputs : List ω} (registered : step.chunkListeners[index]? = some listener)
      (answers : listener.afterChunk outputs before = ⟨(), told, after⟩) :
      Makes before (.afterChunk index outputs) after
  | afterChunkError {before after : σ} {told : List ε} {index : Nat}
      {listener : ChunkListener σ ε ω} {error : Error}
      (registered : step.chunkListeners[index]? = some listener)
      (answers : listener.afterChunkError error before = ⟨(), told, after⟩) :
      Makes before (.afterChunkError index error) after
  | closeStore {before after : σ} {answer : Result Unit} {told : List ε}
      (answers : step.writer.closeStore before = ⟨answer, told, after⟩) :
      Makes before (.closeStore answer) after

/-- Calls made one after the other, from the first state to the last one. -/
inductive Path : σ → List (Call ι ω) → σ → Prop
  | nil (state : σ) : Path state [] state
  | cons {before middle after : σ} {call : Call ι ω} {made : List (Call ι ω)}
      (first : step.Makes before call middle) (rest : Path middle made after) :
      Path before (call :: made) after

variable {step} {before middle after : σ} {call : Call ι ω} {first second made : List (Call ι ω)}

theorem Makes.path (makes : step.Makes before call after) : step.Path before [call] after :=
  .cons makes (.nil after)

theorem Path.append (path : step.Path before first middle) (rest : step.Path middle second after) :
    step.Path before (first ++ second) after := by
  induction path with
  | nil => exact rest
  | cons call _ ih => exact .cons call (ih rest)

/-! ## The paths of the stages -/

section

variable {p q : Progress σ} {events : List (StepEvent ι ω ε)}

theorem notify_path_from {κ : Type} {act : κ → Act σ ε Unit} {call : Nat → Call ι ω} {index : Nat}
    {listeners : List κ} (notice : notify act call index listeners p = ⟨(), events, q⟩)
    (makes : ∀ place {listener before told after}, listeners[place]? = some listener →
      act listener before = ⟨(), told, after⟩ → step.Makes before (call (index + place)) after) :
    step.Path p.state (calls events) q.state := by
  induction listeners generalizing index p events with
  | nil =>
    cases notice
    exact .nil _
  | cons listener listeners ih =>
    cases notice
    have first : step.Makes p.state (call index) (act listener p.state).state := makes 0 rfl rfl
    rw [calls_append, ask_run, calls_asked]
    refine first.path.append (ih rfl ?_)
    -- The others are one place further on.
    intro place listener before told after registered answers
    rw [Nat.add_assoc, Nat.add_comm 1]
    exact makes (place + 1) registered answers

/-- Every listener is called in the state that the ones before it have left. -/
theorem notify_path {κ : Type} {act : κ → Act σ ε Unit} {call : Nat → Call ι ω}
    {listeners : List κ} (notice : notify act call 0 listeners p = ⟨(), events, q⟩)
    (makes : ∀ {index listener before told after}, listeners[index]? = some listener →
      act listener before = ⟨(), told, after⟩ → step.Makes before (call index) after) :
    step.Path p.state (calls events) q.state := by
  apply notify_path_from notice
  intro place listener before told after registered answers
  rw [Nat.zero_add]
  exact makes registered answers

theorem Reads.path {room : Nat} {items : List ι} {ending : Result ChunkStatus}
    (reads : step.Reads room p events items ending q) :
    step.Path p.state (calls events) q.state := by
  induction reads with
  | full => exact .nil _
  | finished answer | failed answer =>
    rw [calls_append, calls_asked]
    exact (Makes.next answer).path
  | item answer rest ih =>
    rw [calls_append, calls_asked]
    exact (Makes.next answer).path.append ih

theorem Skips.path {item : ι} {error : Error} {verdict : Result Unit}
    (skips : step.Skips item error p events verdict q) :
    step.Path p.state (calls events) q.state := by
  cases skips with
  | skipped answer notice =>
    have told : step.Path _ _ _ := notify_path notice .onSkip
    rw [calls_append, calls_asked, calls_log]
    exact (Makes.shouldSkip answer).path.append told
  | refused answer | overruled answer =>
    rw [calls_append, calls_asked]
    exact (Makes.shouldSkip answer).path

theorem Processes.path {items : List ι} {outputs : List ω} {ending : Result Unit}
    (processes : step.Processes items p events outputs ending q) :
    step.Path p.state (calls events) q.state := by
  induction processes with
  | done => exact .nil _
  | output answer rest ih | filtered answer rest ih =>
    simp only [calls_append, calls_asked, calls_log]
    exact (Makes.process answer).path.append ih
  | skipped answer skip rest ih =>
    simp only [calls_append, calls_asked]
    exact (Makes.process answer).path.append (skip.path.append ih)
  | fatal answer refusal =>
    rw [calls_append, calls_asked]
    exact (Makes.process answer).path.append refusal.path

theorem Writes.path {outputs : List ω} {answer : Result Unit}
    (writes : step.Writes outputs p events answer q) :
    step.Path p.state (calls events) q.state := by
  cases writes with
  | nothing empty => exact .nil _
  | written nonempty answer flush =>
    simp only [calls_log, calls_append, calls_asked]
    exact (Makes.write answer).path.append (Makes.flush flush).path
  | notWritten nonempty answer =>
    simp only [calls_log, calls_append, calls_asked]
    exact (Makes.write answer).path
  | notFlushed nonempty answer flush =>
    simp only [calls_log, calls_append, calls_asked]
    exact (Makes.write answer).path.append (Makes.flush flush).path

theorem RollsBack.path {cause : Error} (undo : step.RollsBack cause p events q) :
    step.Path p.state (calls events) q.state := by
  cases undo with
  | rolledBack answer notice =>
    have told : step.Path _ _ _ := notify_path notice .afterChunkError
    simp only [calls_log, calls_append, calls_asked, calls_noted]
    exact (Makes.rollback answer).path.append told

theorem Transacts.path {items : List ι} {result : Result (List ω)}
    (transacts : step.Transacts items p events result q) :
    step.Path p.state (calls events) q.state := by
  -- However a transaction goes, the listeners are called before it is begun.
  cases transacts with
  | notBegun before answer notice =>
    have heard : step.Path _ _ _ := notify_path before .beforeChunk
    have told : step.Path _ _ _ := notify_path notice .afterChunkError
    simp only [calls_append, calls_asked]
    exact heard.append ((Makes.begin answer).path.append told)
  | notProcessed before answer process undo =>
    have heard : step.Path _ _ _ := notify_path before .beforeChunk
    simp only [calls_append, calls_asked, calls_log]
    exact heard.append ((Makes.begin answer).path.append (process.path.append undo.path))
  | notWritten before answer process write undo =>
    have heard : step.Path _ _ _ := notify_path before .beforeChunk
    simp only [calls_append, calls_asked, calls_log]
    exact heard.append ((Makes.begin answer).path.append
      (process.path.append (write.path.append undo.path)))
  | notCommitted before answer process write commit undo =>
    have heard : step.Path _ _ _ := notify_path before .beforeChunk
    have undone := (Makes.commit commit).path.append undo.path
    simp only [calls_append, calls_asked, calls_log]
    exact heard.append ((Makes.begin answer).path.append
      (process.path.append (write.path.append undone)))
  | committed before answer process write commit notice =>
    have heard : step.Path _ _ _ := notify_path before .beforeChunk
    have told : step.Path _ _ _ := notify_path notice .afterChunk
    simp only [calls_append, calls_asked, calls_log]
    exact heard.append ((Makes.begin answer).path.append
      (process.path.append (write.path.append ((Makes.commit commit).path.append told))))

theorem Round.path {result : Option (Result Unit)} (round : step.Round p events result q) :
    step.Path p.state (calls events) q.state := by
  cases round with
  | notRead reads | exhausted reads => exact reads.path
  | failed reads nonempty transacts | last reads nonempty transacts
  | more reads nonempty transacts =>
    rw [calls_log, calls_append]
    exact reads.path.append transacts.path

theorem Rounds.path {rounds : Nat} {result : Option (Result Unit)}
    (all : step.Rounds rounds p events result q) :
    step.Path p.state (calls events) q.state := by
  induction all with
  | unfinished | stopped crowded => exact .nil _
  | last round => exact round.path
  | more round rest ih =>
    rw [calls_append]
    exact round.path.append ih

theorem Runs.path {rounds : Nat} {result : Option (Result Unit)}
    (runs : step.Runs rounds p events result q) :
    step.Path p.state (calls events) q.state := by
  cases runs with
  | notOpened answer =>
    simp only [calls_log, calls_append, calls_asked]
    exact (Makes.openStore answer).path
  | unfinished answer all =>
    simp only [calls_log, calls_append, calls_asked]
    exact (Makes.openStore answer).path.append all.path
  | closed answer all close =>
    simp only [calls_log, calls_append, calls_asked, calls_noted]
    exact (Makes.openStore answer).path.append (all.path.append (Makes.closeStore close).path)

end

/-- Nothing but the calls of a run changes the shared state, and each of them is made in the state
that the one before has left. -/
theorem execute_path (step : ChunkStep σ ε ι ω) (rounds : Nat) (p : Progress σ) :
    let run := step.execute rounds p
    step.Path p.state (calls run.events) run.state.state := by
  obtain ⟨events, result, after, runs, eq⟩ := step.execute_runs rounds p
  simp only [eq]
  exact runs.path

end ChunkStep

end Batchwork
