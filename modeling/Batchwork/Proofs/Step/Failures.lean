import Batchwork.Proofs.Step.Stages

/-!
# Failures read off the calls

The calls of a run show at which stage it failed and with what error: the first call whose error
the step does not get over. Errors of a rollback and of closing the store are only noted, and an
error of the processor counts only if the policy does not let it pass. The lemmas say for every
stage of a run where its calls fail.
-/

namespace Batchwork

variable {σ ε ι ω : Type}

/-- The stages at which a run can fail. -/
inductive Stage where
  | opening
  | reading
  | beginning
  | processing
  | writing
  | committing
  deriving Repr, DecidableEq

/-- The status of a run that failed at a stage. -/
def Stage.status : Stage → StepStatus
  | opening => .writeError
  | reading => .readError
  | beginning => .transactionError
  | processing => .processorError
  | writing => .writeError
  | committing => .transactionError

/-- The stage that a call makes fail, and the error with which it does. -/
@[simp] def Call.failure? : Call ι ω → Option (Stage × Error)
  | openStore (.error error) => some (.opening, error)
  | next (.error error) => some (.reading, error)
  | begin (.error error) => some (.beginning, error)
  | shouldSkip error _ (.ok false) => some (.processing, error)
  | shouldSkip _ _ (.error reason) => some (.processing, reason)
  | write _ (.error error) => some (.writing, error)
  | flush (.error error) => some (.writing, error)
  | commit (.error error) => some (.committing, error)
  | _ => none

/-- The failure of a run, by its calls. -/
def failure? (made : List (Call ι ω)) : Option (Stage × Error) := made.findSome? Call.failure?

/-- The stage at which a run failed, by its calls. -/
def failedStage? (made : List (Call ι ω)) : Option Stage := (failure? made).map Prod.fst

/-- The status that the calls of a run lead to. -/
def finalStatus (made : List (Call ι ω)) : StepStatus :=
  match failedStage? made with
  | none => .success
  | some stage => stage.status

@[simp] theorem failure?_nil : failure? ([] : List (Call ι ω)) = none := rfl

@[simp] theorem failure?_cons (call : Call ι ω) (made : List (Call ι ω)) :
    failure? (call :: made) = call.failure?.or (failure? made) := by
  rw [failure?, List.findSome?_cons]
  cases call.failure? <;> rfl

@[simp] theorem failure?_append (first second : List (Call ι ω)) :
    failure? (first ++ second) = (failure? first).or (failure? second) :=
  List.findSome?_append

/-- The failure at a stage, if it ended with an error. -/
def failureAt {α : Type} (stage : Stage) : Result α → Option (Stage × Error)
  | .ok _ => none
  | .error error => some (stage, error)

namespace ChunkStep

variable {step : ChunkStep σ ε ι ω} {p after : Progress σ} {events : List (StepEvent ι ω ε)}

theorem notify_failure {κ : Type} {act : κ → Act σ ε Unit} {call : Nat → Call ι ω} {index : Nat}
    {listeners : List κ} {heard : List (StepEvent ι ω ε)}
    (notice : notify act call index listeners p = ⟨(), heard, after⟩)
    (harmless : ∀ listener, (call listener).failure? = none) : failure? (calls heard) = none := by
  rw [notify_calls notice, failure?, List.findSome?_eq_none_iff]
  intro made member
  obtain ⟨listener, _, rfl⟩ := List.mem_map.mp member
  exact harmless listener

theorem Reads.failure {room : Nat} {items : List ι} {ending : Result ChunkStatus}
    (reads : step.Reads room p events items ending after) :
    failure? (calls events) = failureAt .reading ending := by
  induction reads with
  | full => rfl
  | finished answer | failed answer => simp [failureAt]
  | item answer rest ih => simpa using ih

theorem Skips.failure {item : ι} {error : Error} {verdict : Result Unit}
    (skips : step.Skips item error p events verdict after) :
    failure? (calls events) = failureAt .processing verdict := by
  cases skips with
  | skipped answer notice =>
    have harmless := notify_failure notice fun _ => rfl
    simpa [failureAt] using harmless
  | refused answer | overruled answer => simp [failureAt]

theorem Processes.failure {items : List ι} {outputs : List ω} {ending : Result Unit}
    (processes : step.Processes items p events outputs ending after) :
    failure? (calls events) = failureAt .processing ending := by
  induction processes with
  | done => rfl
  | output answer rest ih | filtered answer rest ih => simpa using ih
  | skipped answer skip rest ih =>
    -- An error that the policy lets pass is no failure of the run.
    have passed := skip.failure
    simpa [passed, failureAt] using ih
  | fatal answer refusal => simpa using refusal.failure

theorem Writes.failure {outputs : List ω} {answer : Result Unit}
    (writes : step.Writes outputs p events answer after) :
    failure? (calls events) = failureAt .writing answer := by
  cases writes <;> simp [failureAt]

theorem RollsBack.failure {cause : Error} (undo : step.RollsBack cause p events after) :
    failure? (calls events) = none := by
  cases undo with
  | rolledBack answer notice =>
    have harmless := notify_failure notice fun _ => rfl
    simpa using harmless

end ChunkStep

end Batchwork
