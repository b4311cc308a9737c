import Batchwork.Proofs.Step.Breakdown
import Batchwork.Proofs.Step.Consultation
import Batchwork.Proofs.Step.Coupling
import Batchwork.Memory

/-!
# Where the error of a run comes from

A run that fails returns the error of the call that failed, and the stage of that call alone decides
the status. Clean-up comes after that call and cannot change either: steps that agree on everything
but clean-up have the same results, books and calls. Main statement: `execute_provenance`.
-/

namespace Batchwork

variable {σ ε ι ω : Type}

/-- The calls by which a stage fails with an error. Processing an item fails if the policy does not
let the error of the processor pass: with that error if it refuses, and with its own error if it
fails itself. -/
inductive Breaks : Stage → Error → List (Call ι ω) → Prop
  | unopened {error : Error} : Breaks .opening error [.openStore (.error error)]
  | unread {error : Error} : Breaks .reading error [.next (.error error)]
  | notBegun {error : Error} : Breaks .beginning error [.begin (.error error)]
  | refused {item : ι} {error : Error} {skipped : Nat} :
      Breaks .processing error [.process item (.error error), .shouldSkip error skipped (.ok false)]
  | overruled {item : ι} {error reason : Error} {skipped : Nat} :
      Breaks .processing reason
        [.process item (.error error), .shouldSkip error skipped (.error reason)]
  | unwritten {outputs : List ω} {error : Error} :
      Breaks .writing error [.write outputs (.error error)]
  | notFlushed {error : Error} : Breaks .writing error [.flush (.error error)]
  | notCommitted {error : Error} : Breaks .committing error [.commit (.error error)]

/-- The calls of a run that fails with an error: up to the failure no call fails, and behind it the
run only cleans up. -/
inductive FailsBy (error : Error) (made : List (Call ι ω)) : Stage → Prop
  | broken {stage : Stage} {earlier failing later : List (Call ι ω)}
      (split : made = earlier ++ failing ++ later) (breaks : Breaks stage error failing)
      (harmless : ∀ call ∈ earlier, call.failure? = none)
      (cleanUp : ∀ call ∈ later, call.cleansUp = true) : FailsBy error made stage

theorem Stage.status_failed (stage : Stage) :
    stage.status ≠ .success ∧ stage.status ≠ .starting ∧ stage.status ≠ .started := by
  cases stage <;> decide

namespace ChunkStep

variable {step : ChunkStep σ ε ι ω}

/-- A call at which a stage fails, together with the failure of the item that a question to the
policy is about. -/
theorem Consults.breaks {skipped total : Nat} {earlier later : List (Call ι ω)} {call : Call ι ω}
    {stage : Stage} {error : Error}
    (consults : Consults step skipped (earlier ++ call :: later) total)
    (fails : call.failure? = some (stage, error)) :
    ∃ front failing, earlier ++ [call] = front ++ failing ∧ Breaks stage error failing ∧
      ∀ made ∈ front, made ∈ earlier := by
  have alone (breaks : Breaks stage error [call]) : ∃ front failing,
      earlier ++ [call] = front ++ failing ∧ Breaks stage error failing ∧
        ∀ made ∈ front, made ∈ earlier :=
    ⟨earlier, [call], rfl, breaks, fun _ member => member⟩
  cases call with
  | shouldSkip asked before answer =>
    obtain ⟨⟨front, item, rfl⟩, -, -⟩ := consults.occasion
    have fromFront : ∀ made ∈ front, made ∈ front ++ [Call.process item (.error asked)] :=
      fun _ member => List.mem_append_left _ member
    rcases answer with reason | _ | _ <;> cases fails
    · exact ⟨front, _, List.append_assoc _ _ _, .overruled, fromFront⟩
    · exact ⟨front, _, List.append_assoc _ _ _, .refused, fromFront⟩
  | openStore answer => rcases answer with _ | _ <;> cases fails; exact alone .unopened
  | next answer => rcases answer with _ | _ <;> cases fails; exact alone .unread
  | begin answer => rcases answer with _ | _ <;> cases fails; exact alone .notBegun
  | write outputs answer => rcases answer with _ | _ <;> cases fails; exact alone .unwritten
  | flush answer => rcases answer with _ | _ <;> cases fails; exact alone .notFlushed
  | commit answer => rcases answer with _ | _ <;> cases fails; exact alone .notCommitted
  | beforeChunk | process | onSkip | rollback | afterChunk | afterChunkError | closeStore =>
    cases fails

end ChunkStep

/-- What a breakdown says about the calls up to the failure and behind it. -/
theorem Breakdown.failsBy {step : ChunkStep σ ε ι ω} {skipped total : Nat}
    {made : List (Call ι ω)} {stage : Stage} {error : Error}
    (breakdown : Breakdown (some (stage, error)) made)
    (consults : ChunkStep.Consults step skipped made total) : FailsBy error made stage := by
  obtain ⟨earlier, call, later, rfl, fails, harmless⟩ :=
    List.findSome?_eq_some_iff.mp breakdown.failure
  obtain ⟨front, failing, split, breaks, fromFront⟩ := consults.breaks fails
  have cleanUp := breakdown.cleanUp_behind (fails ▸ Option.some_ne_none _)
  have split : earlier ++ call :: later = front ++ failing ++ later := by
    rw [← split, List.append_assoc, List.singleton_append]
  exact .broken split breaks (fun made member => harmless made (fromFront made member)) cleanUp

namespace ChunkStep

variable {step : ChunkStep σ ε ι ω} {p after : Progress σ} {events : List (StepEvent ι ω ε)}

/-- A run that ended is a success and says so, or fails by one of its calls. -/
theorem Runs.provenance {rounds : Nat} {result : Result Unit}
    (runs : step.Runs rounds p events (some result) after) :
    (result = .ok () ∧ after.ledger.status = .success) ∨
      ∃ error stage, result = .error error ∧ FailsBy error (calls events) stage ∧
        after.ledger.status = stage.status := by
  obtain ⟨stage, breakdown⟩ := runs.breakdown
  have status := runs.status
  rcases result with error | ⟨⟩
  · have failed : failure? (calls events) = some (stage, error) := breakdown.failure
    refine .inr ⟨error, stage, rfl, breakdown.failsBy runs.decides.consults, ?_⟩
    rw [status, finalStatus, failedStage?, failed]
    rfl
  · have failed : failure? (calls events) = none := breakdown.failure
    refine .inl ⟨rfl, ?_⟩
    rw [status, finalStatus, failedStage?, failed]
    rfl

/-- A run that ends succeeds exactly if its status says so. One that fails does so by a call of some
stage, returns the error of that call, and has the status of that stage. Nothing of this depends on
how clean-up goes: a step that agrees with this one on everything else has the same result, the same
books and, but for the answers to clean-up, the same calls. -/
theorem execute_provenance (step : ChunkStep σ ε ι ω) (rounds : Nat) (p : Progress σ) :
    let run := step.execute rounds p
    (∀ result, run.value = some result →
      (result = .ok () ↔ run.state.ledger.status = .success) ∧
      run.state.ledger.status ≠ .starting ∧ run.state.ledger.status ≠ .started ∧
      ∀ error, result = .error error → ∃ stage, FailsBy error (calls run.events) stage ∧
        run.state.ledger.status = stage.status) ∧
    ∀ (τ δ : Type) (other : ChunkStep τ δ ι ω) (related : σ → τ → Prop) (q : Progress τ),
      AgreeButForCleanUp related step other → related p.state q.state → p.ledger = q.ledger →
        let second := other.execute rounds q
        run.value = second.value ∧ run.state.ledger = second.state.ledger ∧
          (calls run.events).map Call.hidingCleanUp =
            (calls second.events).map Call.hidingCleanUp := by
  intro run
  constructor
  · intro result ended
    obtain ⟨events, value, after, runs, eq⟩ := step.execute_runs rounds p
    simp only [run, eq] at ended ⊢
    subst ended
    rcases runs.provenance with ⟨rfl, success⟩ | ⟨error, stage, rfl, fails, status⟩
    · simp [success]
    · have failed := stage.status_failed
      rw [← status] at failed
      refine ⟨⟨nofun, fun success => absurd success failed.1⟩, failed.2.1, failed.2.2, ?_⟩
      rintro _ ⟨⟩
      exact ⟨stage, fails, status⟩
  · intro τ δ other related q agree states books second
    have coupled := execute_coupled agree rounds
    have start : Level related p q := ⟨books, states⟩
    obtain ⟨value, ledger, -⟩ := coupled.ends p q start
    exact ⟨value, ledger, coupled.calls p q start⟩

/-- A step that cannot write, and whose clean-up answers as it is told to. -/
def unwritable (cleanUp : Result Unit) : ChunkStep (ItemQueue Nat) Unit Nat Nat where
  name := "unwritable"
  reader := ItemQueue.asReader Nat Unit
  processor := ⟨fun item => pure (.ok (some item))⟩
  writer :=
    { write := fun _ => pure (.error (.itemWriter "full"))
      closeStore := pure cleanUp }
  transactions :=
    { begin := pure (.ok ()), commit := pure (.ok ()), rollback := pure cleanUp }
  policy := SkipPolicy.never _ _
  chunkSize := 1
  chunkSize_pos := Nat.one_pos
  itemSize := 8

theorem unwritable_agree (cleanUp other : Result Unit) :
    AgreeButForCleanUp Eq (unwritable cleanUp) (unwritable other) := by
  have same {α : Type} (act : Act (ItemQueue Nat) Unit α) : Agree Eq act act :=
    ⟨fun _ _ states => states ▸ rfl, fun _ _ states => states ▸ rfl⟩
  exact
    { chunkSize := rfl
      itemSize := rfl
      reader := same _
      processor := fun _ => same _
      policy := fun _ _ => same _
      openStore := same _
      write := fun _ => same _
      flush := same _
      begin := same _
      commit := same _
      chunkListeners := .nil
      skipListeners := .nil }

/-- The error of the writer stays the error of the run when rolling back and closing fail too. -/
theorem unwritable_provenance :
    let start : Progress (ItemQueue Nat) := ⟨{ id := ⟨1⟩, name := "unwritable" }, ⟨[7, 8]⟩⟩
    let run := (unwritable (.ok ())).execute 3 start
    let second := (unwritable (.error (.transaction "gone"))).execute 3 start
    run.value = some (.error (.itemWriter "full")) ∧
      (∃ stage, FailsBy (.itemWriter "full") (calls run.events) stage ∧
        run.state.ledger.status = stage.status) ∧
      run.value = second.value ∧ run.state.ledger = second.state.ledger ∧
      (calls run.events).map Call.hidingCleanUp = (calls second.events).map Call.hidingCleanUp := by
  intro start run second
  have ended : run.value = some (.error (.itemWriter "full")) := rfl
  obtain ⟨failure, coupled⟩ := (unwritable (.ok ())).execute_provenance 3 start
  obtain ⟨-, -, -, fails⟩ := failure _ ended
  have agree := unwritable_agree (.ok ()) (.error (.transaction "gone"))
  exact ⟨ended, fails _ rfl, coupled _ _ _ Eq start agree rfl rfl⟩

end ChunkStep

end Batchwork
