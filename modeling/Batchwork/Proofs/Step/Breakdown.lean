import Batchwork.Proofs.Step.Conservation
import Mathlib.Tactic.ByContra

/-!
# What follows a failure

A run fails with the error of the first call that fails, and after that call it only cleans up: it
rolls back, tells its listeners of the failure and closes its store. `Runs.breakdown` says so for
every run, and `Runs.status` that the stage of that call decides the status.
-/

namespace Batchwork

variable {σ ε ι ω : Type}

/-- Whether a call is one that a run makes to clean up. -/
@[simp] def Call.cleansUp : Call ι ω → Bool
  | rollback _ | closeStore _ | afterChunkError .. => true
  | _ => false

/-- Calls that fail so, or do not fail, and after which only clean-up follows if they do. -/
structure Breakdown (failed : Option (Stage × Error)) (made : List (Call ι ω)) : Prop where
  failure : failure? made = failed
  behind : made.Pairwise fun earlier later => earlier.failure? ≠ none → later.cleansUp = true

theorem Call.failure?_of_cleansUp {call : Call ι ω} (cleans : call.cleansUp = true) :
    call.failure? = none := by
  cases call <;> first | rfl | cases cleans

theorem failure?_eq_none {made : List (Call ι ω)} :
    failure? made = none ↔ ∀ call ∈ made, call.failure? = none :=
  List.findSome?_eq_none_iff

namespace Breakdown

variable {failed : Option (Stage × Error)} {first second made : List (Call ι ω)}

theorem append (before : Breakdown none first) (after : Breakdown failed second) :
    Breakdown failed (first ++ second) where
  failure := by rw [failure?_append, before.failure, after.failure, Option.none_or]
  behind := by
    refine List.pairwise_append.mpr ⟨before.behind, after.behind, ?_⟩
    intro earlier member _ _ fails
    exact absurd (failure?_eq_none.mp before.failure earlier member) fails

theorem cleanedUp (before : Breakdown failed first)
    (cleans : ∀ call ∈ second, call.cleansUp = true) : Breakdown failed (first ++ second) where
  failure := by
    have harmless : failure? second = none :=
      failure?_eq_none.mpr fun call member => Call.failure?_of_cleansUp (cleans call member)
    rw [failure?_append, before.failure, harmless, Option.or_none]
  behind := by
    refine List.pairwise_append.mpr ⟨before.behind, ?_, ?_⟩
    · exact List.pairwise_of_forall_mem_list fun _ _ later member _ => cleans later member
    · exact fun _ _ later member _ => cleans later member

theorem of_harmless (harmless : failure? made = none) : Breakdown none made where
  failure := harmless
  behind := List.pairwise_of_forall_mem_list fun earlier member _ _ fails =>
    absurd (failure?_eq_none.mp harmless earlier member) fails

theorem cons {call : Call ι ω} (harmless : call.failure? = none) (rest : Breakdown failed made) :
    Breakdown failed ([call] ++ made) :=
  append (of_harmless (failure?_eq_none.mpr (List.forall_mem_singleton.mpr harmless))) rest

theorem single {call : Call ι ω} (fails : call.failure? = failed) : Breakdown failed [call] where
  failure := by rw [failure?_cons, failure?_nil, Option.or_none, fails]
  behind := List.pairwise_singleton _ _

/-- Only clean-up follows a call that fails. -/
theorem cleanUp_behind {call : Call ι ω} (breakdown : Breakdown failed (first ++ call :: second))
    (fails : call.failure? ≠ none) : ∀ later ∈ second, later.cleansUp = true := by
  intro later member
  have behind := (List.pairwise_append.mp breakdown.behind).2.1
  exact (List.pairwise_cons.mp behind).1 later member fails

/-- The call that fails is the only one. -/
theorem failed_eq {call : Call ι ω} {failure : Stage × Error}
    (breakdown : Breakdown failed (first ++ call :: second))
    (fails : call.failure? = some failure) : failed = some failure := by
  have harmless : failure? first = none := by
    apply failure?_eq_none.mpr
    intro earlier member
    -- A call that failed before would leave only clean-up, which does not fail.
    by_contra failsToo
    have behind := (List.pairwise_append.mp breakdown.behind).2.2
    have cleans := behind earlier member call List.mem_cons_self failsToo
    rw [Call.failure?_of_cleansUp cleans] at fails
    cases fails
  rw [← breakdown.failure, failure?_append, harmless, failure?_cons, fails]
  rfl

end Breakdown

namespace ChunkStep

variable {step : ChunkStep σ ε ι ω} {p after : Progress σ} {events : List (StepEvent ι ω ε)}

theorem notify_harmless {κ : Type} {act : κ → Act σ ε Unit} {call : Nat → Call ι ω} {index : Nat}
    {listeners : List κ} {heard : List (StepEvent ι ω ε)}
    (notice : notify act call index listeners p = ⟨(), heard, after⟩)
    (harmless : ∀ listener, (call listener).failure? = none) : Breakdown none (calls heard) :=
  .of_harmless (notify_failure notice harmless)

theorem notify_cleansUp {cause : Error} {heard : List (StepEvent ι ω ε)}
    (notice : notify (fun listener : ChunkListener σ ε ω => listener.afterChunkError cause)
      (.afterChunkError · cause) 0 step.chunkListeners p = ⟨(), heard, after⟩) :
    ∀ call ∈ calls heard, call.cleansUp = true := by
  rw [notify_calls notice]
  intro call member
  obtain ⟨listener, _, rfl⟩ := List.mem_map.mp member
  rfl

theorem Reads.breakdown {room : Nat} {items : List ι} {ending : Result ChunkStatus}
    (reads : step.Reads room p events items ending after) :
    Breakdown (failureAt .reading ending) (calls events) := by
  induction reads with
  | full => exact .of_harmless rfl
  | finished answer | failed answer =>
    rw [calls_append, calls_asked, calls_log]
    exact .single rfl
  | item answer rest ih =>
    rw [calls_append, calls_asked]
    exact .cons rfl ih

theorem Skips.breakdown {item : ι} {error : Error} {verdict : Result Unit}
    (skips : step.Skips item error p events verdict after) :
    Breakdown (failureAt .processing verdict) (calls events) := by
  cases skips with
  | skipped answer notice =>
    rw [calls_append, calls_asked, calls_log]
    exact .cons rfl (notify_harmless notice fun _ => rfl)
  | refused answer | overruled answer =>
    rw [calls_append, calls_asked, calls_log]
    exact .single rfl

theorem Processes.breakdown {items : List ι} {outputs : List ω} {ending : Result Unit}
    (processes : step.Processes items p events outputs ending after) :
    Breakdown (failureAt .processing ending) (calls events) := by
  induction processes with
  | done => exact .of_harmless rfl
  | output answer rest ih =>
    rw [calls_append, calls_asked]
    exact .cons rfl ih
  | filtered answer rest ih =>
    rw [calls_append, calls_asked, calls_log]
    exact .cons rfl ih
  | skipped answer skip rest ih =>
    rw [calls_append, calls_asked, calls_append]
    exact .cons rfl (Breakdown.append skip.breakdown ih)
  | fatal answer refusal =>
    rw [calls_append, calls_asked]
    exact .cons rfl refusal.breakdown

theorem Writes.breakdown {outputs : List ω} {answer : Result Unit}
    (writes : step.Writes outputs p events answer after) :
    Breakdown (failureAt .writing answer) (calls events) := by
  cases writes with
  | nothing empty => exact .of_harmless rfl
  | written nonempty answer flush =>
    rw [calls_log, calls_append, calls_asked, calls_asked]
    exact .cons rfl (.single rfl)
  | notWritten nonempty answer =>
    rw [calls_log, calls_append, calls_asked, calls_log]
    exact .single rfl
  | notFlushed nonempty answer flush =>
    rw [calls_log, calls_append, calls_asked, calls_append, calls_asked, calls_log]
    exact .cons rfl (.single rfl)

theorem RollsBack.cleansUp {cause : Error} (undo : step.RollsBack cause p events after) :
    ∀ call ∈ calls events, call.cleansUp = true := by
  cases undo with
  | rolledBack answer notice =>
    rw [calls_log, calls_append, calls_asked, calls_append, calls_noted, List.nil_append]
    exact List.forall_mem_cons.mpr ⟨rfl, notify_cleansUp notice⟩

/-- A transaction fails with the error of the call that fails. -/
theorem Transacts.breakdown {items : List ι} {result : Result (List ω)}
    (transacts : step.Transacts items p events result after) :
    ∃ stage, Breakdown (failureAt stage result) (calls events) := by
  cases transacts with
  | notBegun before answer notice =>
    rw [calls_append, calls_append, calls_asked]
    exact ⟨.beginning, (notify_harmless before fun _ => rfl).append
      (Breakdown.cleanedUp (.single rfl) (notify_cleansUp notice))⟩
  | notProcessed before answer process undo =>
    rw [calls_append, calls_append, calls_asked, calls_log, calls_append]
    exact ⟨.processing, (notify_harmless before fun _ => rfl).append
      (.cons rfl (process.breakdown.cleanedUp undo.cleansUp))⟩
  | notWritten before answer process write undo =>
    rw [calls_append, calls_append, calls_asked, calls_log, calls_append, calls_append]
    exact ⟨.writing, (notify_harmless before fun _ => rfl).append (.cons rfl
      (Breakdown.append process.breakdown (write.breakdown.cleanedUp undo.cleansUp)))⟩
  | notCommitted before answer process write commit undo =>
    rw [calls_append, calls_append, calls_asked, calls_log, calls_append, calls_append,
      calls_append, calls_asked]
    exact ⟨.committing, (notify_harmless before fun _ => rfl).append (.cons rfl
      (Breakdown.append process.breakdown
        (Breakdown.append write.breakdown (Breakdown.cleanedUp (.single rfl) undo.cleansUp))))⟩
  | committed before answer process write commit notice =>
    rw [calls_append, calls_append, calls_asked, calls_log, calls_append, calls_append,
      calls_append, calls_asked, calls_log]
    -- No call failed, so any stage will do.
    exact ⟨.committing, (notify_harmless before fun _ => rfl).append (.cons rfl
      (Breakdown.append process.breakdown (Breakdown.append write.breakdown
        (.cons rfl (notify_harmless notice fun _ => rfl)))))⟩

theorem Round.breakdown {result : Option (Result Unit)} (round : step.Round p events result after) :
    ∃ stage, Breakdown (result.bind (failureAt stage)) (calls events) := by
  cases round with
  | notRead reads | exhausted reads =>
    rw [calls_log]
    exact ⟨.reading, reads.breakdown⟩
  | failed reads nonempty transacts | last reads nonempty transacts
  | more reads nonempty transacts =>
    obtain ⟨stage, transaction⟩ := transacts.breakdown
    rw [calls_log, calls_append]
    exact ⟨stage, Breakdown.append reads.breakdown transaction⟩

theorem Rounds.breakdown {rounds : Nat} {result : Option (Result Unit)}
    (all : step.Rounds rounds p events result after) :
    ∃ stage, Breakdown (result.bind (failureAt stage)) (calls events) := by
  induction all with
  | unfinished | stopped crowded => exact ⟨.reading, .of_harmless rfl⟩
  | last round => exact round.breakdown
  | more round rest ih =>
    obtain ⟨_, first⟩ := round.breakdown
    obtain ⟨stage, later⟩ := ih
    rw [calls_append]
    exact ⟨stage, Breakdown.append first later⟩

/-- A run fails with the error of the first call that fails, and only cleans up after it. -/
theorem Runs.breakdown {rounds : Nat} {result : Option (Result Unit)}
    (runs : step.Runs rounds p events result after) :
    ∃ stage, Breakdown (result.bind (failureAt stage)) (calls events) := by
  cases runs with
  | notOpened answer =>
    rw [calls_log, calls_append, calls_asked, calls_log]
    exact ⟨.opening, .single rfl⟩
  | unfinished answer all =>
    obtain ⟨stage, breakdown⟩ := all.breakdown
    rw [calls_log, calls_append, calls_asked]
    exact ⟨stage, .cons rfl breakdown⟩
  | closed answer all close =>
    obtain ⟨stage, breakdown⟩ := all.breakdown
    rw [calls_log, calls_append, calls_asked, calls_append]
    refine ⟨stage, .cons rfl (breakdown.cleanedUp ?_)⟩
    simp

/-- The status of a run that ended is that of the stage at which it failed. -/
theorem Runs.status {rounds : Nat} {result : Result Unit}
    (runs : step.Runs rounds p events (some result) after) :
    after.ledger.status = finalStatus (calls events) := by
  obtain ⟨tally, rest, books, -⟩ := runs.balanced
  rw [books]
  rfl

end ChunkStep

end Batchwork
