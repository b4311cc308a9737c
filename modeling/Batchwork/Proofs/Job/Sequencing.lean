import Batchwork.Job
import Batchwork.Memory
import Batchwork.Processor
import Batchwork.Proofs.Step.Provenance
import Mathlib.Data.List.Infix

/-!
# The steps of a job

A job calls its steps up to the first that fails. The reference is the list of all runs, each on the
state that the one before leaves: what a job returns, the ledgers it holds, the state it leaves and
what it tells of are read off the runs up to the first failure. Main statement: `execute_sequence`.
-/

namespace Batchwork

variable {σ ε : Type}

/-- A step together with what it is run on: the number of its ledger and the state it finds. -/
structure StepRun (σ ε : Type) where
  step : Step σ ε
  serial : Nat
  before : σ

namespace StepRun

/-- The step is given a ledger that has its name and has counted nothing yet. -/
def outcome (run : StepRun σ ε) : Outcome σ ε (Option (Result Unit) × Ledger) :=
  run.step.execute { id := ⟨run.serial⟩, name := run.step.name } run.before

def result (run : StepRun σ ε) : Option (Result Unit) := run.outcome.value.1

/-- The ledger as the step left it. -/
def ledger (run : StepRun σ ε) : Ledger := run.outcome.value.2

def after (run : StepRun σ ε) : σ := run.outcome.state

def told (run : StepRun σ ε) : List (JobEvent ε) := run.outcome.events.map .told

def failed (run : StepRun σ ε) : Bool :=
  match run.result with
  | some (.error _) => true
  | _ => false

end StepRun

/-- The runs of all steps one after the other, also behind one that fails. -/
def inSequence : (serial : Nat) → List (Step σ ε) → σ → List (StepRun σ ε)
  | _, [], _ => []
  | serial, step :: rest, state =>
    let run : StepRun σ ε := ⟨step, serial, state⟩
    run :: inSequence (serial + 1) rest run.after

/-- The runs up to the first that failed, and all of them if none did. -/
def upToFailure (runs : List (StepRun σ ε)) : List (StepRun σ ε) :=
  match runs.findIdx? StepRun.failed with
  | some first => runs.take (first + 1)
  | none => runs

/-- The state that runs leave, the last of them at the end. -/
def lastState (state : σ) (runs : List (StepRun σ ε)) : σ :=
  (runs.getLast?.map StepRun.after).getD state

/-- The runs that a job calls, out of those it could call, and how they end: there is no `ending` if
the last one has no result. -/
inductive Course : List (StepRun σ ε) → List (StepRun σ ε) → Option (Option Error) → Prop
  | completed : Course [] [] (some none)
  | endless {run : StepRun σ ε} {rest : List (StepRun σ ε)} (noResult : run.result = none) :
      Course (run :: rest) [run] none
  | failed {run : StepRun σ ε} {rest : List (StepRun σ ε)} {source : Error}
      (error : run.result = some (.error source)) :
      Course (run :: rest) [run] (some (some (.step run.step.name source)))
  | succeeded {run : StepRun σ ε} {rest called : List (StepRun σ ε)}
      {ending : Option (Option Error)} (ok : run.result = some (.ok ()))
      (later : Course rest called ending) : Course (run :: rest) (run :: called) ending

/-- The log entry of a job that ended with a failure of a step. -/
def failureEntry (jobName : String) : Option (Option Error) → List (JobEvent ε)
  | some (some (.step name source)) => [.log (.stepFailed jobName name source)]
  | _ => []

/-- The entry that a job writes at its end. -/
def JobExecution.closing (execution : JobExecution) : JobLog :=
  match execution.failure with
  | some (.step step source) => .stepFailed execution.name step source
  | _ => .ended execution.name execution.id

/-- A step that runs chunks, of any items. It may tell of their events under other names. -/
def Step.RunsChunks (step : Step σ ε) : Prop :=
  ∃ (δ ι ω : Type) (chunks : ChunkStep σ δ ι ω) (rounds : σ → Nat) (rename : StepEvent ι ω δ → ε),
    ∀ ledger, step.execute ledger =
      Act.within (.whole σ) rename ((chunks.toStep rounds).execute ledger)

/-! ## The runs that are called -/

namespace StepRun

theorem failed_iff (run : StepRun σ ε) :
    run.failed = true ↔ ∃ source, run.result = some (.error source) := by
  unfold failed
  rcases run.result with _ | _ | _ <;> simp

theorem not_failed {run : StepRun σ ε} (ok : run.result = some (.ok ())) :
    run.failed = false := by
  rw [failed, ok]

/-- The run as the job starts it. -/
theorem start_run (run : StepRun σ ε) :
    Act.within (.whole σ) .told
        (run.step.execute { id := ⟨run.serial⟩, name := run.step.name }) run.before =
      (⟨(run.result, run.ledger), run.told, run.after⟩ :
        Outcome σ (JobEvent ε) (Option (Result Unit) × Ledger)) := rfl

end StepRun

theorem inSequence_steps (serial : Nat) (steps : List (Step σ ε)) (state : σ) :
    (inSequence serial steps state).map (·.step) = steps := by
  induction steps generalizing serial state with
  | nil => rfl
  | cons step rest ih =>
    rw [inSequence, List.map_cons, ih]

theorem lastState_cons (state : σ) (run : StepRun σ ε) (runs : List (StepRun σ ε)) :
    lastState state (run :: runs) = lastState run.after runs := by
  cases runs with
  | nil => rfl
  | cons next runs => simp [lastState, List.getLast?_cons]

section

variable {run : StepRun σ ε} {rest : List (StepRun σ ε)}

theorem upToFailure_of_failed (failed : run.failed = true) : upToFailure (run :: rest) = [run] := by
  rw [upToFailure, List.findIdx?_cons, failed]
  rfl

theorem upToFailure_of_passed (passed : run.failed = false) :
    upToFailure (run :: rest) = run :: upToFailure rest := by
  rw [upToFailure, upToFailure, List.findIdx?_cons, passed]
  cases rest.findIdx? StepRun.failed <;> rfl

end

namespace Course

variable {runs called : List (StepRun σ ε)} {ending : Option (Option Error)}

/-- Runs that ended are called up to the first failure. -/
theorem called_eq (course : Course runs called ending) (ended : ending.isSome) :
    called = upToFailure runs := by
  induction course with
  | completed => rfl
  | endless => cases ended
  | failed error => rw [upToFailure_of_failed ((StepRun.failed_iff _).mpr ⟨_, error⟩)]
  | succeeded ok later ih => rw [upToFailure_of_passed (StepRun.not_failed ok), ih ended]

/-- A job comes to its end exactly if the runs up to the first failure do. -/
theorem ends_iff (course : Course runs called ending) :
    ending.isSome ↔ ∀ run ∈ upToFailure runs, run.result.isSome := by
  induction course with
  | completed => simp [upToFailure]
  | @endless run rest noResult =>
    -- The run without a result is the first of those up to the failure, wherever that is.
    have first : run ∈ upToFailure (run :: rest) := by
      unfold upToFailure
      split <;> simp
    constructor
    · nofun
    · intro ended
      have ends := ended run first
      rw [noResult] at ends
      cases ends
  | failed error =>
    rw [upToFailure_of_failed ((StepRun.failed_iff _).mpr ⟨_, error⟩)]
    simp [error]
  | succeeded ok later ih =>
    rw [ih, upToFailure_of_passed (StepRun.not_failed ok), List.forall_mem_cons, ok]
    simp

/-- A failure of the job is the first failure of a run, and names its step. -/
theorem failure_eq (course : Course runs called ending) {failure : Option Error}
    (ended : ending = some failure) :
    (runs.findIdx? StepRun.failed = none ∧ failure = none) ∨
      ∃ first run source, runs.findIdx? StepRun.failed = some first ∧ runs[first]? = some run ∧
        run.result = some (.error source) ∧ failure = some (.step run.step.name source) := by
  induction course with
  | completed =>
    cases ended
    exact .inl ⟨rfl, rfl⟩
  | endless => cases ended
  | @failed run rest source error =>
    cases ended
    have failed := run.failed_iff.mpr ⟨source, error⟩
    exact .inr ⟨0, run, source, by rw [List.findIdx?_cons, failed]; rfl, rfl, error, rfl⟩
  | succeeded ok later ih =>
    rw [List.findIdx?_cons, StepRun.not_failed ok]
    rcases ih ended with ⟨nowhere, none⟩ | ⟨first, failing, source, place, found, error, step⟩
    · exact .inl ⟨by rw [nowhere]; rfl, none⟩
    · exact .inr ⟨first + 1, failing, source, by rw [place]; rfl, found, error, step⟩

/-- All runs succeed but the last, and that one too if the job does. -/
theorem succeeds (course : Course runs called ending) {failure : Option Error}
    (ended : ending = some failure) :
    (∀ run ∈ called.dropLast, run.result = some (.ok ())) ∧
      ∀ run, called.getLast? = some run →
        ∃ result, run.result = some result ∧ (result = .ok () ↔ failure = none) := by
  induction course with
  | completed => exact ⟨nofun, nofun⟩
  | endless => cases ended
  | failed error =>
    cases ended
    refine ⟨nofun, ?_⟩
    rintro _ ⟨⟩
    exact ⟨_, error, nofun, nofun⟩
  | @succeeded run rest called ending ok later ih =>
    obtain ⟨front, last⟩ := ih ended
    cases called with
    | nil =>
      cases later
      cases ended
      refine ⟨nofun, ?_⟩
      rintro _ ⟨⟩
      exact ⟨_, ok, fun _ => rfl, fun _ => rfl⟩
    | cons next called =>
      rw [List.dropLast_cons_of_ne_nil (List.cons_ne_nil next called), List.forall_mem_cons,
        List.getLast?_cons_cons]
      exact ⟨⟨ok, front⟩, last⟩

end Course

/-- The ledger of a step that runs chunks says whether the step succeeded. -/
theorem StepRun.succeeded_iff {run : StepRun σ ε} (chunks : run.step.RunsChunks)
    {result : Result Unit} (ended : run.result = some result) :
    run.ledger.status = .success ↔ result = .ok () := by
  obtain ⟨δ, ι, ω, step, rounds, rename, same⟩ := chunks
  let start : Progress σ := ⟨{ id := ⟨run.serial⟩, name := run.step.name }, run.before⟩
  obtain ⟨events, value, after, runs, eq⟩ := step.execute_runs (rounds run.before) start
  have outcome : run.outcome = ⟨(value, after.ledger), events.map rename, after.state⟩ := by
    have inner : (step.toStep rounds).execute start.ledger run.before =
        ⟨(value, after.ledger), events, after.state⟩ := by
      rw [ChunkStep.toStep]
      simp only [start, eq]
    rw [StepRun.outcome, same, Act.within]
    simp only [Place.whole, start] at inner ⊢
    rw [inner]
  have value_eq : value = some result := by rw [← ended, StepRun.result, outcome]
  subst value_eq
  rw [StepRun.ledger, outcome]
  rcases runs.provenance with ⟨rfl, success⟩ | ⟨error, stage, rfl, -, status⟩
  · simp [success]
  · simp [status, stage.status_failed.1]

namespace Job

/-- What a job does with its steps is to call the runs of a course. -/
theorem runSteps_course (jobName : String) (serial : Nat) (steps : List (Step σ ε)) (state : σ) :
    ∃ called ending, Course (inSequence serial steps state) called ending ∧
      runSteps jobName serial steps state =
        ⟨ending.map (called.map (·.ledger), ·),
          called.flatMap (·.told) ++ failureEntry jobName ending, lastState state called⟩ := by
  induction steps generalizing serial state with
  | nil => exact ⟨[], some none, .completed, rfl⟩
  | cons step rest ih =>
    let run : StepRun σ ε := ⟨step, serial, state⟩
    rw [show inSequence serial (step :: rest) state =
      run :: inSequence (serial + 1) rest run.after from rfl, runSteps, Act.bind_run, run.start_run]
    rcases result : run.result with _ | source | ⟨⟩
    · refine ⟨[run], none, .endless result, ?_⟩
      simp [failureEntry, lastState]
    · refine ⟨[run], _, .failed result, ?_⟩
      simp [failureEntry, lastState, log, Act.tell]
      rfl
    · obtain ⟨called, ending, course, later⟩ := ih (serial + 1) run.after
      refine ⟨run :: called, ending, .succeeded result course, ?_⟩
      simp only [Act.bind_run, later, lastState_cons]
      cases ending <;> simp

/-- Behind a step that fails there might be any steps. -/
theorem runSteps_cut (jobName : String) (serial : Nat) (steps others : List (Step σ ε)) (state : σ)
    {first : Nat}
    (failure : (inSequence serial steps state).findIdx? StepRun.failed = some first) :
    runSteps jobName serial (steps.take (first + 1) ++ others) state =
      runSteps jobName serial steps state := by
  induction steps generalizing serial state first with
  | nil => cases failure
  | cons step rest ih =>
    let run : StepRun σ ε := ⟨step, serial, state⟩
    have failure : (run :: inSequence (serial + 1) rest run.after).findIdx? StepRun.failed =
      some first := failure
    rw [List.take_succ_cons, List.cons_append, runSteps, runSteps, Act.bind_run, Act.bind_run,
      run.start_run]
    rcases result : run.result with _ | source | ⟨⟩
    · rfl
    · rfl
    · rw [List.findIdx?_cons, StepRun.not_failed result] at failure
      obtain ⟨place, found, rfl⟩ := Option.map_eq_some_iff.mp failure
      simp only [Act.bind_run, ih (serial + 1) run.after found]

/-- The entries at the end of a job are one, whether a step failed or not. -/
theorem failureEntry_closing {runs called : List (StepRun σ ε)} {ending : Option (Option Error)}
    (course : Course runs called ending) (execution : JobExecution)
    (ended : ending = some execution.failure) :
    failureEntry execution.name ending ++
        (if execution.failure.isNone then [.log (.ended execution.name execution.id)] else []) =
      [(.log execution.closing : JobEvent ε)] := by
  rcases course.failure_eq ended with ⟨-, none⟩ | ⟨-, run, source, -, -, -, failure⟩
  · simp [ended, none, failureEntry, JobExecution.closing]
  · simp [ended, failure, failureEntry, JobExecution.closing]

/-- A job that comes to its end holds the ledgers of the runs it called, leaves the state of the
last of them and has told of them all, in order. -/
theorem execute_course (job : Job σ ε) (serial : Nat) (state : σ) :
    ∃ called ending, Course (inSequence serial job.steps state) called ending ∧
      (job.execute serial state).value = ending.map (fun failure =>
        { id := job.id, name := job.name, ledgers := called.map (·.ledger), failure }) ∧
      (job.execute serial state).state = lastState state called ∧
      ∀ execution, (job.execute serial state).value = some execution →
        (job.execute serial state).events = .log (.started job.name job.id) ::
          (called.flatMap (·.told) ++ [.log execution.closing]) := by
  obtain ⟨called, ending, course, run⟩ := runSteps_course job.name serial job.steps state
  refine ⟨called, ending, course, ?_⟩
  simp only [execute, log, Act.tell, Act.bind_run, run]
  cases ending with
  | none => simp
  | some failure =>
    refine ⟨by cases failure <;> rfl, by cases failure <;> rfl, ?_⟩
    intro execution value
    have closing := failureEntry_closing course execution
    cases failure <;> cases value <;> simpa [Act.tell] using closing rfl

/-- A job returns its failure as an error, and the execution itself if there is none. -/
theorem run_result (job : Job σ ε) (serial : Nat) (state : σ) {execution : JobExecution}
    (ended : (job.execute serial state).value = some execution) :
    (execution.failure = none ↔ (job.run serial state).value = some (.ok execution)) ∧
      ∀ error, execution.failure = some error ↔
        (job.run serial state).value = some (.error error) := by
  rw [run, Act.map_run, ended, Option.map_some, JobExecution.result]
  cases execution.failure <;> simp

end Job

theorem JobExecution.failed_iff (execution : JobExecution) :
    execution.status = .failed ↔ execution.failure.isSome := by
  unfold status
  cases execution.failure <;> simp

theorem JobExecution.completed_iff (execution : JobExecution) :
    execution.status = .completed ↔ execution.failure = none := by
  unfold status
  cases execution.failure <;> simp

/-- Of steps that run chunks all ledgers but the last are successes, and that one if the job is. -/
theorem Course.statuses {runs called : List (StepRun σ ε)} {failure : Option Error}
    (course : Course runs called (some failure)) (chunks : ∀ run ∈ called, run.step.RunsChunks) :
    (∀ ledger ∈ (called.map (·.ledger)).dropLast, ledger.status = .success) ∧
      ∀ last, (called.map (·.ledger)).getLast? = some last →
        (last.status = .success ↔ failure = none) := by
  obtain ⟨front, atEnd⟩ := course.succeeds rfl
  constructor
  · intro ledger member
    rw [← List.map_dropLast] at member
    obtain ⟨run, earlier, rfl⟩ := List.mem_map.mp member
    have calledFor := chunks run (List.mem_of_mem_dropLast earlier)
    exact (StepRun.succeeded_iff calledFor (front run earlier)).mpr rfl
  · intro last member
    rw [List.getLast?_map] at member
    obtain ⟨run, isLast, rfl⟩ := Option.map_eq_some_iff.mp member
    obtain ⟨result, ended, succeeds⟩ := atEnd run isLast
    rw [StepRun.succeeded_iff (chunks run (List.mem_of_getLast? isLast)) ended, succeeds]

namespace Job

/-- A job calls its steps in order up to the first that fails, each on a new ledger that has its
name, and no other: it ends if these do, in the state that they leave one after the other, with
their ledgers as they left them. Behind the step that failed there might be any others. The job
failed exactly if a step did, its failure is the error of that step, and `run` returns just that. If
the steps run chunks, the ledgers say which of them succeeded. -/
theorem execute_sequence (job : Job σ ε) (serial : Nat) (state : σ) :
    let runs := inSequence serial job.steps state
    let first := runs.findIdx? StepRun.failed
    let called := upToFailure runs
    let outcome := job.execute serial state
    let second := job.run serial state
    runs.map (·.step) = job.steps ∧
    (outcome.value.isSome ↔ ∀ run ∈ called, run.result.isSome) ∧
    (∀ place others, first = some place →
      ({ job with steps := job.steps.take (place + 1) ++ others } : Job σ ε).execute serial state =
        outcome) ∧
    ∀ execution, outcome.value = some execution →
      execution.id = job.id ∧ execution.name = job.name ∧
      execution.ledgers = called.map (·.ledger) ∧
      outcome.state = lastState state called ∧
      outcome.events = .log (.started job.name job.id) ::
        (called.flatMap (·.told) ++ [.log execution.closing]) ∧
      (execution.status = .failed ↔ first.isSome) ∧ (execution.failure.isSome ↔ first.isSome) ∧
      (∀ place, first = some place → ∃ run source, runs[place]? = some run ∧
        run.result = some (.error source) ∧
        execution.failure = some (.step run.step.name source)) ∧
      second.state = outcome.state ∧ second.events = outcome.events ∧
      (first = none ↔ second.value = some (.ok execution)) ∧
      (∀ error, execution.failure = some error ↔ second.value = some (.error error)) ∧
      ((∀ step ∈ job.steps, step.RunsChunks) →
        (∀ ledger ∈ execution.ledgers.dropLast, ledger.status = .success) ∧
        ∀ last, execution.ledgers.getLast? = some last →
          (last.status = .success ↔ execution.status = .completed)) := by
  intro runs first called outcome second
  obtain ⟨made, ending, course, value, left, told⟩ := job.execute_course serial state
  have value : outcome.value = _ := value
  have steps : runs.map (·.step) = job.steps := inSequence_steps serial job.steps state
  refine ⟨steps, ?_, ?_, ?_⟩
  · rw [← course.ends_iff, value, Option.isSome_map]
  · intro place others failure
    have cut := runSteps_cut job.name serial job.steps others state failure
    simp only [outcome, execute, log, Act.tell, Act.bind_run, cut]
  intro execution ended
  have returned := job.run_result serial state ended
  obtain ⟨failure, rfl, rfl⟩ := Option.map_eq_some_iff.mp (value.symm.trans ended)
  have made_eq : made = called := course.called_eq rfl
  subst made_eq
  -- The job has a failure exactly if some run failed.
  have failed : failure = none ↔ first = none := by
    rcases course.failure_eq rfl with ⟨nowhere, none⟩ | ⟨place, run, source, found, -, -, error⟩
    · simp [first, runs, nowhere, none]
    · simp [first, runs, found, error]
  have isSome_iff : failure.isSome ↔ first.isSome := by
    rw [← Option.ne_none_iff_isSome, ← Option.ne_none_iff_isSome, ne_eq, ne_eq, failed]
  refine ⟨rfl, rfl, rfl, left, told _ ended, ?_, isSome_iff, ?_, rfl, rfl,
    failed.symm.trans returned.1, returned.2, ?_⟩
  · rw [JobExecution.failed_iff, isSome_iff]
  · intro place found
    rcases course.failure_eq rfl with ⟨nowhere, -⟩ | ⟨place', run, source, found', at_place, rest⟩
    · rw [show first = none from nowhere] at found
      cases found
    · rw [show first = some place' from found'] at found
      cases found
      exact ⟨run, source, at_place, rest⟩
  · intro chunks
    rw [JobExecution.completed_iff]
    apply course.statuses
    intro run member
    apply chunks
    have among : run ∈ runs := by
      have member : run ∈ upToFailure runs := member
      unfold upToFailure at member
      split at member
      · exact List.mem_of_mem_take member
      · exact member
    rw [← steps]
    exact List.mem_map_of_mem among

end Job

theorem ChunkStep.runsChunks {ι ω : Type} (step : ChunkStep σ ε ι ω) (rounds : σ → Nat) :
    (step.toStep rounds).RunsChunks := by
  refine ⟨ε, ι, ω, step, rounds, id, ?_⟩
  intro ledger
  funext state
  rw [Act.within, List.map_id]
  rfl

/-- Two letter boxes. -/
abbrev Boxes : Type := ItemQueue Nat × ItemQueue Nat

/-- A step that empties a letter box, in which it does not expect a zero. -/
def emptying (name : String) (box : Place Boxes (ItemQueue Nat)) :
    ChunkStep Boxes Unit Nat Nat where
  name := name
  reader := (ItemQueue.asReader Nat Unit).within box id
  processor := .ofFunction fun item =>
    if item = 0 then .error (.validation "zero") else .ok (some item)
  writer := { write := fun _ => pure (.ok ()) }
  transactions := .resourceless _ _
  policy := SkipPolicy.never _ _
  chunkSize := 2
  chunkSize_pos := Nat.two_pos
  itemSize := 8

def mailRound : Job Boxes (StepEvent Nat Nat Unit) where
  id := ⟨0⟩
  name := "round"
  steps := [(emptying "left" (.first _ _)).toStep fun _ => 3,
    (emptying "right" (.second _ _)).toStep fun _ => 3,
    (emptying "left" (.first _ _)).toStep fun _ => 3]

/-- The second step fails, and the first box is not emptied again. -/
theorem mailRound_sequence :
    let start : Boxes := (⟨[1, 2, 3]⟩, ⟨[4, 5, 0, 6, 7]⟩)
    ∃ execution, (mailRound.execute 1 start).value = some execution ∧
      execution.status = .failed ∧
      (∃ source, execution.failure = some (.step "right" source)) ∧
      (∀ ledger ∈ execution.ledgers.dropLast, ledger.status = .success) ∧
      (mailRound.run 1 start).value = some (.error (.step "right" (.validation "zero"))) := by
  intro start
  obtain ⟨steps, -, -, spec⟩ := mailRound.execute_sequence 1 start
  have first : (inSequence 1 mailRound.steps start).findIdx? StepRun.failed = some 1 := by rfl
  have isSome : (mailRound.execute 1 start).value.isSome := by rfl
  have returned : (mailRound.run 1 start).value =
    some (.error (.step "right" (.validation "zero"))) := by rfl
  obtain ⟨execution, ended⟩ := Option.isSome_iff_exists.mp isSome
  obtain ⟨-, -, -, -, -, failed, -, failure, -, -, -, errors, statuses⟩ := spec execution ended
  obtain ⟨run, source, found, -, cause⟩ := failure 1 first
  have name : run.step.name = "right" := by
    have second : mailRound.steps[1]? = some run.step := by
      rw [← steps, List.getElem?_map, found]
      rfl
    exact congrArg Step.name (Option.some.inj second.symm)
  have chunks : ∀ step ∈ mailRound.steps, step.RunsChunks := by
    simp [mailRound, ChunkStep.runsChunks]
  exact ⟨execution, ended, failed.mpr (by rw [first]; rfl), ⟨source, by rw [cause, name]⟩,
    (statuses chunks).1, returned⟩

end Batchwork
