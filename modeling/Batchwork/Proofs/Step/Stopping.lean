import Batchwork.Proofs.Step.Stages

/-!
# Runs that are stopped

A step asks for the room of a whole chunk before it reads one. A chunk may be larger than anything
that there can be room for, and then the whole program is stopped: the run has no result, has read
nothing and leaves the store open. Nothing else in a step stops a program. Main statement:
`execute_stops`.
-/

namespace Batchwork

variable {σ ε ι ω : Type}

def StepEvent.reason? : StepEvent ι ω ε → Option String
  | stopped reason => some reason
  | _ => none

/-- Why the program was stopped, for each time it was among the events of a run. -/
def stops (events : List (StepEvent ι ω ε)) : List String := events.filterMap StepEvent.reason?

@[simp] theorem stops_nil : stops ([] : List (StepEvent ι ω ε)) = [] := rfl

@[simp] theorem stops_append (first second : List (StepEvent ι ω ε)) :
    stops (first ++ second) = stops first ++ stops second := List.filterMap_append

@[simp] theorem stops_log (entry : StepLog) (events : List (StepEvent ι ω ε)) :
    stops (.log entry :: events) = stops events := rfl

@[simp] theorem stops_stopped (reason : String) (events : List (StepEvent ι ω ε)) :
    stops (.stopped reason :: events) = reason :: stops events := rfl

@[simp] theorem stops_asked (told : List ε) (call : Call ι ω) : stops (asked told call) = [] := by
  simp [stops, asked, List.filterMap_append, List.filterMap_map, Function.comp_def,
    StepEvent.reason?]

@[simp] theorem stops_noted (entry : Error → StepLog) (answer : Result Unit) :
    stops (noted entry answer : List (StepEvent ι ω ε)) = [] := by
  rcases answer with _ | ⟨⟩ <;> rfl

namespace ChunkStep

variable {step : ChunkStep σ ε ι ω} {p after : Progress σ} {events : List (StepEvent ι ω ε)}

/-! ## What stops no program -/

theorem notify_stops {κ : Type} {act : κ → Act σ ε Unit} {call : Nat → Call ι ω} {index : Nat}
    {listeners : List κ} (notice : notify act call index listeners p = ⟨(), events, after⟩) :
    stops events = [] := by
  induction listeners generalizing index p events with
  | nil =>
    cases notice
    rfl
  | cons listener listeners ih =>
    cases notice
    have rest := ih (rfl :
      notify act call (index + 1) listeners ⟨p.ledger, (act listener p.state).state⟩ = _)
    simp [ask_run, rest]

theorem Reads.stops {room : Nat} {items : List ι} {ending : Result ChunkStatus}
    (reads : step.Reads room p events items ending after) : stops events = [] := by
  induction reads with
  | full | finished | failed => simp
  | item _ _ ih => simpa using ih

theorem Skips.stops {item : ι} {error : Error} {decision : Result Unit}
    (skips : step.Skips item error p events decision after) : stops events = [] := by
  cases skips with
  | skipped answer notice => simpa using notify_stops notice
  | refused | overruled => simp

theorem Processes.stops {items : List ι} {outputs : List ω} {ending : Result Unit}
    (processes : step.Processes items p events outputs ending after) : stops events = [] := by
  induction processes with
  | done => rfl
  | output _ _ ih | filtered _ _ ih => simpa using ih
  | skipped answer skip rest ih => simpa [skip.stops] using ih
  | fatal answer refusal => simpa using refusal.stops

theorem Writes.stops {outputs : List ω} {answer : Result Unit}
    (writes : step.Writes outputs p events answer after) : stops events = [] := by
  cases writes <;> simp

theorem RollsBack.stops {cause : Error} (undo : step.RollsBack cause p events after) :
    stops events = [] := by
  cases undo with
  | rolledBack answer notice => simpa using notify_stops notice

theorem Transacts.stops {items : List ι} {result : Result (List ω)}
    (transacts : step.Transacts items p events result after) : stops events = [] := by
  cases transacts with
  | notBegun before answer notice => simp [notify_stops before, notify_stops notice]
  | notProcessed before answer process undo =>
    simp [notify_stops before, process.stops, undo.stops]
  | notWritten before answer process write undo =>
    simp [notify_stops before, process.stops, write.stops, undo.stops]
  | notCommitted before answer process write commit undo =>
    simp [notify_stops before, process.stops, write.stops, undo.stops]
  | committed before answer process write commit notice =>
    simp [notify_stops before, process.stops, write.stops, notify_stops notice]

theorem Round.stops {result : Option (Result Unit)} (round : step.Round p events result after) :
    stops events = [] := by
  cases round with
  | notRead reads | exhausted reads => simpa using reads.stops
  | failed reads nonempty transacts | last reads nonempty transacts
  | more reads nonempty transacts => simp [reads.stops, transacts.stops]

/-! ## What stops a program -/

theorem Rounds.stops {rounds : Nat} {result : Option (Result Unit)}
    (all : step.Rounds rounds p events result after) (room : step.HasRoom) :
    stops events = [] := by
  -- Room is a matter of the step alone, so what holds of the first round holds of all.
  induction all with
  | unfinished => rfl
  | stopped crowded => exact absurd room crowded
  | last round => exact round.stops
  | more round rest ih => simp [round.stops, ih]

theorem Runs.stops {rounds : Nat} {result : Option (Result Unit)}
    (runs : step.Runs rounds p events result after) (room : step.HasRoom) :
    stops events = [] := by
  cases runs with
  | notOpened answer => simp
  | unfinished answer all => simp [all.stops room]
  | closed answer all close => simp [all.stops room]

/-- A run that opens the store but finds no room for a chunk is stopped before it reads. -/
theorem execute_of_opened (step : ChunkStep σ ε ι ω)
    (opened : (step.writer.openStore p.state).value = .ok ()) (crowded : ¬step.HasRoom)
    (rounds : Nat) :
    let run := step.execute (rounds + 1) p
    run.value = none ∧ stops run.events = [capacityOverflow] ∧
      calls run.events = [.openStore (.ok ())] ∧
      run.state.ledger = { p.ledger with status := .started } := by
  have stopped := runChunks_of_crowded crowded rounds
  rcases answer : step.writer.openStore p.state with ⟨error | ⟨⟩, told, state⟩
  · rw [answer] at opened
    cases opened
  · simp [execute, runOpened, ask_run, answer, setStatus_run, ledger_run, log_run, stopped]

/-- A program is stopped by a run exactly if the run opens the store, is allowed a round and finds no
room for a chunk. -/
theorem execute_stops (step : ChunkStep σ ε ι ω) (rounds : Nat) (p : Progress σ) :
    stops (step.execute rounds p).events ≠ [] ↔
      (step.writer.openStore p.state).value = .ok () ∧ 0 < rounds ∧ ¬step.HasRoom := by
  constructor
  · intro stopped
    obtain ⟨events, result, after, runs, eq⟩ := step.execute_runs rounds p
    rw [eq] at stopped
    have crowded : ¬step.HasRoom := fun room => stopped (runs.stops room)
    cases runs with
    | notOpened answer => exact absurd (by simp) stopped
    | unfinished answer all =>
      refine ⟨congrArg Outcome.value answer, Nat.pos_of_ne_zero ?_, crowded⟩
      rintro rfl
      cases all
      exact absurd (by simp) stopped
    | closed answer all close =>
      refine ⟨congrArg Outcome.value answer, Nat.pos_of_ne_zero ?_, crowded⟩
      -- Without a round there is no result either.
      rintro rfl
      cases all
  · rintro ⟨opened, some, crowded⟩
    obtain ⟨rounds, rfl⟩ := Nat.exists_eq_succ_of_ne_zero (Nat.ne_of_gt some)
    rw [(step.execute_of_opened opened crowded rounds).2.1]
    exact List.cons_ne_nil _ _

/-! ## Chunks of another size -/

/-- The step with chunks of another size. -/
def withChunkSize (step : ChunkStep σ ε ι ω) (size : Nat) (positive : 0 < size) :
    ChunkStep σ ε ι ω :=
  { step with chunkSize := size, chunkSize_pos := positive }

/-- The step with the largest chunks that can be asked for. -/
def vast (step : ChunkStep σ ε ι ω) : ChunkStep σ ε ι ω :=
  step.withChunkSize (Nat.pow 2 64 - 1) (by decide)

theorem not_hasRoom_vast (step : ChunkStep σ ε ι ω) (sized : 0 < step.itemSize) :
    ¬step.vast.HasRoom := by
  have most : roomLimit < Nat.pow 2 64 - 1 := by decide
  exact Nat.not_le_of_gt (Nat.lt_of_lt_of_le most (Nat.le_mul_of_pos_right _ sized))

/-- The largest chunks are never read: the run stops the program, and has no result however many
rounds it is allowed. -/
theorem execute_vast (step : ChunkStep σ ε ι ω) (sized : 0 < step.itemSize)
    (opened : (step.writer.openStore p.state).value = .ok ()) (rounds : Nat) :
    (step.vast.execute rounds p).value = none ∧
      stops (step.vast.execute (rounds + 1) p).events = [capacityOverflow] := by
  have crowded := step.not_hasRoom_vast sized
  have alike (rounds : Nat) := (execute_of_crowded crowded rounds p).1
  obtain ⟨value, stopped, -⟩ := step.vast.execute_of_opened opened crowded rounds
  exact ⟨(alike rounds).trans ((alike (rounds + 1)).symm.trans value), stopped⟩

end ChunkStep

end Batchwork
