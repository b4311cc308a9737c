import Batchwork.Step

/-!
# Reading the events of a run

The events of a run hold the calls it made, the log entries it wrote and what its parts told of. The
calls and the entries can be read off one by one, and both readings go through appending events. A
notification calls every listener once and touches nothing but the state that the listeners share.
-/

namespace Batchwork

variable {σ ε ι ω : Type}

def StepEvent.call? : StepEvent ι ω ε → Option (Call ι ω)
  | call made => some made
  | _ => none

def StepEvent.entry? : StepEvent ι ω ε → Option StepLog
  | log entry => some entry
  | _ => none

/-- The calls among the events of a run, oldest first. -/
def calls (events : List (StepEvent ι ω ε)) : List (Call ι ω) := events.filterMap StepEvent.call?

/-- The log entries of the step itself among the events of a run, oldest first. -/
def entries (events : List (StepEvent ι ω ε)) : List StepLog :=
  events.filterMap StepEvent.entry?

/-- The events of one call: what the part told of meanwhile, then the call. -/
def asked (told : List ε) (call : Call ι ω) : List (StepEvent ι ω ε) :=
  told.map .told ++ [.call call]

/-- The log entry on an answer that is only noted, if it is an error. -/
def noted (entry : Error → StepLog) : Result Unit → List (StepEvent ι ω ε)
  | .ok () => []
  | .error error => [.log (entry error)]

@[simp] theorem calls_nil : calls ([] : List (StepEvent ι ω ε)) = [] := rfl

@[simp] theorem calls_append (first second : List (StepEvent ι ω ε)) :
    calls (first ++ second) = calls first ++ calls second := List.filterMap_append

@[simp] theorem calls_log (entry : StepLog) (events : List (StepEvent ι ω ε)) :
    calls (.log entry :: events) = calls events := rfl

@[simp] theorem calls_stopped (reason : String) (events : List (StepEvent ι ω ε)) :
    calls (.stopped reason :: events) = calls events := rfl

@[simp] theorem calls_told (told : List ε) :
    calls (told.map .told : List (StepEvent ι ω ε)) = [] := by
  simp [calls, List.filterMap_map, Function.comp_def, StepEvent.call?]

@[simp] theorem calls_asked (told : List ε) (call : Call ι ω) :
    calls (asked told call) = [call] := by
  simp only [asked, calls_append, calls_told, List.nil_append]
  rfl

@[simp] theorem calls_noted (entry : Error → StepLog) (answer : Result Unit) :
    calls (noted entry answer : List (StepEvent ι ω ε)) = [] := by
  rcases answer with _ | ⟨⟩ <;> rfl

@[simp] theorem entries_nil : entries ([] : List (StepEvent ι ω ε)) = [] := rfl

@[simp] theorem entries_append (first second : List (StepEvent ι ω ε)) :
    entries (first ++ second) = entries first ++ entries second := List.filterMap_append

@[simp] theorem entries_log (entry : StepLog) (events : List (StepEvent ι ω ε)) :
    entries (.log entry :: events) = entry :: entries events := rfl

@[simp] theorem entries_asked (told : List ε) (call : Call ι ω) :
    entries (asked told call) = [] := by
  simp [entries, asked, List.filterMap_append, List.filterMap_map, Function.comp_def,
    StepEvent.entry?]

namespace ChunkStep

/-! ## The acts that stages are made of -/

theorem ask_run {α : Type} (act : Act σ ε α) (call : α → Call ι ω) (p : Progress σ) :
    ask act call p =
      ⟨(act p.state).value, asked (act p.state).events (call (act p.state).value),
        ⟨p.ledger, (act p.state).state⟩⟩ := rfl

theorem log_run (entry : StepLog) (p : Progress σ) :
    (log entry : StepAct σ ε ι ω Unit) p = ⟨(), [.log entry], p⟩ := rfl

theorem book_run (change : Ledger → Ledger) (p : Progress σ) :
    (book change : StepAct σ ε ι ω Unit) p = ⟨(), [], ⟨change p.ledger, p.state⟩⟩ := rfl

theorem setStatus_run (status : StepStatus) (p : Progress σ) :
    (setStatus status : StepAct σ ε ι ω Unit) p =
      ⟨(), [], ⟨{ p.ledger with status := status }, p.state⟩⟩ := rfl

theorem ledger_run (p : Progress σ) :
    (ledger : StepAct σ ε ι ω Ledger) p = ⟨p.ledger, [], p⟩ := rfl

section

variable {κ : Type} {act : κ → Act σ ε Unit} {call : Nat → Call ι ω} {index : Nat}
  {listeners : List κ} {p after : Progress σ} {heard : List (StepEvent ι ω ε)}

/-- A notification is one call for each listener, in the order of registration. -/
theorem notify_run (notice : notify act call index listeners p = ⟨(), heard, after⟩) :
    calls heard = (List.range' index listeners.length).map call ∧ entries heard = [] ∧
      after.ledger = p.ledger := by
  induction listeners generalizing index p heard with
  | nil =>
    cases notice
    exact ⟨rfl, rfl, rfl⟩
  | cons listener listeners ih =>
    cases notice
    -- The other listeners are called on the state that the first one leaves.
    obtain ⟨made, written, books⟩ := ih (rfl :
      notify act call (index + 1) listeners ⟨p.ledger, (act listener p.state).state⟩ = _)
    refine ⟨?_, ?_, books⟩
    · simp [ask_run, made, List.range'_succ]
    · simp [ask_run, written]

theorem notify_calls (notice : notify act call index listeners p = ⟨(), heard, after⟩) :
    calls heard = (List.range' index listeners.length).map call := (notify_run notice).1

theorem notify_ledger (notice : notify act call index listeners p = ⟨(), heard, after⟩) :
    after.ledger = p.ledger := (notify_run notice).2.2

end

end ChunkStep

end Batchwork
