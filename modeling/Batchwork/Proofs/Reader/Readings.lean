import Batchwork.Component
import Mathlib.Data.Stream.Init

/-!
# Readings

What is answered call by call if the same is asked for over and over, and the state behind a number
of calls. Main statement: `exists_first_or_never`.
-/

namespace Batchwork

variable {σ ε ι α β : Type}

/-- Where an invariant settles what is told of a state, a history tells the same for ever. -/
theorem corec_const {told : σ → β} {next : σ → σ} (Holds : σ → Prop) {same : β}
    (step : ∀ state, Holds state → told state = same ∧ Holds (next state)) {state : σ}
    (holds : Holds state) : Stream'.corec told next state = .const same := by
  apply Stream'.ext
  intro n
  induction n generalizing state with
  | zero => exact (step state holds).1
  | succ n ih =>
    rw [Stream'.corec_eq]
    exact ih (step state holds).2

/-- What has a property stands somewhere behind a front of what has not, or nowhere. -/
theorem exists_first_or_never (p : α → Prop) (all : Stream' α) :
    (∃ front first later, all = front ++ₛ .cons first later ∧ p first ∧ ∀ other ∈ front, ¬p other) ∨
      ∀ n, ¬p (all.get n) := by
  by_cases never : ∀ n, ¬p (all.get n)
  · exact .inr never
  · left
    obtain ⟨n, found⟩ := not_forall_not.mp never
    induction n generalizing all with
    | zero => exact ⟨[], all.head, all.tail, (Stream'.eta all).symm, found, nofun⟩
    | succ n ih =>
      by_cases here : p all.head
      · exact ⟨[], all.head, all.tail, (Stream'.eta all).symm, here, nofun⟩
      · obtain ⟨front, first, later, split, holds, before⟩ :=
          ih all.tail (fun never => never n found) found
        refine ⟨all.head :: front, first, later, ?_, holds, List.forall_mem_cons.mpr ⟨here, before⟩⟩
        rw [Stream'.cons_append_stream, ← split, Stream'.eta]

/-- What comes first comes at one place only. -/
theorem first_unique {p : α → Prop} {front front' : List α} {first first' : α}
    {later later' : Stream' α} (same : front ++ₛ .cons first later = front' ++ₛ .cons first' later')
    (holds : p first) (holds' : p first') (before : ∀ other ∈ front, ¬p other)
    (before' : ∀ other ∈ front', ¬p other) : front = front' ∧ first = first' := by
  induction front generalizing front' with
  | nil =>
    cases front' with
    | nil => exact ⟨rfl, (Stream'.cons_injective2 same).1⟩
    | cons other rest =>
      obtain rfl : first = other := (Stream'.cons_injective2 same).1
      exact absurd holds (before' first List.mem_cons_self)
  | cons other rest ih =>
    cases front' with
    | nil =>
      obtain rfl : other = first' := (Stream'.cons_injective2 same).1
      exact absurd holds' (before other List.mem_cons_self)
    | cons other' rest' =>
      obtain ⟨rfl, behind⟩ := Stream'.cons_injective2 same
      obtain ⟨rfl, rfl⟩ := ih behind (List.forall_mem_cons.mp before).2
        (List.forall_mem_cons.mp before').2
      exact ⟨rfl, rfl⟩

/-- Answers none of which is a success are errors. -/
theorem exists_errors {answers : List (Except ε α)}
    (failed : ∀ answer ∈ answers, ∀ value, answer ≠ .ok value) :
    ∃ errors : List ε, answers = errors.map .error := by
  induction answers with
  | nil => exact ⟨[], rfl⟩
  | cons answer rest ih =>
    obtain ⟨first, others⟩ := List.forall_mem_cons.mp failed
    obtain ⟨errors, rfl⟩ := ih others
    cases answer with
    | error error => exact ⟨error :: errors, rfl⟩
    | ok value => exact absurd rfl (first value)

theorem exists_errors_forever {answers : Stream' (Except ε α)}
    (failed : ∀ n value, answers.get n ≠ .ok value) :
    ∃ errors : Stream' ε, answers = errors.map .error := by
  have each : ∀ n, ∃ error, answers.get n = .error error := by
    intro n
    cases answer : answers.get n with
    | error error => exact ⟨error, rfl⟩
    | ok value => exact absurd answer (failed n value)
  choose errors same using each
  exact ⟨errors, Stream'.ext same⟩

namespace Act

/-- What an act answers time after time. -/
def answers (act : Act σ ε α) (state : σ) : Stream' α :=
  .corec (fun state => (act state).value) (fun state => (act state).state) state

/-- The state behind an act that is done a number of times. -/
def stateAfter (act : Act σ ε α) : (times : Nat) → σ → σ
  | 0, state => state
  | times + 1, state => act.stateAfter times (act state).state

/-- Does the same, and notes each time that it is done. -/
def noting (note : β) (act : Act σ ε α) : Act (σ × List β) ε α := fun noted =>
  let outcome := act noted.1
  ⟨outcome.value, outcome.events, (outcome.state, noted.2 ++ [note])⟩

theorem answers_eq (act : Act σ ε α) (state : σ) :
    act.answers state = .cons (act state).value (act.answers (act state).state) :=
  Stream'.corec_eq ..

/-- An act that makes something else of the answers of another, and leaves the same behind. -/
theorem answers_map {κ : Type} {act : Act σ ε α} {other : Act σ κ β} (change : α → β)
    (same : ∀ state, (other state).value = change (act state).value ∧
      (other state).state = (act state).state) (state : σ) :
    other.answers state = (act.answers state).map change ∧
      ∀ times, other.stateAfter times state = act.stateAfter times state := by
  constructor
  · apply Stream'.ext
    intro n
    induction n generalizing state with
    | zero => exact (same state).1
    | succ n ih =>
      rw [answers_eq, answers_eq act, (same state).2]
      exact ih (act state).state
  · intro times
    induction times generalizing state with
    | zero => rfl
    | succ times ih => rw [stateAfter, stateAfter, (same state).2, ih]

/-- An act that always answers the same and leaves the state alone. -/
theorem answers_const {act : Act σ ε α} {state : σ} {value : α}
    (same : (act state).value = value ∧ (act state).state = state) :
    act.answers state = .const value ∧ ∀ times, act.stateAfter times state = state := by
  constructor
  · apply corec_const (· = state)
    · rintro reached rfl
      exact same
    · rfl
  · intro times
    induction times with
    | zero => rfl
    | succ times ih => rw [stateAfter, same.2, ih]

/-- Notes make no difference to what is answered. -/
theorem answers_noting (note : β) (act : Act σ ε α) (state : σ) (notes : List β) :
    (act.noting note).answers (state, notes) = act.answers state := by
  apply Stream'.ext
  intro n
  induction n generalizing state notes with
  | zero => rfl
  | succ n ih =>
    rw [answers_eq, answers_eq act]
    exact ih (act state).state (notes ++ [note])

/-- There is one note for each time. -/
theorem stateAfter_noting (note : β) (act : Act σ ε α) (times : Nat) (state : σ)
    (notes : List β) :
    (act.noting note).stateAfter times (state, notes) =
      (act.stateAfter times state, notes ++ List.replicate times note) := by
  induction times generalizing state notes with
  | zero => rw [List.replicate_zero, List.append_nil, stateAfter, stateAfter]
  | succ times ih =>
    rw [stateAfter, stateAfter, List.replicate_succ, List.append_cons]
    exact ih (act state).state (notes ++ [note])

end Act

namespace Reader

/-- What the calls of a reader answer, one after the other. -/
def readings (reader : Reader σ ε ι) (state : σ) : Stream' (Result (Option ι)) :=
  .corec (fun state => (reader.next state).value) (fun state => (reader.next state).state) state

/-- The state behind a number of calls. -/
def stateAfter (reader : Reader σ ε ι) : (calls : Nat) → σ → σ
  | 0, state => state
  | calls + 1, state => reader.stateAfter calls (reader.next state).state

theorem readings_eq (reader : Reader σ ε ι) (state : σ) :
    reader.readings state =
      .cons (reader.next state).value (reader.readings (reader.next state).state) :=
  Stream'.corec_eq ..

end Reader

end Batchwork
