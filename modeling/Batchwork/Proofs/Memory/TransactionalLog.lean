import Batchwork.Memory
import Batchwork.Proofs.Step.Coupling

/-!
# The item store as a transactional log

Seen from outside, an item store is a log of items and, while a transaction is open, a list of items
that wait for the commit. Whatever is asked of a new store, in any order, it answers as this log
does and shows the items of the log. Main statement: `performAll_refines`.
-/

namespace Batchwork

variable {σ τ ε δ ω : Type}

/-- What can be asked of a store that manages its transactions itself. -/
inductive Request (ω : Type) where
  | write (items : List ω)
  | begin
  | commit
  | rollback
  deriving Repr, DecidableEq

namespace Request

def perform (writer : Writer σ ε ω) (transactions : TransactionManager σ ε) :
    Request ω → Act σ ε (Result Unit)
  | write items => writer.write items
  | begin => transactions.begin
  | commit => transactions.commit
  | rollback => transactions.rollback

/-- The answers to requests that are made one after the other, whatever they are. -/
def performAll (writer : Writer σ ε ω) (transactions : TransactionManager σ ε) :
    List (Request ω) → Act σ ε (List (Result Unit))
  | [] => pure []
  | request :: rest => do
    let answer ← request.perform writer transactions
    let answers ← performAll writer transactions rest
    pure (answer :: answers)

variable {writer : Writer σ ε ω} {transactions : TransactionManager σ ε}

theorem performAll_append_state (first second : List (Request ω)) (state : σ) :
    (performAll writer transactions (first ++ second) state).state =
      (performAll writer transactions second
        (performAll writer transactions first state).state).state := by
  induction first generalizing state with
  | nil => rfl
  | cons request rest ih => exact ih _

/-- What every request keeps is kept by any number of them. -/
theorem performAll_keeps (keeps : σ → σ → Prop) (refl : ∀ state, keeps state state)
    (trans : ∀ {first second third}, keeps first second → keeps second third → keeps first third)
    (each : ∀ (request : Request ω) state,
      keeps state (request.perform writer transactions state).state)
    (requests : List (Request ω)) (state : σ) :
    keeps state (performAll writer transactions requests state).state := by
  induction requests generalizing state with
  | nil => exact refl state
  | cons request rest ih => exact trans (each request state) (ih _)

/-- Stores that agree on every request agree on any number of them. -/
theorem performAll_agree {related : σ → τ → Prop} {other : Writer τ δ ω}
    {others : TransactionManager τ δ}
    (each : ∀ request : Request ω,
      Agree related (request.perform writer transactions) (request.perform other others))
    (requests : List (Request ω)) :
    Agree related (performAll writer transactions requests)
      (performAll other others requests) := by
  induction requests with
  | nil => exact ⟨fun _ _ _ => rfl, fun _ _ states => states⟩
  | cons request rest ih =>
    constructor
    · intro s t states
      have value := (each request).value s t states
      have values := ih.value _ _ ((each request).state s t states)
      simp only [performAll, Act.bind_run, Act.pure_run, value, values]
    · intro s t states
      exact ih.state _ _ ((each request).state s t states)

end Request

/-- A log of items, and those that wait for the commit of a transaction if one is open. -/
structure TransactionalLog (ω : Type) where
  log : List ω := []
  pending : Option (List ω) := none
  deriving Repr, DecidableEq

namespace TransactionalLog

def write (items : List ω) : Act (TransactionalLog ω) Empty (Result Unit) := fun state =>
  match state.pending with
  | some pending => ⟨.ok (), [], { state with pending := some (pending ++ items) }⟩
  | none => ⟨.ok (), [], { state with log := state.log ++ items }⟩

def begin : Act (TransactionalLog ω) Empty (Result Unit) := fun state =>
  match state.pending with
  | some _ => ⟨.error (.transaction "a transaction is already active"), [], state⟩
  | none => ⟨.ok (), [], { state with pending := some [] }⟩

def commit : Act (TransactionalLog ω) Empty (Result Unit) := fun state =>
  match state.pending with
  | some pending => ⟨.ok (), [], { log := state.log ++ pending }⟩
  | none => ⟨.error (.transaction "no active transaction to commit"), [], state⟩

def rollback : Act (TransactionalLog ω) Empty (Result Unit) := fun state =>
  ⟨.ok (), [], { state with pending := none }⟩

def asWriter : Writer (TransactionalLog ω) Empty ω where
  write := write

def asTransactions : TransactionManager (TransactionalLog ω) Empty where
  begin := begin
  commit := commit
  rollback := rollback

end TransactionalLog

namespace ItemStore

/-- A store that stands for a log: what it stages in a transaction is pending, and it stages nothing
outside of one. -/
structure Represents (store : ItemStore ω) (state : TransactionalLog ω) : Prop where
  log : state.log = store.items
  pending : state.pending = if store.inTransaction then some store.staged.toList else none
  idle : store.inTransaction = false → store.staged = #[]

namespace Represents

theorem write (items : List ω) :
    Agree Represents (ItemStore.write items) (TransactionalLog.write items) := by
  constructor
  · rintro ⟨committed, staged, active⟩ ⟨_, _⟩ ⟨rfl, rfl, -⟩
    cases active <;> rfl
  · rintro ⟨committed, staged, active⟩ ⟨_, _⟩ ⟨rfl, rfl, idle⟩
    -- Outside of a transaction the items are shown at once, inside of one they wait.
    cases active with
    | false => exact ⟨Array.toList_appendList.symm, rfl, idle⟩
    | true => exact ⟨rfl, congrArg some Array.toList_appendList.symm, nofun⟩

/-- A second transaction is refused, and the one that is open goes on as it was. -/
theorem begin : Agree Represents (ItemStore.begin (α := ω)) TransactionalLog.begin := by
  constructor
  · rintro ⟨committed, staged, active⟩ ⟨_, _⟩ ⟨rfl, rfl, -⟩
    cases active <;> rfl
  · rintro ⟨committed, staged, active⟩ ⟨_, _⟩ ⟨rfl, rfl, idle⟩
    cases active with
    | false => exact ⟨rfl, rfl, nofun⟩
    | true => exact ⟨rfl, rfl, idle⟩

theorem commit : Agree Represents (ItemStore.commit (α := ω)) TransactionalLog.commit := by
  constructor
  · rintro ⟨committed, staged, active⟩ ⟨_, _⟩ ⟨rfl, rfl, -⟩
    cases active <;> rfl
  · rintro ⟨committed, staged, active⟩ ⟨_, _⟩ ⟨rfl, rfl, idle⟩
    cases active with
    | false => exact ⟨rfl, rfl, idle⟩
    | true => exact ⟨Array.toList_append.symm, rfl, fun _ => rfl⟩

/-- Rolling back drops what is pending. It drops nothing if no transaction is open. -/
theorem rollback : Agree Represents (ItemStore.rollback (α := ω)) TransactionalLog.rollback where
  value _ _ _ := rfl
  state _ _ represents := ⟨represents.log, rfl, fun _ => rfl⟩

theorem perform (request : Request ω) :
    Agree Represents (request.perform asWriter asTransactions)
      (request.perform TransactionalLog.asWriter TransactionalLog.asTransactions) := by
  cases request with
  | write items => exact write items
  | begin => exact begin
  | commit => exact commit
  | rollback => exact rollback

end Represents

/-- No request takes items away, or puts new ones in front of those that are there. -/
theorem perform_items_prefix (request : Request ω) (store : ItemStore ω) :
    store.items <+: (request.perform asWriter asTransactions store).state.items := by
  rcases store with ⟨committed, staged, active⟩
  cases request with
  | write items =>
    cases active with
    | false => exact ⟨items, Array.toList_appendList.symm⟩
    | true => exact List.prefix_rfl
  | begin => cases active <;> exact List.prefix_rfl
  | commit =>
    cases active with
    | false => exact List.prefix_rfl
    | true => exact ⟨staged.toList, Array.toList_append.symm⟩
  | rollback => exact List.prefix_rfl

/-- Whatever is asked of a new store, it answers as the log does. It shows the items of the log,
stages what is pending and nothing outside of a transaction, and whatever it is asked later, the
items that it shows now stay in front. -/
theorem performAll_refines (requests : List (Request ω)) :
    let run := Request.performAll asWriter asTransactions requests ({} : ItemStore ω)
    let reference := Request.performAll TransactionalLog.asWriter TransactionalLog.asTransactions
      requests ({} : TransactionalLog ω)
    let store := run.state
    let state := reference.state
    run.value = reference.value ∧
    store.items = state.log ∧ store.size = state.log.length ∧ store.isEmpty = state.log.isEmpty ∧
    (∀ p, store.find? p = state.log.find? p) ∧
    state.pending = (if store.inTransaction then some store.staged.toList else none) ∧
    (store.inTransaction = false → store.staged = #[]) ∧
    ∀ later, store.items <+:
      (Request.performAll asWriter asTransactions (requests ++ later)
        ({} : ItemStore ω)).state.items := by
  intro run reference store state
  have agree := Request.performAll_agree Represents.perform requests
  have start : ({} : ItemStore ω).Represents {} := ⟨rfl, rfl, fun _ => rfl⟩
  have represents : store.Represents state := agree.state _ _ start
  refine ⟨agree.value _ _ start, represents.log.symm, ?_, ?_, ?_, represents.pending,
    represents.idle, ?_⟩
  · rw [represents.log, size, items, Array.length_toList]
  · rw [represents.log, isEmpty, items, Array.isEmpty_toList]
  · intro p
    rw [represents.log, find?, items, Array.find?_toList]
  · intro later
    rw [Request.performAll_append_state]
    exact Request.performAll_keeps (fun before after => before.items <+: after.items)
      (fun _ => List.prefix_rfl) List.IsPrefix.trans perform_items_prefix later store

/-- Staged items do not survive a rollback, nor a refused transaction the one that is open. -/
theorem performAll_refines_nested :
    let run := Request.performAll asWriter asTransactions
      [.begin, .write [1], .rollback, .commit, .write [2], .begin, .begin, .write [3], .commit]
      ({} : ItemStore Nat)
    run.state.items = [2, 3] ∧ run.state.inTransaction = false ∧ run.state.staged = #[] := by
  intro run
  obtain ⟨-, log, -, -, -, -, idle, -⟩ := performAll_refines
    [.begin, .write [1], .rollback, .commit, .write [2], .begin, .begin, .write [3], .commit]
  exact ⟨log, rfl, idle rfl⟩

end ItemStore

end Batchwork
