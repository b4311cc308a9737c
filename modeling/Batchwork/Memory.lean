import Batchwork.Component
import Batchwork.Log

/-!
# Items in memory

A queue of items as a source, and a transactional store of items as a destination.
-/

namespace Batchwork

/-- Items that are handed out in order. -/
structure ItemQueue (α : Type) where
  items : List α
  deriving Repr, DecidableEq, Inhabited

def ItemQueue.asReader (α ε : Type) : Reader (ItemQueue α) ε α where
  next := fun queue =>
    match queue.items with
    | [] => ⟨.ok none, [], queue⟩
    | item :: rest => ⟨.ok (some item), [], ⟨rest⟩⟩

/-- A store of items. Within a transaction written items are staged; they join the committed ones
when it is committed and are dropped when it is rolled back. Outside of one they join at once. -/
structure ItemStore (α : Type) where
  committed : Array α := #[]
  staged : Array α := #[]
  inTransaction : Bool := false
  deriving Repr, DecidableEq, Inhabited

namespace ItemStore

variable {α : Type}

abbrev Action (α β : Type) : Type := Act (ItemStore α) ComponentLog β

/-- The committed items, in the order in which they were written. -/
def items (store : ItemStore α) : List α := store.committed.toList

def size (store : ItemStore α) : Nat := store.committed.size

def isEmpty (store : ItemStore α) : Bool := store.committed.isEmpty

/-- The first committed item of a kind. -/
def find? (store : ItemStore α) (p : α → Bool) : Option α := store.committed.find? p

def write (items : List α) : Action α (Result Unit) := fun store =>
  if store.inTransaction then ⟨.ok (), [], { store with staged := store.staged ++ items }⟩
  else ⟨.ok (), [], { store with committed := store.committed ++ items }⟩

def begin : Action α (Result Unit) := fun store =>
  if store.inTransaction then
    ⟨.error (.transaction "a transaction is already active"), [], store⟩
  else ⟨.ok (), [], { store with staged := #[], inTransaction := true }⟩

def commit : Action α (Result Unit) := fun store =>
  if store.inTransaction then
    ⟨.ok (), [.committing store.staged.size],
      { committed := store.committed ++ store.staged, staged := #[], inTransaction := false }⟩
  else ⟨.error (.transaction "no active transaction to commit"), [], store⟩

/-- Drops what is staged. There is nothing to drop outside of a transaction. -/
def rollback : Action α (Result Unit) := fun store =>
  ⟨.ok (), [.rolledBack store.staged.size], { store with staged := #[], inTransaction := false }⟩

def asWriter : Writer (ItemStore α) ComponentLog α where
  write := write

def asTransactions : TransactionManager (ItemStore α) ComponentLog where
  begin := begin
  commit := commit
  rollback := rollback

end ItemStore

end Batchwork
