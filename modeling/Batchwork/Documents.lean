import Batchwork.Component
import Batchwork.Log

/-!
# Collections of documents

A collection of documents is kept by a server, which a driver talks to. A writer hands it each chunk
by one ordered insert. The insert is no part of any transaction, so what it has stored before it
failed stays in the collection.
-/

namespace Batchwork

/-- A collection that is reached through a driver. Server and driver have the state `δ`. -/
structure Collection (δ ω : Type) where
  name : String
  /-- Inserts items by one request: how many ids were inserted, or what the driver says went wrong.
  The server stops an ordered insert at the first item that it refuses. -/
  insertMany : (items : List ω) → (ordered : Bool) → δ → Except String Nat × δ

namespace Collection

variable {δ ω : Type}

def write (collection : Collection δ ω) (items : List ω) : Act δ ComponentLog (Result Unit) :=
  fun server =>
    if items.isEmpty then ⟨.ok (), [], server⟩
    else
      match collection.insertMany items true server with
      | (.ok count, after) => ⟨.ok (), [.stored count collection.name], after⟩
      | (.error reason, after) =>
        let message := s!"MongoDB insert into {collection.name} failed: {reason}"
        ⟨.error (.itemWriter message), [], after⟩

def asWriter (collection : Collection δ ω) : Writer δ ComponentLog ω where
  write := collection.write

/-- A writer needs a collection. -/
def required (collection : Option (Collection δ ω)) : Result (Collection δ ω) :=
  match collection with
  | some collection => .ok collection
  | none => .error (.configuration "a collection is required")

/-- A collection whose server does not answer. -/
def unreachable (name reason : String) : Collection δ ω where
  name
  insertMany _ _ server := (.error reason, server)

end Collection

end Batchwork
