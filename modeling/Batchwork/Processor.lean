import Batchwork.Component
import Batchwork.Log

/-!
# Processors

The processors that come with the library: the identity, the sequence of two processors, functions,
and validation.
-/

namespace Batchwork.Processor

variable {σ ε α ι κ ω : Type}

/-- Hands every item on as it is. -/
def passThrough (σ ε α : Type) : Processor σ ε α α where
  process item := pure (.ok (some item))

def ofFunction (f : ι → Result (Option ω)) : Processor σ ε ι ω where
  process item := pure (f item)

/-- Processes with `first` and, if that leaves an item, with `second`. -/
def andThen (first : Processor σ ε ι κ) (second : Processor σ ε κ ω) : Processor σ ε ι ω where
  process item := do
    match ← first.process item with
    | .ok (some middle) => second.process middle
    | .ok none => pure (.ok none)
    | .error error => pure (.error error)

/-- What becomes of an item that a validator rejects. -/
inductive Rejection where
  | fail
  | filter
  deriving Repr, DecidableEq, Inhabited

/-- Lets the items through that pass `check`. -/
def validating (log : ComponentLog → ε) (check : α → Result Unit)
    (rejection : Rejection := .fail) : Processor σ ε α α where
  process item :=
    match check item, rejection with
    | .ok (), _ => pure (.ok (some item))
    | .error error, .fail => pure (.error error)
    | .error error, .filter => do
      Act.tell (log (.dropping error))
      pure (.ok none)

end Batchwork.Processor
