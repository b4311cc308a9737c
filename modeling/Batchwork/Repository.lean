import Batchwork.Component
import Batchwork.Log

/-!
# Repositories

A repository answers with all its items at once. The reader over one asks until it gets an answer
and hands out the items of that answer one at a time.
-/

namespace Batchwork

/-- Something that can be asked for all its items. -/
structure Repository (σ ε α : Type) where
  findAll : Act σ ε (Result (List α))

/-- The state of a reader over a repository whose own state is a `σ`. -/
structure Fetched (σ α : Type) where
  repository : σ
  /-- The items still to be handed out, once the repository has answered. -/
  pending : Option (List α) := none
  deriving Repr, DecidableEq, Inhabited

namespace Fetched

variable {σ ε α : Type}

def handOut : Act (Fetched σ α) ε (Result (Option α)) := fun fetched =>
  match fetched.pending with
  | some (item :: rest) => ⟨.ok (some item), [], { fetched with pending := some rest }⟩
  | _ => ⟨.ok none, [], fetched⟩

/-- Asks the repository unless it has answered before. -/
def ensure (repository : Repository σ ε α) (log : ComponentLog → ε) :
    Act (Fetched σ α) ε (Result Unit) := fun fetched =>
  match fetched.pending with
  | some _ => ⟨.ok (), [], fetched⟩
  | none =>
    let answer := repository.findAll fetched.repository
    match answer.value with
    | .error error => ⟨.error error, answer.events, { fetched with repository := answer.state }⟩
    | .ok items =>
      ⟨.ok (), answer.events ++ [log (.fetched items.length)],
        { repository := answer.state, pending := some items }⟩

def asReader (repository : Repository σ ε α) (log : ComponentLog → ε) :
    Reader (Fetched σ α) ε α where
  next := do
    match ← ensure repository log with
    | .ok () => handOut
    | .error error => return .error error

end Fetched

end Batchwork
