import Batchwork.Component

/-!
# Skip policies

The two built-in policies: never skip, and skip the errors of some kinds up to a limit. Neither has
a state, so each is a function of the error and of the number of items skipped before.
-/

namespace Batchwork

/-- Skips the errors of the designated kinds until `limit` items have been skipped. -/
structure SkipLimit where
  limit : Nat
  kinds : List ErrorKind := []
  deriving Repr, DecidableEq, Inhabited

namespace SkipLimit

/-- Designates one more kind. -/
def on (rule : SkipLimit) (kind : ErrorKind) : SkipLimit :=
  if kind ∈ rule.kinds then rule else { rule with kinds := rule.kinds ++ [kind] }

def isSkippable (rule : SkipLimit) (error : Error) : Bool := error.kind ∈ rule.kinds

/-- An error of another kind is not skipped, one of a designated kind is skipped below the limit
and refused at it. -/
def ruling (rule : SkipLimit) (error : Error) (skipped : Nat) : Result Bool :=
  if !rule.isSkippable error then .ok false
  else if skipped < rule.limit then .ok true
  else .error (.skipLimitExceeded rule.limit)

def policy (rule : SkipLimit) (σ ε : Type) : SkipPolicy σ ε where
  shouldSkip error skipped := pure (rule.ruling error skipped)

end SkipLimit

def SkipPolicy.never (σ ε : Type) : SkipPolicy σ ε where
  shouldSkip _ _ := pure (.ok false)

/-- A policy that designates no kind never skips. -/
theorem SkipLimit.ruling_of_kinds_nil (limit : Nat) (error : Error) (skipped : Nat) :
    (SkipLimit.mk limit []).ruling error skipped = .ok false := by
  simp [SkipLimit.ruling, SkipLimit.isSkippable]

end Batchwork
