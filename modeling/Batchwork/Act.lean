/-!
# Acts

An act takes a state, tells of some events on the way, and leaves a value and a new state. Readers,
writers and whole steps are acts, so their effects can be read off as a value: the state they leave
and the events they told of, oldest first.
-/

namespace Batchwork

/-- What an act leaves behind. -/
structure Outcome (σ ε α : Type) where
  value : α
  events : List ε
  state : σ

/-- Where a state `τ` is kept in a larger state `σ`. -/
structure Place (σ τ : Type) where
  get : σ → τ
  put : τ → σ → σ

/-- The whole state. -/
def Place.whole (σ : Type) : Place σ σ := ⟨fun state => state, fun state _ => state⟩

def Place.first (σ τ : Type) : Place (σ × τ) σ := ⟨Prod.fst, fun a state => (a, state.2)⟩

def Place.second (σ τ : Type) : Place (σ × τ) τ := ⟨Prod.snd, fun b state => (state.1, b)⟩

def Act (σ ε α : Type) : Type := σ → Outcome σ ε α

namespace Act

variable {σ τ ε δ α β : Type}

def run (act : Act σ ε α) (state : σ) : Outcome σ ε α := act state

protected def pure (value : α) : Act σ ε α := fun state => ⟨value, [], state⟩

/-- The events of the first act come before those of the second. -/
protected def bind (act : Act σ ε α) (next : α → Act σ ε β) : Act σ ε β := fun state =>
  let first := act state
  let second := next first.value first.state
  ⟨second.value, first.events ++ second.events, second.state⟩

protected def map (f : α → β) (act : Act σ ε α) : Act σ ε β := fun state =>
  let outcome := act state
  ⟨f outcome.value, outcome.events, outcome.state⟩

instance : Monad (Act σ ε) where
  pure := Act.pure
  bind := Act.bind
  map := Act.map

def tell (event : ε) : Act σ ε Unit := fun state => ⟨(), [event], state⟩

def modify (change : σ → σ) : Act σ ε Unit := fun state => ⟨(), [], change state⟩

def read : Act σ ε σ := fun state => ⟨state, [], state⟩

/-- Runs an act on a part of a larger state, telling its events under another name. -/
def within (place : Place σ τ) (name : δ → ε) (act : Act τ δ α) : Act σ ε α := fun state =>
  let inner := act (place.get state)
  ⟨inner.value, inner.events.map name, place.put inner.state state⟩

@[simp] theorem pure_run (value : α) (state : σ) :
    (pure value : Act σ ε α) state = ⟨value, [], state⟩ := rfl

@[simp] theorem bind_run (act : Act σ ε α) (next : α → Act σ ε β) (state : σ) :
    (act >>= next) state =
      ⟨(next (act state).value (act state).state).value,
        (act state).events ++ (next (act state).value (act state).state).events,
        (next (act state).value (act state).state).state⟩ := rfl

@[simp] theorem map_run (f : α → β) (act : Act σ ε α) (state : σ) :
    (f <$> act) state = ⟨f (act state).value, (act state).events, (act state).state⟩ := rfl

instance : LawfulMonad (Act σ ε) :=
  LawfulMonad.mk' (Act σ ε)
    (fun _ => rfl)
    (by intros; funext state; simp)
    (by intros; funext state; simp [List.append_assoc])
    (fun _ _ => rfl)
    (fun _ _ => rfl)
    (fun _ _ => rfl)
    (by intros; funext state; simp)
    (fun _ _ => rfl)

end Act

end Batchwork
