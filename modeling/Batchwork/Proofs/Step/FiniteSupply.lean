import Batchwork.Proofs.Step.Conservation
import Batchwork.Proofs.Step.ItemOrder
import Batchwork.Proofs.Step.Paths

/-!
# Finite supplies

A source can run out of items if each of them is paid for out of something that nothing in the run
refills. Then a run reads no more items than were paid for, and because every round but the last
one reads a full chunk, it ends after as many rounds as the supply is good for. Main statement:
`execute_supply`.
-/

namespace Batchwork

variable {σ ε ι ω : Type}

/-- The items that calls hand out are counted one by one. -/
theorem length_handed (made : List (Call ι ω)) :
    (handed made).length = made.countP Call.isItem := by
  rw [handed, List.length_filterMap_eq_countP]
  congr
  funext call
  rcases call with _ | (_ | _ | _) <;> rfl

namespace ChunkStep

/-- No call of the step raises what the state is worth, and every item read takes its price. -/
def Pays (step : ChunkStep σ ε ι ω) (worth : σ → Nat) (price : Nat) : Prop :=
  ∀ {before call after}, step.Makes before call after →
    (if call.isItem then price else 0) + worth after ≤ worth before

variable {step : ChunkStep σ ε ι ω} {worth : σ → Nat} {price : Nat}

theorem Pays.path {before after : σ} {made : List (Call ι ω)} (pays : step.Pays worth price)
    (path : step.Path before made after) :
    price * made.countP Call.isItem + worth after ≤ worth before := by
  induction path with
  | nil state => simp
  | @cons before middle after call made first rest ih =>
    -- The first call pays for the item that it reads, if any, and the others for theirs.
    have paid := pays first
    rw [List.countP_cons]
    by_cases item : call.isItem = true
    · rw [if_pos item] at paid ⊢
      rw [Nat.mul_add, Nat.mul_one]
      omega
    · rw [if_neg item] at paid ⊢
      rw [Nat.add_zero]
      omega

/-- A round that is not the last one reads a full chunk. -/
theorem Round.handed_full {p after : Progress σ} {events : List (StepEvent ι ω ε)}
    (round : step.Round p events none after) :
    (handed (calls events)).length = step.chunkSize := by
  cases round with
  | more reads nonempty transacts =>
    -- The transaction of the chunk reads nothing, so all items come from its reading.
    obtain ⟨done, handles, -⟩ := transacts.handles
    rw [calls_log, calls_append, handed_append, reads.handles.handed, handles.handed,
      List.append_nil]
    exact reads.length_eq rfl

theorem Rounds.handed_full {rounds : Nat} {p after : Progress σ}
    {events : List (StepEvent ι ω ε)} {result : Option (Result Unit)}
    (all : step.Rounds rounds p events result after) (room : step.HasRoom)
    (unfinished : result = none) :
    (handed (calls events)).length = rounds * step.chunkSize := by
  induction all with
  | unfinished => rw [Nat.zero_mul]; rfl
  | stopped crowded => exact absurd room crowded
  | last round => cases unfinished
  | more round rest ih =>
    rw [calls_append, handed_append, List.length_append, round.handed_full, ih unfinished,
      Nat.succ_mul, Nat.add_comm]

theorem Runs.handed_full {rounds : Nat} {p after : Progress σ}
    {events : List (StepEvent ι ω ε)} (runs : step.Runs rounds p events none after)
    (room : step.HasRoom) :
    (handed (calls events)).length = rounds * step.chunkSize := by
  cases runs with
  | unfinished answer all =>
    rw [calls_log, calls_append, calls_asked, handed_append]
    exact all.handed_full room rfl

/-- A run reads only what the state pays for. If there is room for a chunk, it ends in time if this
is less than all its rounds could read. -/
theorem execute_supply (pays : step.Pays worth price) (rounds : Nat) (p : Progress σ) :
    let run := step.execute rounds p
    (step.HasRoom → worth p.state < price * (rounds * step.chunkSize) → run.value.isSome) ∧
    ∃ items, run.state.ledger.readCount = p.ledger.readCount + items ∧
      price * items + worth run.state.state ≤ worth p.state := by
  obtain ⟨events, result, after, runs, eq⟩ := step.execute_runs rounds p
  simp only [eq]
  have paid := pays.path runs.path
  constructor
  · intro room short
    cases result with
    | some result => rfl
    | none =>
      -- All rounds were full, so more items were read than there was a supply for.
      have full := runs.handed_full room
      rw [length_handed] at full
      rw [full] at paid
      omega
  · -- The ledger counts the items that the calls hand out.
    obtain ⟨tally, rest, books, balanced⟩ := runs.balanced
    refine ⟨tally.read, by rw [books]; rfl, ?_⟩
    rw [balanced.read]
    exact paid

end ChunkStep

end Batchwork
