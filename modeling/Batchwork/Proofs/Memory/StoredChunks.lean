import Batchwork.Proofs.Memory.ChunkAtomicity
import Batchwork.Proofs.Step.Consultation
import Batchwork.Proofs.Step.ItemOrder

/-!
# Chunks on a store

An item store that is outside of a transaction refuses nothing. Of the ways in which a transaction
can go only two are left: its items are processed, and then their outputs are stored, or the chunk
is taken back because an item was fatal. `Transacts.carries` says so.
-/

namespace Batchwork

variable {σ τ ε ι ω : Type}

namespace ChunkStep

variable (step : ChunkStep σ ε ι ω)

/-- What follows the processing of a chunk on a store, by how the processing ended. -/
inductive Completes (outputs : List ω) : Result Unit → Progress σ → List (StepEvent ι ω ε) →
    Progress σ → Prop
  | takenBack {p after : Progress σ} {error : Error} {rollback : List (StepEvent ι ω ε)}
      (undo : step.RollsBack error p rollback after) :
      Completes outputs (.error error) p rollback after
  | stored {p written after : Progress σ} {committing : List ε} {final : σ}
      {writing notified : List (StepEvent ι ω ε)}
      (write : step.Writes outputs p writing (.ok ()) written)
      (commit : step.transactions.commit written.state = ⟨.ok (), committing, final⟩)
      (notice : notify (·.afterChunk outputs) (.afterChunk · outputs) 0 step.chunkListeners
        ⟨{ written.ledger with
            commitCount := written.ledger.commitCount + 1
            writeCount := written.ledger.writeCount + outputs.length }, final⟩ =
          ⟨(), notified, after⟩) :
      Completes outputs (.ok ()) p
        (writing ++ (asked committing (.commit (.ok ())) ++
          .log (.committed outputs.length) :: notified)) after

/-- A transaction on a store that refuses nothing. -/
inductive Carries (items : List ι) : Progress σ → List (StepEvent ι ω ε) → Result (List ω) →
    Progress σ → Prop
  | carried {p opened middle after : Progress σ} {told : List ε} {state : σ}
      {heard processing completing : List (StepEvent ι ω ε)} {outputs : List ω}
      {ending : Result Unit}
      (before : notify (·.beforeChunk) .beforeChunk 0 step.chunkListeners p = ⟨(), heard, opened⟩)
      (answer : step.transactions.begin opened.state = ⟨.ok (), told, state⟩)
      (process : step.Processes items ⟨opened.ledger, state⟩ processing outputs ending middle)
      (complete : Completes step outputs ending middle completing after) :
      Carries items p
        (heard ++ (asked told (.begin (.ok ())) ++
          .log (.processing items.length) :: (processing ++ completing)))
        (ending.map fun () => outputs) after

variable {step} {p after : Progress σ} {events : List (StepEvent ι ω ε)}

/-- On a store outside of a transaction, only the processing of its items makes a chunk fail. -/
theorem Transacts.carries {place : Place σ (ItemStore ω)} {name : ComponentLog → ε}
    {seen : ε → Option (List ω)} {start : List ω} {before : Outputs ω} {items : List ι}
    {result : Result (List ω)} (transacts : step.Transacts items p events result after)
    (stores : step.Stores place name seen)
    (stands : (place.get p.state).Stands start before false []) :
    step.Carries items p events result after := by
  cases transacts with
  | notBegun notice answer told => cases (stores.opens notice answer stands).1
  | notProcessed notice answer process undo =>
    exact .carried notice answer process (.takenBack undo)
  | notWritten notice answer process write undo =>
    obtain ⟨-, begun⟩ := stores.opens notice answer stands
    have processed := process.tracked stores begun.stands
    cases (write.tracked stores processed.stands).1
  | notCommitted notice answer process write commit undo =>
    obtain ⟨-, begun⟩ := stores.opens notice answer stands
    have processed := process.tracked stores begun.stands
    obtain ⟨-, wrote⟩ := write.tracked stores processed.stands
    cases (stores.committed commit (write.pending process) wrote.stands).1
  | committed notice answer process write commit told =>
    exact .carried notice answer process (.stored write commit told)

section

variable {outputs : List ω} {ending : Result Unit}

theorem Completes.apart (completes : step.Completes outputs ending p events after) :
    ∀ made ∈ calls events, made.onItem = false := by
  cases completes with
  | takenBack undo => exact undo.apart
  | stored write commit notice =>
    have wrote := write.apart
    have told := notify_apart notice fun _ => rfl
    intro made member
    rw [calls_append, calls_append, calls_asked, calls_log] at member
    rcases List.mem_append.mp member with writing | later
    · exact wrote made writing
    · rcases List.mem_cons.mp later with rfl | notified
      · rfl
      · exact told made notified

theorem Completes.handles (completes : step.Completes outputs ending p events after) :
    Handles (calls events) [] [] := by
  cases completes with
  | takenBack undo => exact undo.handles
  | stored write commit notice =>
    have told : Handles _ _ _ := notify_handles notice fun _ => ⟨rfl, rfl⟩
    rw [calls_append, calls_append, calls_asked, calls_log]
    exact write.handles.behind (.behind (.silent rfl rfl) told)

end

end ChunkStep

end Batchwork
