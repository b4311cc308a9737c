import Batchwork.Proofs.Step.Bystanders
import Batchwork.Proofs.Step.CommittedChunks

/-!
# Stores in the custody of a step

What a step leaves in a store that also manages its transactions, whatever store that is and
whichever calls on it fail. A `Stand` says how the store may stand, and `Custody` where each call
leads from there. Main statement: `Runs.stands`, after any run the store has kept what it kept
before and the outputs of the committed chunks.
-/

namespace Batchwork

variable {σ τ ε ι ω : Type}

/-- How a store that is seen as a `τ` may stand. -/
structure Stand (τ ω : Type) where
  /-- Outside of a transaction, with these items kept. -/
  settled : List ω → τ → Prop
  /-- In a transaction, with some items kept before it and others written in it. -/
  staging : List ω → List ω → τ → Prop
  /-- Before a rollback that leaves it with these items. -/
  spoiled : List ω → τ → Prop
  /-- Outside of a transaction with these items kept, but perhaps of no more use. -/
  ended : List ω → τ → Prop

namespace Stand

/-- How a store stands after a call, by its answer. -/
def either (granted refused : τ → Prop) : Result Unit → τ → Prop
  | .ok () => granted
  | .error _ => refused

/-- How a store stands after a transaction, by its result. -/
def afterChunk (stand : Stand τ ω) (kept : List ω) : Result (List ω) → τ → Prop
  | .ok outputs => stand.settled (kept ++ outputs)
  | .error _ => stand.ended kept

/-- How a store stands after rounds, by their result. -/
def afterRounds (stand : Stand τ ω) (kept : List ω) : Option (Result Unit) → τ → Prop
  | some (.error _) => stand.ended kept
  | _ => stand.settled kept

end Stand

namespace ChunkStep

/-- A step that writes to a store and has it manage the transactions. Each call leads from one stand
to the next, and all other parts and listeners leave the store alone. -/
structure Custody (step : ChunkStep σ ε ι ω) (view : σ → τ) (stand : Stand τ ω) : Prop where
  reader : Bystander view (fun _ _ => True) step.reader.next
  processing : step.ProcessingStandsBy view fun _ _ => True
  opened : ∀ {kept state answer told after}, stand.settled kept (view state) →
    step.writer.openStore state = ⟨answer, told, after⟩ →
      Stand.either (stand.settled kept) (stand.ended kept) answer (view after)
  begun : ∀ {kept state answer told after}, stand.settled kept (view state) →
    step.transactions.begin state = ⟨answer, told, after⟩ →
      Stand.either (stand.staging kept []) (stand.ended kept) answer (view after)
  spent : ∀ {kept seen}, stand.settled kept seen → stand.ended kept seen
  unwritten : ∀ {kept seen}, stand.staging kept [] seen → stand.spoiled kept seen
  written : ∀ {kept outputs state answer told after}, stand.staging kept [] (view state) →
    step.writer.write outputs state = ⟨answer, told, after⟩ →
      Stand.either (stand.staging kept outputs) (stand.spoiled kept) answer (view after)
  flushed : ∀ {kept outputs state answer told after}, stand.staging kept outputs (view state) →
    step.writer.flush state = ⟨answer, told, after⟩ →
      Stand.either (stand.staging kept outputs) (stand.spoiled kept) answer (view after)
  committed : ∀ {kept outputs state answer told after}, stand.staging kept outputs (view state) →
    step.transactions.commit state = ⟨answer, told, after⟩ →
      Stand.either (stand.settled (kept ++ outputs)) (stand.spoiled kept) answer (view after)
  rolledBack : ∀ {kept state answer told after}, stand.spoiled kept (view state) →
    step.transactions.rollback state = ⟨answer, told, after⟩ → stand.ended kept (view after)
  closed : ∀ {kept result state answer told after}, stand.afterRounds kept result (view state) →
    step.writer.closeStore state = ⟨answer, told, after⟩ →
      stand.afterRounds kept result (view after)

variable {step : ChunkStep σ ε ι ω} {view : σ → τ} {stand : Stand τ ω} {kept : List ω}
  {p after : Progress σ} {events : List (StepEvent ι ω ε)}

/-- Without outputs nothing is written, which is what is staged. -/
theorem Writes.stands {outputs : List ω} {answer : Result Unit}
    (writes : step.Writes outputs p events answer after) (custody : step.Custody view stand)
    (staging : stand.staging kept [] (view p.state)) :
    Stand.either (stand.staging kept outputs) (stand.spoiled kept) answer (view after.state) := by
  cases writes with
  | nothing empty =>
    subst empty
    exact staging
  | written nonempty answer flush => exact custody.flushed (custody.written staging answer) flush
  | notWritten nonempty answer => exact custody.written staging answer
  | notFlushed nonempty answer flush =>
    exact custody.flushed (custody.written staging answer) flush

theorem RollsBack.stands {cause : Error} (undo : step.RollsBack cause p events after)
    (custody : step.Custody view stand) (spoiled : stand.spoiled kept (view p.state)) :
    stand.ended kept (view after.state) := by
  cases undo with
  | rolledBack answer notice =>
    have heard := notify_leaves notice fun listener member =>
      (custody.processing.chunkListeners listener member).afterChunkError cause
    rw [heard.kept]
    exact custody.rolledBack spoiled answer

/-- Whoever listens to the beginning of a chunk, the store is asked for a transaction as it was. -/
theorem Custody.opens {opened : Progress σ} {heard : List (StepEvent ι ω ε)} {told : List ε}
    {state : σ} {answer : Result Unit} (custody : step.Custody view stand)
    (settled : stand.settled kept (view p.state))
    (before : notify (·.beforeChunk) .beforeChunk 0 step.chunkListeners p = ⟨(), heard, opened⟩)
    (call : step.transactions.begin opened.state = ⟨answer, told, state⟩) :
    Stand.either (stand.staging kept []) (stand.ended kept) answer (view state) := by
  have hears := notify_leaves before fun listener member =>
    (custody.processing.chunkListeners listener member).beforeChunk
  exact custody.begun (hears.kept ▸ settled) call

/-- What was staged when processing began still is when it ends. -/
theorem Processes.stands {items : List ι} {outputs : List ω} {ending : Result Unit}
    (processes : step.Processes items p events outputs ending after)
    (custody : step.Custody view stand) (staging : stand.staging kept [] (view p.state)) :
    stand.staging kept [] (view after.state) := by
  rw [(processes.leaves custody.processing).kept]
  exact staging

/-- A transaction that fails, at whatever call, leaves what was kept before it. -/
theorem Transacts.stands {items : List ι} {result : Result (List ω)}
    (transacts : step.Transacts items p events result after) (custody : step.Custody view stand)
    (settled : stand.settled kept (view p.state)) :
    stand.afterChunk kept result (view after.state) := by
  cases transacts with
  | notBegun before answer notice =>
    have heard := notify_leaves notice fun listener member =>
      (custody.processing.chunkListeners listener member).afterChunkError _
    have ended := custody.opens settled before answer
    exact heard.kept ▸ ended
  | notProcessed before answer process undo =>
    have begun := custody.opens settled before answer
    exact undo.stands custody (custody.unwritten (process.stands custody begun))
  | notWritten before answer process write undo =>
    have begun := custody.opens settled before answer
    exact undo.stands custody (write.stands custody (process.stands custody begun))
  | notCommitted before answer process write commit undo =>
    have begun := custody.opens settled before answer
    have wrote := write.stands custody (process.stands custody begun)
    exact undo.stands custody (custody.committed wrote commit)
  | committed before answer process write commit notice =>
    have heard := notify_leaves notice fun listener member =>
      (custody.processing.chunkListeners listener member).afterChunk _
    have begun := custody.opens settled before answer
    have wrote := write.stands custody (process.stands custody begun)
    have done := custody.committed wrote commit
    exact heard.kept ▸ done

/-! ## Rounds and runs -/

theorem Reads.stands {room : Nat} {items : List ι} {ending : Result ChunkStatus}
    (reads : step.Reads room p events items ending after) (custody : step.Custody view stand)
    (settled : stand.settled kept (view p.state)) : stand.settled kept (view after.state) := by
  rw [(reads.leaves custody.reader).kept]
  exact settled

/-- A round keeps what its transaction commits. After one that failed the store may be of no more
use, but then the run is over. -/
theorem Round.stands {result : Option (Result Unit)}
    (round : step.Round p events result after) (custody : step.Custody view stand)
    (settled : stand.settled kept (view p.state)) :
    ∃ chunks, Commits 0 chunks (calls events) ∧
      stand.afterRounds (kept ++ chunks.flatten) result (view after.state) := by
  cases round with
  | notRead reads =>
    refine ⟨[], reads.commits.unheard, ?_⟩
    rw [List.flatten_nil, List.append_nil]
    exact custody.spent (reads.stands custody settled)
  | exhausted reads =>
    refine ⟨[], reads.commits.unheard, ?_⟩
    rw [List.flatten_nil, List.append_nil]
    exact reads.stands custody settled
  | failed reads nonempty transacts =>
    rw [calls_log, calls_append]
    refine ⟨_, reads.commits.unheard.append transacts.commits.unheard, ?_⟩
    rw [committedBy, List.append_nil, List.flatten_nil, List.append_nil]
    exact transacts.stands custody (reads.stands custody settled)
  | last reads nonempty transacts | more reads nonempty transacts =>
    rw [calls_log, calls_append]
    refine ⟨_, reads.commits.unheard.append transacts.commits.unheard, ?_⟩
    rw [committedBy, List.nil_append, List.flatten_singleton]
    exact transacts.stands custody (reads.stands custody settled)

theorem Rounds.stands {rounds : Nat} {result : Option (Result Unit)}
    (all : step.Rounds rounds p events result after) (custody : step.Custody view stand)
    (settled : stand.settled kept (view p.state)) :
    ∃ chunks, Commits 0 chunks (calls events) ∧
      stand.afterRounds (kept ++ chunks.flatten) result (view after.state) := by
  -- A round that another one follows leaves the store settled, with more items kept.
  induction all generalizing kept with
  | unfinished | stopped crowded =>
    refine ⟨[], .nil 0, ?_⟩
    rw [List.flatten_nil, List.append_nil]
    exact settled
  | last round => exact round.stands custody settled
  | more round rest ih =>
    obtain ⟨chunks, first, between⟩ := round.stands custody settled
    obtain ⟨later, others, stands⟩ := ih between
    refine ⟨chunks ++ later, ?_, ?_⟩
    · rw [calls_append]
      exact first.append others
    · rw [List.flatten_append, ← List.append_assoc]
      exact stands

/-- After a run a store that was settled keeps what it kept before and the outputs of the committed
chunks. It is settled again unless the run failed. -/
theorem Runs.stands {rounds : Nat} {result : Option (Result Unit)}
    (runs : step.Runs rounds p events result after) (custody : step.Custody view stand)
    (settled : stand.settled kept (view p.state)) :
    stand.afterRounds (kept ++ (committedChunks (calls events)).flatten) result
      (view after.state) := by
  cases runs with
  | @notOpened _ _ error answer =>
    have nothing : committedChunks [(.openStore (.error error) : Call ι ω)] = [] := rfl
    rw [calls_log, calls_append, calls_asked, calls_log, calls_nil, List.append_nil, nothing,
      List.flatten_nil, List.append_nil]
    exact custody.opened settled answer
  | unfinished answer all =>
    obtain ⟨chunks, commits, stands⟩ := all.stands custody (custody.opened settled answer)
    have committed := commits.committedChunks none
    rw [Option.map_none, Option.toList_none, List.append_nil] at committed
    rw [calls_log, calls_append, calls_asked, List.singleton_append, committed]
    exact stands
  | @closed _ _ _ _ _ _ _ closed answer all close =>
    obtain ⟨chunks, commits, stands⟩ := all.stands custody (custody.opened settled answer)
    have committed := commits.committedChunks (some closed)
    rw [Option.map_some, Option.toList_some] at committed
    simp only [calls_log, calls_append, calls_asked, calls_noted, calls_nil, List.append_nil,
      List.singleton_append, committed]
    exact custody.closed stands close

end ChunkStep

end Batchwork
