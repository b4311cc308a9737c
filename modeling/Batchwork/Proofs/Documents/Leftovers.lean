import Batchwork.Memory
import Batchwork.Processor
import Batchwork.Proofs.Documents.OrderedInserts
import Batchwork.Proofs.Step.Breakdown
import Batchwork.Proofs.Step.Bystanders
import Batchwork.Skip

/-!
# What a failed run leaves in a collection

An ordered insert is no part of a transaction, so a chunk whose insert fails is rolled back without
effect: the documents in front of the one that was refused stay in the collection, although the
ledger counts the whole chunk as unwritten. Nothing else is left of a run but the outputs of its
committed chunks. Main statement: `execute_collects`.
-/

namespace Batchwork

variable {σ δ ε ι ω β κ : Type}

/-! ## Outputs in the order in which they were made -/

/-- The output that a call made. -/
@[simp] def Call.produced? : Call ι ω → Option ω
  | process _ (.ok (some output)) => some output
  | _ => none

/-- The outputs of the processor, in order. -/
def produced (made : List (Call ι ω)) : List ω := made.filterMap Call.produced?

@[simp] theorem produced_nil : produced ([] : List (Call ι ω)) = [] := rfl

@[simp] theorem produced_append (first second : List (Call ι ω)) :
    produced (first ++ second) = produced first ++ produced second := List.filterMap_append

@[simp] theorem produced_cons (call : Call ι ω) (made : List (Call ι ω)) :
    produced (call :: made) = call.produced?.toList ++ produced made := by
  rw [produced, List.filterMap_cons]
  cases call.produced? <;> rfl

theorem produced_eq_nil {made : List (Call ι ω)} (none : made.countP Call.isOutput = 0) :
    produced made = [] := by
  rw [List.countP_eq_zero] at none
  apply List.filterMap_eq_nil_iff.mpr
  intro call member
  have silent := none call member
  cases call with
  | process item answer => rcases answer with error | _ | output <;> simp_all
  | _ => rfl

namespace ChunkStep

variable {step : ChunkStep σ ε ι ω} {p after : Progress σ} {events : List (StepEvent ι ω ε)}

theorem Processes.produced {items : List ι} {outputs : List ω} {ending : Result Unit}
    (processes : step.Processes items p events outputs ending after) :
    produced (calls events) = outputs := by
  induction processes with
  | done => rfl
  | output answer rest ih | filtered answer rest ih => simpa using ih
  | skipped answer skip rest ih => simpa [produced_eq_nil skip.counts.2.2] using ih
  | fatal answer refusal => simp [produced_eq_nil refusal.counts.2.2]

/-- A committed chunk shows the outputs that it commits, and no others. -/
theorem Transacts.produced_ok {items : List ι} {outputs : List ω}
    (transacts : step.Transacts items p events (.ok outputs) after) :
    produced (calls events) = outputs := by
  cases transacts with
  | committed before answer process write commit notice =>
    have silent := notify_unaccounted before fun _ => ⟨rfl, rfl, rfl, rfl⟩
    have told := notify_unaccounted notice fun _ => ⟨rfl, rfl, rfl, rfl⟩
    simp [produced_eq_nil silent.outputs, produced_eq_nil told.outputs, process.produced,
      produced_eq_nil write.counts.2.2]

end ChunkStep

/-! ## Collections along a run -/

/-- What stays in a collection of a chunk that was not committed, when it holds `stored` otherwise
and the outputs `committed` come from committed chunks. -/
inductive Leftover (view : Collection.View δ ω β κ) (stored : List β) (committed : List ω)
    (made : List (Call ι ω)) : List ω → Prop
  | nothing {dropped : List ω} (written : failedStage? made ≠ some .writing)
      (outputs : produced made = committed ++ dropped) : Leftover view stored committed made []
  | begun {outputs left : List ω} {error : Error}
      (failed : failedStage? made = some .writing) (write : .write outputs (.error error) ∈ made)
      (produced : produced made = committed ++ outputs)
      (longest : view.LongestNew stored outputs left)
      (short : left.length < outputs.length) : Leftover view stored committed made left

/-- Calls none of which fails, by which a collection gains the outputs of committed chunks. -/
def Gathers (view : Collection.View δ ω β κ) (made : List (Call ι ω)) (before after : List β) :
    Prop :=
  ∃ chunks, Commits 0 chunks made ∧ failure? made = none ∧ produced made = chunks.flatten ∧
    after = before ++ chunks.flatten.map view.encode

/-- Calls by which a collection gains the outputs of committed chunks, and what is left over. -/
def GathersInPart (view : Collection.View δ ω β κ) (made : List (Call ι ω))
    (before after : List β) : Prop :=
  ∃ chunks left, Commits 0 chunks made ∧
    Leftover view (before ++ chunks.flatten.map view.encode) chunks.flatten made left ∧
    after = before ++ (chunks.flatten ++ left).map view.encode

namespace Leftover

variable {view : Collection.View δ ω β κ} {stored : List β} {committed left : List ω}
  {first made last : List (Call ι ω)}

/-- Calls that do not fail change nothing about what is left over. -/
theorem between (passed : failure? first = none)
    (leftover : Leftover view stored committed made left)
    (ended : failure? last = none) (silent : produced last = []) :
    Leftover view stored (produced first ++ committed) (first ++ made ++ last) left := by
  have stage : failedStage? (first ++ made ++ last) = failedStage? made := by
    rw [failedStage?, failure?_append, failure?_append, passed, ended, Option.none_or,
      Option.or_none, failedStage?]
  have outputs : produced (first ++ made ++ last) = produced first ++ produced made := by
    rw [produced_append, produced_append, silent, List.append_nil]
  cases leftover with
  | nothing written made =>
    rw [made, ← List.append_assoc] at outputs
    exact .nothing (stage ▸ written) outputs
  | begun failed write made longest short =>
    rw [made, ← List.append_assoc] at outputs
    have called := List.mem_append_left last (List.mem_append_right first write)
    exact .begun (stage ▸ failed) called outputs longest short

/-- What is left over are the outputs that come next. -/
theorem front (leftover : Leftover view stored committed made left) :
    committed ++ left <+: produced made := by
  cases leftover with
  | nothing written outputs =>
    rw [List.append_nil, outputs]
    exact List.prefix_append _ _
  | begun failed write outputs longest short =>
    rw [outputs]
    exact (List.prefix_append_right_inj _).mpr longest.front

end Leftover

namespace Gathers

variable {view : Collection.View δ ω β κ} {first second made : List (Call ι ω)}
  {before middle after : List β}

theorem refl (commits : Commits 0 [] made) (harmless : failure? made = none)
    (silent : produced made = []) (stored : List β) : Gathers view made stored stored :=
  ⟨[], commits, harmless, silent, (List.append_nil _).symm⟩

theorem trans (earlier : Gathers view first before middle)
    (later : Gathers view second middle after) : Gathers view (first ++ second) before after := by
  obtain ⟨chunks, commits, passed, outputs, rfl⟩ := earlier
  obtain ⟨more, others, harmless, further, rfl⟩ := later
  refine ⟨chunks ++ more, commits.append others, ?_, ?_, ?_⟩
  · rw [failure?_append, passed, harmless, Option.none_or]
  · rw [produced_append, outputs, further, List.flatten_append]
  · rw [List.flatten_append, List.map_append, List.append_assoc]

/-- Of calls that do not fail nothing is left over. -/
theorem inPart (gathers : Gathers view made before after) :
    GathersInPart view made before after := by
  obtain ⟨chunks, commits, harmless, outputs, rfl⟩ := gathers
  refine ⟨chunks, [], commits, ?_, by rw [List.append_nil]⟩
  have written : failedStage? made ≠ some .writing := by
    simp [failedStage?, harmless]
  exact .nothing written (by rw [outputs, List.append_nil])

theorem andThen (earlier : Gathers view first before middle)
    (later : GathersInPart view second middle after) :
    GathersInPart view (first ++ second) before after := by
  obtain ⟨chunks, commits, passed, outputs, rfl⟩ := earlier
  obtain ⟨more, left, others, leftover, rfl⟩ := later
  refine ⟨chunks ++ more, left, commits.append others, ?_, ?_⟩
  · have both := leftover.between passed (failure?_nil (ι := ι)) rfl
    rw [List.append_nil, outputs] at both
    rwa [List.flatten_append, List.map_append, ← List.append_assoc]
  · simp only [List.flatten_append, List.map_append, List.append_assoc]

end Gathers

/-- The calls of a run with an open store, by those of its rounds. -/
def framed (made : List (Call ι ω)) (closed : Option (Result Unit)) : List (Call ι ω) :=
  .openStore (.ok ()) :: (made ++ (closed.map .closeStore).toList)

theorem failedStage?_framed (made : List (Call ι ω)) (closed : Option (Result Unit)) :
    failedStage? (framed made closed) = failedStage? made := by
  cases closed <;> simp [framed, failedStage?]

theorem framed_committedChunks {made : List (Call ι ω)} {chunks : List (List ω)}
    (commits : Commits 0 chunks made) (closed : Option (Result Unit)) :
    committedChunks (framed made closed) = chunks := commits.committedChunks closed

/-- Opening and closing a store leave nothing over. -/
theorem Leftover.framed {view : Collection.View δ ω β κ} {stored : List β}
    {committed left : List ω} {made : List (Call ι ω)}
    (leftover : Leftover view stored committed made left) (closed : Option (Result Unit)) :
    Leftover view stored committed (framed made closed) left := by
  have opening : failure? [(.openStore (.ok ()) : Call ι ω)] = none := rfl
  cases closed with
  | none => exact leftover.between opening rfl rfl
  | some answer => exact leftover.between opening rfl rfl

namespace ChunkStep

/-- A step that writes its outputs to a collection, whose server is at `place`, with nobody managing
its transactions. All other parts and listeners leave the server alone. -/
structure StoresDocuments (step : ChunkStep σ ε ι ω) (collection : Collection δ ω)
    (place : Place σ δ) (name : ComponentLog → ε) : Prop where
  lawful : place.Lawful
  writer : step.writer = collection.asWriter.within place name
  transactions : step.transactions = .resourceless σ ε
  reader : Bystander place.get (fun _ _ => True) step.reader.next
  processing : step.ProcessingStandsBy place.get fun _ _ => True

variable {step : ChunkStep σ ε ι ω} {collection : Collection δ ω} {place : Place σ δ}
  {name : ComponentLog → ε} {view : Collection.View δ ω β κ}
  {p after : Progress σ} {events : List (StepEvent ι ω ε)}

namespace StoresDocuments

theorem write (stores : step.StoresDocuments collection place name)
    (lawful : collection.Lawful view) {outputs : List ω} {state later : σ} {answer : Result Unit}
    {told : List ε} (nonempty : outputs ≠ [])
    (call : step.writer.write outputs state = ⟨answer, told, later⟩) :
    ∃ kept, view.LongestNew (view.documents (place.get state)) outputs kept ∧
      view.documents (place.get later) =
        view.documents (place.get state) ++ kept.map view.encode ∧
      (answer = .ok () ∧ kept = outputs ∨
        ∃ error, answer = .error error ∧ kept.length < outputs.length) := by
  rw [stores.writer] at call
  obtain ⟨events, call⟩ := stores.lawful.within_eq call
  obtain ⟨kept, longest, held, verdict⟩ := lawful.write nonempty (place.get state)
  rw [show collection.write outputs (place.get state) = _ from call] at held verdict
  exact ⟨kept, longest, held, verdict⟩

/-- Flushing a collection is accepted and does nothing. -/
theorem flush (stores : step.StoresDocuments collection place name) {state later : σ}
    {answer : Result Unit} {told : List ε}
    (call : step.writer.flush state = ⟨answer, told, later⟩) :
    answer = .ok () ∧ place.get later = place.get state := by
  rw [stores.writer] at call
  exact stores.lawful.within_pure call

theorem begun (stores : step.StoresDocuments collection place name) {state later : σ}
    {answer : Result Unit} {told : List ε}
    (call : step.transactions.begin state = ⟨answer, told, later⟩) :
    answer = .ok () ∧ later = state := by
  rw [stores.transactions] at call
  cases call
  exact ⟨rfl, rfl⟩

theorem committed (stores : step.StoresDocuments collection place name) {state later : σ}
    {answer : Result Unit} {told : List ε}
    (call : step.transactions.commit state = ⟨answer, told, later⟩) :
    answer = .ok () ∧ later = state := by
  rw [stores.transactions] at call
  cases call
  exact ⟨rfl, rfl⟩

theorem rolledBack (stores : step.StoresDocuments collection place name) {state later : σ}
    {answer : Result Unit} {told : List ε}
    (call : step.transactions.rollback state = ⟨answer, told, later⟩) : later = state := by
  rw [stores.transactions] at call
  cases call
  rfl

end StoresDocuments

/-- Outputs that are written stand behind what was stored. -/
theorem Writes.gathers {outputs : List ω}
    (writes : step.Writes outputs p events (.ok ()) after)
    (stores : step.StoresDocuments collection place name) (lawful : collection.Lawful view) :
    view.documents (place.get after.state) =
      view.documents (place.get p.state) ++ outputs.map view.encode := by
  cases writes with
  | nothing empty =>
    rw [empty]
    exact (List.append_nil _).symm
  | written nonempty answer flush =>
    obtain ⟨kept, -, held, ⟨-, rfl⟩ | ⟨error, refused, -⟩⟩ := stores.write lawful nonempty answer
    · rw [(stores.flush flush).2]
      exact held
    · cases refused

/-- Of outputs that cannot all be written, those in front that are new stay. -/
theorem Writes.leavesOver {outputs : List ω} {error : Error}
    (writes : step.Writes outputs p events (.error error) after)
    (stores : step.StoresDocuments collection place name) (lawful : collection.Lawful view) :
    ∃ left, view.LongestNew (view.documents (place.get p.state)) outputs left ∧
      left.length < outputs.length ∧ .write outputs (.error error) ∈ calls events ∧
      view.documents (place.get after.state) =
        view.documents (place.get p.state) ++ left.map view.encode := by
  cases writes with
  | notWritten nonempty answer =>
    obtain ⟨left, longest, held, ⟨accepted, -⟩ | ⟨_, -, short⟩⟩ :=
      stores.write lawful nonempty answer
    · cases accepted
    · exact ⟨left, longest, short, by simp, held⟩
  | notFlushed nonempty answer flush => cases (stores.flush flush).1

/-- Taking a chunk back changes nothing in a collection. -/
theorem RollsBack.keeps {cause : Error} (undo : step.RollsBack cause p events after)
    (stores : step.StoresDocuments collection place name) :
    place.get after.state = place.get p.state := by
  cases undo with
  | rolledBack answer notice =>
    have heard := notify_leaves notice fun listener member =>
      (stores.processing.chunkListeners listener member).afterChunkError cause
    rw [heard.kept, stores.rolledBack answer]

/-- When a transaction has begun, nothing has changed yet. -/
theorem StoresDocuments.opens (stores : step.StoresDocuments collection place name)
    {opened : Progress σ} {heard : List (StepEvent ι ω ε)} {told : List ε} {state : σ}
    {answer : Result Unit}
    (before : notify (·.beforeChunk) .beforeChunk 0 step.chunkListeners p = ⟨(), heard, opened⟩)
    (call : step.transactions.begin opened.state = ⟨answer, told, state⟩) :
    answer = .ok () ∧ place.get state = place.get p.state := by
  have hears := notify_leaves before fun listener member =>
    (stores.processing.chunkListeners listener member).beforeChunk
  obtain ⟨accepted, rfl⟩ := stores.begun call
  exact ⟨accepted, hears.kept⟩

/-- A committed chunk is gathered. -/
theorem Transacts.gathers {items : List ι} {outputs : List ω}
    (transacts : step.Transacts items p events (.ok outputs) after)
    (stores : step.StoresDocuments collection place name) (lawful : collection.Lawful view) :
    Gathers view (calls events) (view.documents (place.get p.state))
      (view.documents (place.get after.state)) := by
  have shown := transacts.produced_ok
  have commits := transacts.commits.unheard
  obtain ⟨stage, breakdown⟩ := transacts.breakdown
  have flat : (committedBy (.ok outputs)).flatten = outputs := List.flatten_singleton
  refine ⟨_, commits, breakdown.failure, shown.trans flat.symm, ?_⟩
  rw [flat]
  cases transacts with
  | committed before answer process write commit notice =>
    have heard := notify_leaves notice fun listener member =>
      (stores.processing.chunkListeners listener member).afterChunk outputs
    have processed := (process.leaves stores.processing).kept
    rw [(stores.opens before answer).2] at processed
    rw [heard.kept, (stores.committed commit).2, ← processed]
    exact write.gathers stores lawful

/-- Of a chunk that fails something is left over only if it fails to be written. -/
theorem Transacts.gathersInPart {items : List ι} {error : Error}
    (transacts : step.Transacts items p events (.error error) after)
    (stores : step.StoresDocuments collection place name) (lawful : collection.Lawful view) :
    GathersInPart view (calls events) (view.documents (place.get p.state))
      (view.documents (place.get after.state)) := by
  have commits := transacts.commits.unheard
  -- Nobody manages the transactions, so none is refused its beginning or its end.
  cases transacts with
  | notBegun before answer notice => cases (stores.opens before answer).1
  | notCommitted before answer process write commit undo => cases (stores.committed commit).1
  | @notProcessed _ _ _ _ _ _ _ _ _ outputs before answer process undo =>
    have silent := notify_unaccounted before fun _ => ⟨rfl, rfl, rfl, rfl⟩
    have processed := (process.leaves stores.processing).kept
    rw [(stores.opens before answer).2] at processed
    refine ⟨[], [], commits, .nothing ?_ (?_ : _ = [] ++ outputs), ?_⟩
    · simp [failedStage?, silent.failure, process.failure, failureAt]
    · simp [produced_eq_nil silent.outputs, process.produced,
        produced_eq_nil undo.unaccounted.outputs]
    · rw [undo.keeps stores, processed]
      exact (List.append_nil _).symm
  | @notWritten _ _ _ _ _ _ _ _ _ _ _ outputs before answer process write undo =>
    have silent := notify_unaccounted before fun _ => ⟨rfl, rfl, rfl, rfl⟩
    have processed := (process.leaves stores.processing).kept
    rw [(stores.opens before answer).2] at processed
    obtain ⟨left, longest, short, called, held⟩ := write.leavesOver stores lawful
    rw [processed] at longest held
    refine ⟨[], left, commits, ?_, ?_⟩
    · rw [List.flatten_nil, List.map_nil, List.append_nil]
      refine .begun ?_ (?_ : Call.write outputs (.error error) ∈ _) ?_ longest short
      · simp [failedStage?, silent.failure, process.failure, write.failure, failureAt]
      · simp [called]
      · simp [produced_eq_nil silent.outputs, process.produced, produced_eq_nil write.counts.2.2,
          produced_eq_nil undo.unaccounted.outputs]
    · rw [undo.keeps stores, held]
      rfl

/-- Reading shows no outputs, and leaves the collection as it is. -/
theorem Reads.gathers {room : Nat} {items : List ι} {status : ChunkStatus}
    (reads : step.Reads room p events items (.ok status) after)
    (stores : step.StoresDocuments collection place name) :
    Gathers view (calls events) (view.documents (place.get p.state))
      (view.documents (place.get after.state)) := by
  rw [(reads.leaves stores.reader).kept]
  exact .refl reads.commits.unheard reads.failure (produced_eq_nil reads.counts.2.2) _

/-- A round leaves nothing over if another one may follow. -/
theorem Round.gathers {result : Option (Result Unit)} (round : step.Round p events result after)
    (stores : step.StoresDocuments collection place name) (lawful : collection.Lawful view) :
    GathersInPart view (calls events) (view.documents (place.get p.state))
        (view.documents (place.get after.state)) ∧
      (result = none → Gathers view (calls events) (view.documents (place.get p.state))
        (view.documents (place.get after.state))) := by
  have noMore {P : Prop} {answer : Result Unit} (unended : some answer = none) : P :=
    absurd unended (Option.some_ne_none answer)
  cases round with
  | notRead reads =>
    have shown := produced_eq_nil reads.counts.2.2
    refine ⟨⟨[], [], reads.commits.unheard, .nothing ?_ shown, ?_⟩, noMore⟩
    · simp [failedStage?, reads.failure, failureAt]
    · rw [(reads.leaves stores.reader).kept]
      exact (List.append_nil _).symm
  | exhausted reads => exact ⟨(reads.gathers stores).inPart, noMore⟩
  | failed reads nonempty transacts =>
    rw [calls_log, calls_append]
    exact ⟨(reads.gathers stores).andThen (transacts.gathersInPart stores lawful), noMore⟩
  | last reads nonempty transacts =>
    have gathers := (reads.gathers stores).trans (transacts.gathers stores lawful)
    rw [calls_log, calls_append]
    exact ⟨gathers.inPart, noMore⟩
  | more reads nonempty transacts =>
    have gathers := (reads.gathers stores).trans (transacts.gathers stores lawful)
    rw [calls_log, calls_append]
    exact ⟨gathers.inPart, fun _ => gathers⟩

theorem Rounds.gathers {rounds : Nat} {result : Option (Result Unit)}
    (all : step.Rounds rounds p events result after)
    (stores : step.StoresDocuments collection place name) (lawful : collection.Lawful view) :
    GathersInPart view (calls events) (view.documents (place.get p.state))
      (view.documents (place.get after.state)) := by
  -- On the rounds: each but the last one only gathers.
  induction all with
  | unfinished | stopped crowded => exact (Gathers.refl (.nil 0) rfl rfl _).inPart
  | last round => exact (round.gathers stores lawful).1
  | more round rest ih =>
    rw [calls_append]
    exact ((round.gathers stores lawful).2 rfl).andThen ih

/-- Of all stages only writing gives rounds the status of a failed write. -/
theorem Rounds.writeError_iff {rounds : Nat} {result : Option (Result Unit)}
    (all : step.Rounds rounds p events result after) (started : p.ledger.status = .started) :
    after.ledger.status = .writeError ↔ failedStage? (calls events) = some .writing := by
  obtain ⟨stage, tally, rest, passed, books, accounts, loses⟩ := all.settles
  -- Rounds that may go on have not failed, and the other stages leave another status.
  rw [books, Ledger.plus_status, started, accounts.failed]
  rcases result with _ | _
  · simp [passed rfl, endStatus]
  · rcases stage with _ | stage
    · simp [endStatus]
    · cases stage <;> simp [endStatus, Stage.status, Loses] at loses ⊢

/-- What rounds leave in a collection, read off the calls of the run that they belong to. -/
theorem Rounds.gathers_within {rounds : Nat} {result : Option (Result Unit)}
    (all : step.Rounds rounds p events result after) (started : p.ledger.status = .started)
    (stores : step.StoresDocuments collection place name) (lawful : collection.Lawful view)
    {made : List (Call ι ω)} (closed : Option (Result Unit))
    (framed : made = framed (calls events) closed) :
    let stored := view.documents (place.get p.state)
    let outputs := (committedChunks made).flatten
    ∃ left, Leftover view (stored ++ outputs.map view.encode) outputs made left ∧
      view.documents (place.get after.state) = stored ++ (outputs ++ left).map view.encode ∧
      (after.ledger.status = .writeError ↔ failedStage? made = some .writing) := by
  subst framed
  obtain ⟨chunks, left, commits, leftover, held⟩ := all.gathers stores lawful
  rw [framed_committedChunks commits, failedStage?_framed]
  exact ⟨left, leftover.framed closed, held, all.writeError_iff started⟩

/-- After a run the collection holds what it held before, the outputs of the committed chunks, and
what is left over of the chunk that could not be written. -/
theorem Runs.gathers {rounds : Nat} {result : Option (Result Unit)}
    (runs : step.Runs rounds p events result after)
    (stores : step.StoresDocuments collection place name) (lawful : collection.Lawful view) :
    let stored := view.documents (place.get p.state)
    let outputs := (committedChunks (calls events)).flatten
    ∃ left, Leftover view (stored ++ outputs.map view.encode) outputs (calls events) left ∧
      view.documents (place.get after.state) = stored ++ (outputs ++ left).map view.encode ∧
      (after.ledger.status = .writeError ↔ failedStage? (calls events) = some .writing) := by
  have opens {state later : σ} {answer : Result Unit} {told : List ε}
      (call : step.writer.openStore state = ⟨answer, told, later⟩) :
      answer = .ok () ∧ place.get later = place.get state := by
    rw [stores.writer] at call
    exact stores.lawful.within_pure call
  cases runs with
  | notOpened answer => cases (opens answer).1
  | unfinished answer all =>
    rw [← (opens answer).2]
    exact all.gathers_within rfl stores lawful none (by simp [framed])
  | @closed _ _ _ _ _ _ _ ended answer all close =>
    rw [stores.writer] at close
    simp only [(stores.lawful.within_pure close).2, ← (opens answer).2]
    exact all.gathers_within rfl stores lawful (some ended) (by simp [framed])

/-- What a step leaves in the collection that it writes its outputs to, on a server that refuses a
document only if its id is taken. The collection holds what it held before, the outputs of the
committed chunks in order, and nothing else, unless a chunk could not be written: then also the
longest run of outputs at the front of that chunk whose ids are new. The ledger does not count
these. -/
theorem execute_collects (stores : step.StoresDocuments collection place name)
    (lawful : collection.Lawful view) (rounds : Nat) (p : Progress σ) :
    let run := step.execute rounds p
    let made := calls run.events
    let chunks := committedChunks made
    let before := view.documents (place.get p.state)
    let after := view.documents (place.get run.state.state)
    ∃ left, after = before ++ (chunks.flatten ++ left).map view.encode ∧
      chunks.flatten ++ left <+: produced made ∧
      after.length + p.ledger.writeCount =
        before.length + run.state.ledger.writeCount + left.length ∧
      (run.state.ledger.status ≠ .writeError → left = []) ∧
      (run.state.ledger.status = .writeError →
        ∃ outputs error, .write outputs (.error error) ∈ made ∧
          produced made = chunks.flatten ++ outputs ∧
          view.LongestNew (before ++ chunks.flatten.map view.encode) outputs left ∧
          left.length < outputs.length) := by
  intro run made chunks before after
  obtain ⟨events, result, final, runs, eq⟩ := step.execute_runs rounds p
  have shown : made = calls events := by simp only [made, run, eq]
  have ended : run.state = final := by simp only [run, eq]
  obtain ⟨left, leftover, contents, failed⟩ := runs.gathers stores lawful
  rw [← shown] at leftover contents failed
  rw [← ended] at contents failed
  have counted : run.state.ledger.writeCount = p.ledger.writeCount + chunks.flatten.length := by
    rw [ended, runs.writeCount, ← shown]
  refine ⟨left, contents, leftover.front, ?_, ?_, ?_⟩
  · have length : after.length = before.length + (chunks.flatten.length + left.length) := by
      rw [← List.length_append, ← List.length_map (f := view.encode), ← List.length_append]
      exact congrArg List.length contents
    omega
  · intro otherwise
    cases leftover with
    | nothing written outputs => rfl
    | begun stage write outputs longest short => exact absurd (failed.mpr stage) otherwise
  · intro unwritten
    cases leftover with
    | nothing written outputs => exact absurd (failed.mp unwritten) written
    | begun stage write outputs longest short => exact ⟨_, _, write, outputs, longest, short⟩

end ChunkStep

/-! ## A paper that is given twice -/

structure Paper where
  id : Option Int
  title : String
  deriving Repr, DecidableEq

def numbered (id : Int) : Paper := { id, title := s!"paper {id}" }

/-- A step that files papers from a queue. -/
def filing : ChunkStep (ItemQueue Paper × List Paper) ComponentLog Paper Paper where
  name := "filing"
  reader := (ItemQueue.asReader _ _).within (.first _ _) id
  processor := .passThrough _ _ _
  writer := (Collection.inMemory "files" Paper.id).asWriter.within (.second _ _) id
  transactions := .resourceless _ _
  policy := .never _ _
  chunkSize := 2
  chunkSize_pos := Nat.two_pos
  itemSize := 40

/-- Papers to be filed, of which one comes twice and one has no id yet. -/
def unfiled : Progress (ItemQueue Paper × List Paper) :=
  ⟨{ id := ⟨1⟩, name := "filing" },
    ⟨[numbered 2, numbered 3, { id := none, title := "draft" }, numbered 3]⟩, [numbered 1]⟩

theorem filing_storesDocuments :
    filing.StoresDocuments (Collection.inMemory "files" Paper.id) (.second _ _) id where
  lawful := Place.second_lawful _ _
  writer := rfl
  transactions := rfl
  reader := Bystander.within (fun _ _ => rfl) (fun _ _ => trivial) _
  processing := ⟨fun _ => .pure _ _ _, fun _ _ => .pure _ _ _, nofun, nofun⟩

/-- The second chunk repeats a paper of the first one. The draft in front of it stays, and is not
counted. -/
theorem filing_collects :
    let draft : Paper := { id := none, title := "draft" }
    let run := filing.execute 4 unfiled
    run.state.ledger.status = .writeError ∧ run.state.ledger.writeCount = 2 ∧
    run.state.state.2 = [numbered 1, numbered 2, numbered 3, draft] ∧
    ∃ outputs error, .write outputs (.error error) ∈ calls run.events ∧
      [numbered 2, numbered 3] ++ outputs = produced (calls run.events) ∧
      (Collection.inMemoryView Paper.id).LongestNew [numbered 1, numbered 2, numbered 3] outputs
        [draft] := by
  intro draft run
  obtain ⟨left, contents, -, -, -, failed⟩ := ChunkStep.execute_collects filing_storesDocuments
    (Collection.inMemory_lawful "files" Paper.id) 4 unfiled
  have status : run.state.ledger.status = .writeError := by decide +kernel
  have filed : run.state.state.2 = [numbered 1, numbered 2, numbered 3, draft] := by
    decide +kernel
  have chunks : committedChunks (calls run.events) = [[numbered 2, numbered 3]] := by
    decide +kernel
  obtain ⟨outputs, error, write, shown, longest, -⟩ := failed status
  rw [chunks] at contents shown longest
  have behind : [numbered 1, numbered 2, numbered 3] ++ [draft] =
      [numbered 1, numbered 2, numbered 3] ++ left := by
    refine filed.symm.trans (contents.trans ?_)
    rw [Collection.inMemoryView, List.map_id]
    rfl
  obtain rfl := List.append_cancel_left behind
  exact ⟨status, by decide +kernel, filed, outputs, error, write, shown.symm, longest⟩

end Batchwork
