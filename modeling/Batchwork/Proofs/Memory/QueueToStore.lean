import Batchwork.Processor
import Batchwork.Proofs.Memory.Pass
import Batchwork.Proofs.Memory.StoredChunks

/-!
# Steps from a queue to a store

A step that reads from a queue, processes with a function and stores its chunks in a store. Its
policy and its listeners may do what they like, but leave queue and store alone. A chunk is then
what is read off the front of the queue, and what it adds to the store are its outputs.
-/

namespace Batchwork

variable {σ δ ε ι ω : Type}

namespace ChunkStep

/-- A step that reads from a queue, answers for each item what a function says, and stores its
chunks in a store, which also manages its transactions. No part but these touches queue or store. -/
structure QueueToStore (step : ChunkStep σ ε ι ω) (queue : Place σ (ItemQueue ι))
    (place : Place σ (ItemStore ω)) (input : δ → ε) (name : ComponentLog → ε)
    (f : ι → Result (Option ω)) : Prop where
  queueLawful : queue.Lawful
  storeLawful : place.Lawful
  queueApart : ∀ store state, queue.get (place.put store state) = queue.get state
  storeApart : ∀ items state, place.get (queue.put items state) = place.get state
  reader : step.reader = (ItemQueue.asReader ι δ).within queue input
  answers : ∀ item state, (step.processor.process item state).value = f item
  writer : step.writer = ItemStore.asWriter.within place name
  transactions : step.transactions = ItemStore.asTransactions.within place name
  standsBy : step.ProcessingStandsBy (fun state => (queue.get state, place.get state))
    fun _ _ => True

variable {step : ChunkStep σ ε ι ω} {queue : Place σ (ItemQueue ι)} {place : Place σ (ItemStore ω)}
  {input : δ → ε} {name : ComponentLog → ε} {f : ι → Result (Option ω)}
  {p after : Progress σ} {events : List (StepEvent ι ω ε)}

theorem QueueToStore.next (memory : step.QueueToStore queue place input name f) (state : σ) :
    step.reader.next state =
      match (queue.get state).items with
      | [] => ⟨.ok none, [], state⟩
      | item :: rest => ⟨.ok (some item), [], queue.put ⟨rest⟩ state⟩ := by
  rw [memory.reader]
  rcases items : queue.get state with ⟨_ | ⟨item, rest⟩⟩
  · have same := memory.queueLawful.put_get state
    rw [items] at same
    simp [Reader.within, Act.within, ItemQueue.asReader, items, same]
  · simp [Reader.within, Act.within, ItemQueue.asReader, items]

/-- Nothing that is called while a chunk is processed touches the queue or the store. -/
theorem QueueToStore.processing {τ : Type} {holds : ε → τ → Prop}
    (memory : step.QueueToStore queue place input name f)
    (look : ItemQueue ι × ItemStore ω → τ) (silent : ∀ event seen, holds event seen) :
    step.ProcessingStandsBy (fun state => look (queue.get state, place.get state)) holds := by
  have standsBy := memory.standsBy
  constructor
  case processor => exact fun item => (standsBy.processor item).look look silent
  case policy => exact fun error skipped => (standsBy.policy error skipped).look look silent
  case skipListeners =>
    intro listener member item error
    exact (standsBy.skipListeners listener member item error).look look silent
  case chunkListeners =>
    exact fun listener member => (standsBy.chunkListeners listener member).look look silent

theorem QueueToStore.stores (memory : step.QueueToStore queue place input name f) :
    step.Stores place name fun _ => none where
  lawful := memory.storeLawful
  writer := memory.writer
  transactions := memory.transactions
  silent _ := rfl
  reader := by
    rw [memory.reader]
    exact Bystander.within memory.storeApart (fun _ _ _ observed => nomatch observed) _
  processing := memory.processing Prod.snd fun _ _ _ observed => nomatch observed

/-- No call on the store touches the queue. -/
theorem QueueToStore.storing (memory : step.QueueToStore queue place input name f) :
    step.StoringStandsBy queue.get fun _ _ => True := by
  have apart : ∀ {α : Type} (act : Act (ItemStore ω) ComponentLog α),
      Bystander queue.get (fun _ _ => True) (act.within place name) :=
    Bystander.within memory.queueApart fun _ _ => trivial
  constructor
  case openStore | flush | closeStore => rw [memory.writer]; exact apart _
  case write => intro outputs; rw [memory.writer]; exact apart _
  case begin | commit | rollback => rw [memory.transactions]; exact apart _

/-- A chunk is read off the front of the queue. -/
theorem Reads.fromQueue {room : Nat} {items : List ι} {ending : Result ChunkStatus}
    (reads : step.Reads room p events items ending after)
    (memory : step.QueueToStore queue place input name f) :
    items = (queue.get p.state).items.take room ∧
      (queue.get after.state).items = (queue.get p.state).items.drop room ∧
      ending = .ok (if (queue.get p.state).items.length < room then .finished else .full) := by
  induction reads with
  | full => exact ⟨rfl, rfl, rfl⟩
  | @finished room p told state answer =>
    rw [memory.next] at answer
    split at answer
    next empty =>
      cases answer
      simp [empty]
    next => cases answer
  | @failed room p told state error answer =>
    rw [memory.next] at answer
    split at answer <;> cases answer
  | @item room p after told state item items events ending answer rest ih =>
    rw [memory.next] at answer
    split at answer
    next => cases answer
    next first others split =>
      cases answer
      obtain ⟨taken, left, ended⟩ := ih
      simp only [memory.queueLawful.get_put] at taken left ended
      rw [split]
      refine ⟨by rw [taken]; rfl, left, ?_⟩
      rw [ended]
      simp

theorem QueueToStore.answer (memory : step.QueueToStore queue place input name f) {item : ι}
    {state next : σ} {answer : Result (Option ω)} {told : List ε}
    (asked : step.processor.process item state = ⟨answer, told, next⟩) : f item = answer := by
  rw [← memory.answers item state, asked]

/-- The outputs of a chunk are what the function makes of the items processed, also if one of them
was fatal. -/
theorem Processes.outputs_eq {items : List ι} {outputs : List ω} {ending : Result Unit}
    (processes : step.Processes items p events outputs ending after)
    (memory : step.QueueToStore queue place input name f) :
    outputs = outputsOf f (processed (calls events)) := by
  induction processes with
  | done => rfl
  | output answer rest ih =>
    have made := memory.answer answer
    rw [calls_append, calls_asked, List.singleton_append, processed_process, ih]
    simp [outputsOf, made]
  | filtered answer rest ih =>
    have made := memory.answer answer
    rw [calls_append, calls_asked, calls_log, List.singleton_append, processed_process, ih]
    simp [outputsOf, made]
  | skipped answer skip rest ih =>
    have fails := memory.answer answer
    rw [calls_append, calls_asked, calls_append, List.singleton_append, processed_process,
      processed_append, skip.handles.processed, ih]
    simp [outputsOf, fails]
  | fatal answer refusal =>
    have fails := memory.answer answer
    rw [calls_append, calls_asked, List.singleton_append, processed_process,
      refusal.handles.processed]
    simp [outputsOf, fails]

/-- What can be seen of a run. -/
def sight (queue : Place σ (ItemQueue ι)) (place : Place σ (ItemStore ω)) (p : Progress σ) :
    Sight ι ω :=
  ⟨p.ledger, (queue.get p.state).items, (place.get p.state).items⟩

/-- A chunk is what the queue loses by reading. -/
theorem Reads.seen {items : List ι} {ending : Result ChunkStatus}
    (reads : step.Reads step.chunkSize p events items ending after)
    (memory : step.QueueToStore queue place input name f) :
    sight queue place p =
        ⟨p.ledger, items ++ (queue.get after.state).items, (place.get after.state).items⟩ ∧
      items.length ≤ step.chunkSize ∧
      ((queue.get after.state).items ≠ [] → items.length = step.chunkSize) ∧
      ending = .ok (if items.length < step.chunkSize then .finished else .full) ∧
      place.get after.state = place.get p.state := by
  obtain ⟨taken, left, ended⟩ := reads.fromQueue memory
  have kept := (reads.leaves memory.stores.reader).kept
  have length : items.length = min step.chunkSize (queue.get p.state).items.length := by
    rw [taken, List.length_take]
  refine ⟨?_, by omega, fun more => ?_, ?_, kept⟩
  · rw [ChunkStep.sight, taken, left, List.take_append_drop, kept]
  · have behind : step.chunkSize < (queue.get p.state).items.length := by
      rw [left, ne_eq, List.drop_eq_nil_iff] at more
      exact Nat.not_le.mp more
    omega
  · rw [ended]
    split <;> split <;> first | rfl | omega

/-- A transaction leaves the queue as it is, and adds to the store what it commits. -/
theorem Transacts.seen {items : List ι} {result : Result (List ω)}
    (transacts : step.Transacts items p events result after)
    (memory : step.QueueToStore queue place input name f)
    (rests : (place.get p.state).AtRest) :
    sight queue place after = ⟨after.ledger, (queue.get p.state).items,
        (place.get p.state).items ++ (committedBy result).flatten⟩ ∧
      (place.get after.state).AtRest := by
  have tracked := (transacts.tracked memory.stores rests).stands
  have items := tracked.items
  rw [transacts.along, List.nil_append] at items
  have leaves := transacts.leaves (memory.processing Prod.fst fun _ _ => trivial) memory.storing
  refine ⟨?_, ⟨by simp, tracked.staged, tracked.active⟩⟩
  rw [ChunkStep.sight, items]
  exact congrArg (fun seen => (⟨after.ledger, seen.items, _⟩ : Sight ι ω)) leaves.kept

end ChunkStep

end Batchwork
