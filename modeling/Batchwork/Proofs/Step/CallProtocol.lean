import Batchwork.Proofs.Step.Stages

/-!
# The protocol of calls

The calls a run makes on its parts form a word of the grammar below, whatever the parts answer and
whichever of them fail. The grammar speaks of calls and answers alone. Main statement:
`execute_protocol`.
-/

namespace Batchwork

variable {σ ε ι ω : Type}

/-- Whether a call is made on the reader, the processor, the policy, the writer or the transaction
manager, and is not the notification of a listener. -/
@[simp] def Call.onPart : Call ι ω → Bool
  | beforeChunk _ | onSkip .. | afterChunk .. | afterChunkError .. => false
  | _ => true

/-- The calls on the parts among the events of a run, oldest first. -/
def partCalls (events : List (StepEvent ι ω ε)) : List (Call ι ω) :=
  (calls events).filter Call.onPart

namespace Protocol

/-- Reading with room for so many items. -/
inductive Reading : Nat → List ι → Result ChunkStatus → List (Call ι ω) → Prop
  | full : Reading 0 [] (.ok .full) []
  | finished {room : Nat} : Reading (room + 1) [] (.ok .finished) [.next (.ok none)]
  | failed {room : Nat} {error : Error} :
      Reading (room + 1) [] (.error error) [.next (.error error)]
  | item {room : Nat} {item : ι} {items : List ι} {ending : Result ChunkStatus}
      {word : List (Call ι ω)} (rest : Reading room items ending word) :
      Reading (room + 1) (item :: items) ending (.next (.ok (some item)) :: word)

/-- Processing items up to the first whose error is fatal: each item once, and after each error one
question to the policy. -/
inductive Processing : List ι → List ω → Result Unit → List (Call ι ω) → Prop
  | done : Processing [] [] (.ok ()) []
  | output {item : ι} {items : List ι} {output : ω} {outputs : List ω} {ending : Result Unit}
      {word : List (Call ι ω)} (rest : Processing items outputs ending word) :
      Processing (item :: items) (output :: outputs) ending
        (.process item (.ok (some output)) :: word)
  | filtered {item : ι} {items : List ι} {outputs : List ω} {ending : Result Unit}
      {word : List (Call ι ω)} (rest : Processing items outputs ending word) :
      Processing (item :: items) outputs ending (.process item (.ok none) :: word)
  | skipped {item : ι} {items : List ι} {error : Error} {before : Nat} {outputs : List ω}
      {ending : Result Unit} {word : List (Call ι ω)}
      (rest : Processing items outputs ending word) :
      Processing (item :: items) outputs ending
        (.process item (.error error) :: .shouldSkip error before (.ok true) :: word)
  | refused {item : ι} {items : List ι} {error : Error} {before : Nat} :
      Processing (item :: items) [] (.error error)
        [.process item (.error error), .shouldSkip error before (.ok false)]
  | overruled {item : ι} {items : List ι} {error reason : Error} {before : Nat} :
      Processing (item :: items) [] (.error reason)
        [.process item (.error error), .shouldSkip error before (.error reason)]

/-- Writing outputs: nothing for no outputs, else one write and, if it succeeds, one flush. -/
inductive Writing (outputs : List ω) : Result Unit → List (Call ι ω) → Prop
  | nothing (empty : outputs = []) : Writing outputs (.ok ()) []
  | notWritten {error : Error} (nonempty : outputs ≠ []) :
      Writing outputs (.error error) [.write outputs (.error error)]
  | written {flushed : Result Unit} (nonempty : outputs ≠ []) :
      Writing outputs flushed [.write outputs (.ok ()), .flush flushed]

/-- The transaction of one chunk: it ends with its commit, or after any failure within it with one
rollback. -/
inductive Transaction (items : List ι) : Result (List ω) → List (Call ι ω) → Prop
  | notBegun {error : Error} : Transaction items (.error error) [.begin (.error error)]
  | notProcessed {outputs : List ω} {error : Error} {undone : Result Unit}
      {processing : List (Call ι ω)}
      (process : Processing items outputs (.error error) processing) :
      Transaction items (.error error) (.begin (.ok ()) :: (processing ++ [.rollback undone]))
  | notWritten {outputs : List ω} {error : Error} {undone : Result Unit}
      {processing writing : List (Call ι ω)}
      (process : Processing items outputs (.ok ()) processing)
      (write : Writing outputs (.error error) writing) :
      Transaction items (.error error)
        (.begin (.ok ()) :: (processing ++ (writing ++ [.rollback undone])))
  | notCommitted {outputs : List ω} {error : Error} {undone : Result Unit}
      {processing writing : List (Call ι ω)}
      (process : Processing items outputs (.ok ()) processing)
      (write : Writing outputs (.ok ()) writing) :
      Transaction items (.error error)
        (.begin (.ok ()) :: (processing ++ (writing ++ [.commit (.error error), .rollback undone])))
  | committed {outputs : List ω} {processing writing : List (Call ι ω)}
      (process : Processing items outputs (.ok ()) processing)
      (write : Writing outputs (.ok ()) writing) :
      Transaction items (.ok outputs)
        (.begin (.ok ()) :: (processing ++ (writing ++ [.commit (.ok ())])))

/-- One round of chunks of the given size. A round without a result is followed by another. -/
inductive Round (size : Nat) : Option (Result Unit) → List (Call ι ω) → Prop
  | notRead {items : List ι} {error : Error} {reading : List (Call ι ω)}
      (read : Reading size items (.error error) reading) :
      Round size (some (.error error)) reading
  | exhausted {reading : List (Call ι ω)} (read : Reading size [] (.ok .finished) reading) :
      Round size (some (.ok ())) reading
  | failed {items : List ι} {status : ChunkStatus} {error : Error}
      {reading transaction : List (Call ι ω)}
      (read : Reading size items (.ok status) reading) (nonempty : items ≠ [])
      (transact : Transaction items (.error error) transaction) :
      Round size (some (.error error)) (reading ++ transaction)
  | last {items : List ι} {outputs : List ω} {reading transaction : List (Call ι ω)}
      (read : Reading size items (.ok .finished) reading) (nonempty : items ≠ [])
      (transact : Transaction items (.ok outputs) transaction) :
      Round size (some (.ok ())) (reading ++ transaction)
  | more {items : List ι} {outputs : List ω} {reading transaction : List (Call ι ω)}
      (read : Reading size items (.ok .full) reading) (nonempty : items ≠ [])
      (transact : Transaction items (.ok outputs) transaction) :
      Round size none (reading ++ transaction)

/-- At most so many rounds, up to the first with a result. -/
inductive Rounds (size : Nat) : Nat → Option (Result Unit) → List (Call ι ω) → Prop
  | unfinished : Rounds size 0 none []
  | last {rounds : Nat} {result : Result Unit} {round : List (Call ι ω)}
      (final : Round size (some result) round) : Rounds size (rounds + 1) (some result) round
  | more {rounds : Nat} {result : Option (Result Unit)} {round word : List (Call ι ω)}
      (first : Round size none round) (rest : Rounds size rounds result word) :
      Rounds size (rounds + 1) result (round ++ word)

/-- A whole run: a store that does not open ends it, and one that opened is closed at the end. -/
inductive Run (size rounds : Nat) : Option (Result Unit) → List (Call ι ω) → Prop
  | notOpened {error : Error} : Run size rounds (some (.error error)) [.openStore (.error error)]
  | unfinished {word : List (Call ι ω)} (all : Rounds size rounds none word) :
      Run size rounds none (.openStore (.ok ()) :: word)
  | closed {result closed : Result Unit} {word : List (Call ι ω)}
      (all : Rounds size rounds (some result) word) :
      Run size rounds (some result) (.openStore (.ok ()) :: (word ++ [.closeStore closed]))

end Protocol

/-! ## What the grammar excludes -/

namespace Call

def isRead : Call ι ω → Bool
  | next _ => true
  | _ => false

/-- Whether the reader said with its answer that it has nothing more to give. -/
def endsReading : Call ι ω → Bool
  | next (.ok none) | next (.error _) => true
  | _ => false

/-- Whether a transaction is open after a call, given whether one was open before it. -/
def keepsOpen (isOpen : Bool) : Call ι ω → Bool
  | begin (.ok ()) => true
  | commit (.ok ()) | rollback _ => false
  | _ => isOpen

theorem endsReading_of_not_isRead {call : Call ι ω} (other : call.isRead = false) :
    call.endsReading = false := by
  cases call with
  | next answer => cases other
  | _ => rfl

end Call

namespace Protocol

variable {word : List (Call ι ω)}

/-- No read is made while a transaction is open. -/
def ReadsOutside : Bool → List (Call ι ω) → Prop
  | _, [] => True
  | isOpen, call :: word =>
    (call.isRead = true → isOpen = false) ∧ ReadsOutside (call.keepsOpen isOpen) word

theorem readsOutside_append (isOpen : Bool) (first second : List (Call ι ω)) :
    ReadsOutside isOpen (first ++ second) ↔
      ReadsOutside isOpen first ∧ ReadsOutside (first.foldl Call.keepsOpen isOpen) second := by
  induction first generalizing isOpen with
  | nil => simp [ReadsOutside]
  | cons call first ih => simp [ReadsOutside, ih, and_assoc]

/-- Once the reader has nothing more to give it is not asked again, it is not asked while a
transaction is open, and no transaction is left open. -/
structure Orderly (word : List (Call ι ω)) : Prop where
  spent : word.Pairwise fun earlier later => earlier.endsReading = true → later.isRead = false
  outside : ReadsOutside false word
  closed : word.foldl Call.keepsOpen false = false

theorem Orderly.append {first second : List (Call ι ω)} (before : Orderly first)
    (after : Orderly second)
    (unspent : (∀ call ∈ first, call.endsReading = false) ∨ ∀ call ∈ second, call.isRead = false) :
    Orderly (first ++ second) where
  spent := by
    refine List.pairwise_append.mpr ⟨before.spent, after.spent, ?_⟩
    intro earlier inFirst later inSecond ended
    rcases unspent with more | quiet
    · rw [more earlier inFirst] at ended
      cases ended
    · exact quiet later inSecond
  outside := by
    rw [readsOutside_append, before.closed]
    exact ⟨before.outside, after.outside⟩
  closed := by rw [List.foldl_append, before.closed, after.closed]

theorem Reading.unspent {room : Nat} {items : List ι}
    (reading : Reading room items (.ok .full) word) : ∀ call ∈ word, call.endsReading = false := by
  -- The ending is an index of the relation, so it is kept as an equation for the induction.
  generalize full : (.ok .full : Result ChunkStatus) = ending at reading
  induction reading with
  | full => simp
  | finished | failed => cases full
  | item rest ih => exact List.forall_mem_cons.mpr ⟨rfl, ih full⟩

theorem Reading.orderly {room : Nat} {items : List ι} {ending : Result ChunkStatus}
    (reading : Reading room items ending word) : Orderly word := by
  induction reading with
  | full => exact ⟨.nil, trivial, rfl⟩
  | finished | failed => exact ⟨List.pairwise_singleton _ _, ⟨fun _ => rfl, trivial⟩, rfl⟩
  | item rest ih =>
    refine ⟨List.pairwise_cons.mpr ⟨fun _ _ ended => ?_, ih.spent⟩, ⟨fun _ => rfl, ih.outside⟩,
      ih.closed⟩
    cases ended

theorem Processing.no_read {items : List ι} {outputs : List ω} {ending : Result Unit}
    (processing : Processing items outputs ending word) :
    ∀ call ∈ word, call.isRead = false := by
  induction processing with
  | done => simp
  | output rest ih | filtered rest ih => exact List.forall_mem_cons.mpr ⟨rfl, ih⟩
  | skipped rest ih => exact List.forall_mem_cons.mpr ⟨rfl, List.forall_mem_cons.mpr ⟨rfl, ih⟩⟩
  | refused | overruled => simp [Call.isRead]

theorem Writing.no_read {outputs : List ω} {answer : Result Unit}
    (writing : Writing outputs answer word) : ∀ call ∈ word, call.isRead = false := by
  cases writing <;> simp [Call.isRead]

theorem Transaction.no_read {items : List ι} {result : Result (List ω)}
    (transaction : Transaction items result word) : ∀ call ∈ word, call.isRead = false := by
  cases transaction with
  | notBegun => simp [Call.isRead]
  | notProcessed process =>
    simpa [Call.isRead, or_imp, forall_and] using process.no_read
  | notWritten process write | notCommitted process write | committed process write =>
    simpa [Call.isRead, or_imp, forall_and] using And.intro process.no_read write.no_read

theorem Transaction.closed {items : List ι} {result : Result (List ω)}
    (transaction : Transaction items result word) : word.foldl Call.keepsOpen false = false := by
  cases transaction with
  | notBegun => rfl
  | notProcessed process => simp [Call.keepsOpen]
  | notWritten process write | notCommitted process write => simp [Call.keepsOpen]
  | committed process write => simp [Call.keepsOpen]

/-- Calls without a read are orderly if they leave no transaction open. -/
theorem orderly_of_no_read (quiet : ∀ call ∈ word, call.isRead = false)
    (closed : word.foldl Call.keepsOpen false = false) : Orderly word where
  spent := List.pairwise_of_forall_mem_list fun _ _ later member _ => quiet later member
  outside := by
    have outside (isOpen : Bool) : ReadsOutside isOpen word := by
      clear closed
      induction word generalizing isOpen with
      | nil => trivial
      | cons call word ih =>
        obtain ⟨other, rest⟩ := List.forall_mem_cons.mp quiet
        exact ⟨fun read => by simp [other] at read, ih rest _⟩
    exact outside false
  closed := closed

theorem Transaction.orderly {items : List ι} {result : Result (List ω)}
    (transaction : Transaction items result word) : Orderly word :=
  orderly_of_no_read transaction.no_read transaction.closed

theorem Round.orderly {size : Nat} {result : Option (Result Unit)}
    (round : Round size result word) : Orderly word := by
  cases round with
  | notRead read | exhausted read => exact read.orderly
  | failed read _ transact | last read _ transact | more read _ transact =>
    exact read.orderly.append transact.orderly (.inr transact.no_read)

theorem Round.unspent {size : Nat} (round : Round size none word) :
    ∀ call ∈ word, call.endsReading = false := by
  cases round with
  | more read _ transact =>
    intro call member
    rcases List.mem_append.mp member with inReading | inTransaction
    · exact read.unspent call inReading
    · exact Call.endsReading_of_not_isRead (transact.no_read call inTransaction)

theorem Rounds.orderly {size rounds : Nat} {result : Option (Result Unit)}
    (all : Rounds size rounds result word) : Orderly word := by
  induction all with
  | unfinished => exact ⟨.nil, trivial, rfl⟩
  | last final => exact final.orderly
  | more first rest ih =>
    -- A round that another one follows has not heard the end of the items.
    exact first.orderly.append ih (.inl first.unspent)

theorem Run.orderly {size rounds : Nat} {result : Option (Result Unit)}
    (run : Run size rounds result word) : Orderly word := by
  have opening (opened : Result Unit) : Orderly [(.openStore opened : Call ι ω)] :=
    orderly_of_no_read (by simp [Call.isRead]) rfl
  cases run with
  | notOpened => exact opening _
  | unfinished all => exact (opening _).append all.orderly (.inl (by simp [Call.endsReading]))
  | closed all =>
    have closing (closed : Result Unit) : Orderly [(.closeStore closed : Call ι ω)] :=
      orderly_of_no_read (by simp [Call.isRead]) rfl
    exact (opening _).append (all.orderly.append (closing _) (.inr (by simp [Call.isRead])))
      (.inl (by simp [Call.endsReading]))

end Protocol

/-! ## Runs follow the protocol -/

@[simp] theorem partCalls_nil : partCalls ([] : List (StepEvent ι ω ε)) = [] := rfl

@[simp] theorem partCalls_append (first second : List (StepEvent ι ω ε)) :
    partCalls (first ++ second) = partCalls first ++ partCalls second := by
  simp [partCalls]

@[simp] theorem partCalls_log (entry : StepLog) (events : List (StepEvent ι ω ε)) :
    partCalls (.log entry :: events) = partCalls events := rfl

@[simp] theorem partCalls_noted (entry : Error → StepLog) (answer : Result Unit) :
    partCalls (noted entry answer : List (StepEvent ι ω ε)) = [] := by
  simp [partCalls]

@[simp] theorem partCalls_asked (told : List ε) (call : Call ι ω) :
    partCalls (asked told call) = if call.onPart then [call] else [] := by
  simp only [partCalls, calls_asked, List.filter_cons, List.filter_nil]

theorem partCalls_notify {κ : Type} {act : κ → Act σ ε Unit} {call : Nat → Call ι ω}
    {index : Nat} {listeners : List κ} {p after : Progress σ} {heard : List (StepEvent ι ω ε)}
    (notice : ChunkStep.notify act call index listeners p = ⟨(), heard, after⟩)
    (apart : ∀ listener, (call listener).onPart = false) : partCalls heard = [] := by
  rw [partCalls, ChunkStep.notify_calls notice, List.filter_eq_nil_iff]
  intro made member
  obtain ⟨listener, _, rfl⟩ := List.mem_map.mp member
  rw [apart listener]
  exact Bool.false_ne_true

namespace ChunkStep

variable {step : ChunkStep σ ε ι ω} {p after : Progress σ} {events : List (StepEvent ι ω ε)}

theorem Reads.protocol {room : Nat} {items : List ι} {ending : Result ChunkStatus}
    (reads : step.Reads room p events items ending after) :
    Protocol.Reading room items ending (partCalls events) := by
  induction reads with
  | full => exact .full
  | finished answer => simpa using .finished
  | failed answer => simpa using .failed
  | item answer rest ih => simpa using .item ih

theorem Processes.protocol {items : List ι} {outputs : List ω} {ending : Result Unit}
    (processes : step.Processes items p events outputs ending after) :
    Protocol.Processing items outputs ending (partCalls events) := by
  induction processes with
  | done => exact .done
  | output answer rest ih => simpa using .output ih
  | filtered answer rest ih => simpa using .filtered ih
  | skipped answer skip rest ih =>
    cases skip with
    | skipped verdict notice =>
      have silent := partCalls_notify notice fun _ => rfl
      simpa [silent] using .skipped ih
  | fatal answer refusal =>
    cases refusal with
    | refused verdict => simpa using .refused
    | overruled verdict => simpa using .overruled

theorem Writes.protocol {outputs : List ω} {answer : Result Unit}
    (writes : step.Writes outputs p events answer after) :
    Protocol.Writing outputs answer (partCalls events) := by
  cases writes with
  | nothing empty => exact .nothing empty
  | written nonempty answer flush => simpa using .written nonempty
  | notWritten nonempty answer => simpa using .notWritten nonempty
  | notFlushed nonempty answer flush => simpa using .written nonempty

theorem RollsBack.protocol {cause : Error} (undo : step.RollsBack cause p events after) :
    ∃ undone, partCalls events = [.rollback undone] := by
  cases undo with
  | @rolledBack _ told state undone heard answer notice =>
    have silent := partCalls_notify notice fun _ => rfl
    exact ⟨undone, by simp [silent]⟩

theorem Transacts.protocol {items : List ι} {result : Result (List ω)}
    (transacts : step.Transacts items p events result after) :
    Protocol.Transaction items result (partCalls events) := by
  cases transacts with
  | notBegun before answer notice =>
    have silent := partCalls_notify before fun _ => rfl
    have told := partCalls_notify notice fun _ => rfl
    simpa [silent, told] using .notBegun
  | notProcessed before answer process undo =>
    have silent := partCalls_notify before fun _ => rfl
    obtain ⟨undone, rollback⟩ := undo.protocol
    simpa [silent, rollback] using .notProcessed process.protocol
  | notWritten before answer process write undo =>
    have silent := partCalls_notify before fun _ => rfl
    obtain ⟨undone, rollback⟩ := undo.protocol
    simpa [silent, rollback] using .notWritten process.protocol write.protocol
  | notCommitted before answer process write commit undo =>
    have silent := partCalls_notify before fun _ => rfl
    obtain ⟨undone, rollback⟩ := undo.protocol
    simpa [silent, rollback] using .notCommitted process.protocol write.protocol
  | committed before answer process write commit notice =>
    have silent := partCalls_notify before fun _ => rfl
    have told := partCalls_notify notice fun _ => rfl
    simpa [silent, told] using .committed process.protocol write.protocol

theorem Round.protocol {result : Option (Result Unit)} (round : step.Round p events result after) :
    Protocol.Round step.chunkSize result (partCalls events) := by
  cases round with
  | notRead reads => simpa using .notRead reads.protocol
  | exhausted reads => simpa using .exhausted reads.protocol
  | failed reads nonempty transacts =>
    simpa using .failed reads.protocol nonempty transacts.protocol
  | last reads nonempty transacts => simpa using .last reads.protocol nonempty transacts.protocol
  | more reads nonempty transacts => simpa using .more reads.protocol nonempty transacts.protocol

theorem Rounds.protocol {rounds : Nat} {result : Option (Result Unit)}
    (all : step.Rounds rounds p events result after) (makes : rounds = 0 ∨ step.HasRoom) :
    Protocol.Rounds step.chunkSize rounds result (partCalls events) := by
  induction all with
  | unfinished => exact .unfinished
  | stopped crowded => exact absurd (makes.resolve_left (Nat.succ_ne_zero _)) crowded
  | last round => exact .last round.protocol
  | more round rest ih =>
    have room := makes.resolve_left (Nat.succ_ne_zero _)
    simpa using .more round.protocol (ih (.inr room))

theorem Runs.protocol {rounds : Nat} {result : Option (Result Unit)}
    (runs : step.Runs rounds p events result after) (makes : rounds = 0 ∨ step.HasRoom) :
    Protocol.Run step.chunkSize rounds result (partCalls events) := by
  cases runs with
  | notOpened answer => simpa using .notOpened
  | unfinished answer all => simpa using .unfinished (all.protocol makes)
  | closed answer all close => simpa using .closed (all.protocol makes)

/-- The calls a run makes on its parts are a word of the protocol, for every behaviour of the parts
and however often they fail. In particular the reader is not asked again after it had nothing more
to give, and it is never asked within a transaction. A step without room for a chunk makes no
rounds. -/
theorem execute_protocol (step : ChunkStep σ ε ι ω) (rounds : Nat) (p : Progress σ) :
    Protocol.Run step.chunkSize (step.granted rounds) (step.execute rounds p).value
        (partCalls (step.execute rounds p).events) ∧
      Protocol.Orderly (partCalls (step.execute rounds p).events) := by
  have word : Protocol.Run step.chunkSize (step.granted rounds) (step.execute rounds p).value
      (partCalls (step.execute rounds p).events) := by
    unfold granted
    split
    next room =>
      obtain ⟨events, result, after, runs, executed⟩ := step.execute_runs rounds p
      rw [executed]
      exact runs.protocol (.inr room)
    next crowded =>
      obtain ⟨value, made, -⟩ := execute_of_crowded crowded rounds p
      obtain ⟨events, result, after, runs, executed⟩ := step.execute_runs 0 p
      rw [value, partCalls, made, executed]
      exact runs.protocol (.inl rfl)
  exact ⟨word, word.orderly⟩

end ChunkStep

end Batchwork
