import Batchwork.Proofs.Step.CallProtocol
import Batchwork.Proofs.Step.Consultation
import Mathlib.Data.List.Nodup

/-!
# Announcements

The calls on the parts decide what listeners are told and when. All chunk listeners are told of a
chunk right before its transaction and right behind it, and all skip listeners are told of an item
as soon as the policy lets its error pass. The grammar of `Announced` says where these calls stand
between those on the parts, and `Announced.Run.heard` what a single listener hears in such a word.
-/

namespace Batchwork

variable {ι ω : Type}

namespace Call

/-- The call of each of so many listeners, in the order of registration. -/
def toAll (listeners : Nat) (call : Nat → Call ι ω) : List (Call ι ω) :=
  (List.range listeners).map call

/-- How a chunk listener is told of the end of a chunk. -/
def verdict (result : Result (List ω)) (listener : Nat) : Call ι ω :=
  match result with
  | .ok outputs => .afterChunk listener outputs
  | .error error => .afterChunkError listener error

/-- Whether a call tells a chunk listener something. -/
def toListener (listener : Nat) : Call ι ω → Bool
  | beforeChunk told | afterChunk told _ | afterChunkError told _ => told == listener
  | _ => false

/-- Whether a call tells a skip listener of an item. -/
def toSkipListener (listener : Nat) : Call ι ω → Bool
  | onSkip told _ _ => told == listener
  | _ => false

def isBeforeChunk : Call ι ω → Bool
  | beforeChunk _ => true
  | _ => false

def isAfterChunk : Call ι ω → Bool
  | afterChunk .. => true
  | _ => false

def isAfterChunkError : Call ι ω → Bool
  | afterChunkError .. => true
  | _ => false

end Call

/-- What a chunk listener is told, in order. -/
def hearing (listener : Nat) (made : List (Call ι ω)) : List (Call ι ω) :=
  made.filter (Call.toListener listener)

/-- Whether a chunk was announced when a run failed at a stage. -/
def Stage.inChunk : Stage → Bool
  | opening | reading => false
  | beginning | processing | writing | committing => true

/-- The error with which a chunk of a run failed. -/
def chunkFailure? (made : List (Call ι ω)) : Option Error :=
  (failure? made).bind fun (stage, error) => if stage.inChunk then some error else none

/-- How the chunks of a run ended, in order: those that were committed, and the one that failed if
there is one. -/
def chunkResults (made : List (Call ι ω)) : List (Result (List ω)) :=
  (committedChunks made).map .ok ++ (chunkFailure? made).toList.map .error

theorem chunkFailure?_eq_none {made : List (Call ι ω)} (passed : failure? made = none) :
    chunkFailure? made = none := by
  rw [chunkFailure?, passed, Option.bind_none]

theorem chunkFailure?_append {first second : List (Call ι ω)} (passed : failure? first = none) :
    chunkFailure? (first ++ second) = chunkFailure? second := by
  rw [chunkFailure?, failure?_append, passed, Option.none_or, chunkFailure?]

namespace Announced

/-- Calls on parts, with a report to each of so many skip listeners behind every decision to skip an
item and nowhere else. -/
inductive Reports (listeners : Nat) : List (Call ι ω) → Prop
  | nil : Reports listeners []
  | apart {call : Call ι ω} {made : List (Call ι ω)} (onPart : call.onPart = true)
      (other : call.isSkipped = false) (rest : Reports listeners made) :
      Reports listeners (call :: made)
  | skipped {item : ι} {error : Error} {before : Nat} {made : List (Call ι ω)}
      (rest : Reports listeners made) :
      Reports listeners
        (.process item (.error error) :: .shouldSkip error before (.ok true) ::
          (Call.toAll listeners (.onSkip · item error) ++ made))

/-- The calls for one chunk: its transaction, between the notice to all chunk listeners that it
begins and the notice to all of them how it ended. -/
inductive Chunk (listeners skipListeners : Nat) (items : List ι) (result : Result (List ω)) :
    List (Call ι ω) → Prop
  | announced {body : List (Call ι ω)}
      (transact : Protocol.Transaction items result (body.filter Call.onPart))
      (reports : Reports skipListeners body) :
      Chunk listeners skipListeners items result
        (Call.toAll listeners .beforeChunk ++
          (body ++ Call.toAll listeners (Call.verdict result)))

/-- The calls of one round: a chunk that was read without an error and has items is announced. The
list holds its result then. -/
inductive Round (size listeners skipListeners : Nat) :
    List (Result (List ω)) → List (Call ι ω) → Prop
  | silent {items : List ι} {ending : Result ChunkStatus} {reading : List (Call ι ω)}
      (read : Protocol.Reading size items ending reading)
      (nothing : ending.isOk = true → items = []) :
      Round size listeners skipListeners [] reading
  | announced {items : List ι} {status : ChunkStatus} {result : Result (List ω)}
      {reading chunk : List (Call ι ω)} (read : Protocol.Reading size items (.ok status) reading)
      (nonempty : items ≠ []) (announced : Chunk listeners skipListeners items result chunk) :
      Round size listeners skipListeners [result] (reading ++ chunk)

/-- The calls of rounds, with the results of the chunks that were announced. -/
inductive Rounds (size listeners skipListeners : Nat) :
    List (Result (List ω)) → List (Call ι ω) → Prop
  | nil : Rounds size listeners skipListeners [] []
  | cons {results later : List (Result (List ω))} {round word : List (Call ι ω)}
      (first : Round size listeners skipListeners results round)
      (rest : Rounds size listeners skipListeners later word) :
      Rounds size listeners skipListeners (results ++ later) (round ++ word)

/-- The calls of a run: nothing is announced while the store is opened or closed. -/
inductive Run (size listeners skipListeners : Nat) :
    List (Result (List ω)) → List (Call ι ω) → Prop
  | notOpened {error : Error} :
      Run size listeners skipListeners [] [.openStore (.error error)]
  | opened {results : List (Result (List ω))} {word : List (Call ι ω)}
      {closed : Option (Result Unit)} (all : Rounds size listeners skipListeners results word) :
      Run size listeners skipListeners results
        (.openStore (.ok ()) :: (word ++ (closed.map .closeStore).toList))

end Announced

/-! ## What a single listener hears -/

namespace Call

variable {listeners listener : Nat} {call : Nat → Call ι ω} {keep : Call ι ω → Bool}

/-- Of a call to all listeners exactly one goes to each. -/
theorem filter_toAll (registered : listener < listeners)
    (only : ∀ index, keep (call index) = (index == listener)) :
    (toAll listeners call).filter keep = [call listener] := by
  have once : (List.range listeners).filter (· == listener) = [listener] := by
    rw [List.filter_beq, List.count_eq_one_of_mem List.nodup_range (List.mem_range.mpr registered)]
    rfl
  have same : keep ∘ call = (· == listener) := funext only
  rw [toAll, List.filter_map, same, once]
  rfl

theorem filter_toAll_eq_nil (apart : ∀ index, keep (call index) = false) :
    (toAll listeners call).filter keep = [] := by
  apply List.filter_eq_nil_iff.mpr
  intro made member
  obtain ⟨index, _, rfl⟩ := List.mem_map.mp member
  rw [apart index]
  exact Bool.false_ne_true

theorem countP_toAll (apart : ∀ index, keep (call index) = false) :
    (toAll listeners call).countP keep = 0 := by
  rw [List.countP_eq_length_filter, filter_toAll_eq_nil apart, List.length_nil]

theorem toListener_of_onPart {made : Call ι ω} (onPart : made.onPart = true) :
    made.toListener listener = false := by
  cases made <;> first | rfl | cases onPart

theorem isAfterChunk_of_onPart {made : Call ι ω} (onPart : made.onPart = true) :
    made.isAfterChunk = false := by
  cases made <;> first | rfl | cases onPart

theorem toSkipListener_of_onPart {made : Call ι ω} (onPart : made.onPart = true) :
    made.toSkipListener listener = false := by
  cases made <;> first | rfl | cases onPart

theorem toListener_verdict (result : Result (List ω)) (index : Nat) :
    (verdict result index : Call ι ω).toListener listener = (index == listener) := by
  cases result <;> rfl

end Call

namespace Announced

variable {listeners skipListeners listener size : Nat} {made : List (Call ι ω)}
  {results : List (Result (List ω))}

/-- Reading calls the reader alone. -/
theorem isRead_of_reading {room : Nat} {items : List ι} {ending : Result ChunkStatus}
    (reading : Protocol.Reading room items ending made) : ∀ call ∈ made, call.isRead = true := by
  induction reading with
  | full => simp
  | finished | failed => simp [Call.isRead]
  | item rest ih => exact List.forall_mem_cons.mpr ⟨rfl, ih⟩

/-- Calls that are neither made on parts nor on skip listeners are not made within a transaction. -/
theorem Reports.filter_eq_nil {keep : Call ι ω → Bool} (reports : Reports skipListeners made)
    (apart : ∀ call, call.onPart = true → keep call = false)
    (silent : ∀ index item error, keep (.onSkip index item error) = false) :
    made.filter keep = [] := by
  induction reports with
  | nil => rfl
  | apart onPart _ _ ih => rw [List.filter_cons_of_neg (Bool.eq_false_iff.mp (apart _ onPart)), ih]
  | @skipped item error _ _ _ ih =>
    have unheard : (Call.toAll skipListeners (.onSkip · item error)).filter keep = [] :=
      Call.filter_toAll_eq_nil fun index => silent index item error
    rw [List.filter_cons_of_neg (Bool.eq_false_iff.mp (apart _ rfl)),
      List.filter_cons_of_neg (Bool.eq_false_iff.mp (apart _ rfl)), List.filter_append, unheard, ih]
    rfl

theorem filter_reading {room : Nat} {items : List ι} {ending : Result ChunkStatus}
    {keep : Call ι ω → Bool} (reading : Protocol.Reading room items ending made)
    (apart : ∀ answer, keep (.next answer) = false) : made.filter keep = [] := by
  apply List.filter_eq_nil_iff.mpr
  intro call member
  have read := isRead_of_reading reading call member
  cases call with
  | next answer => exact Bool.eq_false_iff.mp (apart answer)
  | _ => cases read

/-- While a chunk is in its transaction no chunk listener is told anything. -/
theorem Reports.hearing_eq_nil (reports : Reports skipListeners made) :
    hearing listener made = [] :=
  reports.filter_eq_nil (fun _ => Call.toListener_of_onPart) fun _ _ _ => rfl

/-- Each skip listener is told once of each item that was skipped. -/
theorem Reports.countP_skip (reports : Reports skipListeners made)
    (registered : listener < skipListeners) :
    made.countP (Call.toSkipListener listener) = made.countP Call.isSkipped := by
  induction reports with
  | nil => rfl
  | apart onPart other _ ih =>
    rw [List.countP_cons_of_neg (Bool.eq_false_iff.mp (Call.toSkipListener_of_onPart onPart)),
      List.countP_cons_of_neg (Bool.eq_false_iff.mp other), ih]
  | @skipped item error before made _ ih =>
    have told : (Call.toAll skipListeners (Call.onSkip (ω := ω) · item error)).countP
        (Call.toSkipListener listener) = 1 := by
      rw [List.countP_eq_length_filter, Call.filter_toAll registered fun _ => rfl]
      rfl
    have undecided : (Call.toAll skipListeners (Call.onSkip (ω := ω) · item error)).countP
        Call.isSkipped = 0 := Call.countP_toAll fun _ => rfl
    simp [List.countP_cons, Call.toSkipListener, told, undecided, ih, Nat.add_comm]

/-- What listeners hear in a list of calls: of each chunk twice, and of each skipped item once. -/
structure Heard (listeners skipListeners : Nat) (results : List (Result (List ω)))
    (made : List (Call ι ω)) : Prop where
  chunks : ∀ listener < listeners, hearing listener made =
    results.flatMap fun result => [.beforeChunk listener, .verdict result listener]
  skips : ∀ listener < skipListeners,
    made.countP (Call.toSkipListener listener) = made.countP Call.isSkipped

theorem Heard.append {later : List (Result (List ω))} {first second : List (Call ι ω)}
    (before : Heard listeners skipListeners results first)
    (after : Heard listeners skipListeners later second) :
    Heard listeners skipListeners (results ++ later) (first ++ second) where
  chunks listener registered := by
    rw [hearing, List.filter_append, List.flatMap_append]
    rw [← before.chunks listener registered, ← after.chunks listener registered]
    rfl
  skips listener registered := by
    rw [List.countP_append, List.countP_append, before.skips listener registered,
      after.skips listener registered]

theorem Heard.of_silent (silent : ∀ call ∈ made, call.onPart = true ∧ call.isSkipped = false) :
    Heard listeners skipListeners [] made where
  chunks listener _ := by
    apply List.filter_eq_nil_iff.mpr
    intro call member
    exact Bool.eq_false_iff.mp (Call.toListener_of_onPart (silent call member).1)
  skips listener _ := by
    have untold : made.countP (Call.toSkipListener listener) = 0 := by
      apply List.countP_eq_zero.mpr
      intro call member
      exact Bool.eq_false_iff.mp (Call.toSkipListener_of_onPart (silent call member).1)
    have undecided : made.countP Call.isSkipped = 0 := by
      apply List.countP_eq_zero.mpr
      intro call member
      exact Bool.eq_false_iff.mp (silent call member).2
    rw [untold, undecided]

/-- Nobody is told anything while a chunk is read. -/
theorem Heard.of_reading {room : Nat} {items : List ι} {ending : Result ChunkStatus}
    (reading : Protocol.Reading room items ending made) :
    Heard listeners skipListeners [] made := by
  apply Heard.of_silent
  intro call member
  have read := isRead_of_reading reading call member
  cases call with
  | next answer => exact ⟨rfl, rfl⟩
  | _ => cases read

theorem Chunk.heard {items : List ι} {result : Result (List ω)}
    (chunk : Chunk listeners skipListeners items result made) :
    Heard listeners skipListeners [result] made := by
  cases chunk with
  | @announced body transact reports =>
    constructor
    · intro listener registered
      rw [hearing, List.filter_append, List.filter_append,
        Call.filter_toAll registered fun _ => rfl,
        Call.filter_toAll registered (Call.toListener_verdict result)]
      have quiet : hearing listener body = [] := reports.hearing_eq_nil
      rw [hearing] at quiet
      rw [quiet]
      rfl
    · intro listener registered
      -- The notices around the transaction are not about single items.
      have ends {keep : Call ι ω → Bool} (apart : ∀ index, keep (.verdict result index) = false) :
          (Call.toAll listeners (Call.verdict result)).countP keep = 0 := Call.countP_toAll apart
      have begins {keep : Call ι ω → Bool} (apart : ∀ index, keep (.beforeChunk index) = false) :
          (Call.toAll listeners .beforeChunk).countP keep = 0 := Call.countP_toAll apart
      rw [List.countP_append, List.countP_append, List.countP_append, List.countP_append,
        begins fun _ => rfl, begins fun _ => rfl, ends fun _ => by cases result <;> rfl,
        ends fun _ => by cases result <;> rfl, reports.countP_skip registered]

theorem Round.heard (round : Round size listeners skipListeners results made) :
    Heard listeners skipListeners results made := by
  cases round with
  | silent read _ => exact .of_reading read
  | announced read _ chunk => exact (Heard.of_reading read).append chunk.heard

theorem Rounds.append {later : List (Result (List ω))} {first second : List (Call ι ω)}
    (before : Rounds size listeners skipListeners results first)
    (after : Rounds size listeners skipListeners later second) :
    Rounds size listeners skipListeners (results ++ later) (first ++ second) := by
  induction before with
  | nil => exact after
  | cons round rest ih =>
    rw [List.append_assoc, List.append_assoc]
    exact .cons round ih

theorem Rounds.heard (all : Rounds size listeners skipListeners results made) :
    Heard listeners skipListeners results made := by
  induction all with
  | nil => exact .of_silent nofun
  | cons first rest ih => exact first.heard.append ih

theorem Run.heard (run : Run size listeners skipListeners results made) :
    Heard listeners skipListeners results made := by
  cases run with
  | notOpened => exact .of_silent (by simp)
  | @opened _ word closed all =>
    have opening : Heard listeners skipListeners [] [(.openStore (.ok ()) : Call ι ω)] :=
      .of_silent (by simp)
    have closing : Heard listeners skipListeners []
        (closed.map fun answer => (.closeStore answer : Call ι ω)).toList :=
      .of_silent (by cases closed <;> simp)
    have heard := opening.append (all.heard.append closing)
    rwa [List.nil_append, List.append_nil] at heard

/-- All chunk listeners are told of a chunk that is committed. -/
theorem Chunk.afterChunks {items : List ι} {result : Result (List ω)}
    (chunk : Chunk listeners skipListeners items result made) :
    made.filter Call.isAfterChunk =
      (committedBy result).flatMap fun outputs => Call.toAll listeners (.afterChunk · outputs) := by
  cases chunk with
  | @announced body transact reports =>
    have quiet : body.filter Call.isAfterChunk = [] :=
      reports.filter_eq_nil (fun _ => Call.isAfterChunk_of_onPart) fun _ _ _ => rfl
    rw [List.filter_append, List.filter_append, Call.filter_toAll_eq_nil fun _ => rfl, quiet]
    cases result with
    | error error => exact Call.filter_toAll_eq_nil fun _ => rfl
    | ok outputs =>
      have told : (Call.toAll listeners (.afterChunk (ι := ι) · outputs)).filter
          Call.isAfterChunk = Call.toAll listeners (.afterChunk · outputs) := by
        simp [Call.toAll, List.filter_map, Function.comp_def, Call.isAfterChunk]
      rw [List.nil_append, List.nil_append, committedBy, List.flatMap_singleton]
      exact told

theorem Rounds.afterChunks (all : Rounds size listeners skipListeners results made) :
    made.filter Call.isAfterChunk = (results.flatMap committedBy).flatMap fun outputs =>
      Call.toAll listeners (.afterChunk · outputs) := by
  induction all with
  | nil => rfl
  | cons first rest ih =>
    rw [List.filter_append, List.flatMap_append, List.flatMap_append, ih]
    congr 1
    cases first with
    | silent read _ => exact filter_reading read fun _ => rfl
    | announced read _ chunk =>
      rw [List.filter_append, filter_reading read fun _ => rfl, chunk.afterChunks,
        List.flatMap_singleton, List.nil_append]

theorem Run.afterChunks (run : Run size listeners skipListeners results made) :
    made.filter Call.isAfterChunk = (results.flatMap committedBy).flatMap fun outputs =>
      Call.toAll listeners (.afterChunk · outputs) := by
  cases run with
  | notOpened => rfl
  | @opened _ word closed all =>
    have closing : (closed.map fun answer => (.closeStore answer : Call ι ω)).toList.filter
        Call.isAfterChunk = [] := by cases closed <;> rfl
    rw [List.filter_cons_of_neg Bool.false_ne_true, List.filter_append, closing, List.append_nil,
      all.afterChunks]

/-- How often a listener hears what, by the chunks committed and the errors of those that failed. -/
theorem countP_heard (listener : Nat) (committed : List (List ω)) (failed : List Error) :
    let results : List (Result (List ω)) := committed.map .ok ++ failed.map .error
    let heard : List (Call ι ω) := results.flatMap fun result =>
      [.beforeChunk listener, .verdict result listener]
    heard.countP Call.isBeforeChunk = committed.length + failed.length ∧
      heard.countP Call.isAfterChunk = committed.length ∧
      heard.countP Call.isAfterChunkError = failed.length := by
  intro results heard
  have counts (keep : Call ι ω → Bool) : heard.countP keep =
      (committed.map fun outputs => [Call.beforeChunk listener,
        Call.afterChunk listener outputs].countP keep).sum +
      (failed.map fun error => [Call.beforeChunk listener,
        Call.afterChunkError listener error].countP keep).sum := by
    simp [heard, results, List.flatMap_append, List.countP_append, List.countP_flatMap,
      Function.comp_def, Call.verdict]
  rw [counts, counts, counts]
  simp [List.countP_cons, Call.isBeforeChunk, Call.isAfterChunk, Call.isAfterChunkError]

/-! ## Putting announcements together -/

theorem Reports.of_silent (silent : ∀ call ∈ made, call.onPart = true ∧ call.isSkipped = false) :
    Reports skipListeners made := by
  induction made with
  | nil => exact .nil
  | cons call made ih =>
    obtain ⟨first, rest⟩ := List.forall_mem_cons.mp silent
    exact .apart first.1 first.2 (ih rest)

theorem Reports.append {first second : List (Call ι ω)} (before : Reports skipListeners first)
    (after : Reports skipListeners second) : Reports skipListeners (first ++ second) := by
  induction before with
  | nil => exact after
  | apart onPart other _ ih => exact .apart onPart other ih
  | skipped _ ih =>
    rw [List.cons_append, List.cons_append, List.append_assoc]
    exact .skipped ih

/-- A chunk is announced if the notices stand around its transaction. -/
theorem Chunk.of_split {items : List ι} {result : Result (List ω)} {body : List (Call ι ω)}
    (split : made = Call.toAll listeners .beforeChunk ++
      (body ++ Call.toAll listeners (Call.verdict result)))
    (transact : Protocol.Transaction items result (made.filter Call.onPart))
    (reports : Reports skipListeners body) :
    Chunk listeners skipListeners items result made := by
  have ends : (Call.toAll listeners (Call.verdict (ι := ι) result)).filter Call.onPart = [] :=
    Call.filter_toAll_eq_nil fun _ => by cases result <;> rfl
  rw [split, List.filter_append, List.filter_append, ends, Call.filter_toAll_eq_nil fun _ => rfl,
    List.nil_append, List.append_nil] at transact
  rw [split]
  exact .announced transact reports

end Announced

end Batchwork
