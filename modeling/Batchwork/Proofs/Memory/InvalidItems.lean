import Batchwork.Proofs.Memory.Restarts
import Batchwork.Proofs.Step.Notifications
import Batchwork.Proofs.Table.Slices

/-!
# Invalid items

A step from a queue to a store that validates its items either filters the invalid ones or fails on
them, under a rule that lets all of them be skipped. Both store the same items in the same chunks,
and tell the chunk listeners the same of them. Only the books say what became of the invalid ones.
Main statement: `execute_validating`.
-/

namespace Batchwork

open Processor (Rejection)
open TableWriter (Cut)

variable {σ δ ε ι ω α : Type}

/-! ## The chunks of a run that succeeds -/

section

variable {step : ChunkStep σ ε ι ω} {queue : Place σ (ItemQueue ι)} {place : Place σ (ItemStore ω)}
  {input : δ → ε} {name : ComponentLog → ε} {f : ι → Result (Option ω)}
  {p after : Progress σ} {events : List (StepEvent ι ω ε)}

namespace ChunkStep

/-- A chunk in front of slices is a slice too. Nothing needs to be behind it. -/
theorem cut_cons {size : Nat} {chunk rest : List ι} {cuts : List (List ι)} (nonempty : chunk ≠ [])
    (full : chunk.length = size) (cut : Cut size rest cuts) :
    Cut size (chunk ++ rest) (chunk :: cuts) := by
  by_cases last : rest = []
  · subst last
    rw [cut.unique .nil, List.append_nil]
    exact .single (List.length_pos_iff.mpr nonempty) (Nat.le_of_eq full)
  · exact cut.cons full last

/-- Rounds that succeed cut the items in the queue into chunks, and commit the outputs of each. -/
theorem Rounds.cuts {rounds : Nat} (all : step.Rounds rounds p events (some (.ok ())) after)
    (memory : step.QueueToStore queue place input name f) (rests : (place.get p.state).AtRest) :
    ∃ chunks, Cut step.chunkSize (queue.get p.state).items chunks ∧
      Commits step.chunkListeners.length (chunks.map (outputsOf f)) (calls events) := by
  generalize succeeded : (some (.ok ()) : Option (Result Unit)) = result at all
  induction all with
  | unfinished | stopped => cases succeeded
  | @last rounds p after events result round =>
    cases succeeded
    cases round with
    | exhausted reads =>
      rw [calls_log, reads.split memory, reads.exhausts memory]
      exact ⟨[], .nil, reads.commits⟩
    | @last read final items outputs reading transaction reads nonempty transacts =>
      obtain ⟨ending, done, covers, stored, handled, empty⟩ :=
        reads.handled nonempty transacts memory rests
      cases covers <;> cases stored
      rw [calls_log, handled.left, empty rfl, List.append_nil]
      exact ⟨[items], .single (List.length_pos_iff.mpr nonempty) handled.fits, handled.commits⟩
  | @more rounds p middle after first events result round rest ih =>
    cases round with
    | @more read _ chunk outputs reading transaction reads nonempty transacts =>
      obtain ⟨ending, done, covers, stored, handled, -⟩ :=
        reads.handled nonempty transacts memory rests
      cases covers <;> cases stored
      obtain ⟨chunks, cut, commits⟩ := ih handled.rests succeeded
      rw [calls_append, calls_log, handled.left]
      exact ⟨chunk :: chunks, cut_cons nonempty (reads.length_eq rfl) cut,
        handled.commits.append commits⟩

/-- All chunk listeners are told of exactly the chunks that are committed. -/
theorem Runs.afterChunks {rounds : Nat} {result : Option (Result Unit)}
    (runs : step.Runs rounds p events result after) :
    (calls events).filter Call.isAfterChunk = (committedChunks (calls events)).flatMap
      fun outputs => Call.toAll step.chunkListeners.length (.afterChunk · outputs) := by
  have committed : (chunkResults (calls events)).flatMap committedBy =
      committedChunks (calls events) := by
    simp [chunkResults, List.flatMap_append, List.flatMap_map, committedBy]
  rw [runs.announced.1.afterChunks, committed]

theorem Runs.cuts {rounds : Nat} (runs : step.Runs rounds p events (some (.ok ())) after)
    (memory : step.QueueToStore queue place input name f) (rests : (place.get p.state).AtRest) :
    ∃ chunks, Cut step.chunkSize (queue.get p.state).items chunks ∧
      committedChunks (calls events) = chunks.map (outputsOf f) := by
  cases runs with
  | @closed _ _ _ _ _ _ _ closed answer all close =>
    obtain ⟨-, rfl, rfl⟩ := memory.stores.opened answer
    obtain ⟨chunks, cut, commits⟩ := all.cuts memory rests
    refine ⟨chunks, cut, ?_⟩
    simpa using commits.committedChunks (some closed)

end ChunkStep

end

/-! ## Items that a check accepts -/

section

variable (check : α → Result Unit)

def accepts (item : α) : Bool := (check item).isOk

def rejects (item : α) : Bool := !accepts check item

/-- What a validator answers for an item. -/
def validated : Rejection → α → Result (Option α)
  | .fail, item => (check item).map fun () => some item
  | .filter, item => .ok (if accepts check item then some item else none)

variable {check} {items : List α} {rule : SkipLimit} {skipped : Nat}

theorem accepts_of_ok {item : α} (accepted : check item = .ok ()) : accepts check item = true := by
  rw [accepts, accepted]
  rfl

theorem accepts_of_error {item : α} {error : Error} (rejected : check item = .error error) :
    accepts check item = false := by
  rw [accepts, rejected]
  rfl

theorem validated_ok {item : α} (accepted : check item = .ok ()) (rejection : Rejection) :
    validated check rejection item = .ok (some item) := by
  cases rejection with
  | fail => rw [validated, accepted, Except.map]
  | filter => rw [validated, accepts_of_ok accepted, if_pos rfl]

theorem validated_filter {item : α} {error : Error} (rejected : check item = .error error) :
    validated check .filter item = .ok none := by
  rw [validated, accepts_of_error rejected, if_neg Bool.false_ne_true]

theorem validated_fail {item : α} {error : Error} (rejected : check item = .error error) :
    validated check .fail item = .error error := by
  rw [validated, rejected, Except.map]

/-- The items that are accepted are the outputs, whatever becomes of the others. -/
theorem outputsOf_validated (rejection : Rejection) (items : List α) :
    outputsOf (validated check rejection) items = items.filter (accepts check) := by
  rw [outputsOf, ← List.filterMap_eq_filter]
  congr 1
  funext item
  rcases answer : check item with error | ⟨⟩
  · cases rejection with
    | fail => simp [validated_fail answer, Option.guard, accepts_of_error answer]
    | filter => simp [validated_filter answer, Option.guard, accepts_of_error answer]
  · simp [validated_ok answer, Option.guard, accepts_of_ok answer]

theorem isFiltered_filter : isFiltered (validated check .filter) = rejects check := by
  funext item
  rcases answer : check item with error | ⟨⟩
  · simp [isFiltered, validated_filter answer, rejects, accepts_of_error answer]
  · simp [isFiltered, validated_ok answer, rejects, accepts_of_ok answer]

theorem isFiltered_fail (item : α) : isFiltered (validated check .fail) item = false := by
  rcases answer : check item with error | ⟨⟩
  · simp [isFiltered, validated_fail answer]
  · simp [isFiltered, validated_ok answer]

theorem failsSkippably_filter (item : α) :
    failsSkippably rule (validated check .filter) item = false := rfl

/-- Under a rule for its error, an invalid item may be skipped. -/
theorem failsSkippably_fail {item : α}
    (designated : ∀ error, check item = .error error → error.kind ∈ rule.kinds) :
    failsSkippably rule (validated check .fail) item = rejects check item := by
  rcases answer : check item with error | ⟨⟩
  · simp [failsSkippably, validated_fail answer, rejects, accepts_of_error answer,
      SkipLimit.isSkippable, designated error answer]
  · simp [failsSkippably, validated_ok answer, rejects, accepts_of_ok answer]

theorem countP_failsSkippably_fail
    (designated : ∀ item ∈ items, ∀ error, check item = .error error → error.kind ∈ rule.kinds) :
    items.countP (failsSkippably rule (validated check .fail)) = items.countP (rejects check) :=
  List.countP_congr fun item member => by rw [failsSkippably_fail (designated item member)]

theorem harmless_filter : Harmless rule (validated check .filter) skipped items := by
  rintro index reason ⟨item, error, -, fails, -⟩
  cases fails

/-- There is room in the rule for every invalid item, also for the last one. -/
theorem harmless_fail
    (designated : ∀ item ∈ items, ∀ error, check item = .error error → error.kind ∈ rule.kinds)
    (room : items.countP (rejects check) ≤ rule.limit) :
    Harmless rule (validated check .fail) 0 items := by
  rintro index reason ⟨item, error, found, fails, why⟩
  obtain ⟨inside, here⟩ := List.getElem?_eq_some_iff.mp found
  have member : item ∈ items := List.mem_of_getElem? found
  have rejected : check item = .error error := by
    rcases answer : check item with other | ⟨⟩
    · rw [validated_fail answer] at fails
      cases fails
      rfl
    · rw [validated_ok answer] at fails
      cases fails
  rcases why with ⟨undesignated, -⟩ | ⟨-, full, -⟩
  · exact undesignated (designated item member error rejected)
  · -- The item itself is one more than those skipped before it.
    have split : items.take index ++ item :: items.drop (index + 1) = items := by
      rw [← here, ← List.drop_eq_getElem_cons inside, List.take_append_drop]
    have total := congrArg (List.countP (failsSkippably rule (validated check .fail))) split
    have skippable : failsSkippably rule (validated check .fail) item = true := by
      rw [failsSkippably_fail (designated item member), rejects, accepts_of_error rejected]
      rfl
    rw [countP_failsSkippably_fail designated, List.countP_append, List.countP_cons,
      if_pos skippable] at total
    omega

/-- What a pass adds to the counters that filters the invalid items. -/
theorem wholePass_filter (size : Nat) :
    wholePass rule (validated check .filter) size items =
      { read := items.length
        filtered := items.countP (rejects check)
        written := (items.filter (accepts check)).length
        commits := (items.length + size - 1) / size } := by
  rw [wholePass, passed, isFiltered_filter, outputsOf_validated]
  simp [Tally.add_def, failsSkippably_filter]

/-- What a pass adds to the counters that skips the invalid items. -/
theorem wholePass_fail (size : Nat)
    (designated : ∀ item ∈ items, ∀ error, check item = .error error → error.kind ∈ rule.kinds) :
    wholePass rule (validated check .fail) size items =
      { read := items.length
        skipped := items.countP (rejects check)
        processErrors := items.countP (rejects check)
        written := (items.filter (accepts check)).length
        commits := (items.length + size - 1) / size } := by
  rw [wholePass, passed, countP_failsSkippably_fail designated, outputsOf_validated]
  simp [Tally.add_def, isFiltered_fail]

end

namespace ChunkStep

/-- The step with a validator for its processor, and with another policy. -/
def validating (step : ChunkStep σ ε α α) (log : ComponentLog → ε) (check : α → Result Unit)
    (rejection : Rejection) (policy : SkipPolicy σ ε) : ChunkStep σ ε α α :=
  { step with processor := .validating log check rejection, policy }

/-- A step that reads from a queue and stores its chunks in a store, which also manages its
transactions. The listeners touch neither queue nor store. How it processes its items and what it
skips does not matter. -/
structure Connects (step : ChunkStep σ ε ι ω) (queue : Place σ (ItemQueue ι))
    (place : Place σ (ItemStore ω)) (input : δ → ε) (name : ComponentLog → ε) : Prop where
  queueLawful : queue.Lawful
  storeLawful : place.Lawful
  queueApart : ∀ store state, queue.get (place.put store state) = queue.get state
  storeApart : ∀ items state, place.get (queue.put items state) = place.get state
  reader : step.reader = (ItemQueue.asReader ι δ).within queue input
  writer : step.writer = ItemStore.asWriter.within place name
  transactions : step.transactions = ItemStore.asTransactions.within place name
  chunkListeners : ∀ listener ∈ step.chunkListeners,
    listener.StandsBy (fun state => (queue.get state, place.get state)) fun _ _ => True
  skipListeners : ∀ listener ∈ step.skipListeners, ∀ item error,
    Bystander (fun state => (queue.get state, place.get state)) (fun _ _ => True)
      (listener.onSkip item error)

variable {step : ChunkStep σ ε α α} {queue : Place σ (ItemQueue α)} {place : Place σ (ItemStore α)}
  {input : δ → ε} {name log : ComponentLog → ε} {check : α → Result Unit} {rule : SkipLimit}

theorem validating_process (log : ComponentLog → ε) (check : α → Result Unit)
    (rejection : Rejection) (item : α) (state : σ) :
    ∃ told, (Processor.validating log check rejection).process item state =
      ⟨validated check rejection item, told, state⟩ := by
  rcases answer : check item with error | ⟨⟩
  · cases rejection with
    | fail =>
      rw [validated_fail answer]
      simp [Processor.validating, answer]
    | filter =>
      rw [validated_filter answer]
      simp [Processor.validating, answer, Act.tell]
  · rw [validated_ok answer]
    simp [Processor.validating, answer]

theorem Connects.queueToStore (connects : step.Connects queue place input name)
    (log : ComponentLog → ε) (check : α → Result Unit) (rejection : Rejection)
    {policy : SkipPolicy σ ε}
    (asked : ∀ error skipped state, (policy.shouldSkip error skipped state).state = state) :
    (step.validating log check rejection policy).QueueToStore queue place input name
      (validated check rejection) where
  queueLawful := connects.queueLawful
  storeLawful := connects.storeLawful
  queueApart := connects.queueApart
  storeApart := connects.storeApart
  reader := connects.reader
  answers item state := by
    obtain ⟨told, answer⟩ := validating_process log check rejection item state
    rw [validating, answer]
  writer := connects.writer
  transactions := connects.transactions
  standsBy :=
    { processor := fun item =>
        ⟨fun state => by
          obtain ⟨told, answer⟩ := validating_process log check rejection item state
          rw [validating, answer], fun _ _ _ => trivial⟩
      policy := fun error skipped =>
        ⟨fun state => congrArg (fun seen => (queue.get seen, place.get seen))
          (asked error skipped state), fun _ _ _ => trivial⟩
      skipListeners := connects.skipListeners
      chunkListeners := connects.chunkListeners }

/-- A run whose validator and rule stop it at no item. -/
theorem Connects.succeeds (connects : step.Connects queue place input name)
    (fits : step.HasRoom) (log : ComponentLog → ε) {rejection : Rejection}
    {policy : SkipPolicy σ ε} {rounds : Nat} (id : RunId) (title : String) {state : σ}
    (asked : ∀ error skipped state, policy.shouldSkip error skipped state =
      ⟨rule.ruling error skipped, [], state⟩)
    (harmless : Harmless rule (validated check rejection) 0 (queue.get state).items)
    (reachable : (place.get state).Reachable) (outside : (place.get state).inTransaction = false)
    (enough : (queue.get state).items.length / step.chunkSize < rounds) :
    let items := (queue.get state).items
    let run := (step.validating log check rejection policy).execute rounds
      ⟨{ id, name := title }, state⟩
    run.value = some (.ok ()) ∧
      (place.get run.state.state).items = (place.get state).items ++ items.filter (accepts check) ∧
      run.state.ledger = Ledger.plus { id, name := title }
        (wholePass rule (validated check rejection) step.chunkSize items) .success ∧
      ∃ chunks, Cut step.chunkSize items chunks ∧
        (calls run.events).filter Call.isAfterChunk = chunks.flatMap fun chunk =>
          Call.toAll step.chunkListeners.length (.afterChunk · (chunk.filter (accepts check))) := by
  have memory := connects.queueToStore log check rejection
    fun error skipped state => congrArg Outcome.state (asked error skipped state)
  have ruled : (step.validating log check rejection policy).RuledBy rule :=
    fun error skipped state => congrArg Outcome.value (asked error skipped state)
  have rests := reachable.atRest outside
  obtain ⟨events, result, after, runs, eq⟩ :=
    (step.validating log check rejection policy).execute_runs rounds ⟨{ id, name := title }, state⟩
  have finishes := runs.finishesByRule fits memory ruled enough (Nat.zero_le _) rests
  obtain ⟨rfl, seen⟩ := finishes.whole harmless
  obtain ⟨chunks, cut, committed⟩ := runs.cuts memory rests
  simp only [sight, Sight.mk.injEq, outputsOf_validated] at seen
  obtain ⟨books, -, stored⟩ := seen
  simp only [eq, true_and]
  refine ⟨stored, books, chunks, cut, ?_⟩
  rw [runs.afterChunks, committed, List.flatMap_map]
  simp only [outputsOf_validated]
  rfl

/-- Filtering invalid items and skipping them differ in the books alone: both runs succeed, store
the items that are accepted, and tell every chunk listener of the accepted items of each chunk. The
items that are not accepted are counted as filtered, or as failed and skipped. -/
theorem execute_validating (connects : step.Connects queue place input name)
    (fits : step.HasRoom) (log : ComponentLog → ε) (rounds : Nat) (first second : RunId)
    (title : String) (state : σ) (reachable : (place.get state).Reachable)
    (outside : (place.get state).inTransaction = false)
    (enough : (queue.get state).items.length / step.chunkSize < rounds)
    (designated : ∀ item ∈ (queue.get state).items, ∀ error, check item = .error error →
      error.kind ∈ rule.kinds)
    (room : (queue.get state).items.countP (rejects check) ≤ rule.limit) :
    let items := (queue.get state).items
    let rejected := items.countP (rejects check)
    let accepted := items.filter (accepts check)
    let chunks := (items.length + step.chunkSize - 1) / step.chunkSize
    let filtering := (step.validating log check .filter (.never σ ε)).execute rounds
      ⟨{ id := first, name := title }, state⟩
    let skipping := (step.validating log check .fail (rule.policy σ ε)).execute rounds
      ⟨{ id := second, name := title }, state⟩
    (filtering.value = some (.ok ()) ∧ skipping.value = some (.ok ())) ∧
    ((place.get filtering.state.state).items = (place.get state).items ++ accepted ∧
      (place.get skipping.state.state).items = (place.get state).items ++ accepted) ∧
    (filtering.state.ledger =
        { id := first
          name := title
          status := .success
          readCount := items.length
          filterCount := rejected
          processSkipCount := 0
          writeCount := accepted.length
          commitCount := chunks
          processErrorCount := 0 } ∧
      skipping.state.ledger =
        { id := second
          name := title
          status := .success
          readCount := items.length
          filterCount := 0
          processSkipCount := rejected
          writeCount := accepted.length
          commitCount := chunks
          processErrorCount := rejected }) ∧
    (calls skipping.events).filter Call.isAfterChunk =
      (calls filtering.events).filter Call.isAfterChunk ∧
    ∃ cuts, Cut step.chunkSize items cuts ∧
      (calls filtering.events).filter Call.isAfterChunk = cuts.flatMap fun chunk =>
        Call.toAll step.chunkListeners.length (.afterChunk · (chunk.filter (accepts check))) := by
  intro items rejected accepted chunks filtering skipping
  -- A policy that never skips is a rule without kinds.
  have never (error : Error) (skipped : Nat) (state : σ) :
      (SkipPolicy.never σ ε).shouldSkip error skipped state =
        ⟨(SkipLimit.mk 0 []).ruling error skipped, [], state⟩ := by
    rw [SkipLimit.ruling_of_kinds_nil]
    rfl
  have asked (error : Error) (skipped : Nat) (state : σ) :
      (rule.policy σ ε).shouldSkip error skipped state =
        ⟨rule.ruling error skipped, [], state⟩ := rfl
  obtain ⟨filtered, kept, books, cuts, cut, told⟩ :=
    connects.succeeds fits log first title never harmless_filter reachable outside enough
  obtain ⟨skipped, kept', books', cuts', cut', told'⟩ :=
    connects.succeeds fits log second title asked (harmless_fail designated room) reachable outside
      enough
  refine ⟨⟨filtered, skipped⟩, ⟨kept, kept'⟩, ⟨?_, ?_⟩, ?_, cuts, cut, told⟩
  · rw [books, wholePass_filter]
    simp [Ledger.plus, items, rejected, accepted, chunks]
  · rw [books', wholePass_fail _ designated]
    simp [Ledger.plus, items, rejected, accepted, chunks]
  · rw [told, told', cut.unique cut']

/-- Accepts neither zero nor four, for reasons of two kinds. -/
def sound (item : Nat) : Result Unit :=
  if item = 0 then .error (.invalidItem "0" "zero")
  else if item = 4 then .error (.validation "four")
  else .ok ()

/-- The lenient step with listeners. -/
def screened : ChunkStep (ItemQueue Nat × ItemStore Nat) ComponentLog Nat Nat :=
  { lenient with chunkListeners := [{}, {}], skipListeners := [⟨fun _ _ => pure ()⟩] }

theorem screened_connects :
    screened.Connects (.first _ _) (.second _ _) (id : ComponentLog → ComponentLog) id where
  queueLawful := Place.first_lawful _ _
  storeLawful := Place.second_lawful _ _
  queueApart _ _ := rfl
  storeApart _ _ := rfl
  reader := rfl
  writer := rfl
  transactions := rfl
  chunkListeners := by
    intro listener member
    obtain rfl : listener = {} := by simpa [screened] using member
    exact ⟨.pure _ _ _, fun _ => .pure _ _ _, fun _ => .pure _ _ _⟩
  skipListeners := by
    intro listener member item error
    cases List.mem_singleton.mp member
    exact .pure _ _ _

/-- Three of the items 1, 0, 4, 0 and 5 are left out. Both listeners are told of three chunks, and
of nothing in the second one. -/
theorem screened_validating :
    let items := [1, 0, 4, 0, 5]
    let rule : SkipLimit := { limit := 3, kinds := [.validation, .invalidItem] }
    let filtering := (screened.validating id sound .filter (.never _ _)).execute 4
      ⟨{ id := ⟨1⟩, name := "screened" }, (⟨items⟩, {})⟩
    let skipping := (screened.validating id sound .fail (rule.policy _ _)).execute 4
      ⟨{ id := ⟨2⟩, name := "screened" }, (⟨items⟩, {})⟩
    (∀ item ∈ items, ∀ error, sound item = .error error → error.kind ∈ rule.kinds) ∧
    items.countP (rejects sound) ≤ rule.limit ∧
    (filtering.value = some (.ok ()) ∧ skipping.value = some (.ok ())) ∧
    (filtering.state.state.2.items = [1, 5] ∧ skipping.state.state.2.items = [1, 5]) ∧
    (filtering.state.ledger.filterCount = 3 ∧ skipping.state.ledger.processSkipCount = 3) ∧
    (calls skipping.events).filter Call.isAfterChunk =
      [.afterChunk 0 [1], .afterChunk 1 [1], .afterChunk 0 [], .afterChunk 1 [],
        .afterChunk 0 [5], .afterChunk 1 [5]] := by
  intro items rule
  have designated : ∀ item ∈ items, ∀ error, sound item = .error error →
      error.kind ∈ rule.kinds := by
    intro item _ error rejected
    unfold sound at rejected
    split at rejected
    · cases rejected
      decide
    · split at rejected <;> cases rejected
      decide
  have room : items.countP (rejects sound) ≤ rule.limit := by decide
  obtain ⟨ended, stored, books, same, cuts, cut, told⟩ :=
    execute_validating screened_connects (by decide) id 4 ⟨1⟩ ⟨2⟩ "screened" (⟨items⟩, {}) .empty
      rfl (by decide) designated room
  have three : Cut 2 items [[1, 0], [4, 0], [5]] := ⟨rfl, by decide, by decide⟩
  rw [cut.unique three] at told
  have queued (state : ItemQueue Nat × ItemStore Nat) : (Place.first _ _).get state = state.1 := rfl
  have held (state : ItemQueue Nat × ItemStore Nat) : (Place.second _ _).get state = state.2 := rfl
  have accepted : ({} : ItemStore Nat).items ++ items.filter (accepts sound) = [1, 5] := rfl
  simp only [queued, held, accepted] at stored
  refine ⟨designated, room, ended, stored, ⟨?_, ?_⟩, same.trans told⟩
  · rw [books.1]
    rfl
  · rw [books.2]
    rfl

/-- Without room for a chunk neither run returns, although the rule has room for the zero. -/
theorem screened_vast :
    let items := [1, 0]
    let rule : SkipLimit := { limit := 1, kinds := [.invalidItem] }
    let start : Progress (ItemQueue Nat × ItemStore Nat) :=
      ⟨{ id := ⟨1⟩, name := "screened" }, (⟨items⟩, {})⟩
    screened.vast.Connects (.first _ _) (.second _ _) (id : ComponentLog → ComponentLog) id ∧
    (∀ item ∈ items, ∀ error, sound item = .error error → error.kind ∈ rule.kinds) ∧
    items.countP (rejects sound) ≤ rule.limit ∧
    ∀ rounds,
      ((screened.vast.validating id sound .filter (.never _ _)).execute rounds start).value = none ∧
      ((screened.vast.validating id sound .fail (rule.policy _ _)).execute rounds start).value =
        none := by
  intro items rule start
  refine ⟨{ screened_connects with }, ?_, by decide, fun rounds => ⟨?_, ?_⟩⟩
  · intro item member error rejected
    rcases List.mem_cons.mp member with rfl | last
    · cases rejected
    · cases List.mem_singleton.mp last
      cases rejected
      decide
  · exact ((screened.validating id sound .filter (.never _ _)).execute_vast (by decide) rfl _).1
  · exact ((screened.validating id sound .fail (rule.policy _ _)).execute_vast (by decide) rfl _).1

end ChunkStep

end Batchwork
