import Batchwork.Memory
import Batchwork.Processor
import Batchwork.Proofs.Step.Announcements
import Batchwork.Proofs.Step.Breakdown

/-!
# What listeners are told

Every run announces its chunks as the grammar of announcements says, whatever its parts answer and
however many listeners are registered. Main statement: `execute_notifies`.
-/

namespace Batchwork

variable {σ ε ι ω : Type}

namespace ChunkStep

variable {step : ChunkStep σ ε ι ω} {p after : Progress σ} {events : List (StepEvent ι ω ε)}

theorem notify_toAll {κ : Type} {act : κ → Act σ ε Unit} {call : Nat → Call ι ω}
    {listeners : List κ} {heard : List (StepEvent ι ω ε)}
    (notice : notify act call 0 listeners p = ⟨(), heard, after⟩) :
    calls heard = Call.toAll listeners.length call := by
  rw [notify_calls notice, Call.toAll, List.range_eq_range']

theorem Reads.reading {room : Nat} {items : List ι} {ending : Result ChunkStatus}
    (reads : step.Reads room p events items ending after) :
    Protocol.Reading room items ending (calls events) := by
  induction reads with
  | full => exact .full
  | finished answer => simpa using .finished
  | failed answer => simpa using .failed
  | item answer rest ih => simpa using .item ih

theorem Reads.chunkFailure {room : Nat} {items : List ι} {ending : Result ChunkStatus}
    (reads : step.Reads room p events items ending after) :
    chunkFailure? (calls events) = none := by
  rw [chunkFailure?, reads.failure]
  cases ending <;> rfl

/-- Processing reports each item that it skips. -/
theorem Processes.reports {items : List ι} {outputs : List ω} {ending : Result Unit}
    (processes : step.Processes items p events outputs ending after) :
    Announced.Reports step.skipListeners.length (calls events) := by
  induction processes with
  | done => exact .nil
  | output answer rest ih =>
    rw [calls_append, calls_asked]
    exact .apart rfl rfl ih
  | filtered answer rest ih =>
    rw [calls_append, calls_asked, calls_log]
    exact .apart rfl rfl ih
  | skipped answer skip rest ih =>
    cases skip with
    | skipped verdict notice =>
      rw [calls_append, calls_asked, calls_append, calls_append, calls_asked, calls_log,
        notify_toAll notice]
      exact .skipped ih
  | fatal answer refusal =>
    -- The policy refused, so nobody is told of the item.
    cases refusal with
    | refused verdict | overruled verdict =>
      rw [calls_append, calls_asked, calls_append, calls_asked, calls_log]
      exact .apart rfl rfl (.apart rfl rfl .nil)

theorem Writes.reports {outputs : List ω} {answer : Result Unit}
    (writes : step.Writes outputs p events answer after) :
    Announced.Reports step.skipListeners.length (calls events) := by
  apply Announced.Reports.of_silent
  cases writes <;> simp

theorem RollsBack.calls_eq {cause : Error} (undo : step.RollsBack cause p events after) :
    ∃ undone, calls events =
      .rollback undone :: Call.toAll step.chunkListeners.length (.afterChunkError · cause) := by
  cases undo with
  | @rolledBack _ _ _ undone _ answer notice =>
    refine ⟨undone, ?_⟩
    rw [calls_log, calls_append, calls_asked, calls_append, calls_noted, notify_toAll notice]
    rfl

/-- The calls of a transaction, without the notices around it. -/
theorem Transacts.body {items : List ι} {result : Result (List ω)}
    (transacts : step.Transacts items p events result after) :
    ∃ body, calls events = Call.toAll step.chunkListeners.length .beforeChunk ++
        (body ++ Call.toAll step.chunkListeners.length (Call.verdict result)) ∧
      Announced.Reports step.skipListeners.length body := by
  -- The last call on a part is the begin that failed, the rollback or the commit.
  have last {call : Call ι ω} (onPart : call.onPart = true) (other : call.isSkipped = false) :
      Announced.Reports step.skipListeners.length [call] := .apart onPart other .nil
  cases transacts with
  | @notBegun _ _ _ _ error _ _ before answer notice =>
    refine ⟨[.begin (.error error)], ?_, last rfl rfl⟩
    rw [calls_append, calls_append, calls_asked, notify_toAll before, notify_toAll notice]
    rfl
  | notProcessed before answer process undo =>
    obtain ⟨undone, rollback⟩ := undo.calls_eq
    refine ⟨.begin (.ok ()) :: (calls _ ++ [.rollback undone]), ?_,
      .apart rfl rfl (process.reports.append (last rfl rfl))⟩
    rw [calls_append, calls_append, calls_asked, calls_log, calls_append, notify_toAll before,
      rollback]
    simp only [List.append_assoc, List.cons_append, List.nil_append]
    rfl
  | notWritten before answer process write undo =>
    obtain ⟨undone, rollback⟩ := undo.calls_eq
    refine ⟨.begin (.ok ()) :: (calls _ ++ (calls _ ++ [.rollback undone])), ?_,
      .apart rfl rfl (process.reports.append (write.reports.append (last rfl rfl)))⟩
    rw [calls_append, calls_append, calls_asked, calls_log, calls_append, calls_append,
      notify_toAll before, rollback]
    simp only [List.append_assoc, List.cons_append, List.nil_append]
    rfl
  | @notCommitted _ _ _ _ _ _ _ _ error _ _ _ _ _ before answer process write commit undo =>
    obtain ⟨undone, rollback⟩ := undo.calls_eq
    have ending : Announced.Reports step.skipListeners.length
        [(.commit (.error error) : Call ι ω), .rollback undone] := .apart rfl rfl (last rfl rfl)
    refine ⟨.begin (.ok ()) :: (calls _ ++ (calls _ ++
      [.commit (.error error), .rollback undone])), ?_,
      .apart rfl rfl (process.reports.append (write.reports.append ending))⟩
    rw [calls_append, calls_append, calls_asked, calls_log, calls_append, calls_append,
      calls_append, calls_asked, notify_toAll before, rollback]
    simp only [List.append_assoc, List.cons_append, List.nil_append]
    rfl
  | committed before answer process write commit notice =>
    refine ⟨.begin (.ok ()) :: (calls _ ++ (calls _ ++ [.commit (.ok ())])), ?_,
      .apart rfl rfl (process.reports.append (write.reports.append (last rfl rfl)))⟩
    rw [calls_append, calls_append, calls_asked, calls_log, calls_append, calls_append,
      calls_append, calls_asked, calls_log, notify_toAll before, notify_toAll notice]
    simp only [List.append_assoc, List.cons_append, List.nil_append]
    rfl

theorem Transacts.announced {items : List ι} {result : Result (List ω)}
    (transacts : step.Transacts items p events result after) :
    Announced.Chunk step.chunkListeners.length step.skipListeners.length items result
      (calls events) := by
  obtain ⟨body, split, reports⟩ := transacts.body
  exact .of_split split transacts.protocol reports

/-- The result of a transaction can be read off its calls. -/
theorem Transacts.result_eq {items : List ι} {result : Result (List ω)}
    (transacts : step.Transacts items p events result after) :
    (committedBy result).map .ok ++ (chunkFailure? (calls events)).toList.map .error =
      [result] := by
  cases transacts with
  | notBegun before answer notice =>
    have silent := notify_failure before fun _ => rfl
    simp [committedBy, chunkFailure?, silent, Stage.inChunk]
  | notProcessed before answer process undo =>
    have silent := notify_failure before fun _ => rfl
    simp [committedBy, chunkFailure?, silent, process.failure, failureAt, Stage.inChunk]
  | notWritten before answer process write undo =>
    have silent := notify_failure before fun _ => rfl
    simp [committedBy, chunkFailure?, silent, process.failure, write.failure, failureAt,
      Stage.inChunk]
  | notCommitted before answer process write commit undo =>
    have silent := notify_failure before fun _ => rfl
    simp [committedBy, chunkFailure?, silent, process.failure, write.failure, failureAt,
      Stage.inChunk]
  | committed before answer process write commit notice =>
    have silent := notify_failure before fun _ => rfl
    have told := notify_failure notice fun _ => rfl
    simp [committedBy, chunkFailure?, silent, told, process.failure, write.failure, failureAt]

theorem Processes.commitCount {items : List ι} {outputs : List ω} {ending : Result Unit}
    (process : step.Processes items p events outputs ending after) :
    after.ledger.commitCount = p.ledger.commitCount := by
  obtain ⟨filtered, skipped, rest, -, -, books⟩ := process.books
  rw [books]
  cases ending <;> rfl

theorem Writes.commitCount {outputs : List ω} {answer : Result Unit}
    (write : step.Writes outputs p events answer after) :
    after.ledger.commitCount = p.ledger.commitCount := by
  cases write <;> rfl

theorem RollsBack.commitCount {cause : Error} (undo : step.RollsBack cause p events after) :
    after.ledger.commitCount = p.ledger.commitCount := by
  rw [undo.books]
  rfl

/-- Only a commit that succeeds is counted. -/
theorem Transacts.commitCount {items : List ι} {result : Result (List ω)}
    (transacts : step.Transacts items p events result after) :
    after.ledger.commitCount = p.ledger.commitCount + (committedBy result).length := by
  cases transacts with
  | notBegun before answer notice =>
    rw [notify_ledger notice, notify_ledger before]
    rfl
  | notProcessed before answer process undo =>
    rw [undo.commitCount, process.commitCount, notify_ledger before]
    rfl
  | notWritten before answer process write undo =>
    rw [undo.commitCount, write.commitCount, process.commitCount, notify_ledger before]
    rfl
  | notCommitted before answer process write commit undo =>
    -- The commit was refused, so the ledger is still the one that the write left.
    rw [undo.commitCount, write.commitCount, process.commitCount, notify_ledger before]
    rfl
  | committed before answer process write commit notice =>
    rw [notify_ledger notice]
    simp only
    rw [write.commitCount, process.commitCount, notify_ledger before]
    rfl

/-! ## Rounds and runs -/

/-- Rounds in which the chunks committed, and the one that failed, were announced. -/
structure Announces (step : ChunkStep σ ε ι ω) (before : Ledger) (chunks : List (List ω))
    (made : List (Call ι ω)) (after : Ledger) : Prop where
  commits : Commits 0 chunks made
  rounds : Announced.Rounds step.chunkSize step.chunkListeners.length step.skipListeners.length
    (chunks.map .ok ++ (chunkFailure? made).toList.map .error) made
  counted : after.commitCount = before.commitCount + chunks.length

theorem Round.announces {result : Option (Result Unit)}
    (round : step.Round p events result after) :
    ∃ chunks, step.Announces p.ledger chunks (calls events) after.ledger := by
  have alone {results : List (Result (List ω))} {made : List (Call ι ω)}
      (first : Announced.Round step.chunkSize step.chunkListeners.length
        step.skipListeners.length results made) :
      Announced.Rounds step.chunkSize step.chunkListeners.length step.skipListeners.length
        results made := by
    simpa using Announced.Rounds.cons first .nil
  cases round with
  | notRead reads | exhausted reads =>
    rw [calls_log]
    refine ⟨[], reads.commits.unheard, ?_, by rw [reads.books]; rfl⟩
    rw [reads.chunkFailure]
    exact alone (.silent reads.reading (by simp [Except.isOk, Except.toBool]))
  | failed reads nonempty transacts | last reads nonempty transacts
  | more reads nonempty transacts =>
    rw [calls_log, calls_append]
    refine ⟨_, reads.commits.unheard.append transacts.commits.unheard, ?_, ?_⟩
    · rw [List.nil_append, chunkFailure?_append reads.failure, transacts.result_eq]
      exact alone (.announced reads.reading nonempty transacts.announced)
    · have counted := transacts.commitCount
      rw [reads.books] at counted
      exact counted

theorem Rounds.announces {rounds : Nat} {result : Option (Result Unit)}
    (all : step.Rounds rounds p events result after) :
    ∃ chunks, step.Announces p.ledger chunks (calls events) after.ledger := by
  induction all with
  | unfinished | stopped crowded => exact ⟨[], .nil 0, .nil, rfl⟩
  | last round => exact round.announces
  | more round rest ih =>
    obtain ⟨chunks, first⟩ := round.announces
    obtain ⟨later, others⟩ := ih
    obtain ⟨_, breakdown⟩ := round.breakdown
    have harmless : failure? (calls _) = none := breakdown.failure
    rw [calls_append]
    refine ⟨chunks ++ later, first.commits.append others.commits, ?_, ?_⟩
    · -- A round that another one follows has no chunk that failed.
      have rounds := first.rounds
      rw [chunkFailure?_eq_none harmless, Option.toList_none, List.map_nil, List.append_nil]
        at rounds
      rw [chunkFailure?_append harmless, List.map_append, List.append_assoc]
      exact rounds.append others.rounds
    · rw [others.counted, first.counted, List.length_append, Nat.add_assoc]

/-- Opening and closing the store adds no chunk. -/
theorem Announces.run {before after : Ledger} {chunks : List (List ω)} {made word : List (Call ι ω)}
    (announces : step.Announces before chunks made after) (closed : Option (Result Unit))
    (split : word = .openStore (.ok ()) :: (made ++ (closed.map .closeStore).toList)) :
    Announced.Run step.chunkSize step.chunkListeners.length step.skipListeners.length
        (chunkResults word) word ∧
      after.commitCount = before.commitCount + (committedChunks word).length := by
  have committed : committedChunks word = chunks := by
    rw [split]
    exact announces.commits.committedChunks closed
  have failed : chunkFailure? word = chunkFailure? made := by
    rw [split, chunkFailure?, chunkFailure?, failure?_cons, failure?_append]
    cases closed <;> simp
  constructor
  · rw [chunkResults, committed, failed, split]
    exact .opened announces.rounds
  · rw [committed, announces.counted]

/-- The chunks of a run are announced, and the ledger counts those that were committed. -/
theorem Runs.announced {rounds : Nat} {result : Option (Result Unit)}
    (runs : step.Runs rounds p events result after) :
    Announced.Run step.chunkSize step.chunkListeners.length step.skipListeners.length
        (chunkResults (calls events)) (calls events) ∧
      after.ledger.commitCount =
        p.ledger.commitCount + (committedChunks (calls events)).length := by
  cases runs with
  | notOpened answer =>
    rw [calls_log, calls_append, calls_asked, calls_log]
    exact ⟨.notOpened, rfl⟩
  | unfinished answer all =>
    obtain ⟨chunks, announces⟩ := all.announces
    exact announces.run none (by simp)
  | @closed _ _ _ _ _ _ _ closed answer all close =>
    obtain ⟨chunks, announces⟩ := all.announces
    exact announces.run (some closed) (by simp)

/-- A chunk failed if its run failed with the same error after the chunk was announced. -/
theorem Runs.chunkFailure_iff {rounds : Nat} {result : Option (Result Unit)}
    (runs : step.Runs rounds p events result after) (error : Error) :
    chunkFailure? (calls events) = some error ↔
      result = some (.error error) ∧
        ∃ stage, failedStage? (calls events) = some stage ∧ stage.inChunk = true := by
  obtain ⟨stage, breakdown⟩ := runs.breakdown
  rw [chunkFailure?, failedStage?, breakdown.failure]
  rcases result with _ | reason | ⟨⟩
  · simp
  · constructor
    · intro failed
      have inChunk : stage.inChunk = true ∧ reason = error := by simpa [failureAt] using failed
      exact ⟨by rw [inChunk.2], stage, rfl, inChunk.1⟩
    · rintro ⟨⟨⟩, _, ⟨⟩, inChunk⟩
      simp [failureAt, inChunk]
  · simp [failureAt]

/-- What listeners are told in a run. Every chunk that has items and was read without an error is
announced: all chunk listeners are told before its transaction, and behind it once more, of the
outputs that were committed or of the error that the run returns. Nothing else is announced, so a
chunk listener hears twice of each chunk, of as many that were committed as the ledger counts, and
of one that failed at most. Each item that is skipped is reported once to all skip listeners, right
behind the decision of the policy. -/
theorem execute_notifies (step : ChunkStep σ ε ι ω) (rounds : Nat) (p : Progress σ) :
    let run := step.execute rounds p
    let made := calls run.events
    Announced.Run step.chunkSize step.chunkListeners.length step.skipListeners.length
      (chunkResults made) made ∧
    (∀ error, chunkFailure? made = some error ↔
      run.value = some (.error error) ∧
        ∃ stage, failedStage? made = some stage ∧ stage.inChunk = true) ∧
    (∀ listener < step.chunkListeners.length,
      let heard := hearing listener made
      heard = ((chunkResults made).flatMap fun result =>
        [.beforeChunk listener, .verdict result listener]) ∧
      heard.countP Call.isBeforeChunk =
        heard.countP Call.isAfterChunk + heard.countP Call.isAfterChunkError ∧
      run.state.ledger.commitCount = p.ledger.commitCount + heard.countP Call.isAfterChunk ∧
      heard.countP Call.isAfterChunkError ≤ 1) ∧
    ∀ listener < step.skipListeners.length,
      run.state.ledger.processSkipCount =
        p.ledger.processSkipCount + made.countP (Call.toSkipListener listener) := by
  obtain ⟨events, result, after, runs, eq⟩ := step.execute_runs rounds p
  simp only [eq]
  obtain ⟨announced, counted⟩ := runs.announced
  have heard := announced.heard
  refine ⟨announced, runs.chunkFailure_iff, ?_, ?_⟩
  · intro listener registered
    have hears := heard.chunks listener registered
    obtain ⟨begins, ends, fails⟩ := Announced.countP_heard (ι := ι) listener
      (committedChunks (calls events)) (chunkFailure? (calls events)).toList
    have once : (chunkFailure? (calls events)).toList.length ≤ 1 := by
      cases chunkFailure? (calls events) <;> simp
    refine ⟨hears, ?_⟩
    rw [hears, chunkResults, begins, ends, fails]
    exact ⟨rfl, counted, once⟩
  · intro listener registered
    rw [heard.skips listener registered]
    exact runs.decides.consults.total_eq

/-- A step that may skip one item above two, with two chunk listeners and a skip listener. -/
def attended : ChunkStep (ItemQueue Nat) Unit Nat Nat where
  name := "attended"
  reader := ItemQueue.asReader Nat Unit
  processor := .ofFunction fun item =>
    if item % 4 = 3 then .error (.validation "odd") else .ok (some item)
  writer := { write := fun _ => pure (.ok ()) }
  transactions := .resourceless _ _
  policy := { limit := 1, kinds := [.validation] : SkipLimit }.policy _ _
  chunkSize := 2
  chunkSize_pos := Nat.two_pos
  itemSize := 8
  chunkListeners := [{}, {}]
  skipListeners := [⟨fun _ _ => pure ()⟩]

/-- The second listener hears of two chunks that were committed, one of them with an item skipped,
and of the one that failed. -/
theorem attended_notifies :
    let run := attended.execute 4 ⟨{ id := ⟨1⟩, name := "attended" }, ⟨[1, 2, 3, 4, 7, 8]⟩⟩
    hearing 1 (calls run.events) =
        [.beforeChunk 1, .afterChunk 1 [1, 2], .beforeChunk 1, .afterChunk 1 [4], .beforeChunk 1,
          .afterChunkError 1 (.skipLimitExceeded 1)] ∧
      run.value = some (.error (.skipLimitExceeded 1)) ∧
      run.state.ledger.processSkipCount = 1 := by
  intro run
  obtain ⟨-, failure, heard, skips⟩ :=
    attended.execute_notifies 4 ⟨{ id := ⟨1⟩, name := "attended" }, ⟨[1, 2, 3, 4, 7, 8]⟩⟩
  have failed := (failure (.skipLimitExceeded 1)).mp rfl
  exact ⟨(heard 1 (by decide)).1, failed.1, skips 0 (by decide)⟩

end ChunkStep

end Batchwork
