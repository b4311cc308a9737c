import Batchwork.Proofs.Step.Books

/-!
# Conservation of the books

What a run adds to the counters of its ledger is tied to the calls it made, and every item read is
accounted for: it was written, filtered or skipped, or belongs to the one chunk that was lost. How
many items that chunk leaves unaccounted for depends on the stage at which the run failed. Main
statement: `execute_conserves`.
-/

namespace Batchwork

variable {σ ε ι ω : Type}

/-- How many of the items read are neither written nor filtered nor skipped, by the stage at which
the run failed. `outputs` is the number of items that were processed into an output. -/
def Residue (size outputs : Nat) (tally : Tally) (rest : Nat) : Option Stage → Prop
  | none => rest = 0
  | some .opening => tally = {} ∧ rest = 0
  | some .reading => rest < size
  | some .beginning => 1 ≤ rest ∧ rest ≤ size ∧ tally.rollbacks = 0
  | some .processing => 1 ≤ rest ∧ rest ≤ size ∧ tally.rollbacks = 1
  | some .writing => rest = tally.writeErrors ∧ 1 ≤ rest ∧ rest ≤ size ∧ tally.rollbacks = 1
  | some .committing => outputs = tally.written + rest ∧ rest ≤ size ∧ tally.rollbacks = 1

/-- The books of a run with chunks of the given size balance: `tally` is what they gained by the
calls made, and `rest` items were lost with a chunk. -/
structure Balanced (size : Nat) (made : List (Call ι ω)) (status : StepStatus) (tally : Tally)
    (rest : Nat) : Prop where
  processErrors : tally.processErrors = tally.skipped + if status = .processorError then 1 else 0
  readErrors : tally.readErrors = if status = .readError then 1 else 0
  transactions : tally.commits + tally.rollbacks = made.countP Call.isBegun
  rollbacks : tally.rollbacks ≤ 1
  written : tally.written = (committedChunks made).flatten.length
  read : tally.read = made.countP Call.isItem
  balance : tally.read = tally.written + tally.filtered + tally.skipped + rest
  residue : Residue size (made.countP Call.isOutput) tally rest (failedStage? made)

/-- The status that a run leaves, by its result and its calls. -/
def statusLeft (result : Option (Result Unit)) (made : List (Call ι ω)) : StepStatus :=
  match result with
  | none => .started
  | some _ => finalStatus made


/-! ## Accounts of parts of a run -/

/-- How many items a run can lose, by the stage at which it failed after its store was opened. -/
def Loses (size rest : Nat) : Option Stage → Prop
  | none => rest = 0
  | some .opening => False
  | some .reading => rest < size
  | some .committing => rest ≤ size
  | some _ => 1 ≤ rest ∧ rest ≤ size

/-- How often a run rolls back, by the stage at which it failed. -/
def undone : Option Stage → Nat
  | some .processing | some .writing | some .committing => 1
  | _ => 0

/-- The accounts of a part of a run that failed at a stage, or did not fail: `tally` is what the
books gained by the calls made, `held` is how many items were read before, and `rest` of all items
are left without a trace. -/
structure Accounts (stage : Option Stage) (made : List (Call ι ω)) (tally : Tally)
    (held rest : Nat) : Prop where
  failed : failedStage? made = stage
  read : tally.read = made.countP Call.isItem
  transactions : tally.commits + tally.rollbacks = made.countP Call.isBegun
  written : ∃ chunks, Commits 0 chunks made ∧ tally.written = chunks.flatten.length
  balance : held + tally.read = tally.written + tally.filtered + tally.skipped + rest
  rollbacks : tally.rollbacks = undone stage
  readErrors : tally.readErrors = if stage = some .reading then 1 else 0
  processErrors : tally.processErrors = tally.skipped + if stage = some .processing then 1 else 0
  writeErrors : tally.writeErrors = if stage = some .writing then rest else 0
  settled : stage = none → made.countP Call.isOutput = tally.written
  dropped : stage = some .committing → made.countP Call.isOutput = tally.written + rest

theorem failedStage?_append {first second : List (Call ι ω)} (passed : failedStage? first = none) :
    failedStage? (first ++ second) = failedStage? second := by
  have harmless : failure? first = none := Option.map_eq_none_iff.mp passed
  rw [failedStage?, failure?_append, harmless, Option.none_or, failedStage?]

/-- Accounts go on from accounts without a failure. -/
theorem Accounts.append {stage : Option Stage} {first second : List (Call ι ω)}
    {tally later : Tally} {held middle rest : Nat} (before : Accounts none first tally held middle)
    (after : Accounts stage second later middle rest) :
    Accounts stage (first ++ second) (tally + later) held rest := by
  obtain ⟨chunks, commits, length⟩ := before.written
  obtain ⟨more, others, extra⟩ := after.written
  -- Without a failure the first part counts no rollback and no error that was not skipped.
  have kept : tally.rollbacks = 0 := before.rollbacks
  have reads : tally.readErrors = 0 := before.readErrors
  have processed : tally.processErrors = tally.skipped := before.processErrors
  have writes : tally.writeErrors = 0 := before.writeErrors
  have outputs := before.settled rfl
  rw [Tally.add_def]
  constructor
  case failed => rw [failedStage?_append before.failed, after.failed]
  case read => rw [List.countP_append, ← before.read, ← after.read]
  case transactions =>
    rw [List.countP_append, ← before.transactions, ← after.transactions]
    exact Nat.add_add_add_comm _ _ _ _
  case written =>
    refine ⟨chunks ++ more, commits.append others, ?_⟩
    rw [List.flatten_append, List.length_append, ← length, ← extra]
  case balance =>
    have left := before.balance
    have right := after.balance
    simp only
    omega
  case rollbacks => simp only [kept, Nat.zero_add, after.rollbacks]
  case readErrors => simp only [reads, Nat.zero_add, after.readErrors]
  case processErrors => simp only [processed, after.processErrors, Nat.add_assoc]
  case writeErrors => simp only [writes, Nat.zero_add, after.writeErrors]
  case settled =>
    intro passed
    rw [List.countP_append, outputs, after.settled passed]
  case dropped =>
    intro lost
    rw [List.countP_append, outputs, after.dropped lost, Nat.add_assoc]

theorem Unaccounted.accounts {made : List (Call ι ω)} (quiet : Unaccounted made)
    (commits : Commits 0 [] made) (held : Nat) : Accounts none made {} held held where
  failed := by rw [failedStage?, quiet.failure, Option.map_none]
  read := quiet.items.symm
  transactions := quiet.begun.symm
  written := ⟨[], commits, rfl⟩
  balance := by simp
  rollbacks := rfl
  readErrors := rfl
  processErrors := rfl
  writeErrors := rfl
  settled _ := quiet.outputs
  dropped lost := nomatch lost

/-- The status that rounds end with, by their result and the stage at which they failed. -/
def endStatus (before : StepStatus) : Option (Result Unit) → Option Stage → StepStatus
  | none, _ => before
  | some _, none => .success
  | some _, some stage => stage.status

/-- The books of rounds balance: they have accounts that start with no item held, and only as many
items are lost as the stage allows. -/
def Settles (size : Nat) (before : Ledger) (made : List (Call ι ω)) (result : Option (Result Unit))
    (after : Ledger) : Prop :=
  ∃ stage tally rest, (result = none → stage = none) ∧
    after = before.plus tally (endStatus before.status result stage) ∧
    Accounts stage made tally 0 rest ∧ Loses size rest stage

theorem Loses.mono {size room rest : Nat} {stage : Option Stage} (loses : Loses size rest stage)
    (fits : size ≤ room) : Loses room rest stage := by
  rcases stage with _ | stage
  · exact loses
  · cases stage <;> simp only [Loses] at loses ⊢ <;> omega

theorem Settles.opened {size : Nat} {before after : Ledger} {made : List (Call ι ω)}
    {result : Option (Result Unit)} (settles : Settles size before made result after) :
    Settles size before (.openStore (.ok ()) :: made) result after := by
  obtain ⟨stage, tally, rest, passed, books, accounts, loses⟩ := settles
  have quiet : Unaccounted [(.openStore (.ok ()) : Call ι ω)] := ⟨rfl, rfl, rfl, rfl⟩
  have opening : Commits 0 [] [(.openStore (.ok ()) : Call ι ω)] := by
    refine ⟨fun outputs settled => ?_, fun _ _ => rfl⟩
    rw [List.append_nil, ← settled]
    rfl
  exact ⟨stage, tally, rest, passed, books,
    Tally.zero_add tally ▸ (quiet.accounts opening 0).append accounts, loses⟩

theorem Settles.closed {size : Nat} {before after : Ledger} {made : List (Call ι ω)}
    {result : Option (Result Unit)} (settles : Settles size before made result after)
    (answer : Result Unit) :
    Settles size before (made ++ [.closeStore answer]) result after := by
  obtain ⟨stage, tally, rest, passed, books, accounts, loses⟩ := settles
  obtain ⟨chunks, commits, length⟩ := accounts.written
  refine ⟨stage, tally, rest, passed, books, ?_, loses⟩
  constructor
  case failed => simpa [failedStage?] using accounts.failed
  case written =>
    refine ⟨chunks, ⟨fun outputs settled => ?_, fun _ none => absurd none (by omega)⟩, length⟩
    rw [Outputs.along_append, commits.along outputs settled]
    rfl
  case read => simpa using accounts.read
  case transactions => simpa using accounts.transactions
  case settled => simpa using accounts.settled
  case dropped => simpa using accounts.dropped
  all_goals first
    | exact accounts.balance | exact accounts.rollbacks | exact accounts.readErrors
    | exact accounts.processErrors | exact accounts.writeErrors

theorem endStatus_processorError {result : Option (Result Unit)} {stage : Option Stage}
    (passed : result = none → stage = none) :
    endStatus .started result stage = .processorError ↔ stage = some .processing := by
  rcases result with _ | _
  · simp [passed rfl, endStatus]
  · rcases stage with _ | stage
    · simp [endStatus]
    · cases stage <;> simp [endStatus, Stage.status]

theorem endStatus_readError {result : Option (Result Unit)} {stage : Option Stage}
    (passed : result = none → stage = none) :
    endStatus .started result stage = .readError ↔ stage = some .reading := by
  rcases result with _ | _
  · simp [passed rfl, endStatus]
  · rcases stage with _ | stage
    · simp [endStatus]
    · cases stage <;> simp [endStatus, Stage.status]

theorem Settles.balanced {size : Nat} {before after : Ledger} {made : List (Call ι ω)}
    {result : Option (Result Unit)} (started : before.status = .started)
    (settles : Settles size before made result after) :
    ∃ tally rest, after = before.plus tally (statusLeft result made) ∧
      Balanced size made (statusLeft result made) tally rest := by
  obtain ⟨stage, tally, rest, passed, books, accounts, loses⟩ := settles
  obtain ⟨chunks, commits, length⟩ := accounts.written
  -- The status tells of the stage what the counters of errors depend on.
  have reached : endStatus .started result stage = statusLeft result made := by
    rcases result with _ | _
    · rfl
    · rw [statusLeft, finalStatus, accounts.failed]
      cases stage <;> rfl
  rw [started, reached] at books
  refine ⟨tally, rest, books, ?_⟩
  rw [← reached]
  constructor
  case processErrors =>
    simp only [endStatus_processorError passed]
    exact accounts.processErrors
  case readErrors =>
    simp only [endStatus_readError passed]
    exact accounts.readErrors
  case transactions => exact accounts.transactions
  case rollbacks =>
    rw [accounts.rollbacks]
    cases stage with
    | none => exact Nat.zero_le 1
    | some stage => cases stage <;> decide
  case written => rw [length, committedChunks, commits.along {} rfl, List.nil_append]
  case read => exact accounts.read
  case balance => rw [← accounts.balance, Nat.zero_add]
  case residue =>
    have undos := accounts.rollbacks
    have errors := accounts.writeErrors
    have drops := accounts.dropped
    rw [accounts.failed]
    rcases stage with _ | stage
    · exact loses
    · cases stage <;> simp_all [Loses, Residue, undone]

namespace ChunkStep

variable {step : ChunkStep σ ε ι ω} {p after : Progress σ} {events : List (StepEvent ι ω ε)}

theorem Reads.accounts_ok {room : Nat} {items : List ι} {status : ChunkStatus}
    (reads : step.Reads room p events items (.ok status) after) :
    after.ledger = p.ledger.plus { read := items.length } p.ledger.status ∧
      Accounts none (calls events) { read := items.length } 0 items.length := by
  obtain ⟨read, begun, outputs⟩ := reads.counts
  refine ⟨reads.books, ?_⟩
  constructor
  case failed => rw [failedStage?, reads.failure, failureAt, Option.map_none]
  case read => exact read.symm
  case transactions => exact begun.symm
  case written => exact ⟨[], reads.commits.unheard, rfl⟩
  case settled => exact fun _ => outputs
  all_goals simp [undone]

theorem Reads.accounts_error {room : Nat} {items : List ι} {error : Error}
    (reads : step.Reads room p events items (.error error) after) :
    after.ledger = p.ledger.plus { read := items.length, readErrors := 1 } p.ledger.status ∧
      Accounts (some .reading) (calls events) { read := items.length, readErrors := 1 } 0
        items.length := by
  obtain ⟨read, begun, outputs⟩ := reads.counts
  refine ⟨reads.books, ?_⟩
  constructor
  case failed => rw [failedStage?, reads.failure, failureAt, Option.map_some]
  case read => exact read.symm
  case transactions => exact begun.symm
  case written => exact ⟨[], reads.commits.unheard, rfl⟩
  all_goals simp [undone]

/-- The accounts of a committed chunk: its items were written, filtered or skipped. -/
theorem Transacts.accounts_ok {items : List ι} {outputs : List ω}
    (transacts : step.Transacts items p events (.ok outputs) after) :
    ∃ tally, after.ledger = p.ledger.plus tally p.ledger.status ∧
      Accounts none (calls events) tally items.length 0 := by
  have chunks := transacts.commits.unheard
  cases transacts with
  | committed before answer process write commit notice =>
    -- Only processing and the commit itself change the books.
    have silent := notify_unaccounted before fun _ => ⟨rfl, rfl, rfl, rfl⟩
    have told := notify_unaccounted notice fun _ => ⟨rfl, rfl, rfl, rfl⟩
    obtain ⟨filtered, skipped, rest, length, ended, books⟩ := process.books
    have none_left : rest = 0 := ended.mpr rfl
    refine ⟨
      { filtered, skipped, processErrors := skipped, commits := 1, written := outputs.length },
      ?_, ?_⟩
    · rw [notify_ledger notice, write.books_ok, books, notify_ledger before]
      simp [Ledger.processed, Ledger.plus]
    · constructor
      case failed =>
        simp [failedStage?, silent.failure, told.failure, process.failure, write.failure, failureAt]
      case read => simp [silent.items, told.items, process.counts, write.counts]
      case transactions =>
        simp [List.countP_cons, silent.begun, told.begun, process.counts, write.counts]
      case written => exact ⟨_, chunks, by simp [committedBy]⟩
      case balance => simp only; omega
      case settled =>
        intro _
        simp [silent.outputs, told.outputs, process.counts, write.counts]
      all_goals simp [undone]

/-- The accounts of a chunk that was lost. -/
theorem Transacts.accounts_error {items : List ι} {error : Error} (nonempty : items ≠ [])
    (transacts : step.Transacts items p events (.error error) after) :
    ∃ stage tally rest, after.ledger = p.ledger.plus tally stage.status ∧
      Accounts (some stage) (calls events) tally items.length rest ∧
      Loses items.length rest (some stage) := by
  have chunks := transacts.commits.unheard
  have some_item : 1 ≤ items.length := List.length_pos_iff.mpr nonempty
  cases transacts with
  | notBegun before answer notice =>
    have silent := notify_unaccounted before fun _ => ⟨rfl, rfl, rfl, rfl⟩
    have told := notify_unaccounted notice fun _ => ⟨rfl, rfl, rfl, rfl⟩
    -- Nothing was processed, so the whole chunk is lost.
    refine ⟨.beginning, {}, items.length, ?_, ?_, some_item, Nat.le_refl _⟩
    · rw [notify_ledger notice, notify_ledger before]
      rfl
    · constructor
      case failed => simp [failedStage?, silent.failure]
      case read => simp [silent.items, told.items]
      case transactions => simp [silent.begun, told.begun]
      case written => exact ⟨_, chunks, by simp [committedBy]⟩
      all_goals simp [undone]
  | @notProcessed _ _ _ _ _ _ _ _ _ outputs before answer process undo =>
    have silent := notify_unaccounted before fun _ => ⟨rfl, rfl, rfl, rfl⟩
    obtain ⟨filtered, skipped, rest, length, ended, books⟩ := process.books
    have some_left : rest ≠ 0 := fun none_left => by cases ended.mp none_left
    -- Lost are the outputs made so far, the fatal item and all behind it.
    refine ⟨.processing, { filtered, skipped, processErrors := skipped + 1, rollbacks := 1 },
      outputs.length + rest, ?_, ?_, by omega, by omega⟩
    · rw [undo.books, books, notify_ledger before]
      simp [Ledger.processed, Ledger.plus, Stage.status]
    · constructor
      case failed => simp [failedStage?, silent.failure, process.failure, failureAt]
      case read => simp [silent.items, process.counts, undo.unaccounted.items]
      case transactions =>
        simp [List.countP_cons, silent.begun, process.counts, undo.unaccounted.begun]
      case written => exact ⟨_, chunks, by simp [committedBy]⟩
      case balance => simp only; omega
      all_goals simp [undone]
  | @notWritten _ _ _ _ _ _ _ _ _ _ _ outputs before answer process write undo =>
    have silent := notify_unaccounted before fun _ => ⟨rfl, rfl, rfl, rfl⟩
    obtain ⟨filtered, skipped, rest, length, ended, books⟩ := process.books
    have none_left : rest = 0 := ended.mpr rfl
    -- All items are processed, so only the outputs are lost.
    obtain ⟨some_output, wrote⟩ := write.books_error
    refine ⟨.writing,
      { filtered
        skipped
        processErrors := skipped
        rollbacks := 1
        writeErrors := outputs.length },
      outputs.length, ?_, ?_, some_output, by omega⟩
    · rw [undo.books, wrote, books, notify_ledger before]
      simp [Ledger.processed, Ledger.plus, Stage.status]
    · constructor
      case failed =>
        simp [failedStage?, silent.failure, process.failure, write.failure, failureAt]
      case read => simp [silent.items, process.counts, write.counts, undo.unaccounted.items]
      case transactions =>
        simp [List.countP_cons, silent.begun, process.counts, write.counts, undo.unaccounted.begun]
      case written => exact ⟨_, chunks, by simp [committedBy]⟩
      case balance => simp only; omega
      all_goals simp [undone]
  | @notCommitted _ _ _ _ _ _ _ _ _ _ _ _ _ outputs before answer process write commit undo =>
    have silent := notify_unaccounted before fun _ => ⟨rfl, rfl, rfl, rfl⟩
    obtain ⟨filtered, skipped, rest, length, ended, books⟩ := process.books
    have none_left : rest = 0 := ended.mpr rfl
    refine ⟨.committing, { filtered, skipped, processErrors := skipped, rollbacks := 1 },
      outputs.length, ?_, ?_, by simp only [Loses]; omega⟩
    · rw [undo.books, write.books_ok, books, notify_ledger before]
      simp [Ledger.processed, Ledger.plus, Stage.status]
    · constructor
      case failed =>
        simp [failedStage?, silent.failure, process.failure, write.failure, failureAt]
      case read => simp [silent.items, process.counts, write.counts, undo.unaccounted.items]
      case transactions =>
        simp [List.countP_cons, silent.begun, process.counts, write.counts, undo.unaccounted.begun]
      case written => exact ⟨_, chunks, by simp [committedBy]⟩
      case balance => simp only; omega
      case dropped =>
        intro _
        simp [silent.outputs, process.counts, write.counts, undo.unaccounted.outputs]
      all_goals simp [undone]

/-! ## Rounds and runs -/

/-- The accounts of a chunk read and then processed. -/
theorem Round.settles {result : Option (Result Unit)}
    (round : step.Round p events result after) :
    Settles step.chunkSize p.ledger (calls events) result after.ledger := by
  cases round with
  | notRead reads =>
    obtain ⟨books, accounts⟩ := reads.accounts_error
    refine ⟨some .reading, _, _, nofun, ?_, accounts, reads.length_lt nofun⟩
    rw [books]
    rfl
  | exhausted reads =>
    obtain ⟨books, accounts⟩ := reads.accounts_ok
    refine ⟨none, _, _, fun _ => rfl, ?_, accounts, rfl⟩
    rw [books]
    rfl
  | failed reads nonempty transacts =>
    obtain ⟨books, accounts⟩ := reads.accounts_ok
    obtain ⟨stage, tally, rest, more, others, loses⟩ := transacts.accounts_error nonempty
    rw [calls_log, calls_append]
    refine ⟨some stage, _, rest, nofun, ?_, accounts.append others,
      Loses.mono loses reads.length_le⟩
    rw [more, books, Ledger.plus_plus]
    rfl
  | last reads nonempty transacts | more reads nonempty transacts =>
    obtain ⟨books, accounts⟩ := reads.accounts_ok
    obtain ⟨tally, more, others⟩ := transacts.accounts_ok
    rw [calls_log, calls_append]
    refine ⟨none, _, 0, fun _ => rfl, ?_, accounts.append others, rfl⟩
    rw [more, books, Ledger.plus_plus]
    rfl

theorem Rounds.settles {rounds : Nat} {result : Option (Result Unit)}
    (all : step.Rounds rounds p events result after) :
    Settles step.chunkSize p.ledger (calls events) result after.ledger := by
  induction all with
  | unfinished | stopped crowded =>
    have quiet : Unaccounted ([] : List (Call ι ω)) := ⟨rfl, rfl, rfl, rfl⟩
    exact ⟨none, {}, 0, fun _ => rfl, rfl, quiet.accounts (.nil 0) 0, rfl⟩
  | last round => exact round.settles
  | more round rest ih =>
    -- A round without a result leaves no item behind, so the next one starts with none held.
    obtain ⟨stage, tally, left, passed, books, accounts, loses⟩ := round.settles
    cases passed rfl
    cases loses
    obtain ⟨stage, later, left, passed, more, others, loses⟩ := ih
    rw [calls_append]
    refine ⟨stage, _, left, passed, ?_, accounts.append others, loses⟩
    rw [more, books, Ledger.plus_plus]
    rfl

theorem Runs.balanced {rounds : Nat} {result : Option (Result Unit)}
    (runs : step.Runs rounds p events result after) :
    ∃ tally rest, after.ledger = p.ledger.plus tally (statusLeft result (calls events)) ∧
      Balanced step.chunkSize (calls events) (statusLeft result (calls events)) tally rest := by
  cases runs with
  | notOpened answer =>
    refine ⟨{}, 0, by simp [statusLeft, finalStatus, failedStage?, Ledger.plus, Stage.status], ?_⟩
    constructor <;>
      simp [statusLeft, finalStatus, failedStage?, Stage.status, committedChunks, Outputs.after,
        Residue]
  | unfinished answer all =>
    obtain ⟨tally, rest, books, balanced⟩ := all.settles.opened.balanced rfl
    exact ⟨tally, rest, by simpa [Ledger.plus] using books, by simpa using balanced⟩
  | closed answer all close =>
    obtain ⟨tally, rest, books, balanced⟩ := (all.settles.opened.closed _).balanced rfl
    exact ⟨tally, rest, by simpa [Ledger.plus] using books, by simpa using balanced⟩

/-- A ledger counts the outputs of committed chunks as written, and no others. -/
theorem Runs.writeCount {rounds : Nat} {result : Option (Result Unit)}
    (runs : step.Runs rounds p events result after) :
    after.ledger.writeCount =
      p.ledger.writeCount + (committedChunks (calls events)).flatten.length := by
  obtain ⟨tally, rest, books, balanced⟩ := runs.balanced
  rw [books, ← balanced.written]
  rfl

/-- What every run adds to the counters of its ledger, however it ends: the books balance. -/
theorem execute_conserves (step : ChunkStep σ ε ι ω) (rounds : Nat) (p : Progress σ) :
    let run := step.execute rounds p
    ∃ tally rest,
      run.state.ledger = p.ledger.plus tally (statusLeft run.value (calls run.events)) ∧
        Balanced step.chunkSize (calls run.events) (statusLeft run.value (calls run.events)) tally
          rest := by
  obtain ⟨events, result, after, runs, eq⟩ := step.execute_runs rounds p
  simp only [eq]
  exact runs.balanced

end ChunkStep

end Batchwork
