import Batchwork.Proofs.Step.Stages
import Mathlib.Algebra.Ring.Nat

/-!
# Log records

Log entries and changes of the ledger are separate steps of a run, side by side on every path. This
module reads a log the way an operator does, by the level of a record and the words it opens with,
and says that the records counted in this way agree with the ledger. No text that a part has a say
in can pass for one of these records: what an entry opens with is settled before the message of an
error or the name of the step begins. Main statement: `execute_records`.
-/

namespace Batchwork

variable {σ ε ι ω : Type}

/-- A record of the log: its level and its text. -/
structure LogRecord where
  level : LogLevel
  text : String
  deriving Repr, DecidableEq

def StepLog.record (entry : StepLog) : LogRecord := ⟨entry.level, entry.text⟩

/-- The records that the step itself wrote to the log in a run, oldest first. -/
def records (events : List (StepEvent ι ω ε)) : List LogRecord :=
  (entries events).map StepLog.record

@[simp] theorem records_append (first second : List (StepEvent ι ω ε)) :
    records (first ++ second) = records first ++ records second := by
  rw [records, entries_append, List.map_append, records, records]

@[simp] theorem records_log (entry : StepLog) (events : List (StepEvent ι ω ε)) :
    records (.log entry :: events) = entry.record :: records events := rfl

@[simp] theorem records_asked (told : List ε) (call : Call ι ω) :
    records (asked told call) = [] := by
  rw [records, entries_asked, List.map_nil]

/-! ## What records open with -/

/-- Whether a text opens with these words. -/
def opensWith (words text : String) : Bool := words.toList.isPrefixOf text.toList

theorem opensWith_self (words : String) : opensWith words words = true :=
  List.isPrefixOf_iff_prefix.mpr List.prefix_rfl

theorem opensWith_append {words text : String} (opens : opensWith words text = true)
    (rest : String) : opensWith words (text ++ rest) = true := by
  rw [opensWith, List.isPrefixOf_iff_prefix] at opens ⊢
  rw [String.toList_append]
  exact opens.trans (List.prefix_append _ _)

theorem opensWith_trans {words middle text : String} (opens : opensWith words middle = true)
    (goesOn : opensWith middle text = true) : opensWith words text = true := by
  simp only [opensWith, List.isPrefixOf_iff_prefix] at *
  exact opens.trans goesOn

/-- Of two openings of one text one opens the other. -/
theorem opensWith_total {first second text : String} (opens : opensWith first text = true)
    (other : opensWith second text = true) :
    opensWith first second = true ∨ opensWith second first = true := by
  simp only [opensWith, List.isPrefixOf_iff_prefix] at *
  exact List.prefix_or_prefix_of_prefix opens other

/-- The beginning of the message of an error, which is the same for all errors of a kind. -/
def Error.opening : Error → String
  | itemReader _ => "ItemReader error: "
  | itemProcessor _ => "ItemProcessor error: "
  | invalidItem .. => "Invalid item "
  | validation _ => "Validation failed: "
  | itemWriter _ => "ItemWriter error: "
  | transaction _ => "Transaction error: "
  | skipLimitExceeded _ => "Skip limit of "
  | step .. => "Step "
  | configuration _ => "Configuration error: "

/-- The beginning of the text of an entry, up to where the data of the run come in. -/
def StepLog.opening : StepLog → String
  | started .. => "Start of step: "
  | ended _ => "End of step: "
  | failed .. => "Step "
  | closeFailed _ => "Non-fatal error: "
  | reading => "Start reading chunk"
  | chunkRead _ => "End reading chunk: "
  | readFailed _ => "Error reading item: "
  | processing _ => "Processing chunk of "
  | filtered => "Item filtered by processor"
  | skipping _ => "Skipping item: "
  | processFailed _ => "Error processing item: "
  | skipRefused refusal _ => refusal.opening
  | nothingToWrite => "No items to write, skipping write call"
  | writing _ => "Writing chunk of "
  | writeFailed _ => "Error writing items: "
  | committed _ => "Chunk committed with "
  | rollingBack _ => "Rolling back chunk: "
  | rollbackFailed _ => "Rollback failed: "

theorem Error.opens (error : Error) : opensWith error.opening error.message = true := by
  -- Each step drops one part of the text from its end, until the opening is left.
  cases error with
  | invalidItem item reason =>
    exact opensWith_append (opensWith_append (opensWith_append (opensWith_self _) _) _) _
  | skipLimitExceeded limit => exact opensWith_append (opensWith_append (opensWith_self _) _) _
  | step name source =>
    exact opensWith_append (opensWith_append (opensWith_append (opensWith_self _) _) _) _
  | _ => exact opensWith_append (opensWith_self _) _

theorem StepLog.opens (entry : StepLog) : opensWith entry.opening entry.text = true := by
  cases entry with
  | reading | filtered | nothingToWrite => exact opensWith_self _
  | started name id =>
    exact opensWith_append (opensWith_append (opensWith_append (opensWith_self _) _) _) _
  | failed name status error =>
    refine opensWith_append (opensWith_append (opensWith_append (opensWith_append
      (opensWith_append (opensWith_self _) _) _) _) _) _
  | ended ledger =>
    -- The text has several lines in the source, each of them a text of its own.
    refine opensWith_append (opensWith_append ?_ _) _
    refine opensWith_append (opensWith_append (opensWith_append (opensWith_append
      (opensWith_append (opensWith_append (opensWith_self _) _) _) _) _) _) _
  | skipRefused refusal error =>
    exact opensWith_append (opensWith_append refusal.opens _) _
  | processing items | writing items | committed items =>
    exact opensWith_append (opensWith_append (opensWith_self _) _) _
  | chunkRead _ | closeFailed _ | readFailed _ | skipping _ | processFailed _ | writeFailed _
  | rollingBack _ | rollbackFailed _ =>
    exact opensWith_append (opensWith_self _) _

/-! ## Notices -/

/-- What the log of a run tells of its course between its first and its last record. -/
inductive Notice where
  | skipped
  | filtered
  | unread
  | rolledBack
  | committed
  | unwritten
  | unclosed
  deriving Repr, DecidableEq

namespace Notice

def level : Notice → LogLevel
  | skipped | unclosed => .warn
  | unread | unwritten => .error
  | filtered | rolledBack | committed => .debug

/-- The words by which the text of a record is known. -/
def words : Notice → String
  | skipped => "Skipping item"
  | filtered => "Item filtered by processor"
  | unread => "Error reading item"
  | rolledBack => "Rolling back chunk"
  | committed => "Chunk committed with"
  | unwritten => "Error writing items"
  | unclosed => "Non-fatal error"

/-- Whether a record is such a notice, by its level and its text alone. -/
def marks (notice : Notice) (record : LogRecord) : Bool :=
  record.level == notice.level && opensWith notice.words record.text

end Notice

/-- The notice that an entry is meant to be. -/
def StepLog.notice? : StepLog → Option Notice
  | skipping _ => some .skipped
  | filtered => some .filtered
  | readFailed _ => some .unread
  | rollingBack _ => some .rolledBack
  | committed _ => some .committed
  | writeFailed _ => some .unwritten
  | closeFailed _ => some .unclosed
  | _ => none

/-- No message of an error can pass for a notice. -/
theorem Error.opening_apart (error : Error) (notice : Notice) :
    opensWith error.opening notice.words = false ∧
      opensWith notice.words error.opening = false := by
  cases error <;> simp only [Error.opening] <;> cases notice <;> exact ⟨rfl, rfl⟩

/-- What an entry opens with, next to the words of a notice of its level: it does not end within
them, and it has them if the entry is meant to be that notice. -/
theorem StepLog.opening_words (entry : StepLog) (notice : Notice) :
    (entry.level == notice.level && opensWith entry.opening notice.words &&
      !opensWith notice.words entry.opening) = false ∧
    (entry.level == notice.level && opensWith notice.words entry.opening) =
      (entry.notice? == some notice) := by
  cases entry with
  | skipRefused refusal error =>
    obtain ⟨beyond, within⟩ := refusal.opening_apart notice
    rw [opening, beyond, within, Bool.and_false]
    exact ⟨rfl, rfl⟩
  | _ => cases notice <;> simp only [opening, Notice.words] <;> exact ⟨rfl, rfl⟩

/-- A record is a notice if its entry is meant to be that notice, and never by the data of a run. -/
@[simp] theorem Notice.marks_record (notice : Notice) (entry : StepLog) :
    notice.marks entry.record = (entry.notice? == some notice) := by
  obtain ⟨within, meant⟩ := entry.opening_words notice
  rw [← meant, marks, StepLog.record, Bool.eq_iff_iff, Bool.and_eq_true, Bool.and_eq_true]
  apply and_congr_right
  intro level
  constructor
  · -- The text has both openings, so one of them lies within the other.
    intro words
    rcases opensWith_total words entry.opens with inside | around
    · exact inside
    · simpa [level, around] using within
  · intro words
    exact opensWith_trans words entry.opens

/-! ## Records beside the ledger -/

/-- Whether a call failed to bring the outputs of a chunk to the store. -/
def Call.failsToWrite : Call ι ω → Bool
  | write _ (.error _) | flush (.error _) => true
  | _ => false

/-- Whether a call failed to close the store. -/
def Call.failsToClose : Call ι ω → Bool
  | closeStore (.error _) => true
  | _ => false

/-- The record of a committed chunk with so many items. -/
def committedRecord (items : Nat) : LogRecord := ⟨.debug, s!"Chunk committed with {items} items"⟩

/-- How often a notice is due, by what a ledger counts and by the answers to calls. -/
def Notice.due (ledger : Ledger) (made : List (Call ι ω)) : Notice → Nat
  | skipped => ledger.processSkipCount
  | filtered => ledger.filterCount
  | unread => ledger.readErrorCount
  | rolledBack => ledger.rollbackCount
  | committed => ledger.commitCount
  | unwritten => made.countP Call.failsToWrite
  | unclosed => made.countP Call.failsToClose

theorem Notice.due_append (notice : Notice) (middle after : Ledger)
    (first second : List (Call ι ω)) :
    notice.due after (first ++ second) + notice.due middle ([] : List (Call ι ω)) =
      notice.due middle first + notice.due after second := by
  cases notice
  case unwritten | unclosed => simp [due]
  -- The others go by the ledger alone.
  all_goals exact Nat.add_comm _ _

/-- The log of a part of a run agrees with what that part added to the ledger and with the answers
to its calls: every notice stands there as often as it is due, and those of committed chunks show
the sizes that add up to the count of written items. -/
structure Recorded (before after : Ledger) (made : List (Call ι ω)) (log : List LogRecord) :
    Prop where
  counted : ∀ notice : Notice, notice.due after made =
    notice.due before ([] : List (Call ι ω)) + log.countP notice.marks
  written : ∃ sizes : List Nat, log.filter Notice.committed.marks = sizes.map committedRecord ∧
    after.writeCount = before.writeCount + sizes.sum

namespace Recorded

variable {before middle after : Ledger} {first second made : List (Call ι ω)}
  {log later : List LogRecord}

theorem append (earlier : Recorded before middle first log)
    (rest : Recorded middle after second later) :
    Recorded before after (first ++ second) (log ++ later) := by
  constructor
  case counted =>
    intro notice
    -- What is due at the start of the rest was due at the end of what came before.
    have both := notice.due_append middle after first second
    have left := earlier.counted notice
    have right := rest.counted notice
    rw [List.countP_append]
    omega
  case written =>
    obtain ⟨sizes, chunks, total⟩ := earlier.written
    obtain ⟨others, more, sum⟩ := rest.written
    refine ⟨sizes ++ others, ?_, ?_⟩
    · rw [List.filter_append, chunks, more, List.map_append]
    · rw [sum, total, List.sum_append, Nat.add_assoc]

/-- Calls and changes of the ledger that no notice tells of. -/
theorem silent (counts : ∀ notice : Notice, notice.due after made =
      notice.due before ([] : List (Call ι ω)) := by intro notice; cases notice <;> rfl)
    (kept : after.writeCount = before.writeCount := by rfl) : Recorded before after made [] :=
  ⟨counts, [], rfl, kept⟩

/-- One record beside what it tells of. Records of committed chunks need a size besides. -/
theorem entry {entry : StepLog} (other : entry.notice? ≠ some .committed)
    (counts : ∀ notice : Notice, notice.due after made =
      notice.due before ([] : List (Call ι ω)) + if entry.notice? = some notice then 1 else 0 := by
        intro notice; cases notice <;> rfl)
    (kept : after.writeCount = before.writeCount := by rfl) :
    Recorded before after made [entry.record] := by
  constructor
  case counted =>
    intro notice
    rw [counts notice, List.countP_singleton, Notice.marks_record]
    simp
  case written => exact ⟨[], by simpa using other, kept⟩

theorem committed (ledger : Ledger) (items : Nat) :
    Recorded ledger
      { ledger with commitCount := ledger.commitCount + 1, writeCount := ledger.writeCount + items }
      ([] : List (Call ι ω)) [(StepLog.committed items).record] := by
  constructor
  case counted =>
    intro notice
    rw [List.countP_singleton, Notice.marks_record]
    cases notice <;> rfl
  case written =>
    refine ⟨[items], ?_, rfl⟩
    rw [List.filter_cons, Notice.marks_record]
    rfl

/-- Only calls on the writer tell of something by their answers. -/
theorem call {asked : Call ι ω} (rest : Recorded before after made log)
    (passed : asked.failsToWrite = false ∧ asked.failsToClose = false := by exact ⟨rfl, rfl⟩) :
    Recorded before after ([asked] ++ made) log := by
  have quiet : Recorded before before [asked] [] := by
    refine silent ?_
    intro notice
    cases notice
    case unwritten => simp [Notice.due, passed]
    case unclosed => simp [Notice.due, passed]
    all_goals rfl
  exact quiet.append rest

theorem setStatus (status : StepStatus) (rest : Recorded before after made log) :
    Recorded before { after with status } made log where
  counted notice := by
    rw [← rest.counted]
    cases notice <;> rfl
  written := rest.written

/-- A record, with what it tells of, before the rest of a log. -/
theorem cons {record : LogRecord}
    (earlier : Recorded before middle ([] : List (Call ι ω)) [record])
    (rest : Recorded middle after made log) : Recorded before after made (record :: log) :=
  earlier.append rest

/-- An entry that is no notice tells of nothing. -/
theorem note {entry : StepLog} (other : entry.notice? = none)
    (rest : Recorded before after made log) :
    Recorded before after made (entry.record :: log) := by
  have quiet : Recorded before before ([] : List (Call ι ω)) [entry.record] := by
    refine Recorded.entry (by simp [other]) ?_
    intro notice
    rw [other, if_neg (Option.some_ne_none notice).symm, Nat.add_zero]
  exact quiet.cons rest

end Recorded

/-! ## Stages -/

namespace ChunkStep

variable {step : ChunkStep σ ε ι ω} {p after : Progress σ} {events : List (StepEvent ι ω ε)}

theorem notify_recorded {κ : Type} {act : κ → Act σ ε Unit} {call : Nat → Call ι ω} {index : Nat}
    {listeners : List κ} (notice : notify act call index listeners p = ⟨(), events, after⟩)
    (listener : ∀ index, (call index).failsToWrite = false ∧ (call index).failsToClose = false := by
      exact fun _ => ⟨rfl, rfl⟩) :
    Recorded p.ledger after.ledger (calls events) (records events) := by
  obtain ⟨made, written, books⟩ := notify_run notice
  rw [made, records, written, books]
  apply Recorded.silent
  · intro notice
    cases notice
    case unwritten => simp [Notice.due, List.countP_eq_zero, listener]
    case unclosed => simp [Notice.due, List.countP_eq_zero, listener]
    all_goals rfl
  · rfl

theorem Reads.recorded {room : Nat} {items : List ι} {ending : Result ChunkStatus}
    (reads : step.Reads room p events items ending after) :
    Recorded p.ledger after.ledger (calls events) (records events) := by
  induction reads with
  | full => exact .entry nofun
  | finished answer | failed answer =>
    simp only [calls_append, calls_asked, records_append, records_asked]
    exact .entry nofun
  | item answer rest ih =>
    simp only [calls_append, calls_asked, records_append, records_asked]
    exact .append .silent ih

theorem Skips.recorded {item : ι} {error : Error} {verdict : Result Unit}
    (skips : step.Skips item error p events verdict after) :
    Recorded p.ledger after.ledger (calls events) (records events) := by
  cases skips with
  | skipped answer notice =>
    -- The count goes up right behind the record, before any listener can interfere.
    have told := notify_recorded notice
    simp only [calls_append, calls_asked, calls_log, records_append, records_asked, records_log]
    exact .call (.cons (.entry nofun) told)
  | refused answer | overruled answer =>
    simp only [calls_append, calls_asked, records_append, records_asked]
    exact .entry nofun

theorem Processes.recorded {items : List ι} {outputs : List ω} {ending : Result Unit}
    (processes : step.Processes items p events outputs ending after) :
    Recorded p.ledger after.ledger (calls events) (records events) := by
  induction processes with
  | done => exact .silent
  | output answer rest ih =>
    simp only [calls_append, calls_asked, records_append, records_asked]
    exact .append .silent ih
  | filtered answer rest ih =>
    simp only [calls_append, calls_asked, calls_log, records_append, records_asked, records_log,
      List.nil_append]
    exact .call (.cons (.entry nofun) ih)
  | skipped answer skip rest ih =>
    simp only [calls_append, calls_asked, records_append, records_asked]
    exact .append .silent (.append skip.recorded ih)
  | fatal answer refusal =>
    simp only [calls_append, calls_asked, records_append, records_asked]
    exact .append .silent refusal.recorded

theorem Writes.recorded {outputs : List ω} {answer : Result Unit}
    (writes : step.Writes outputs p events answer after) :
    Recorded p.ledger after.ledger (calls events) (records events) := by
  cases writes with
  | nothing empty => exact .note rfl .silent
  | written nonempty answer flush =>
    simp only [calls_append, calls_asked, calls_log, records_append, records_asked, records_log]
    exact .note rfl .silent
  | notWritten nonempty answer =>
    simp only [calls_append, calls_asked, calls_log, records_append, records_asked, records_log]
    exact .note rfl (.entry nofun)
  | notFlushed nonempty answer flush =>
    -- Either call can fail, but only one of them, and there is one record.
    simp only [calls_append, calls_asked, calls_log, records_append, records_asked, records_log]
    exact .note rfl (.call (.entry nofun))

theorem RollsBack.recorded {cause : Error} (undo : step.RollsBack cause p events after) :
    Recorded p.ledger after.ledger (calls events) (records events) := by
  cases undo with
  | @rolledBack _ told state undone heard answer notice =>
    have heard := notify_recorded notice
    simp only [calls_append, calls_asked, calls_log, calls_noted, records_append, records_asked,
      records_log, List.nil_append]
    rcases undone with error | ⟨⟩
    · -- That the rollback failed is told, but by no notice.
      exact .cons (.entry nofun) (.call (.note rfl heard))
    · exact .cons (.entry nofun) (.call heard)

theorem Transacts.recorded {items : List ι} {result : Result (List ω)}
    (transacts : step.Transacts items p events result after) :
    Recorded p.ledger after.ledger (calls events) (records events) := by
  cases transacts with
  | notBegun before answer notice =>
    have heard := notify_recorded before
    have told := notify_recorded notice
    simp only [calls_append, calls_asked, records_append, records_asked]
    exact .append heard (.append .silent told)
  | notProcessed before answer process undo =>
    have heard := notify_recorded before
    simp only [calls_append, calls_asked, calls_log, records_append, records_asked, records_log]
    exact .append heard (.call (.note rfl
      (.append process.recorded undo.recorded)))
  | notWritten before answer process write undo =>
    have heard := notify_recorded before
    simp only [calls_append, calls_asked, calls_log, records_append, records_asked, records_log]
    exact .append heard (.call (.note rfl
      (.append process.recorded (.append write.recorded undo.recorded))))
  | notCommitted before answer process write commit undo =>
    have heard := notify_recorded before
    simp only [calls_append, calls_asked, calls_log, records_append, records_asked, records_log]
    exact .append heard (.call (.note rfl
      (.append process.recorded (.append write.recorded (.append .silent undo.recorded)))))
  | committed before answer process write commit notice =>
    have heard := notify_recorded before
    have told := notify_recorded notice
    simp only [calls_append, calls_asked, calls_log, records_append, records_asked, records_log]
    refine .append heard (.call (.note rfl
      (.append process.recorded (.append write.recorded ?_))))
    -- Items count as written only now, with the chunk that they belong to.
    exact .call (.cons (.committed _ _) told)

theorem Round.recorded {result : Option (Result Unit)}
    (round : step.Round p events result after) :
    Recorded p.ledger after.ledger (calls events) (records events) := by
  cases round with
  | notRead reads | exhausted reads =>
    rw [calls_log, records_log]
    exact .note rfl (reads.recorded.setStatus _)
  | failed reads nonempty transacts | more reads nonempty transacts =>
    rw [calls_log, records_log, calls_append, records_append]
    exact .note rfl (reads.recorded.append transacts.recorded)
  | last reads nonempty transacts =>
    rw [calls_log, records_log, calls_append, records_append]
    exact .note rfl ((reads.recorded.append transacts.recorded).setStatus _)

theorem Rounds.recorded {rounds : Nat} {result : Option (Result Unit)}
    (all : step.Rounds rounds p events result after) :
    Recorded p.ledger after.ledger (calls events) (records events) := by
  induction all with
  | unfinished => exact .silent
  | stopped crowded => exact .note rfl .silent
  | last round => exact round.recorded
  | more round rest ih =>
    rw [calls_append, records_append]
    exact .append round.recorded ih

/-! ## Runs -/

/-- The last record of a run that has a result. -/
def lastRecord (books : Ledger) : Result Unit → LogRecord
  | .ok () =>
    ⟨.info, s!"End of step: {books.name}, id: {books.id.text}, read: {books.readCount}, " ++
      s!"written: {books.writeCount}, filtered: {books.filterCount}, " ++
      s!"skipped: {books.processSkipCount}"⟩
  | .error error =>
    ⟨.error, s!"Step {books.name} failed with status {books.status.text}: {error.message}"⟩

theorem lastEntry_record (books : Ledger) (result : Result Unit) :
    (lastEntry books result).record = lastRecord books result := by
  rcases result with error | ⟨⟩ <;> rfl

/-- Between its first and its last record, the log of a run agrees with its ledger. -/
theorem Runs.recorded {rounds : Nat} {result : Option (Result Unit)}
    (runs : step.Runs rounds p events result after) :
    ∃ log, records events =
        ⟨.info, s!"Start of step: {p.ledger.name}, id: {p.ledger.id.text}"⟩ ::
          (log ++ (result.map (lastRecord after.ledger)).toList) ∧
      Recorded p.ledger after.ledger (calls events) log := by
  cases runs with
  | notOpened answer =>
    refine ⟨[], ?_, ?_⟩
    · simp only [records_log, records_append, records_asked, lastEntry_record]
      rfl
    · rw [calls_log, calls_append, calls_asked]
      exact .call .silent
  | @unfinished _ told state events answer all =>
    refine ⟨records events, ?_, ?_⟩
    · rw [records_log, records_append, records_asked]
      exact congrArg _ (List.append_nil _).symm
    · rw [calls_log, calls_append, calls_asked]
      exact .append .silent all.recorded
  | @closed after told closing state final events result closed answer all close =>
    refine ⟨records events ++ records (noted .closeFailed closed : List (StepEvent ι ω ε)), ?_, ?_⟩
    · simp only [records_log, records_append, records_asked, lastEntry_record, List.append_assoc]
      rfl
    · have closing : Recorded after.ledger after.ledger [(.closeStore closed : Call ι ω)]
          (records (noted .closeFailed closed : List (StepEvent ι ω ε))) := by
        -- That the store did not close is told, and the ledger stays as it is.
        rcases closed with error | ⟨⟩
        · exact .entry nofun
        · exact .silent
      have opening : Recorded p.ledger { p.ledger with status := .started }
          [(.openStore (.ok ()) : Call ι ω)] [] := .silent
      simp only [calls_log, calls_append, calls_asked, calls_noted, calls_nil, List.append_nil]
      exact opening.append (all.recorded.append closing)

/-- The log of the step tells what its ledger counts, for every behaviour of the parts. Its first
record is the start of the step, and its last one tells the result with the final counts or with the
final status and the error. In between, by the level and the words of its records, it has one for
every item skipped and filtered, every error of the reader, every rollback and every committed
chunk, whose sizes add up to the items written, and for every write, flush and closing that failed.
Only a store that was opened is closed. -/
theorem execute_records (step : ChunkStep σ ε ι ω) (rounds : Nat) (p : Progress σ) :
    let run := step.execute rounds p
    let books := run.state.ledger
    (∃ log, records run.events =
        ⟨.info, s!"Start of step: {p.ledger.name}, id: {p.ledger.id.text}"⟩ ::
          (log ++ (run.value.map (lastRecord books)).toList) ∧
      Recorded p.ledger books (calls run.events) log) ∧
    ∀ answer, .closeStore answer ∈ calls run.events →
      (calls run.events).head? = some (.openStore (.ok ())) := by
  obtain ⟨events, result, after, runs, eq⟩ := step.execute_runs rounds p
  simp only [eq]
  refine ⟨runs.recorded, ?_⟩
  intro answer closes
  cases runs with
  | notOpened answer => simp at closes
  | unfinished answer all | closed answer all close => simp

end ChunkStep

end Batchwork
