import Batchwork.Memory
import Batchwork.StepBuilder
import Mathlib.Data.List.DropRight
import Mathlib.Data.List.Induction

/-!
# Steps that were built

A builder may be called in any order and as often as one likes. Of what is set the last call counts,
listeners are collected, and settings take back what was said about skipping before. Main statement:
`build_collected`, which says from the calls alone whether a step is built and what is in it.
-/

namespace Batchwork

variable {σ ε ι ω : Type}

namespace StepBuilder

/-- How a builder comes about: by its name alone, for chunks of a size, or for a step that hands its
items on. -/
inductive Entry : Type → Type → Type 1 where
  | named {ι ω : Type} (name : String) : Entry ι ω
  | chunk {ι ω : Type} (name : String) (chunkSize : Nat) : Entry ι ω
  | passThroughChunk {α : Type} (name : String) (chunkSize : Nat) : Entry α α

namespace Entry

def builder : Entry ι ω → StepBuilder σ ε ι ω
  | .named name => { name }
  | .chunk name chunkSize => .chunk name chunkSize
  | .passThroughChunk name chunkSize => .passThroughChunk name chunkSize

def name : Entry ι ω → String
  | .named name | .chunk name _ | .passThroughChunk name _ => name

/-- A builder that is not told otherwise makes chunks of ten items. -/
def chunkSize : Entry ι ω → Nat
  | .named _ => 10
  | .chunk _ chunkSize | .passThroughChunk _ chunkSize => chunkSize

def processor? : Entry ι ω → Option (Processor σ ε ι ω)
  | .named _ | .chunk .. => none
  | .passThroughChunk .. => some (.passThrough σ ε _)

end Entry

/-- What a builder may be called for. -/
inductive Call (σ ε ι ω : Type) where
  | withReader (reader : Reader σ ε ι)
  | withProcessor (processor : Processor σ ε ι ω)
  | withWriter (writer : Writer σ ε ω)
  | withTransactions (transactions : TransactionManager σ ε)
  | withChunkSize (chunkSize : Nat)
  | tolerant
  | skip (kind : ErrorKind)
  | withSkipLimit (skipLimit : Nat)
  | withPolicy (policy : SkipPolicy σ ε)
  | listenToChunks (listener : ChunkListener σ ε ω)
  | listenToSkips (listener : SkipListener σ ε ι)
  | withSettings (settings : Settings)

namespace Call

def make : Call σ ε ι ω → StepBuilder σ ε ι ω → StepBuilder σ ε ι ω
  | .withReader reader, builder => builder.withReader reader
  | .withProcessor processor, builder => builder.withProcessor processor
  | .withWriter writer, builder => builder.withWriter writer
  | .withTransactions transactions, builder => builder.withTransactions transactions
  | .withChunkSize chunkSize, builder => builder.withChunkSize chunkSize
  | .tolerant, builder => builder.tolerant
  | .skip kind, builder => builder.skip kind
  | .withSkipLimit skipLimit, builder => builder.withSkipLimit skipLimit
  | .withPolicy policy, builder => builder.withPolicy policy
  | .listenToChunks listener, builder => builder.listenToChunks listener
  | .listenToSkips listener, builder => builder.listenToSkips listener
  | .withSettings settings, builder => builder.withSettings settings

/-! What a call gives, if it gives anything of the kind. -/

def reader? : Call σ ε ι ω → Option (Reader σ ε ι)
  | .withReader reader => some reader
  | _ => none

def processor? : Call σ ε ι ω → Option (Processor σ ε ι ω)
  | .withProcessor processor => some processor
  | _ => none

def writer? : Call σ ε ι ω → Option (Writer σ ε ω)
  | .withWriter writer => some writer
  | _ => none

def transactions? : Call σ ε ι ω → Option (TransactionManager σ ε)
  | .withTransactions transactions => some transactions
  | _ => none

def policy? : Call σ ε ι ω → Option (SkipPolicy σ ε)
  | .withPolicy policy => some policy
  | _ => none

def chunkListener? : Call σ ε ι ω → Option (ChunkListener σ ε ω)
  | .listenToChunks listener => some listener
  | _ => none

def skipListener? : Call σ ε ι ω → Option (SkipListener σ ε ι)
  | .listenToSkips listener => some listener
  | _ => none

def settings? : Call σ ε ι ω → Option Settings
  | .withSettings settings => some settings
  | _ => none

/-- Settings need not have a name. -/
def name? : Call σ ε ι ω → Option String
  | .withSettings settings => settings.name
  | _ => none

def chunkSize? : Call σ ε ι ω → Option Nat
  | .withChunkSize chunkSize => some chunkSize
  | .withSettings settings => some settings.chunkSize
  | _ => none

def skipLimit? : Call σ ε ι ω → Option Nat
  | .withSkipLimit skipLimit => some skipLimit
  | .withSettings settings => some settings.skipLimit
  | _ => none

def kind? : Call σ ε ι ω → Option ErrorKind
  | .skip kind => some kind
  | _ => none

def isTolerant : Call σ ε ι ω → Bool
  | .tolerant => true
  | _ => false

end Call

/-! ## What the calls say -/

/-- What the last of the calls gives that give something of the kind. -/
def last {β : Type} (given : Call σ ε ι ω → Option β) (calls : List (Call σ ε ι ω)) : Option β :=
  (calls.filterMap given).getLast?

/-- The calls behind the last settings, or all calls if there are no settings. -/
def sinceSettings (calls : List (Call σ ε ι ω)) : List (Call σ ε ι ω) :=
  calls.rtakeWhile fun call => call.settings?.isNone

def isTolerant (calls : List (Call σ ε ι ω)) : Bool :=
  (last Call.settings? calls).any (·.faultTolerant) || (sinceSettings calls).any Call.isTolerant

/-- The kinds in the last settings and in the calls behind them. -/
def kinds (calls : List (Call σ ε ι ω)) : List ErrorKind :=
  (last Call.settings? calls).elim [] (·.skipOn) ++ (sinceSettings calls).filterMap Call.kind?

/-- The kinds that a tolerant step skips. Invalid items are skipped if no kind is given. -/
def designated (calls : List (Call σ ε ι ω)) : List ErrorKind :=
  if kinds calls = [] then [.invalidItem] else kinds calls

def limit (calls : List (Call σ ε ι ω)) : Nat := (last Call.skipLimit? calls).getD 0

/-- What is decided about an error if the calls set no policy. -/
def decision (calls : List (Call σ ε ι ω)) (error : Error) (skipped : Nat) : Result Bool :=
  if isTolerant calls ∧ error.kind ∈ designated calls then
    if skipped < limit calls then .ok true else .error (.skipLimitExceeded (limit calls))
  else .ok false

/-- What a new builder has collected after some calls. -/
def collected (entry : Entry ι ω) (calls : List (Call σ ε ι ω)) : StepBuilder σ ε ι ω :=
  calls.foldl (fun builder call => call.make builder) entry.builder

/-! ## One call -/

/-- What a call does to each part of a builder. -/
structure Makes (call : Call σ ε ι ω) (before after : StepBuilder σ ε ι ω) : Prop where
  name : after.name = call.name?.getD before.name := by rfl
  chunkSize : after.chunkSize = call.chunkSize?.getD before.chunkSize := by rfl
  skipLimit : after.skipLimit = call.skipLimit?.getD before.skipLimit := by rfl
  reader : after.reader = call.reader?.or before.reader := by rfl
  processor : after.processor = call.processor?.or before.processor := by rfl
  writer : after.writer = call.writer?.or before.writer := by rfl
  transactions : after.transactions = call.transactions?.or before.transactions := by rfl
  policy : after.policy = call.policy?.or before.policy := by rfl
  chunkListeners :
    after.chunkListeners = before.chunkListeners ++ call.chunkListener?.toList := by
      exact (List.append_nil _).symm
  skipListeners : after.skipListeners = before.skipListeners ++ call.skipListener?.toList := by
    exact (List.append_nil _).symm
  faultTolerant : after.faultTolerant =
    call.settings?.elim (before.faultTolerant || call.isTolerant) (·.faultTolerant) := by
      exact (Bool.or_false _).symm
  skippable : ∀ kind, kind ∈ after.skippable ↔
    kind ∈ call.settings?.elim (before.skippable ++ call.kind?.toList) (·.skipOn) := by
      exact fun kind => iff_of_eq (congrArg (kind ∈ ·) (List.append_nil _).symm)

/-- A kind that is designated again is not listed again. -/
theorem skip_eq (builder : StepBuilder σ ε ι ω) (kind : ErrorKind) :
    ∃ kinds, builder.skip kind = { builder with skippable := kinds } ∧
      ∀ other, other ∈ kinds ↔ other ∈ builder.skippable ++ [kind] := by
  unfold skip
  split
  next known =>
    refine ⟨builder.skippable, rfl, fun other => ?_⟩
    simp only [List.mem_append, List.mem_singleton]
    exact ⟨.inl, fun member => member.elim id (· ▸ known)⟩
  next => exact ⟨_, rfl, fun _ => .rfl⟩

theorem makes (call : Call σ ε ι ω) (builder : StepBuilder σ ε ι ω) :
    Makes call builder (call.make builder) := by
  cases call with
  | withReader | withProcessor | withWriter | withTransactions | withChunkSize | withSkipLimit
  | withPolicy => exact {}
  | tolerant => exact { faultTolerant := (Bool.or_true _).symm }
  | skip kind =>
    obtain ⟨kinds, same, members⟩ := builder.skip_eq kind
    rw [Call.make, same]
    exact { skippable := members }
  | listenToChunks listener => exact { chunkListeners := rfl }
  | listenToSkips listener => exact { skipListeners := rfl }
  | withSettings settings => exact { faultTolerant := rfl, skippable := fun _ => .rfl }

/-! ## All calls -/

section

variable (entry : Entry ι ω) (calls : List (Call σ ε ι ω)) (call : Call σ ε ι ω)

theorem collected_concat :
    collected entry (calls ++ [call]) = call.make (collected entry calls) :=
  List.foldl_concat ..

theorem last_concat {β : Type} (given : Call σ ε ι ω → Option β) :
    last given (calls ++ [call]) = (given call).or (last given calls) := by
  rw [last, List.filterMap_append, List.getLast?_append, last]
  cases found : given call <;> simp [found]

theorem sinceSettings_concat :
    sinceSettings (calls ++ [call]) =
      call.settings?.elim (sinceSettings calls ++ [call]) fun _ => [] := by
  rw [sinceSettings, List.rtakeWhile_concat, sinceSettings]
  cases call.settings? <;> rfl

/-- A part of the builder that calls may set is as it was set last. -/
theorem last_of_makes {β : Type} (part : StepBuilder σ ε ι ω → Option β)
    (given : Call σ ε ι ω → Option β)
    (sets : ∀ call builder, part (Call.make call builder) = (given call).or (part builder)) :
    part (collected entry calls) = (last given calls).or (part entry.builder) := by
  induction calls using List.reverseRecOn with
  | nil => rfl
  | append_singleton calls call ih => rw [collected_concat, sets, ih, last_concat, Option.or_assoc]

theorem lastD_of_makes {β : Type} (part : StepBuilder σ ε ι ω → β)
    (given : Call σ ε ι ω → Option β)
    (sets : ∀ call builder, part (Call.make call builder) = (given call).getD (part builder)) :
    part (collected entry calls) = (last given calls).getD (part entry.builder) := by
  have optional := last_of_makes entry calls (fun builder => some (part builder)) given
    fun call builder => by rw [sets, Option.or_some]
  rw [Option.or_some] at optional
  exact Option.some.inj optional

/-- A part of the builder that calls may append to has all that was given, in order. -/
theorem all_of_makes {β : Type} (part : StepBuilder σ ε ι ω → List β)
    (given : Call σ ε ι ω → Option β)
    (appends : ∀ call builder,
      part (Call.make call builder) = part builder ++ (given call).toList) :
    part (collected entry calls) = part entry.builder ++ calls.filterMap given := by
  induction calls using List.reverseRecOn with
  | nil => exact (List.append_nil _).symm
  | append_singleton calls call ih =>
    rw [collected_concat, appends, ih, List.filterMap_append, List.append_assoc]
    cases found : given call <;> simp [found]

/-- Settings decide whether a step is tolerant, and calls behind them may make it so. -/
theorem faultTolerant_collected : (collected entry calls).faultTolerant = isTolerant calls := by
  induction calls using List.reverseRecOn with
  | nil => cases entry <;> rfl
  | append_singleton calls call ih =>
    rw [collected_concat, (makes call _).faultTolerant, ih, isTolerant, isTolerant, last_concat,
      sinceSettings_concat]
    cases call.settings? with
    | none => simp [Bool.or_assoc]
    | some settings => simp

/-- Settings replace the kinds named before them, and calls behind them add to theirs. -/
theorem mem_skippable_collected (kind : ErrorKind) :
    kind ∈ (collected entry calls).skippable ↔ kind ∈ kinds calls := by
  induction calls using List.reverseRecOn with
  | nil => cases entry <;> rfl
  | append_singleton calls call ih =>
    rw [collected_concat, (makes call _).skippable, kinds, last_concat, sinceSettings_concat]
    cases call.settings? with
    | none =>
      rw [kinds] at ih
      cases found : call.kind? <;> simp [ih, found, or_assoc]
    | some settings => simp

/-- What a builder has in its other parts after some calls. -/
structure Holds (builder : StepBuilder σ ε ι ω) : Prop where
  name : builder.name = (last Call.name? calls).getD entry.name
  chunkSize : builder.chunkSize = (last Call.chunkSize? calls).getD entry.chunkSize
  skipLimit : builder.skipLimit = limit calls
  reader : builder.reader = last Call.reader? calls
  processor : builder.processor = (last Call.processor? calls).or entry.processor?
  writer : builder.writer = last Call.writer? calls
  transactions : builder.transactions = last Call.transactions? calls
  policy : builder.policy = last Call.policy? calls
  chunkListeners : builder.chunkListeners = calls.filterMap Call.chunkListener?
  skipListeners : builder.skipListeners = calls.filterMap Call.skipListener?

theorem collected_holds : Holds entry calls (collected entry calls) where
  name := by
    rw [lastD_of_makes entry calls (·.name) _ fun call _ => (makes call _).name]
    cases entry <;> rfl
  chunkSize := by
    rw [lastD_of_makes entry calls (·.chunkSize) _ fun call _ => (makes call _).chunkSize]
    cases entry <;> rfl
  skipLimit := by
    rw [limit, lastD_of_makes entry calls (·.skipLimit) _ fun call _ => (makes call _).skipLimit]
    cases entry <;> rfl
  reader := by
    rw [last_of_makes entry calls (·.reader) _ fun call _ => (makes call _).reader]
    cases entry <;> exact Option.or_none
  processor := by
    rw [last_of_makes entry calls (·.processor) _ fun call _ => (makes call _).processor]
    cases entry <;> rfl
  writer := by
    rw [last_of_makes entry calls (·.writer) _ fun call _ => (makes call _).writer]
    cases entry <;> exact Option.or_none
  transactions := by
    rw [last_of_makes entry calls (·.transactions) _ fun call _ => (makes call _).transactions]
    cases entry <;> exact Option.or_none
  policy := by
    rw [last_of_makes entry calls (·.policy) _ fun call _ => (makes call _).policy]
    cases entry <;> exact Option.or_none
  chunkListeners := by
    rw [all_of_makes entry calls (·.chunkListeners) _ fun call _ => (makes call _).chunkListeners]
    cases entry <;> rfl
  skipListeners := by
    rw [all_of_makes entry calls (·.skipListeners) _ fun call _ => (makes call _).skipListeners]
    cases entry <;> rfl

end

/-! ## The rule of a tolerant step -/

/-- A rule that is made for some kinds designates just these. -/
theorem foldl_on (named : List ErrorKind) (rule : SkipLimit) :
    (named.foldl SkipLimit.on rule).limit = rule.limit ∧
      ∀ kind, kind ∈ (named.foldl SkipLimit.on rule).kinds ↔
        kind ∈ rule.kinds ∨ kind ∈ named := by
  induction named generalizing rule with
  | nil => simp
  | cons first named ih =>
    obtain ⟨limit, members⟩ := ih (rule.on first)
    have one : (rule.on first).limit = rule.limit ∧
        ∀ kind, kind ∈ (rule.on first).kinds ↔ kind ∈ rule.kinds ∨ kind = first := by
      unfold SkipLimit.on
      split
      next known => exact ⟨rfl, fun kind => ⟨.inl, fun member => member.elim id (· ▸ known)⟩⟩
      next => simp
    refine ⟨limit.trans one.1, fun kind => ?_⟩
    rw [List.foldl_cons, members, one.2, List.mem_cons, or_assoc]

theorem ruling_skipRule (entry : Entry ι ω) (calls : List (Call σ ε ι ω)) (error : Error)
    (skipped : Nat) :
    (collected entry calls).skipRule.ruling error skipped =
      if error.kind ∈ designated calls then
        if skipped < limit calls then .ok true else .error (.skipLimitExceeded (limit calls))
      else .ok false := by
  have nothing : (collected entry calls).skippable.isEmpty = true ↔ kinds calls = [] := by
    simp only [List.isEmpty_iff, List.eq_nil_iff_forall_not_mem, mem_skippable_collected]
  have members (kind : ErrorKind) : kind ∈ (collected entry calls).skipRule.kinds ↔
      kind ∈ designated calls := by
    rw [skipRule, (foldl_on _ _).2, designated]
    by_cases empty : kinds calls = []
    · rw [if_pos empty, if_pos (nothing.mpr empty)]
      simp
    · rw [if_neg empty, if_neg (mt nothing.mp empty), mem_skippable_collected]
      simp
  have upTo : (collected entry calls).skipRule.limit = limit calls := by
    rw [skipRule, (foldl_on _ _).1, (collected_holds entry calls).skipLimit]
  unfold SkipLimit.ruling SkipLimit.isSkippable
  by_cases member : error.kind ∈ designated calls <;> simp [members, member, upTo]

theorem shouldSkip_collected (entry : Entry ι ω) (calls : List (Call σ ε ι ω))
    (unset : (collected entry calls).policy = none) (error : Error) (skipped : Nat) (state : σ) :
    (collected entry calls).skipPolicy.shouldSkip error skipped state =
      ⟨decision calls error skipped, [], state⟩ := by
  rw [skipPolicy, unset, faultTolerant_collected, decision]
  by_cases tolerant : isTolerant calls = true
  · simp only [tolerant, if_true, true_and, ← ruling_skipRule entry calls]
    rfl
  · simp only [tolerant]
    rfl

/-! ## Building -/

theorem build_eq_ok {builder : StepBuilder σ ε ι ω} {itemSize : Nat} {step : ChunkStep σ ε ι ω} :
    builder.build itemSize = .ok step ↔
      ∃ positive reader processor writer, builder.reader = some reader ∧
        builder.processor = some processor ∧ builder.writer = some writer ∧
        step =
          { name := builder.name, reader, processor, writer
            transactions := builder.transactions.getD (.resourceless σ ε)
            policy := builder.skipPolicy
            chunkSize := builder.chunkSize
            chunkSize_pos := positive
            itemSize
            chunkListeners := builder.chunkListeners
            skipListeners := builder.skipListeners } := by
  unfold build
  by_cases positive : 0 < builder.chunkSize
  · rcases builder.reader with _ | reader <;> rcases builder.processor with _ | processor <;>
      rcases builder.writer with _ | writer <;> simp [positive, missing, eq_comm]
  · simp [positive, missing]

/-- A builder that builds no step names itself in the error. -/
theorem build_total (builder : StepBuilder σ ε ι ω) (itemSize : Nat) :
    (∃ step, builder.build itemSize = .ok step) ∨
      ∃ what : String,
        builder.build itemSize = .error (.configuration s!"step {builder.name}: {what}") := by
  unfold build
  split
  next =>
    rcases builder.reader with _ | reader
    · exact .inr ⟨_, rfl⟩
    rcases builder.processor with _ | processor
    · exact .inr ⟨_, rfl⟩
    rcases builder.writer with _ | writer
    · exact .inr ⟨_, rfl⟩
    exact .inl ⟨_, rfl⟩
  next => exact .inr ⟨_, rfl⟩

/-- A step is built if the last chunk size is positive and a reader, a processor and a writer were
given; otherwise the builder says that it was configured badly. The step has what was given last,
and all listeners in the order in which they were given. Its policy is the last one given; without
one it skips nothing, unless the last settings or a call behind them made it tolerant, and then the
kinds named there up to the last limit. -/
theorem build_collected (entry : Entry ι ω) (calls : List (Call σ ε ι ω)) (itemSize : Nat) :
    let built := (collected entry calls).build itemSize
    let name := (last Call.name? calls).getD entry.name
    let chunkSize := (last Call.chunkSize? calls).getD entry.chunkSize
    let reader? := last Call.reader? calls
    let processor? := (last Call.processor? calls).or entry.processor?
    let writer? := last Call.writer? calls
    ((∃ step, built = .ok step) ↔
      1 ≤ chunkSize ∧ reader?.isSome ∧ processor?.isSome ∧ writer?.isSome) ∧
    ((∃ step, built = .ok step) ∨
      ∃ what : String, built = .error (.configuration s!"step {name}: {what}")) ∧
    ∀ step, built = .ok step →
      step.name = name ∧ step.chunkSize = chunkSize ∧ step.itemSize = itemSize ∧
      reader? = some step.reader ∧ processor? = some step.processor ∧
      writer? = some step.writer ∧
      step.transactions = (last Call.transactions? calls).getD (.resourceless σ ε) ∧
      step.chunkListeners = calls.filterMap Call.chunkListener? ∧
      step.skipListeners = calls.filterMap Call.skipListener? ∧
      (∀ policy, last Call.policy? calls = some policy → step.policy = policy) ∧
      (last Call.policy? calls = none → ∀ error skipped state,
        step.policy.shouldSkip error skipped state =
          ⟨decision calls error skipped, [], state⟩) := by
  intro built name chunkSize reader? processor? writer?
  have holds := collected_holds entry calls
  refine ⟨?_, ?_, fun step ok => ?_⟩
  · simp only [built, chunkSize, reader?, processor?, writer?, build_eq_ok, ← holds.chunkSize,
      ← holds.reader, ← holds.processor, ← holds.writer, Option.isSome_iff_exists]
    constructor
    · rintro ⟨step, positive, reader, processor, writer, hasReader, hasProcessor, hasWriter, -⟩
      exact ⟨positive, ⟨reader, hasReader⟩, ⟨processor, hasProcessor⟩, ⟨writer, hasWriter⟩⟩
    · rintro ⟨positive, ⟨reader, hasReader⟩, ⟨processor, hasProcessor⟩, ⟨writer, hasWriter⟩⟩
      exact ⟨_, positive, reader, processor, writer, hasReader, hasProcessor, hasWriter, rfl⟩
  · simp only [name, ← holds.name]
    exact build_total _ _
  · obtain ⟨positive, reader, processor, writer, hasReader, hasProcessor, hasWriter, rfl⟩ :=
      build_eq_ok.mp ok
    refine ⟨holds.name, holds.chunkSize, rfl, holds.reader.symm.trans hasReader,
      holds.processor.symm.trans hasProcessor, holds.writer.symm.trans hasWriter,
      congrArg (Option.getD · _) holds.transactions,
      holds.chunkListeners, holds.skipListeners, ?_, ?_⟩
    · intro policy given
      simp only [skipPolicy, holds.policy, given]
    · intro unset
      exact shouldSkip_collected entry calls (holds.policy.trans unset)

/-- Settings between two kinds to skip and before a limit. -/
def configuring : List (Call (ItemQueue Nat × ItemStore Nat) ComponentLog Nat Nat) :=
  [.skip .validation, .withReader ((ItemQueue.asReader Nat ComponentLog).within (.first _ _) id),
    .withSettings { name := "configured", chunkSize := 2, faultTolerant := true, skipLimit := 2 },
    .skip .itemProcessor, .withSkipLimit 1,
    .withWriter (ItemStore.asWriter.within (.second _ _) id)]

/-- The settings take back the first kind, and the second one joins those that they name. A policy
counts even if settings follow it. -/
theorem build_configuring :
    (∃ step, (collected (.passThroughChunk "ignored" 100) configuring).build 8 = .ok step ∧
      step.name = "configured" ∧ step.chunkSize = 2 ∧
      ∀ state, step.policy.shouldSkip (.validation "odd") 0 state = ⟨.ok false, [], state⟩ ∧
        step.policy.shouldSkip (.invalidItem "1" "odd") 0 state = ⟨.ok true, [], state⟩ ∧
        step.policy.shouldSkip (.itemProcessor "odd") 1 state =
          ⟨.error (.skipLimitExceeded 1), [], state⟩) ∧
    ∃ step, (collected (.passThroughChunk "ignored" 100)
        (.withPolicy (.never _ _) :: configuring)).build 8 = .ok step ∧
      step.policy = .never _ _ := by
  constructor
  · obtain ⟨buildable, -, parts⟩ := build_collected (.passThroughChunk "ignored" 100) configuring 8
    obtain ⟨step, built⟩ := buildable.mpr ⟨by decide, rfl, rfl, rfl⟩
    obtain ⟨name, chunkSize, -, -, -, -, -, -, -, -, decides⟩ := parts step built
    exact ⟨step, built, name, chunkSize, fun state =>
      ⟨decides rfl _ _ state, decides rfl _ _ state, decides rfl _ _ state⟩⟩
  · obtain ⟨buildable, -, parts⟩ := build_collected (.passThroughChunk "ignored" 100)
      (.withPolicy (.never _ _) :: configuring) 8
    obtain ⟨step, built⟩ := buildable.mpr ⟨by decide, rfl, rfl, rfl⟩
    obtain ⟨-, -, -, -, -, -, -, -, -, policy, -⟩ := parts step built
    exact ⟨step, built, policy _ rfl⟩

end StepBuilder

end Batchwork
