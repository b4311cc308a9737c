import Batchwork.Memory
import Batchwork.Proofs.Memory.Pass
import Batchwork.Proofs.Step.Breakdown
import Batchwork.Proofs.Step.Consultation
import Batchwork.Proofs.Step.ItemOrder

/-!
# Skip accounting

The count of skipped items lives in the ledger. It goes through chunks and from run to run, and a
rule with a limit compares it with the limit before an item is skipped. So it never exceeds the
limit, unless it did when the ledger was opened, and the first designated error at the limit ends
the run. Main statement: `execute_skipping`.
-/

namespace Batchwork

variable {σ ε ι ω : Type}

/-- Calls by which a policy is asked about each item whose processing failed, right behind the
failure, and about nothing else. It is told how many items were skipped before: `skipped` of them
before the calls. Items are processed in the order in which they were handed out. -/
structure AsksInOrder (skipped : Nat) (made : List (Call ι ω)) : Prop where
  asked : ∀ {earlier later item error}, made = earlier ++ .process item (.error error) :: later →
    ∃ verdict rest,
      later = .shouldSkip error (skipped + earlier.countP Call.isSkipped) verdict :: rest
  failed : ∀ {earlier later error before verdict},
    made = earlier ++ .shouldSkip error before verdict :: later →
      ∃ front item, earlier = front ++ [.process item (.error error)]
  inOrder : processed made <+: handed made

namespace ChunkStep

/-- The ledgers that come about from `first` when any steps under the rule are run on it one after
the other. -/
inductive Booked (rule : SkipLimit) (first : Ledger) : Ledger → Prop
  | opened : Booked rule first first
  | run {σ ε ι ω : Type} {step : ChunkStep σ ε ι ω} {ledger : Ledger} (rounds : Nat) (state : σ)
      (booked : Booked rule first ledger) (policy : step.policy = rule.policy σ ε) :
      Booked rule first (step.execute rounds ⟨ledger, state⟩).state.ledger

section

variable {step : ChunkStep σ ε ι ω} {rule : SkipLimit} {skipped total : Nat}
  {made earlier later : List (Call ι ω)}

theorem Consults.total_le (policy : step.policy = rule.policy σ ε)
    (consults : Consults step skipped made total) : total ≤ max skipped rule.limit := by
  induction consults with
  | nil => exact Nat.le_max_left _ _
  | apart _ _ ih | processed _ ih => exact ih
  | @asked skipped total item error verdict state made ruled _ ih =>
    rw [policy] at ruled
    have ruling : rule.ruling error skipped = verdict := ruled
    rcases verdict with reason | _ | _
    · exact ih
    · exact ih
    · -- The rule lets an error pass only below its limit.
      have below := (SkipLimit.ruling_skips ruling).2
      simp only [Call.isSkipped, if_true] at ih
      omega

/-- The count stays within the limit all along, not only in the end. -/
theorem Consults.count_le (policy : step.policy = rule.policy σ ε)
    (consults : Consults step skipped made total) (early : earlier <+: made) :
    skipped + earlier.countP Call.isSkipped ≤ max skipped rule.limit := by
  obtain ⟨later, rfl⟩ := early
  rcases consults.cut rfl with ⟨middle, before, -⟩ | interrupted
  · rw [← before.total_eq]
    exact before.total_le policy
  · cases interrupted with
    | @between middle front _ item error _ _ before _ =>
      have count := before.total_le policy
      rw [before.total_eq] at count
      rw [List.countP_append]
      exact count

theorem Consults.designated (policy : step.policy = rule.policy σ ε)
    (consults : Consults step skipped made total) {error : Error} {before : Nat}
    (passes : .shouldSkip error before (.ok true) ∈ made) : error.kind ∈ rule.kinds := by
  obtain ⟨earlier, later, rfl⟩ := List.append_of_mem passes
  obtain ⟨-, -, state, ruled⟩ := consults.occasion
  rw [policy] at ruled
  exact (SkipLimit.ruling_skips ruled).1

/-- At the limit, the question about a designated error is answered with the error of the rule. -/
theorem Consults.overruled (policy : step.policy = rule.policy σ ε) {item : ι} {error : Error}
    (consults : Consults step skipped (earlier ++ .process item (.error error) :: later) total)
    (designated : error.kind ∈ rule.kinds)
    (full : rule.limit ≤ skipped + earlier.countP Call.isSkipped) :
    ∃ rest, later = .shouldSkip error (skipped + earlier.countP Call.isSkipped)
      (.error (.skipLimitExceeded rule.limit)) :: rest := by
  obtain ⟨verdict, rest, rfl⟩ := consults.question
  refine ⟨rest, ?_⟩
  have question : Consults step skipped ((earlier ++ [.process item (.error error)]) ++
      .shouldSkip error (skipped + earlier.countP Call.isSkipped) verdict :: rest) total := by
    simpa using consults
  obtain ⟨-, -, state, ruled⟩ := question.occasion
  rw [policy] at ruled
  have ruling : rule.ruling error (skipped + earlier.countP Call.isSkipped) = verdict := ruled
  rw [← ruling, SkipLimit.ruling]
  simp [SkipLimit.isSkippable, designated, Nat.not_lt.mpr full]

/-- Nothing is skipped while a run cleans up. -/
theorem countP_isSkipped_of_cleansUp (cleanUp : ∀ call ∈ made, call.cleansUp = true) :
    made.countP Call.isSkipped = 0 := by
  apply List.countP_eq_zero.mpr
  intro call member
  have cleans := cleanUp call member
  cases call <;> simp_all

end

variable {step : ChunkStep σ ε ι ω} {p after : Progress σ} {events : List (StepEvent ι ω ε)}

theorem Runs.asksInOrder {rounds : Nat} {result : Option (Result Unit)}
    (runs : step.Runs rounds p events result after) :
    AsksInOrder p.ledger.processSkipCount (calls events) := by
  have consults := runs.decides.consults
  constructor
  · intro earlier later item error split
    rw [split] at consults
    exact consults.question
  · intro earlier later error before verdict split
    rw [split] at consults
    exact consults.occasion.1
  · exact runs.inOrder

/-- A designated error of the processor at the limit is the last thing that happens before the run
cleans up. -/
theorem Runs.exceeded {rule : SkipLimit} (policy : step.policy = rule.policy σ ε) {rounds : Nat}
    {result : Option (Result Unit)} (runs : step.Runs rounds p events result after)
    {earlier later : List (Call ι ω)} {item : ι} {error : Error}
    (split : calls events = earlier ++ .process item (.error error) :: later)
    (designated : error.kind ∈ rule.kinds)
    (full : rule.limit ≤ p.ledger.processSkipCount + earlier.countP Call.isSkipped) :
    result = some (.error (.skipLimitExceeded rule.limit)) ∧
      (∃ rest, later = .shouldSkip error
          (p.ledger.processSkipCount + earlier.countP Call.isSkipped)
          (.error (.skipLimitExceeded rule.limit)) :: rest ∧
        ∀ call ∈ rest, call.cleansUp = true) ∧
      after.ledger.processSkipCount =
        p.ledger.processSkipCount + earlier.countP Call.isSkipped := by
  have consults := runs.decides.consults
  obtain ⟨stage, breakdown⟩ := runs.breakdown
  rw [split] at consults breakdown
  obtain ⟨rest, rfl⟩ := consults.overruled policy designated full
  have total := consults.total_eq
  rw [← List.singleton_append, ← List.append_assoc] at breakdown
  have cleanUp := breakdown.cleanUp_behind (Option.some_ne_none _)
  refine ⟨?_, ⟨rest, rfl, cleanUp⟩, ?_⟩
  · have failed := breakdown.failed_eq rfl
    rcases result with _ | _ | ⟨⟩ <;> cases failed
    rfl
  · have unskipped := countP_isSkipped_of_cleansUp cleanUp
    simpa [List.countP_append, List.countP_cons, unskipped] using total

/-- The count on a ledger that goes from run to run stays within the limit. -/
theorem Booked.count_le {rule : SkipLimit} {first ledger : Ledger}
    (booked : Booked rule first ledger) :
    ledger.processSkipCount ≤ max first.processSkipCount rule.limit := by
  induction booked with
  | opened => exact Nat.le_max_left _ _
  | @run σ ε ι ω step ledger rounds state _ policy ih =>
    obtain ⟨events, result, after, runs, eq⟩ := step.execute_runs rounds ⟨ledger, state⟩
    have within := runs.decides.consults.total_le policy
    simp only [eq]
    simp only at within
    omega

/-- The policy is asked about every item whose processing failed and about nothing else, in order
and with the count of the ledger, which grows by the items skipped. Under a rule with a limit only
designated errors are skipped, the count never exceeds the limit on a ledger that goes from run to
run, and at the limit a designated error ends the run with the error of the rule. -/
theorem execute_skipping (step : ChunkStep σ ε ι ω) (rounds : Nat) (p : Progress σ) :
    let run := step.execute rounds p
    let made := calls run.events
    AsksInOrder p.ledger.processSkipCount made ∧
    run.state.ledger.processSkipCount =
      p.ledger.processSkipCount + made.countP Call.isSkipped ∧
    ∀ rule : SkipLimit, step.policy = rule.policy σ ε →
      (∀ error skipped, .shouldSkip error skipped (.ok true) ∈ made → error.kind ∈ rule.kinds) ∧
      (∀ first, Booked rule first p.ledger → ∀ earlier, earlier <+: made →
        p.ledger.processSkipCount + earlier.countP Call.isSkipped ≤
          max first.processSkipCount rule.limit) ∧
      ∀ earlier later item error, made = earlier ++ .process item (.error error) :: later →
        error.kind ∈ rule.kinds →
        rule.limit ≤ p.ledger.processSkipCount + earlier.countP Call.isSkipped →
          run.value = some (.error (.skipLimitExceeded rule.limit)) ∧
          (∃ rest, later = .shouldSkip error
              (p.ledger.processSkipCount + earlier.countP Call.isSkipped)
              (.error (.skipLimitExceeded rule.limit)) :: rest ∧
            ∀ call ∈ rest, call.cleansUp = true) ∧
          run.state.ledger.processSkipCount =
            p.ledger.processSkipCount + earlier.countP Call.isSkipped := by
  obtain ⟨events, result, after, runs, eq⟩ := step.execute_runs rounds p
  simp only [eq]
  have consults := runs.decides.consults
  refine ⟨runs.asksInOrder, consults.total_eq, ?_⟩
  intro rule policy
  refine ⟨fun error skipped passes => consults.designated policy passes, ?_, ?_⟩
  · intro first booked earlier early
    have reached := booked.count_le
    have within := consults.count_le policy early
    omega
  · intro earlier later item error split designated full
    exact runs.exceeded policy split designated full

/-- A step that may skip one odd number. -/
def evens : ChunkStep (ItemQueue Nat) Unit Nat Nat where
  name := "evens"
  reader := ItemQueue.asReader Nat Unit
  processor :=
    ⟨fun item => pure (if item % 2 = 0 then .ok (some item) else .error (.validation "odd"))⟩
  writer := { write := fun _ => pure (.ok ()) }
  transactions := .resourceless _ _
  policy := { limit := 1, kinds := [.validation] : SkipLimit }.policy _ _
  chunkSize := 2
  chunkSize_pos := Nat.two_pos
  itemSize := 8

/-- The second run on a ledger finds that the first one has used up the limit. -/
theorem evens_skipping :
    let opened : Ledger := { id := ⟨1⟩, name := "evens" }
    let used : Ledger :=
      { opened with
        status := .success, readCount := 3, processSkipCount := 1, writeCount := 2
        commitCount := 2, processErrorCount := 1 }
    let second := evens.execute 3 ⟨used, ⟨[6, 7, 8]⟩⟩
    (evens.execute 3 ⟨opened, ⟨[1, 2, 4]⟩⟩).state.ledger = used ∧
      second.value = some (.error (.skipLimitExceeded 1)) ∧
      second.state.ledger.processSkipCount = 1 ∧
      ∀ earlier, earlier <+: calls second.events → 1 + earlier.countP Call.isSkipped ≤ 1 := by
  intro opened used second
  have first : (evens.execute 3 ⟨opened, ⟨[1, 2, 4]⟩⟩).state.ledger = used := by decide +kernel
  have booked : Booked ⟨1, [.validation]⟩ opened used := first ▸ .run 3 _ .opened rfl
  obtain ⟨-, -, limited⟩ := evens.execute_skipping 3 ⟨used, ⟨[6, 7, 8]⟩⟩
  obtain ⟨-, within, exceeded⟩ := limited ⟨1, [.validation]⟩ rfl
  have failed := exceeded
    [.openStore (.ok ()), .next (.ok (some 6)), .next (.ok (some 7)), .begin (.ok ()),
      .process 6 (.ok (some 6))]
    [.shouldSkip (.validation "odd") 1 (.error (.skipLimitExceeded 1)), .rollback (.ok ()),
      .closeStore (.ok ())]
    7 (.validation "odd") rfl (by decide) (by decide)
  exact ⟨first, failed.1, failed.2.2, within opened booked⟩

end ChunkStep

end Batchwork
