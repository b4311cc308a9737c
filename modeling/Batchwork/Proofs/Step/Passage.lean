import Batchwork.Proofs.Step.Bystanders
import Batchwork.Proofs.Step.Consultation
import Mathlib.Data.List.ReduceOption

/-!
# The passage of items through processor and policy

A processor and a policy that keep a state of their own can be run on a list of items without a
step. `passage` is that run: the calls made, what became of each item, and how it ended. It goes on
over a list that is appended, and processing the items of a chunk is the passage of these items.
-/

namespace Batchwork

variable {σ τ υ ρ ε ι ω α : Type}

/-- Two places that do not overlap. -/
structure Place.Apart (first : Place σ τ) (second : Place σ υ) : Prop where
  keepsFirst : ∀ part state, first.get (second.put part state) = first.get state
  keepsSecond : ∀ part state, second.get (first.put part state) = second.get state

/-- What an act within a place does, it does to what is kept there. -/
theorem Act.within_run {place : Place σ τ} (lawful : place.Lawful) {act : Act τ ε α}
    {state after : σ} {value : α} {told : List ε}
    (run : act.within place id state = ⟨value, told, after⟩) :
    (act (place.get state)).value = value ∧ place.get after = (act (place.get state)).state := by
  cases run
  exact ⟨rfl, lawful.get_put _ _⟩

/-- What becomes of items. There is one output, or none, for each item up to the fatal one. -/
structure Passage (υ ι ω : Type) where
  made : List (Call ι ω)
  outputs : List (Option ω)
  ending : Result Unit
  state : υ
  skipped : Nat

/-- A passage with calls and outputs before it. -/
def Passage.behind (later : Passage υ ι ω) (made : List (Call ι ω)) (outputs : List (Option ω)) :
    Passage υ ι ω :=
  { later with made := made ++ later.made, outputs := outputs ++ later.outputs }

section

variable (processor : Processor υ ε ι ω) (policy : SkipPolicy υ ε)

/-- The passage of items from a state of processor and policy, with the number of items skipped
before. -/
def passage : List ι → υ → Nat → Passage υ ι ω
  | [], state, skipped => ⟨[], [], .ok (), state, skipped⟩
  | item :: items, state, skipped =>
    let processing := processor.process item state
    match processing.value with
    | .ok output =>
      (passage items processing.state skipped).behind [.process item (.ok output)] [output]
    | .error error =>
      let asking := policy.shouldSkip error skipped processing.state
      let made : List (Call ι ω) :=
        [.process item (.error error), .shouldSkip error skipped asking.value]
      match asking.value with
      | .ok true => (passage items asking.state (skipped + 1)).behind made [none]
      | .ok false => ⟨made, [], .error error, asking.state, skipped⟩
      | .error reason => ⟨made, [], .error reason, asking.state, skipped⟩

variable {processor policy} {item : ι} {items : List ι} {state : υ} {skipped : Nat} {error : Error}

theorem passage_processed {output : Option ω}
    (value : (processor.process item state).value = .ok output) :
    passage processor policy (item :: items) state skipped =
      (passage processor policy items (processor.process item state).state skipped).behind
        [.process item (.ok output)] [output] := by
  rw [passage]
  simp only [value]

theorem passage_skipped (value : (processor.process item state).value = .error error)
    (verdict : (policy.shouldSkip error skipped (processor.process item state).state).value =
      .ok true) :
    passage processor policy (item :: items) state skipped =
      (passage processor policy items
        (policy.shouldSkip error skipped (processor.process item state).state).state
        (skipped + 1)).behind
        [.process item (.error error), .shouldSkip error skipped (.ok true)] [none] := by
  rw [passage]
  simp only [value, verdict]

theorem passage_refused (value : (processor.process item state).value = .error error)
    (verdict : (policy.shouldSkip error skipped (processor.process item state).state).value =
      .ok false) :
    passage processor policy (item :: items) state skipped =
      ⟨[.process item (.error error), .shouldSkip error skipped (.ok false)], [], .error error,
        (policy.shouldSkip error skipped (processor.process item state).state).state, skipped⟩ := by
  rw [passage]
  simp only [value, verdict]

theorem passage_overruled {reason : Error}
    (value : (processor.process item state).value = .error error)
    (verdict : (policy.shouldSkip error skipped (processor.process item state).state).value =
      .error reason) :
    passage processor policy (item :: items) state skipped =
      ⟨[.process item (.error error), .shouldSkip error skipped (.error reason)], [], .error reason,
        (policy.shouldSkip error skipped (processor.process item state).state).state, skipped⟩ := by
  rw [passage]
  simp only [value, verdict]

@[simp] theorem Passage.behind_ending (later : Passage υ ι ω) (made : List (Call ι ω))
    (outputs : List (Option ω)) : (later.behind made outputs).ending = later.ending := rfl

@[simp] theorem Passage.behind_behind (later : Passage υ ι ω) (made earlier : List (Call ι ω))
    (outputs before : List (Option ω)) :
    (later.behind made outputs).behind earlier before =
      later.behind (earlier ++ made) (before ++ outputs) := by
  simp [Passage.behind]

/-- How a passage goes on over more items: not at all if an item was fatal. -/
def Passage.andThen (first : Passage υ ι ω) (later : υ → Nat → Passage υ ι ω) : Passage υ ι ω :=
  match first.ending with
  | .ok () => (later first.state first.skipped).behind first.made first.outputs
  | .error _ => first

theorem Passage.andThen_behind (first : Passage υ ι ω) (later : υ → Nat → Passage υ ι ω)
    (made : List (Call ι ω)) (outputs : List (Option ω)) :
    (first.behind made outputs).andThen later = (first.andThen later).behind made outputs := by
  unfold Passage.andThen
  rw [Passage.behind_ending]
  cases first.ending with
  | ok done => exact (Passage.behind_behind _ _ _ _ _).symm
  | error reason => rfl

theorem passage_append (items later : List ι) (state : υ) (skipped : Nat) :
    passage processor policy (items ++ later) state skipped =
      (passage processor policy items state skipped).andThen (passage processor policy later) := by
  -- Each item goes the same way on both sides. A fatal one ends both, the others put their calls in
  -- front.
  induction items generalizing state skipped with
  | nil => rfl
  | cons item items ih =>
    rw [List.cons_append]
    rcases value : (processor.process item state).value with error | output
    · rcases verdict : (policy.shouldSkip error skipped
          (processor.process item state).state).value with reason | _ | _
      · rw [passage_overruled value verdict, passage_overruled value verdict]
        rfl
      · rw [passage_refused value verdict, passage_refused value verdict]
        rfl
      · rw [passage_skipped value verdict, passage_skipped value verdict, ih,
          Passage.andThen_behind]
    · rw [passage_processed value, passage_processed value, ih, Passage.andThen_behind]

/-- A passage over so many items has an output, or none, for each of them if none is fatal, and for
those before the fatal one otherwise. -/
def Passage.Spans (passage : Passage υ ι ω) (count : Nat) : Prop :=
  match passage.ending with
  | .ok () => passage.outputs.length = count
  | .error _ => passage.outputs.length < count

theorem Passage.Spans.behind {later : Passage υ ι ω} {count : Nat} (spans : later.Spans count)
    (made : List (Call ι ω)) (output : Option ω) :
    (later.behind made [output]).Spans (count + 1) := by
  obtain ⟨_, outputs, ending, _, _⟩ := later
  cases ending with
  | ok done => exact congrArg (· + 1) spans
  | error reason => exact Nat.succ_lt_succ spans

theorem passage_spans (items : List ι) (state : υ) (skipped : Nat) :
    (passage processor policy items state skipped).Spans items.length := by
  induction items generalizing state skipped with
  | nil => rfl
  | cons item items ih =>
    rcases value : (processor.process item state).value with error | output
    · rcases verdict : (policy.shouldSkip error skipped
          (processor.process item state).state).value with reason | _ | _
      · rw [passage_overruled value verdict]
        exact Nat.succ_pos _
      · rw [passage_refused value verdict]
        exact Nat.succ_pos _
      · rw [passage_skipped value verdict]
        exact (ih _ _).behind _ _
    · rw [passage_processed value]
      exact (ih _ _).behind _ _

end

/-! ## Processing a chunk is a passage -/

namespace ChunkStep

/-- A step whose processor and policy keep their state at a place of their own, which the skip
listeners leave alone. -/
structure WorksAt (step : ChunkStep σ ε ι ω) (work : Place σ υ) (processor : Processor υ ε ι ω)
    (policy : SkipPolicy υ ε) : Prop where
  lawful : work.Lawful
  processor : step.processor = processor.within work id
  policy : step.policy = policy.within work id
  skipListeners : ∀ listener ∈ step.skipListeners, ∀ item error,
    Bystander work.get (fun _ _ => True) (listener.onSkip item error)

variable {step : ChunkStep σ ε ι ω} {work : Place σ υ} {processor : Processor υ ε ι ω}
  {policy : SkipPolicy υ ε} {p after : Progress σ} {events : List (StepEvent ι ω ε)}

theorem WorksAt.process (works : step.WorksAt work processor policy) {item : ι} {state left : σ}
    {value : Result (Option ω)} {told : List ε}
    (answer : step.processor.process item state = ⟨value, told, left⟩) :
    (processor.process item (work.get state)).value = value ∧
      work.get left = (processor.process item (work.get state)).state := by
  rw [works.processor] at answer
  exact Act.within_run works.lawful answer

theorem WorksAt.shouldSkip (works : step.WorksAt work processor policy) {error : Error}
    {skipped : Nat} {state left : σ} {verdict : Result Bool} {told : List ε}
    (answer : step.policy.shouldSkip error skipped state = ⟨verdict, told, left⟩) :
    (policy.shouldSkip error skipped (work.get state)).value = verdict ∧
      work.get left = (policy.shouldSkip error skipped (work.get state)).state := by
  rw [works.policy] at answer
  exact Act.within_run works.lawful answer

/-- A part of a run that is the passage of some items, seen from `work`. -/
structure Follows (work : Place σ υ) (passage : Passage υ ι ω) (made : List (Call ι ω))
    (outputs : List ω) (ending : Result Unit) (after : Progress σ) : Prop where
  made : itemCalls made = passage.made
  outputs : outputs = passage.outputs.reduceOption
  ending : ending = passage.ending
  state : work.get after.state = passage.state
  skipped : after.ledger.processSkipCount = passage.skipped

theorem itemCalls_append (first second : List (Call ι ω)) :
    itemCalls (first ++ second) = itemCalls first ++ itemCalls second :=
  List.filter_append _ _

theorem itemCalls_of_apart {made : List (Call ι ω)} (others : ∀ call ∈ made, call.onItem = false) :
    itemCalls made = [] := by
  apply List.filter_eq_nil_iff.mpr
  intro call member
  rw [others call member]
  exact Bool.false_ne_true

theorem Follows.behind {passage : Passage υ ι ω} {first second : List (Call ι ω)}
    {outputs : List ω} {ending : Result Unit} {shown : List (Call ι ω)}
    (follows : Follows work passage second outputs ending after) (made : itemCalls first = shown)
    (output : Option ω) :
    Follows work (passage.behind shown [output]) (first ++ second) (output.toList ++ outputs) ending
      after where
  made := by
    rw [itemCalls_append, made, follows.made]
    rfl
  outputs := by
    rw [follows.outputs]
    cases output <;> rfl
  ending := follows.ending
  state := follows.state
  skipped := follows.skipped

/-- Processing items is their passage. -/
theorem Processes.follows {items : List ι} {outputs : List ω} {ending : Result Unit}
    (processes : step.Processes items p events outputs ending after)
    (works : step.WorksAt work processor policy) :
    Follows work (passage processor policy items (work.get p.state) p.ledger.processSkipCount)
      (calls events) outputs ending after := by
  induction processes with
  | done => exact ⟨rfl, rfl, rfl, rfl, rfl⟩
  | @output p after told state item items output outputs events ending answer rest ih =>
    obtain ⟨value, kept⟩ := works.process answer
    simp only [kept] at ih
    rw [passage_processed value, calls_append, calls_asked]
    refine ih.behind ?_ (some output)
    rfl
  | @filtered p after told state item items outputs events ending answer rest ih =>
    obtain ⟨value, kept⟩ := works.process answer
    simp only [kept] at ih
    rw [passage_processed value, calls_append, calls_asked, calls_log]
    refine ih.behind ?_ none
    rfl
  | @skipped p middle after told state item items error outputs decision events ending answer skip
      rest ih =>
    obtain ⟨value, kept⟩ := works.process answer
    cases skip with
    | skipped ruling notice =>
      obtain ⟨verdict, left⟩ := works.shouldSkip ruling
      -- The listeners that are told leave the state of processor and policy alone.
      have heard := (notify_leaves notice fun listener member =>
        works.skipListeners listener member item error).kept
      have books := notify_ledger notice
      simp only [heard, left, kept, books] at ih verdict
      rw [passage_skipped value verdict, calls_append, calls_asked, calls_append,
        ← List.append_assoc]
      refine ih.behind ?_ none
      rw [calls_append, calls_asked, calls_log, itemCalls_append, itemCalls_append,
        itemCalls_of_apart (notify_apart notice fun _ => rfl)]
      rfl
  | @fatal p after told state item items error reason decision answer refusal =>
    obtain ⟨value, kept⟩ := works.process answer
    cases refusal with
    | refused ruling =>
      obtain ⟨verdict, left⟩ := works.shouldSkip ruling
      simp only [kept] at verdict left
      rw [passage_refused value verdict]
      refine ⟨?_, rfl, rfl, left, rfl⟩
      simp [itemCalls]
    | overruled ruling =>
      obtain ⟨verdict, left⟩ := works.shouldSkip ruling
      simp only [kept] at verdict left
      rw [passage_overruled value verdict]
      refine ⟨?_, rfl, rfl, left, rfl⟩
      simp [itemCalls]

end ChunkStep

end Batchwork
