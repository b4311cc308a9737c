import Batchwork.Proofs.Step.Books

/-!
# Questions to the skip policy

The policy is asked about an item right after its processing failed, with the number of items
skipped by then, and at no other time. `Consults` says this of a list of calls, and `Decides` ties
it to the books. `Runs.decides` says that every run is like this, whatever the parts answer.
-/

namespace Batchwork

variable {σ ε ι ω : Type}

/-- Whether a call let the error of an item pass. -/
@[simp] def Call.isSkipped : Call ι ω → Bool
  | shouldSkip _ _ (.ok true) => true
  | _ => false

/-- Whether a call processed an item into nothing. -/
@[simp] def Call.isFiltered : Call ι ω → Bool
  | process _ (.ok none) => true
  | _ => false

/-- Whether a call found out that an item cannot be processed. -/
@[simp] def Call.isFailed : Call ι ω → Bool
  | process _ (.error _) => true
  | _ => false

/-- Whether a call decides what becomes of an item. -/
@[simp] def Call.onItem : Call ι ω → Bool
  | process .. | shouldSkip .. => true
  | _ => false

/-- The calls of a run that decide what becomes of its items, oldest first. -/
def itemCalls (made : List (Call ι ω)) : List (Call ι ω) := made.filter Call.onItem

namespace ChunkStep

/-- Calls that ask the policy of the step about each item whose processing failed, and about nothing
else. The first number is how many items were skipped before, the second how many are by the end. -/
inductive Consults (step : ChunkStep σ ε ι ω) : Nat → List (Call ι ω) → Nat → Prop
  | nil {skipped : Nat} : Consults step skipped [] skipped
  | apart {skipped total : Nat} {call : Call ι ω} {made : List (Call ι ω)}
      (other : call.onItem = false) (rest : Consults step skipped made total) :
      Consults step skipped (call :: made) total
  | processed {skipped total : Nat} {item : ι} {output : Option ω} {made : List (Call ι ω)}
      (rest : Consults step skipped made total) :
      Consults step skipped (.process item (.ok output) :: made) total
  | asked {skipped total : Nat} {item : ι} {error : Error} {verdict : Result Bool} {state : σ}
      {made : List (Call ι ω)}
      (ruled : (step.policy.shouldSkip error skipped state).value = verdict)
      (rest : Consults step
        (skipped + if (Call.shouldSkip error skipped verdict : Call ι ω).isSkipped then 1 else 0)
        made total) :
      Consults step skipped
        (.process item (.error error) :: .shouldSkip error skipped verdict :: made) total

/-- The first calls end with the failure of an item, and the others begin with the question about
it. -/
inductive Interrupted (step : ChunkStep σ ε ι ω) (skipped : Nat) :
    List (Call ι ω) → List (Call ι ω) → Prop
  | between {middle : Nat} {front rest : List (Call ι ω)} {item : ι} {error : Error}
      {verdict : Result Bool} {state : σ} (before : Consults step skipped front middle)
      (ruled : (step.policy.shouldSkip error middle state).value = verdict) :
      Interrupted step skipped (front ++ [.process item (.error error)])
        (.shouldSkip error middle verdict :: rest)

theorem Interrupted.behind {step : ChunkStep σ ε ι ω} {skipped counted : Nat}
    {earlier later : List (Call ι ω)} (interrupted : Interrupted step counted earlier later)
    (head : List (Call ι ω))
    (goesOn : ∀ {front : List (Call ι ω)} {middle : Nat}, Consults step counted front middle →
      Consults step skipped (head ++ front) middle) :
    Interrupted step skipped (head ++ earlier) later := by
  cases interrupted with
  | between before ruled =>
    rw [← List.append_assoc]
    exact .between (goesOn before) ruled

namespace Consults

variable {step : ChunkStep σ ε ι ω} {skipped middle total : Nat}
  {made first second earlier later : List (Call ι ω)}

theorem append (before : Consults step skipped first middle)
    (after : Consults step middle second total) :
    Consults step skipped (first ++ second) total := by
  induction before with
  | nil => exact after
  | apart other _ ih => exact .apart other (ih after)
  | processed _ ih => exact .processed (ih after)
  | asked ruled _ ih => exact .asked ruled (ih after)

theorem of_apart (others : ∀ call ∈ made, call.onItem = false) :
    Consults step skipped made skipped := by
  induction made with
  | nil => exact .nil
  | cons call made ih =>
    obtain ⟨other, rest⟩ := List.forall_mem_cons.mp others
    exact .apart other (ih rest)

theorem total_eq (consults : Consults step skipped made total) :
    total = skipped + made.countP Call.isSkipped := by
  induction consults with
  | nil => rfl
  | @apart _ _ call _ other _ ih =>
    have silent : ¬call.isSkipped := by
      cases call with
      | shouldSkip => cases other
      | _ => exact Bool.false_ne_true
    rw [ih, List.countP_cons_of_neg silent]
  | processed _ ih => rw [ih, List.countP_cons_of_neg Bool.false_ne_true]
  | asked _ _ ih =>
    rw [ih, List.countP_cons_of_neg Bool.false_ne_true, List.countP_cons, Nat.add_assoc,
      Nat.add_comm (List.countP _ _)]

/-- Calls that are cut in two ask about their items on both sides of the cut, or are cut between the
failure of an item and the question about it. -/
theorem cut (consults : Consults step skipped made total) (split : made = earlier ++ later) :
    (∃ middle, Consults step skipped earlier middle ∧ Consults step middle later total) ∨
      Interrupted step skipped earlier later := by
  induction consults generalizing earlier with
  | nil =>
    obtain ⟨rfl, rfl⟩ := List.append_eq_nil_iff.mp split.symm
    exact .inl ⟨_, .nil, .nil⟩
  | @apart _ _ call made other rest ih =>
    rcases earlier with _ | ⟨head, earlier⟩
    · cases split
      exact .inl ⟨_, .nil, .apart other rest⟩
    · obtain ⟨rfl, others⟩ := List.cons.inj split
      refine (ih others).imp ?_ fun interrupted => interrupted.behind [call] (.apart other)
      exact fun ⟨middle, before, after⟩ => ⟨middle, .apart other before, after⟩
  | @processed _ _ item output made rest ih =>
    rcases earlier with _ | ⟨head, earlier⟩
    · cases split
      exact .inl ⟨_, .nil, .processed rest⟩
    · obtain ⟨rfl, others⟩ := List.cons.inj split
      refine (ih others).imp ?_ fun interrupted => interrupted.behind [_] .processed
      exact fun ⟨middle, before, after⟩ => ⟨middle, .processed before, after⟩
  | @asked _ _ item error verdict state made ruled rest ih =>
    rcases earlier with _ | ⟨head, _ | ⟨next, earlier⟩⟩
    · cases split
      exact .inl ⟨_, .nil, .asked ruled rest⟩
    · cases split
      exact .inr (show Interrupted step _ ([] ++ [_]) _ from .between .nil ruled)
    · simp only [List.cons_append, List.cons.injEq] at split
      obtain ⟨rfl, rfl, others⟩ := split
      refine (ih others).imp ?_ fun interrupted => interrupted.behind [_, _] (.asked ruled)
      exact fun ⟨middle, before, after⟩ => ⟨middle, .asked ruled before, after⟩

/-- Behind every failure of the processor comes a question about it. -/
theorem question {item : ι} {error : Error}
    (consults : Consults step skipped (earlier ++ .process item (.error error) :: later) total) :
    ∃ verdict rest,
      later = .shouldSkip error (skipped + earlier.countP Call.isSkipped) verdict :: rest := by
  rcases consults.cut rfl with ⟨middle, before, after⟩ | interrupted
  · rw [← before.total_eq]
    cases after with
    | apart other _ => cases other
    | asked ruled _ => exact ⟨_, _, rfl⟩
  · cases interrupted

/-- In front of every question stands the failure that it is about. -/
theorem occasion {error : Error} {before : Nat} {verdict : Result Bool}
    (consults : Consults step skipped (earlier ++ .shouldSkip error before verdict :: later)
      total) :
    (∃ front item, earlier = front ++ [.process item (.error error)]) ∧
      before = skipped + earlier.countP Call.isSkipped ∧
      ∃ state, (step.policy.shouldSkip error before state).value = verdict := by
  rcases consults.cut rfl with ⟨middle, _, after⟩ | interrupted
  · cases after with
    | apart other _ => cases other
  · cases interrupted with
    | between asked ruled =>
      refine ⟨⟨_, _, rfl⟩, ?_, _, ruled⟩
      rw [asked.total_eq, List.countP_append]
      rfl

end Consults

/-- Calls that decide what becomes of items, and change the books by what they decide. -/
structure Decides (step : ChunkStep σ ε ι ω) (before : Ledger) (made : List (Call ι ω))
    (after : Ledger) : Prop where
  consults : Consults step before.processSkipCount made after.processSkipCount
  filtered : after.filterCount = before.filterCount + made.countP Call.isFiltered
  failed : after.processErrorCount = before.processErrorCount + made.countP Call.isFailed

namespace Decides

variable {step : ChunkStep σ ε ι ω} {before middle after : Ledger} {first second : List (Call ι ω)}

theorem append (earlier : Decides step before first middle)
    (later : Decides step middle second after) : Decides step before (first ++ second) after where
  consults := earlier.consults.append later.consults
  filtered := by rw [later.filtered, earlier.filtered, List.countP_append, Nat.add_assoc]
  failed := by rw [later.failed, earlier.failed, List.countP_append, Nat.add_assoc]

/-- Calls that decide nothing. -/
theorem of_apart {made : List (Call ι ω)} (others : ∀ call ∈ made, call.onItem = false)
    (skips : after.processSkipCount = before.processSkipCount)
    (filters : after.filterCount = before.filterCount)
    (fails : after.processErrorCount = before.processErrorCount) :
    Decides step before made after := by
  have uncounted : ∀ counted : Call ι ω → Bool, (∀ call, call.onItem = false → ¬counted call) →
      made.countP counted = 0 := fun counted apart =>
    List.countP_eq_zero.mpr fun call member => apart call (others call member)
  refine ⟨skips ▸ .of_apart others, ?_, ?_⟩
  · rw [filters, uncounted _ fun call other => by cases call <;> simp_all, Nat.add_zero]
  · rw [fails, uncounted _ fun call other => by cases call <;> simp_all, Nat.add_zero]

/-- Counters of which nothing was decided may have changed meanwhile. -/
theorem recounted {made : List (Call ι ω)} (rest : Decides step middle made after)
    (skips : middle.processSkipCount = before.processSkipCount)
    (filters : middle.filterCount = before.filterCount)
    (fails : middle.processErrorCount = before.processErrorCount) :
    Decides step before made after where
  consults := skips ▸ rest.consults
  filtered := filters ▸ rest.filtered
  failed := fails ▸ rest.failed

theorem cons {call : Call ι ω} {made : List (Call ι ω)} (other : call.onItem = false)
    (rest : Decides step before made after) : Decides step before (call :: made) after :=
  append (.of_apart (List.forall_mem_singleton.mpr other) rfl rfl rfl) rest

/-- An item that does not fail. -/
theorem of_processed {item : ι} {output : Option ω}
    (skips : after.processSkipCount = before.processSkipCount)
    (filters : after.filterCount = before.filterCount + if output.isNone then 1 else 0)
    (fails : after.processErrorCount = before.processErrorCount) :
    Decides step before [.process item (.ok output)] after where
  consults := .processed (skips ▸ .nil)
  filtered := by
    rw [filters]
    cases output <;> rfl
  failed := fails

/-- The failure of an item and the question about it. -/
theorem of_asked {item : ι} {error : Error} {verdict : Result Bool} {state : σ}
    (ruled : (step.policy.shouldSkip error before.processSkipCount state).value = verdict)
    (skips : after.processSkipCount = before.processSkipCount +
      if (Call.shouldSkip error before.processSkipCount verdict : Call ι ω).isSkipped then 1 else 0)
    (filters : after.filterCount = before.filterCount)
    (fails : after.processErrorCount = before.processErrorCount + 1) :
    Decides step before
      [.process item (.error error), .shouldSkip error before.processSkipCount verdict] after where
  consults := .asked ruled (skips ▸ .nil)
  filtered := filters
  failed := fails

end Decides

variable {step : ChunkStep σ ε ι ω} {p after : Progress σ} {events : List (StepEvent ι ω ε)}

/-! ## Every run is like this -/

theorem notify_apart {κ : Type} {act : κ → Act σ ε Unit} {call : Nat → Call ι ω} {index : Nat}
    {listeners : List κ} {heard : List (StepEvent ι ω ε)}
    (notice : notify act call index listeners p = ⟨(), heard, after⟩)
    (apart : ∀ listener, (call listener).onItem = false) :
    ∀ made ∈ calls heard, made.onItem = false := by
  rw [notify_calls notice]
  intro made member
  obtain ⟨listener, _, rfl⟩ := List.mem_map.mp member
  exact apart listener

theorem notify_decides {κ : Type} {act : κ → Act σ ε Unit} {call : Nat → Call ι ω} {index : Nat}
    {listeners : List κ} {heard : List (StepEvent ι ω ε)}
    (notice : notify act call index listeners p = ⟨(), heard, after⟩)
    (apart : ∀ listener, (call listener).onItem = false) :
    Decides step p.ledger (calls heard) after.ledger := by
  have books := notify_ledger notice
  exact .of_apart (notify_apart notice apart) (by rw [books]) (by rw [books]) (by rw [books])

theorem Reads.apart {room : Nat} {items : List ι} {ending : Result ChunkStatus}
    (reads : step.Reads room p events items ending after) :
    ∀ made ∈ calls events, made.onItem = false := by
  induction reads with
  | full => simp
  | finished answer | failed answer => simp
  | item answer rest ih => simpa using ih

theorem Writes.apart {outputs : List ω} {answer : Result Unit}
    (writes : step.Writes outputs p events answer after) :
    ∀ made ∈ calls events, made.onItem = false := by
  cases writes <;> simp

theorem RollsBack.apart {cause : Error} (undo : step.RollsBack cause p events after) :
    ∀ made ∈ calls events, made.onItem = false := by
  cases undo with
  | rolledBack answer notice =>
    have heard := notify_apart notice fun _ => rfl
    simpa using heard

theorem Reads.decides {room : Nat} {items : List ι} {ending : Result ChunkStatus}
    (reads : step.Reads room p events items ending after) :
    Decides step p.ledger (calls events) after.ledger :=
  .of_apart reads.apart (by rw [reads.books]; rfl) (by rw [reads.books]; rfl)
    (by rw [reads.books]; rfl)

/-- Dealing with an item that failed adds a question to its failure. -/
theorem Skips.decides {item : ι} {error : Error} {verdict : Result Unit}
    (skips : step.Skips item error p events verdict after) :
    Decides step p.ledger (.process item (.error error) :: calls events) after.ledger := by
  cases skips with
  | skipped answer notice =>
    have books := notify_ledger notice
    have asked : Decides step p.ledger [.process item (.error error),
        .shouldSkip error p.ledger.processSkipCount (.ok true)] after.ledger :=
      .of_asked (congrArg Outcome.value answer) (by rw [books]; rfl) (by rw [books])
        (by rw [books])
    rw [calls_append, calls_asked, calls_log]
    exact asked.append (.of_apart (notify_apart notice fun _ => rfl) rfl rfl rfl)
  | refused answer | overruled answer =>
    rw [calls_append, calls_asked, calls_log]
    exact .of_asked (congrArg Outcome.value answer) rfl rfl rfl

theorem Processes.decides {items : List ι} {outputs : List ω} {ending : Result Unit}
    (processes : step.Processes items p events outputs ending after) :
    Decides step p.ledger (calls events) after.ledger := by
  induction processes with
  | done => exact .of_apart nofun rfl rfl rfl
  | output answer rest ih =>
    rw [calls_append, calls_asked]
    exact Decides.append (.of_processed rfl rfl rfl) ih
  | filtered answer rest ih =>
    rw [calls_append, calls_asked, calls_log]
    exact Decides.append (.of_processed (by rfl) (by rfl) (by rfl)) ih
  | skipped answer skip rest ih =>
    rw [calls_append, calls_asked, calls_append, ← List.append_assoc]
    exact skip.decides.append ih
  | fatal answer refusal =>
    rw [calls_append, calls_asked]
    exact refusal.decides

theorem Writes.decides {outputs : List ω} {answer : Result Unit}
    (writes : step.Writes outputs p events answer after) :
    Decides step p.ledger (calls events) after.ledger := by
  cases writes with
  | nothing empty | written nonempty answer flush | notWritten nonempty answer
  | notFlushed nonempty answer flush =>
    exact .of_apart (by simp) rfl rfl rfl

theorem RollsBack.decides {cause : Error} (undo : step.RollsBack cause p events after) :
    Decides step p.ledger (calls events) after.ledger :=
  .of_apart undo.apart (by rw [undo.books]; rfl) (by rw [undo.books]; rfl) (by rw [undo.books]; rfl)

theorem Transacts.decides {items : List ι} {result : Result (List ω)}
    (transacts : step.Transacts items p events result after) :
    Decides step p.ledger (calls events) after.ledger := by
  -- Items are decided on while they are processed, and by no other call of the transaction.
  cases transacts with
  | notBegun before answer notice =>
    have told : Decides step _ (calls _) after.ledger := notify_decides notice fun _ => rfl
    rw [calls_append, calls_append, calls_asked]
    exact (notify_decides before fun _ => rfl).append (.cons rfl (told.recounted rfl rfl rfl))
  | notProcessed before answer process undo =>
    rw [calls_append, calls_append, calls_asked, calls_log, calls_append]
    exact (notify_decides before fun _ => rfl).append
      (.cons rfl (process.decides.append undo.decides))
  | notWritten before answer process write undo =>
    rw [calls_append, calls_append, calls_asked, calls_log, calls_append, calls_append]
    exact (notify_decides before fun _ => rfl).append
      (.cons rfl (process.decides.append (write.decides.append undo.decides)))
  | notCommitted before answer process write commit undo =>
    rw [calls_append, calls_append, calls_asked, calls_log, calls_append, calls_append,
      calls_append, calls_asked]
    exact (notify_decides before fun _ => rfl).append (.cons rfl (process.decides.append
      (write.decides.append (.cons rfl (undo.decides.recounted (by rfl) (by rfl) (by rfl))))))
  | committed before answer process write commit notice =>
    have told : Decides step _ (calls _) after.ledger := notify_decides notice fun _ => rfl
    rw [calls_append, calls_append, calls_asked, calls_log, calls_append, calls_append,
      calls_append, calls_asked, calls_log]
    exact (notify_decides before fun _ => rfl).append (.cons rfl (process.decides.append
      (write.decides.append (.cons rfl (told.recounted rfl rfl rfl)))))

theorem Round.decides {result : Option (Result Unit)} (round : step.Round p events result after) :
    Decides step p.ledger (calls events) after.ledger := by
  cases round with
  | notRead reads | exhausted reads =>
    rw [calls_log]
    exact ⟨reads.decides.consults, reads.decides.filtered, reads.decides.failed⟩
  | failed reads nonempty transacts | more reads nonempty transacts =>
    rw [calls_log, calls_append]
    exact reads.decides.append transacts.decides
  | last reads nonempty transacts =>
    have decides := reads.decides.append transacts.decides
    rw [calls_log, calls_append]
    exact ⟨decides.consults, decides.filtered, decides.failed⟩

theorem Rounds.decides {rounds : Nat} {result : Option (Result Unit)}
    (all : step.Rounds rounds p events result after) :
    Decides step p.ledger (calls events) after.ledger := by
  induction all with
  | unfinished | stopped crowded => exact .of_apart nofun rfl rfl rfl
  | last round => exact round.decides
  | more round rest ih =>
    rw [calls_append]
    exact round.decides.append ih

/-- The policy is asked about exactly the items whose processing failed, and the books count what
was decided about items. -/
theorem Runs.decides {rounds : Nat} {result : Option (Result Unit)}
    (runs : step.Runs rounds p events result after) :
    Decides step p.ledger (calls events) after.ledger := by
  cases runs with
  | notOpened answer => exact .of_apart (by simp) rfl rfl rfl
  | unfinished answer all =>
    rw [calls_log, calls_append, calls_asked]
    exact .cons rfl (all.decides.recounted rfl rfl rfl)
  | closed answer all close =>
    simp only [calls_log, calls_append, calls_asked, List.cons_append, List.nil_append]
    refine .cons rfl (Decides.append (all.decides.recounted (by rfl) (by rfl) (by rfl)) ?_)
    exact .of_apart (by simp) rfl rfl rfl

end ChunkStep

end Batchwork
