import Batchwork.Skip
import Batchwork.Proofs.Step.Books

/-!
# A pass over the items

What a step with a pure processor and a rule for skipping makes of its items, said without chunks: a
pass goes over the items in order and stops at the first fatal one. `Finishes` adds the chunks: it
says which of the outputs before the fatal item are stored, and what the books say in the end. It
goes from chunk to chunk by `Finishes.more`.
-/

namespace Batchwork

variable {ι ω : Type}

/-! ## Fatal items -/

section

variable (rule : SkipLimit) (f : ι → Result (Option ω))

/-- The outputs of items, in order. -/
def outputsOf (items : List ι) : List ω :=
  items.filterMap fun item => match f item with
    | .ok output => output
    | .error _ => none

/-- Whether an item is processed into nothing. -/
def isFiltered (item : ι) : Bool :=
  match f item with
  | .ok none => true
  | _ => false

/-- Whether an item fails with an error of a designated kind. -/
def failsSkippably (item : ι) : Bool :=
  match f item with
  | .error error => rule.isSkippable error
  | .ok _ => false

/-- The item at an index stops a run that skipped so many items before: it fails with an error that
is not of a designated kind, or with one that is while the limit is used up. -/
def FatalAt (skipped : Nat) (items : List ι) (index : Nat) (reason : Error) : Prop :=
  ∃ item error, items[index]? = some item ∧ f item = .error error ∧
    ((error.kind ∉ rule.kinds ∧ reason = error) ∨
      (error.kind ∈ rule.kinds ∧
        skipped + (items.take index).countP (failsSkippably rule f) = rule.limit ∧
        reason = .skipLimitExceeded rule.limit))

/-- No item stops the run. -/
def Harmless (skipped : Nat) (items : List ι) : Prop :=
  ∀ index reason, ¬FatalAt rule f skipped items index reason

/-- The item at an index is the first to stop the run. -/
def FirstFatal (skipped : Nat) (items : List ι) (index : Nat) (reason : Error) : Prop :=
  FatalAt rule f skipped items index reason ∧
    ∀ earlier < index, ∀ other, ¬FatalAt rule f skipped items earlier other

end

section

variable {rule : SkipLimit} {f : ι → Result (Option ω)} {skipped index : Nat} {item : ι}
  {items later : List ι} {reason other : Error}

theorem outputsOf_append (items later : List ι) :
    outputsOf f (items ++ later) = outputsOf f items ++ outputsOf f later :=
  List.filterMap_append

theorem fatalAt_cons_zero :
    FatalAt rule f skipped (item :: items) 0 reason ↔ ∃ error, f item = .error error ∧
      ((error.kind ∉ rule.kinds ∧ reason = error) ∨
        (error.kind ∈ rule.kinds ∧ skipped = rule.limit ∧
          reason = .skipLimitExceeded rule.limit)) := by
  simp [FatalAt]

/-- What stops a run within the first items does not depend on the later ones. -/
theorem fatalAt_append_left (inside : index < items.length) :
    FatalAt rule f skipped (items ++ later) index reason ↔
      FatalAt rule f skipped items index reason := by
  rw [FatalAt, FatalAt, List.getElem?_append_left inside,
    List.take_append_of_le_length (Nat.le_of_lt inside)]

/-- What stops a run at a later item depends on the first ones only through those skipped. -/
theorem fatalAt_append_right :
    FatalAt rule f skipped (items ++ later) (items.length + index) reason ↔
      FatalAt rule f (skipped + items.countP (failsSkippably rule f)) later index reason := by
  rw [FatalAt, FatalAt, List.getElem?_append_right (Nat.le_add_right _ _), Nat.add_sub_cancel_left,
    List.take_length_add_append, List.countP_append, Nat.add_assoc]

theorem FatalAt.lt_length (fatal : FatalAt rule f skipped items index reason) :
    index < items.length := by
  obtain ⟨item, _, found, _⟩ := fatal
  exact (List.getElem?_eq_some_iff.mp found).1

theorem FatalAt.reason_eq (fatal : FatalAt rule f skipped items index reason)
    (again : FatalAt rule f skipped items index other) : reason = other := by
  obtain ⟨item, error, found, fails, why⟩ := fatal
  obtain ⟨same, again, found', fails', why'⟩ := again
  cases found.symm.trans found'
  cases fails.symm.trans fails'
  rcases why with ⟨undesignated, rfl⟩ | ⟨designated, _, rfl⟩
  · rcases why' with ⟨_, rfl⟩ | ⟨designated, _⟩
    · rfl
    · exact absurd designated undesignated
  · rcases why' with ⟨undesignated, _⟩ | ⟨_, _, rfl⟩
    · exact absurd designated undesignated
    · rfl

/-- At most one item is the first to stop a run, and it does so for one reason. -/
theorem FirstFatal.unique {place : Nat} (first : FirstFatal rule f skipped items index reason)
    (again : FirstFatal rule f skipped items place other) : index = place ∧ reason = other := by
  have same : index = place := by
    rcases Nat.lt_trichotomy index place with before | same | behind
    · exact absurd first.1 (again.2 index before reason)
    · exact same
    · exact absurd again.1 (first.2 place behind other)
  cases same
  exact ⟨rfl, first.1.reason_eq again.1⟩

theorem Harmless.append (harmless : Harmless rule f skipped items)
    (rest : Harmless rule f (skipped + items.countP (failsSkippably rule f)) later) :
    Harmless rule f skipped (items ++ later) := by
  intro index reason fatal
  by_cases inside : index < items.length
  · exact harmless _ _ ((fatalAt_append_left inside).mp fatal)
  · obtain ⟨place, rfl⟩ := Nat.exists_eq_add_of_le (Nat.not_lt.mp inside)
    exact rest place reason (fatalAt_append_right.mp fatal)

theorem Harmless.of_append (harmless : Harmless rule f skipped (items ++ later)) :
    Harmless rule f (skipped + items.countP (failsSkippably rule f)) later :=
  fun _ reason fatal => harmless _ reason (fatalAt_append_right.mpr fatal)

theorem FirstFatal.append_left (first : FirstFatal rule f skipped items index reason) :
    FirstFatal rule f skipped (items ++ later) index reason := by
  have inside := first.1.lt_length
  refine ⟨(fatalAt_append_left inside).mpr first.1, fun earlier before other fatal => ?_⟩
  exact first.2 earlier before other
    ((fatalAt_append_left (Nat.lt_trans before inside)).mp fatal)

/-- Behind harmless items, the first item to stop the run is the first of the rest to do so. -/
theorem FirstFatal.of_append (first : FirstFatal rule f skipped (items ++ later) index reason)
    (harmless : Harmless rule f skipped items) :
    ∃ place, index = items.length + place ∧
      FirstFatal rule f (skipped + items.countP (failsSkippably rule f)) later place reason := by
  have behind : items.length ≤ index := by
    rcases Nat.lt_or_ge index items.length with inside | behind
    · exact absurd ((fatalAt_append_left inside).mp first.1) (harmless index reason)
    · exact behind
  obtain ⟨place, rfl⟩ := Nat.exists_eq_add_of_le behind
  refine ⟨place, rfl, fatalAt_append_right.mp first.1, fun earlier before other fatal => ?_⟩
  exact first.2 _ (Nat.add_lt_add_left before _) other (fatalAt_append_right.mpr fatal)

/-- What stops a run behind harmless items stops the whole run. -/
theorem FirstFatal.behind {place : Nat} (harmless : Harmless rule f skipped items)
    (first : FirstFatal rule f (skipped + items.countP (failsSkippably rule f)) later place
      reason) :
    FirstFatal rule f skipped (items ++ later) (items.length + place) reason := by
  refine ⟨fatalAt_append_right.mpr first.1, fun earlier before other fatal => ?_⟩
  -- An earlier item is one of the harmless ones, or it is one of the rest and no nearer.
  by_cases inside : earlier < items.length
  · exact harmless _ _ ((fatalAt_append_left inside).mp fatal)
  · obtain ⟨nearer, rfl⟩ := Nat.exists_eq_add_of_le (Nat.not_lt.mp inside)
    exact first.2 nearer (by omega) other (fatalAt_append_right.mp fatal)

theorem harmless_singleton (passes : ∀ error, f item = .error error →
    error.kind ∈ rule.kinds ∧ skipped ≠ rule.limit) : Harmless rule f skipped [item] := by
  intro index reason fatal
  have first : index = 0 := Nat.lt_one_iff.mp fatal.lt_length
  subst first
  obtain ⟨error, fails, why⟩ := fatalAt_cons_zero.mp fatal
  obtain ⟨designated, below⟩ := passes error fails
  rcases why with ⟨undesignated, _⟩ | ⟨_, full, _⟩
  · exact undesignated designated
  · exact below full

theorem firstFatal_zero (fatal : FatalAt rule f skipped (item :: items) 0 reason) :
    FirstFatal rule f skipped (item :: items) 0 reason :=
  ⟨fatal, fun _ before => absurd before (Nat.not_lt_zero _)⟩

end

/-! ## Rulings -/

theorem SkipLimit.ruling_skips {rule : SkipLimit} {error : Error} {skipped : Nat}
    (ruling : rule.ruling error skipped = .ok true) :
    error.kind ∈ rule.kinds ∧ skipped < rule.limit := by
  by_cases designated : error.kind ∈ rule.kinds <;> by_cases below : skipped < rule.limit <;>
    simp_all [SkipLimit.ruling, isSkippable]

theorem SkipLimit.ruling_refuses {rule : SkipLimit} {error : Error} {skipped : Nat}
    (ruling : rule.ruling error skipped = .ok false) : error.kind ∉ rule.kinds := by
  intro designated
  by_cases below : skipped < rule.limit <;> simp_all [SkipLimit.ruling, isSkippable]

theorem SkipLimit.ruling_overrules {rule : SkipLimit} {error reason : Error} {skipped : Nat}
    (ruling : rule.ruling error skipped = .error reason) :
    error.kind ∈ rule.kinds ∧ rule.limit ≤ skipped ∧ reason = .skipLimitExceeded rule.limit := by
  by_cases designated : error.kind ∈ rule.kinds <;> by_cases below : skipped < rule.limit <;>
    simp_all [SkipLimit.ruling, isSkippable]

/-! ## The books of a pass -/

/-- What a pass over items adds to the counters of filtered and skipped items. -/
def passed (rule : SkipLimit) (f : ι → Result (Option ω)) (items : List ι) : Tally where
  filtered := items.countP (isFiltered f)
  skipped := items.countP (failsSkippably rule f)
  processErrors := items.countP (failsSkippably rule f)

theorem passed_append (rule : SkipLimit) (f : ι → Result (Option ω)) (items later : List ι) :
    passed rule f (items ++ later) = passed rule f items + passed rule f later := by
  simp [passed, Tally.add_def, List.countP_append]

/-- A pass over items takes one ledger to another: it goes through all of them, or stops at the
first one that is fatal. -/
def Passes (rule : SkipLimit) (f : ι → Result (Option ω)) (before : Ledger) (items : List ι)
    (outputs : List ω) (ending : Result Unit) (after : Ledger) : Prop :=
  match ending with
  | .ok () => Harmless rule f before.processSkipCount items ∧ outputs = outputsOf f items ∧
      after = before.plus (passed rule f items) before.status ∧
      before.processSkipCount + items.countP (failsSkippably rule f) ≤ rule.limit
  | .error reason => ∃ index, FirstFatal rule f before.processSkipCount items index reason ∧
      after = before.plus (passed rule f (items.take index) + { processErrors := 1 })
        .processorError

theorem Passes.cons {rule : SkipLimit} {f : ι → Result (Option ω)} {before after : Ledger}
    {item : ι} {items : List ι} {outputs : List ω} {ending : Result Unit}
    (harmless : Harmless rule f before.processSkipCount [item])
    (rest : Passes rule f (before.plus (passed rule f [item]) before.status) items outputs ending
      after) :
    Passes rule f before (item :: items) (outputsOf f [item] ++ outputs) ending after := by
  have count : (item :: items).countP (failsSkippably rule f) =
      [item].countP (failsSkippably rule f) + items.countP (failsSkippably rule f) := by
    simp [List.countP_cons, Nat.add_comm]
  rcases ending with reason | ⟨⟩
  · obtain ⟨index, first, books⟩ := rest
    have behind := FirstFatal.behind harmless first
    refine ⟨index + 1, by simpa [Nat.add_comm] using behind, ?_⟩
    rw [books, Ledger.plus_plus, ← Tally.add_assoc, ← passed_append]
    rfl
  · obtain ⟨others, produced, books, below⟩ := rest
    refine ⟨harmless.append others, ?_, ?_, ?_⟩
    · rw [produced, ← outputsOf_append]
      rfl
    · rw [books, Ledger.plus_plus, ← passed_append]
      rfl
    · rw [count, ← Nat.add_assoc]
      exact below

/-- What a run without a fatal item adds to the counters. -/
def wholePass (rule : SkipLimit) (f : ι → Result (Option ω)) (size : Nat) (items : List ι) :
    Tally :=
  passed rule f items +
    { read := items.length
      written := (outputsOf f items).length
      commits := (items.length + size - 1) / size }

/-- What a run adds to the counters that the item at an index stops. The chunks before the one of
that item are committed. -/
def brokenPass (rule : SkipLimit) (f : ι → Result (Option ω)) (size : Nat) (items : List ι)
    (index : Nat) : Tally :=
  passed rule f (items.take index) +
    { read := min items.length (size * (index / size + 1))
      written := (outputsOf f (items.take (size * (index / size)))).length
      commits := index / size
      rollbacks := 1
      processErrors := 1 }

/-- What a committed chunk adds to the counters. -/
def chunkTally (rule : SkipLimit) (f : ι → Result (Option ω)) (chunk : List ι) : Tally :=
  passed rule f chunk +
    { read := chunk.length, written := (outputsOf f chunk).length, commits := 1 }

theorem wholePass_append {rule : SkipLimit} {f : ι → Result (Option ω)} {size : Nat}
    {chunk later : List ι} (full : chunk.length = size) (positive : 0 < size) :
    chunkTally rule f chunk + wholePass rule f size later =
      wholePass rule f size (chunk ++ later) := by
  have commits :
      (size + later.length + size - 1) / size = 1 + (later.length + size - 1) / size := by
    rw [Nat.add_assoc, Nat.add_sub_assoc (by omega), Nat.add_div_left _ positive, Nat.add_comm]
  simp [wholePass, chunkTally, passed_append, outputsOf_append, Tally.add_def, full, commits]
  omega

theorem wholePass_short {rule : SkipLimit} {f : ι → Result (Option ω)} {size : Nat}
    {items : List ι} (nonempty : items ≠ []) (short : items.length < size) :
    wholePass rule f size items = chunkTally rule f items := by
  -- Fewer items than a chunk holds, but not none, make one chunk.
  have some_item : 0 < items.length := List.length_pos_iff.mpr nonempty
  have commits : (items.length + size - 1) / size = 1 :=
    Nat.div_eq_of_lt_le (by omega) (by omega)
  rw [wholePass, chunkTally, commits]

theorem brokenPass_append {rule : SkipLimit} {f : ι → Result (Option ω)} {size index : Nat}
    {chunk later : List ι} (full : chunk.length = size) (positive : 0 < size) :
    chunkTally rule f chunk + brokenPass rule f size later index =
      brokenPass rule f size (chunk ++ later) (size + index) := by
  have chunks : (size + index) / size = index / size + 1 := Nat.add_div_left index positive
  have before : size * (index / size + 1) = chunk.length + size * (index / size) := by
    rw [Nat.mul_succ, full, Nat.add_comm]
  rw [brokenPass, brokenPass, chunks, before, List.take_length_add_append, ← full,
    List.take_length_add_append]
  simp [chunkTally, passed_append, outputsOf_append, Tally.add_def, Nat.mul_succ]
  omega

/-- What can be seen of a run in memory: its books, and the items in the queue and the store. -/
structure Sight (ι ω : Type) where
  books : Ledger
  queue : List ι
  stored : List ω

/-- What a run in memory comes to from what is seen at its start: it goes through all items if none
is fatal, and stops at the first fatal one otherwise. -/
structure Finishes (rule : SkipLimit) (f : ι → Result (Option ω)) (size : Nat)
    (before : Sight ι ω) (result : Option (Result Unit)) (after : Sight ι ω) : Prop where
  whole : Harmless rule f before.books.processSkipCount before.queue →
    result = some (.ok ()) ∧
      after = ⟨before.books.plus (wholePass rule f size before.queue) .success, [],
        before.stored ++ outputsOf f before.queue⟩
  broken : ∀ index reason,
    FirstFatal rule f before.books.processSkipCount before.queue index reason →
      result = some (.error reason) ∧
        after = ⟨before.books.plus (brokenPass rule f size before.queue index) .processorError,
          before.queue.drop (size * (index / size + 1)),
          before.stored ++ outputsOf f (before.queue.take (size * (index / size)))⟩

section

variable {rule : SkipLimit} {f : ι → Result (Option ω)} {size : Nat} {books : Ledger}
  {chunk later : List ι} {stored : List ω}

theorem Finishes.exhausted (positive : 0 < size) :
    Finishes rule f size ⟨books, [], stored⟩ (some (.ok ()))
      ⟨{ books with status := .success }, [], stored⟩ where
  whole _ := by
    have none_read : (size - 1) / size = 0 := Nat.div_eq_of_lt (by omega)
    simp [wholePass, passed, outputsOf, none_read, Ledger.plus, Tally.add_def]
  broken index reason first := absurd first.1.lt_length (Nat.not_lt_zero index)

theorem Finishes.last (short : chunk.length < size) (nonempty : chunk ≠ [])
    (harmless : Harmless rule f books.processSkipCount chunk) :
    Finishes rule f size ⟨books, chunk, stored⟩ (some (.ok ()))
      ⟨books.plus (chunkTally rule f chunk) .success, [], stored ++ outputsOf f chunk⟩ where
  whole _ := ⟨rfl, by rw [wholePass_short nonempty short]⟩
  broken index reason first := absurd first.1 (harmless index reason)

/-- A chunk that is stopped at one of its items stops the run. -/
theorem Finishes.failed {index : Nat} {reason : Error} (fits : chunk.length ≤ size)
    (more : later ≠ [] → chunk.length = size)
    (first : FirstFatal rule f books.processSkipCount chunk index reason) :
    Finishes rule f size ⟨books, chunk ++ later, stored⟩ (some (.error reason))
      ⟨books.plus (passed rule f (chunk.take index) +
        { read := chunk.length, rollbacks := 1, processErrors := 1 }) .processorError, later,
        stored⟩ where
  whole harmless := absurd first.append_left.1 (harmless index reason)
  broken place other again := by
    obtain ⟨rfl, rfl⟩ := first.append_left.unique again
    have inside := first.1.lt_length
    -- The fatal item is in the first chunk: nothing is stored, and this chunk is all that is read.
    have none_before : index / size = 0 := Nat.div_eq_of_lt (by omega)
    have reads : min (chunk.length + later.length) size = chunk.length := by
      rcases later with _ | ⟨item, later⟩
      · exact Nat.min_eq_left fits
      · have full := more (List.cons_ne_nil _ _)
        omega
    have left : (chunk ++ later).drop size = later := by
      rcases later with _ | ⟨item, later⟩
      · simpa using fits
      · rw [← more (List.cons_ne_nil _ _), List.drop_left]
    have taken : (chunk ++ later).take index = chunk.take index :=
      List.take_append_of_le_length (Nat.le_of_lt inside)
    simp [brokenPass, none_before, reads, left, taken, outputsOf]

/-- Behind a committed chunk the run goes on with the rest of the queue. -/
theorem Finishes.more {result : Option (Result Unit)} {after : Sight ι ω}
    (full : chunk.length = size) (positive : 0 < size)
    (harmless : Harmless rule f books.processSkipCount chunk)
    (rest : Finishes rule f size
      ⟨books.plus (chunkTally rule f chunk) books.status, later, stored ++ outputsOf f chunk⟩ result
      after) :
    Finishes rule f size ⟨books, chunk ++ later, stored⟩ result after where
  whole all := by
    obtain ⟨ended, seen⟩ := rest.whole all.of_append
    refine ⟨ended, ?_⟩
    rw [seen, Ledger.plus_plus, wholePass_append full positive, outputsOf_append,
      List.append_assoc]
  broken index reason first := by
    obtain ⟨place, rfl, behind⟩ := first.of_append harmless
    obtain ⟨ended, seen⟩ := rest.broken place reason behind
    refine ⟨ended, ?_⟩
    -- Counted from behind the chunk, the fatal item is one chunk nearer.
    have chunks : (size + place) / size = place / size + 1 := Nat.add_div_left place positive
    have taken : (chunk ++ later).take (size * (place / size + 1)) =
        chunk ++ later.take (size * (place / size)) := by
      rw [Nat.mul_succ, Nat.add_comm, ← full, List.take_length_add_append]
    have left : (chunk ++ later).drop (size * (place / size + 1 + 1)) =
        later.drop (size * (place / size + 1)) := by
      rw [Nat.mul_succ size (place / size + 1), Nat.add_comm, ← full, List.drop_length_add_append]
    rw [seen]
    simp only [Ledger.plus_plus, brokenPass_append full positive, chunks, taken, left,
      outputsOf_append, List.append_assoc, full]

end

end Batchwork
