import Batchwork.Proofs.Step.Stages

/-!
# The items of a run

A run processes the items that its reader hands out in the order in which it hands them out, each
once and none left out, up to the point at which it fails. `Runs.inOrder` says so for every run.
-/

namespace Batchwork

variable {σ ε ι ω : Type}

/-- The item that a call handed out. -/
@[simp] def Call.handed? : Call ι ω → Option ι
  | next (.ok (some item)) => some item
  | _ => none

/-- The item that a call processed. -/
@[simp] def Call.processed? : Call ι ω → Option ι
  | process item _ => some item
  | _ => none

/-- The items that a run was handed, in order. -/
def handed (made : List (Call ι ω)) : List ι := made.filterMap Call.handed?

/-- The items that a run passed to its processor, in order. -/
def processed (made : List (Call ι ω)) : List ι := made.filterMap Call.processed?

theorem handed_append (first second : List (Call ι ω)) :
    handed (first ++ second) = handed first ++ handed second := List.filterMap_append

theorem processed_append (first second : List (Call ι ω)) :
    processed (first ++ second) = processed first ++ processed second := List.filterMap_append

theorem processed_process (item : ι) (answer : Result (Option ω)) (made : List (Call ι ω)) :
    processed (.process item answer :: made) = item :: processed made := rfl

/-- Calls that hand out some items and process some. -/
structure Handles (made : List (Call ι ω)) (given done : List ι) : Prop where
  handed : handed made = given
  processed : processed made = done

namespace Handles

variable {first second made : List (Call ι ω)} {given done more further : List ι}

theorem nil : Handles ([] : List (Call ι ω)) [] [] := ⟨rfl, rfl⟩

theorem append (earlier : Handles first given done) (later : Handles second more further) :
    Handles (first ++ second) (given ++ more) (done ++ further) where
  handed := by rw [handed_append, earlier.handed, later.handed]
  processed := by rw [processed_append, earlier.processed, later.processed]

theorem handing {item : ι} : Handles ([.next (.ok (some item))] : List (Call ι ω)) [item] [] :=
  ⟨rfl, rfl⟩

theorem processing {item : ι} {answer : Result (Option ω)} :
    Handles [.process item answer] [] [item] :=
  ⟨rfl, rfl⟩

/-- Calls that hand out no item and process none. -/
theorem of_silent (silent : ∀ call ∈ made, call.handed? = none ∧ call.processed? = none) :
    Handles made [] [] where
  handed := List.filterMap_eq_nil_iff.mpr fun call member => (silent call member).1
  processed := List.filterMap_eq_nil_iff.mpr fun call member => (silent call member).2

theorem silent {call : Call ι ω} (handsOut : call.handed? = none)
    (processes : call.processed? = none) : Handles [call] [] [] :=
  .of_silent (List.forall_mem_singleton.mpr ⟨handsOut, processes⟩)

theorem behind (earlier : Handles first [] []) (later : Handles second given done) :
    Handles (first ++ second) given done := earlier.append later

theorem before (earlier : Handles first given done) (later : Handles second [] []) :
    Handles (first ++ second) given done := by
  have both := earlier.append later
  rwa [List.append_nil, List.append_nil] at both

end Handles

namespace ChunkStep

/-- The items of a chunk that are processed: all of them, or those up to the one that is fatal. -/
inductive Covers (items : List ι) : Result Unit → List ι → Prop
  | all : Covers items (.ok ()) items
  | upTo {error : Error} {front rest : List ι} {item : ι} (split : items = front ++ item :: rest) :
      Covers items (.error error) (front ++ [item])

theorem Covers.cons {item : ι} {items done : List ι} {ending : Result Unit}
    (covers : Covers items ending done) : Covers (item :: items) ending (item :: done) := by
  cases covers with
  | all => exact .all
  | upTo split =>
    rw [← List.cons_append]
    exact .upTo (by rw [split, List.cons_append])

theorem Covers.isPrefix {items done : List ι} {ending : Result Unit}
    (covers : Covers items ending done) : done <+: items := by
  cases covers with
  | all => exact List.prefix_rfl
  | @upTo error front rest item split =>
    refine ⟨rest, ?_⟩
    rw [split, List.append_assoc, List.singleton_append]

variable {step : ChunkStep σ ε ι ω} {p after : Progress σ} {events : List (StepEvent ι ω ε)}

theorem notify_handles {κ : Type} {act : κ → Act σ ε Unit} {call : Nat → Call ι ω} {index : Nat}
    {listeners : List κ} {heard : List (StepEvent ι ω ε)}
    (notice : notify act call index listeners p = ⟨(), heard, after⟩)
    (silent : ∀ listener, (call listener).handed? = none ∧ (call listener).processed? = none) :
    Handles (calls heard) [] [] := by
  rw [notify_calls notice]
  apply Handles.of_silent
  intro made member
  obtain ⟨listener, -, rfl⟩ := List.mem_map.mp member
  exact silent listener

theorem Reads.handles {room : Nat} {items : List ι} {ending : Result ChunkStatus}
    (reads : step.Reads room p events items ending after) : Handles (calls events) items [] := by
  induction reads with
  | full => exact .nil
  | finished answer | failed answer =>
    rw [calls_append, calls_asked, calls_log]
    exact .silent rfl rfl
  | item answer rest ih =>
    rw [calls_append, calls_asked]
    exact Handles.handing.append ih

theorem Skips.handles {item : ι} {error : Error} {verdict : Result Unit}
    (skips : step.Skips item error p events verdict after) : Handles (calls events) [] [] := by
  cases skips with
  | skipped answer notice =>
    have told : Handles _ _ _ := notify_handles notice fun _ => ⟨rfl, rfl⟩
    rw [calls_append, calls_asked, calls_log]
    exact .behind (.silent rfl rfl) told
  | refused answer | overruled answer =>
    rw [calls_append, calls_asked, calls_log]
    exact .silent rfl rfl

theorem Processes.handles {items : List ι} {outputs : List ω} {ending : Result Unit}
    (processes : step.Processes items p events outputs ending after) :
    ∃ done, Handles (calls events) [] done ∧ Covers items ending done := by
  induction processes with
  | done => exact ⟨[], .nil, .all⟩
  | output answer rest ih =>
    obtain ⟨done, handles, covers⟩ := ih
    rw [calls_append, calls_asked]
    exact ⟨_, Handles.processing.append handles, covers.cons⟩
  | filtered answer rest ih =>
    obtain ⟨done, handles, covers⟩ := ih
    rw [calls_append, calls_asked, calls_log]
    exact ⟨_, Handles.processing.append handles, covers.cons⟩
  | skipped answer skip rest ih =>
    obtain ⟨done, handles, covers⟩ := ih
    rw [calls_append, calls_asked, calls_append]
    exact ⟨_, Handles.processing.append (skip.handles.behind handles), covers.cons⟩
  | @fatal _ _ _ _ item items error reason decision answer refusal =>
    rw [calls_append, calls_asked]
    -- Nothing is processed behind the fatal item.
    have last : Covers (item :: items) (.error reason) ([] ++ [item]) := .upTo rfl
    exact ⟨_, Handles.processing.before refusal.handles, last⟩

theorem Writes.handles {outputs : List ω} {answer : Result Unit}
    (writes : step.Writes outputs p events answer after) : Handles (calls events) [] [] :=
  .of_silent (by cases writes <;> simp)

theorem RollsBack.handles {cause : Error} (undo : step.RollsBack cause p events after) :
    Handles (calls events) [] [] := by
  cases undo with
  | rolledBack answer notice =>
    have told : Handles _ _ _ := notify_handles notice fun _ => ⟨rfl, rfl⟩
    rw [calls_log, calls_append, calls_asked, calls_append, calls_noted, List.nil_append]
    exact .behind (.silent rfl rfl) told

/-- A transaction processes the items of its chunk from the first one on, and all of them if it is
committed. -/
theorem Transacts.handles {items : List ι} {result : Result (List ω)}
    (transacts : step.Transacts items p events result after) :
    ∃ done, Handles (calls events) [] done ∧ done <+: items ∧
      ∀ outputs, result = .ok outputs → done = items := by
  cases transacts with
  | notBegun before answer notice =>
    have heard : Handles _ _ _ := notify_handles before fun _ => ⟨rfl, rfl⟩
    have told : Handles _ _ _ := notify_handles notice fun _ => ⟨rfl, rfl⟩
    rw [calls_append, calls_append, calls_asked]
    exact ⟨[], heard.behind (.behind (.silent rfl rfl) told), List.nil_prefix, nofun⟩
  | notProcessed before answer process undo =>
    have heard : Handles _ _ _ := notify_handles before fun _ => ⟨rfl, rfl⟩
    obtain ⟨done, handles, covers⟩ := process.handles
    rw [calls_append, calls_append, calls_asked, calls_log, calls_append]
    refine ⟨done, heard.behind (.behind (.silent rfl rfl) ?_), covers.isPrefix, nofun⟩
    exact handles.before undo.handles
  | notWritten before answer process write undo =>
    have heard : Handles _ _ _ := notify_handles before fun _ => ⟨rfl, rfl⟩
    obtain ⟨done, handles, covers⟩ := process.handles
    rw [calls_append, calls_append, calls_asked, calls_log, calls_append, calls_append]
    refine ⟨done, heard.behind (.behind (.silent rfl rfl) ?_), covers.isPrefix, nofun⟩
    exact handles.before (write.handles.behind undo.handles)
  | notCommitted before answer process write commit undo =>
    have heard : Handles _ _ _ := notify_handles before fun _ => ⟨rfl, rfl⟩
    obtain ⟨done, handles, covers⟩ := process.handles
    rw [calls_append, calls_append, calls_asked, calls_log, calls_append, calls_append,
      calls_append, calls_asked]
    refine ⟨done, heard.behind (.behind (.silent rfl rfl) ?_), covers.isPrefix, nofun⟩
    exact handles.before (write.handles.behind (.behind (.silent rfl rfl) undo.handles))
  | committed before answer process write commit notice =>
    have heard : Handles _ _ _ := notify_handles before fun _ => ⟨rfl, rfl⟩
    have told : Handles _ _ _ := notify_handles notice fun _ => ⟨rfl, rfl⟩
    obtain ⟨done, handles, covers⟩ := process.handles
    rw [calls_append, calls_append, calls_asked, calls_log, calls_append, calls_append,
      calls_append, calls_asked, calls_log]
    cases covers
    refine ⟨_, heard.behind (.behind (.silent rfl rfl) ?_), List.prefix_rfl, fun _ _ => rfl⟩
    exact handles.before (write.handles.behind (.behind (.silent rfl rfl) told))

/-- A round processes the items it reads from the first one on, and all of them if another round
follows. -/
theorem Round.handles {result : Option (Result Unit)} (round : step.Round p events result after) :
    ∃ given done, Handles (calls events) given done ∧ done <+: given ∧
      (result = none → done = given) := by
  cases round with
  | notRead reads => exact ⟨_, [], reads.handles, List.nil_prefix, nofun⟩
  | exhausted reads => exact ⟨_, [], reads.handles, List.nil_prefix, nofun⟩
  | failed reads nonempty transacts | last reads nonempty transacts =>
    obtain ⟨done, handles, order, -⟩ := transacts.handles
    rw [calls_log, calls_append]
    exact ⟨_, done, by simpa using reads.handles.append handles, order, nofun⟩
  | more reads nonempty transacts =>
    obtain ⟨done, handles, order, whole⟩ := transacts.handles
    rw [calls_log, calls_append]
    exact ⟨_, done, by simpa using reads.handles.append handles, order, fun _ => whole _ rfl⟩

theorem Rounds.handles {rounds : Nat} {result : Option (Result Unit)}
    (all : step.Rounds rounds p events result after) :
    ∃ given done, Handles (calls events) given done ∧ done <+: given := by
  induction all with
  | unfinished | stopped crowded => exact ⟨[], [], .nil, List.prefix_rfl⟩
  | last round =>
    obtain ⟨given, done, handles, order, -⟩ := round.handles
    exact ⟨given, done, handles, order⟩
  | more round rest ih =>
    obtain ⟨given, done, handles, -, whole⟩ := round.handles
    obtain ⟨more, further, later, order⟩ := ih
    obtain rfl := whole rfl
    rw [calls_append]
    exact ⟨_, _, handles.append later, List.prefix_append_right_inj _ |>.mpr order⟩

/-- A run processes the items it is handed in order, from the first one on. -/
theorem Runs.handles {rounds : Nat} {result : Option (Result Unit)}
    (runs : step.Runs rounds p events result after) :
    ∃ given done, Handles (calls events) given done ∧ done <+: given := by
  cases runs with
  | notOpened answer =>
    rw [calls_log, calls_append, calls_asked, calls_log]
    exact ⟨[], [], .silent rfl rfl, List.prefix_rfl⟩
  | unfinished answer all =>
    obtain ⟨given, done, handles, order⟩ := all.handles
    rw [calls_log, calls_append, calls_asked]
    exact ⟨given, done, .behind (.silent rfl rfl) handles, order⟩
  | closed answer all close =>
    obtain ⟨given, done, handles, order⟩ := all.handles
    rw [calls_log, calls_append, calls_asked, calls_append, calls_append, calls_asked,
      calls_append, calls_noted, calls_log]
    exact ⟨given, done, .behind (.silent rfl rfl) (handles.before (.silent rfl rfl)), order⟩

theorem Runs.inOrder {rounds : Nat} {result : Option (Result Unit)}
    (runs : step.Runs rounds p events result after) :
    processed (calls events) <+: handed (calls events) := by
  obtain ⟨given, done, handles, order⟩ := runs.handles
  rw [handles.handed, handles.processed]
  exact order

end ChunkStep

end Batchwork
