import Batchwork.Proofs.Step.Stages

/-!
# Committed chunks

Which outputs were committed can be read off the calls of a run: the outputs that the processor
answered since a transaction began are committed if its commit succeeds, and dropped otherwise.
`Transacts.along` says that a transaction commits exactly the list that is its result, and
`Transacts.heardBy` that this list is what every chunk listener is told.
-/

namespace Batchwork

variable {σ ε ι ω : Type}

/-- Outputs as the calls show them: those of the chunk in progress, and the committed ones chunk by
chunk. -/
structure Outputs (ω : Type) where
  pending : List ω := []
  committed : List (List ω) := []

namespace Outputs

def after (outputs : Outputs ω) : Call ι ω → Outputs ω
  | .begin _ | .rollback _ => { outputs with pending := [] }
  | .process _ (.ok (some output)) => { outputs with pending := outputs.pending ++ [output] }
  | .commit (.ok ()) => ⟨[], outputs.committed ++ [outputs.pending]⟩
  | _ => outputs

def along (outputs : Outputs ω) (made : List (Call ι ω)) : Outputs ω := made.foldl after outputs

@[simp] theorem along_nil (outputs : Outputs ω) : outputs.along ([] : List (Call ι ω)) = outputs :=
  rfl

@[simp] theorem along_cons (outputs : Outputs ω) (call : Call ι ω) (made : List (Call ι ω)) :
    outputs.along (call :: made) = (outputs.after call).along made := rfl

@[simp] theorem along_append (outputs : Outputs ω) (first second : List (Call ι ω)) :
    outputs.along (first ++ second) = (outputs.along first).along second := List.foldl_append

/-- Calls that say nothing about outputs. -/
theorem along_eq (outputs : Outputs ω) {made : List (Call ι ω)}
    (silent : ∀ call ∈ made, ∀ before : Outputs ω, before.after call = before) :
    outputs.along made = outputs := by
  induction made with
  | nil => rfl
  | cons call made ih =>
    obtain ⟨first, rest⟩ := List.forall_mem_cons.mp silent
    rw [along_cons, first, ih rest]

end Outputs

/-- The committed chunks of a run, each as the list of its outputs. -/
def committedChunks (made : List (Call ι ω)) : List (List ω) :=
  (({} : Outputs ω).along made).committed

/-- The outputs of which a call tells a chunk listener that they are committed. -/
@[simp] def Call.committedTo (listener : Nat) : Call ι ω → Option (List ω)
  | afterChunk told outputs => if told = listener then some outputs else none
  | _ => none

/-- The lists of which a chunk listener was told that they are committed. -/
def heardBy (listener : Nat) (made : List (Call ι ω)) : List (List ω) :=
  made.filterMap (Call.committedTo listener)

/-- What a transaction commits, by its result. -/
def committedBy : Result (List ω) → List (List ω)
  | .ok outputs => [outputs]
  | .error _ => []

@[simp] theorem heardBy_nil (listener : Nat) : heardBy listener ([] : List (Call ι ω)) = [] := rfl

@[simp] theorem heardBy_append (listener : Nat) (first second : List (Call ι ω)) :
    heardBy listener (first ++ second) = heardBy listener first ++ heardBy listener second :=
  List.filterMap_append

@[simp] theorem heardBy_cons (listener : Nat) (call : Call ι ω) (made : List (Call ι ω)) :
    heardBy listener (call :: made) =
      (call.committedTo listener).toList ++ heardBy listener made := by
  rw [heardBy, List.filterMap_cons]
  cases call.committedTo listener <;> rfl

theorem heardBy_eq_nil {listener : Nat} {made : List (Call ι ω)}
    (silent : ∀ call ∈ made, call.committedTo listener = none) : heardBy listener made = [] :=
  List.filterMap_eq_nil_iff.mpr silent

theorem heardBy_afterChunk (listener : Nat) (outputs : List ω) (index count : Nat) :
    heardBy listener ((List.range' index count).map (Call.afterChunk (ι := ι) · outputs)) =
      if index ≤ listener ∧ listener < index + count then [outputs] else [] := by
  induction count generalizing index with
  | zero => simp
  | succ count ih =>
    rw [List.range'_succ, List.map_cons, heardBy_cons, ih (index + 1), Call.committedTo]
    -- The call to this listener is the first one, one of the later ones, or not there.
    by_cases same : index = listener
    · rw [if_pos same, if_neg (by omega), if_pos (by omega)]
      rfl
    · have bounds : (index + 1 ≤ listener ∧ listener < index + 1 + count) ↔
          (index ≤ listener ∧ listener < index + (count + 1)) := by omega
      simp only [same, ↓reduceIte, bounds]
      rfl

namespace ChunkStep

variable {step : ChunkStep σ ε ι ω} {p after : Progress σ} {events : List (StepEvent ι ω ε)}

section

variable {κ : Type} {act : κ → Act σ ε Unit} {call : Nat → Call ι ω} {index : Nat}
  {listeners : List κ} {heard : List (StepEvent ι ω ε)}

theorem notify_along (notice : notify act call index listeners p = ⟨(), heard, after⟩)
    (silent : ∀ listener, ∀ before : Outputs ω, before.after (call listener) = before)
    (outputs : Outputs ω) : outputs.along (calls heard) = outputs := by
  rw [notify_calls notice]
  apply Outputs.along_eq
  intro made member
  obtain ⟨listener, _, rfl⟩ := List.mem_map.mp member
  exact silent listener

theorem notify_heardBy (notice : notify act call index listeners p = ⟨(), heard, after⟩)
    (listener : Nat) (silent : ∀ index, (call index).committedTo listener = none) :
    heardBy listener (calls heard) = [] := by
  rw [notify_calls notice]
  apply heardBy_eq_nil
  intro made member
  obtain ⟨index, _, rfl⟩ := List.mem_map.mp member
  exact silent index

end

theorem Reads.along {room : Nat} {items : List ι} {ending : Result ChunkStatus}
    (reads : step.Reads room p events items ending after) (outputs : Outputs ω) :
    outputs.along (calls events) = outputs := by
  induction reads with
  | full => rfl
  | finished answer | failed answer => simp [Outputs.after]
  | item answer rest ih => simpa [Outputs.after] using ih

theorem Reads.heardBy {room : Nat} {items : List ι} {ending : Result ChunkStatus}
    (reads : step.Reads room p events items ending after) (listener : Nat) :
    heardBy listener (calls events) = [] := by
  induction reads with
  | full => rfl
  | finished answer | failed answer => simp
  | item answer rest ih => simpa using ih

theorem Skips.along {item : ι} {error : Error} {verdict : Result Unit}
    (skips : step.Skips item error p events verdict after) (outputs : Outputs ω) :
    outputs.along (calls events) = outputs := by
  cases skips with
  | skipped answer notice =>
    have silent := notify_along notice (fun _ _ => rfl) outputs
    simpa [Outputs.after] using silent
  | refused answer | overruled answer => simp [Outputs.after]

theorem Skips.heardBy {item : ι} {error : Error} {verdict : Result Unit}
    (skips : step.Skips item error p events verdict after) (listener : Nat) :
    heardBy listener (calls events) = [] := by
  cases skips with
  | skipped answer notice =>
    have silent := notify_heardBy notice listener fun _ => rfl
    simpa using silent
  | refused answer | overruled answer => simp

/-- Processing adds its outputs to those of the chunk in progress. -/
theorem Processes.along {items : List ι} {produced : List ω} {ending : Result Unit}
    (processes : step.Processes items p events produced ending after) (outputs : Outputs ω) :
    outputs.along (calls events) = { outputs with pending := outputs.pending ++ produced } := by
  -- The pending outputs grow along the calls, so the induction is over any of them.
  induction processes generalizing outputs with
  | done => simp
  | output answer rest ih => simp [Outputs.after, ih]
  | filtered answer rest ih => simp [Outputs.after, ih]
  | skipped answer skip rest ih => simp [Outputs.after, skip.along, ih]
  | fatal answer refusal => simp [Outputs.after, refusal.along]

theorem Processes.heardBy {items : List ι} {produced : List ω} {ending : Result Unit}
    (processes : step.Processes items p events produced ending after) (listener : Nat) :
    heardBy listener (calls events) = [] := by
  induction processes with
  | done => rfl
  | output answer rest ih | filtered answer rest ih => simpa using ih
  | skipped answer skip rest ih =>
    simp [skip.heardBy listener, ih]
  | fatal answer refusal =>
    simp [refusal.heardBy listener]

theorem Writes.along {outputs : List ω} {answer : Result Unit}
    (writes : step.Writes outputs p events answer after) (before : Outputs ω) :
    before.along (calls events) = before := by
  cases writes <;> simp [Outputs.after]

theorem Writes.heardBy {outputs : List ω} {answer : Result Unit}
    (writes : step.Writes outputs p events answer after) (listener : Nat) :
    heardBy listener (calls events) = [] := by
  cases writes <;> simp

theorem RollsBack.along {cause : Error} (undo : step.RollsBack cause p events after)
    (outputs : Outputs ω) : outputs.along (calls events) = { outputs with pending := [] } := by
  cases undo with
  | rolledBack answer notice =>
    have silent := notify_along notice (fun _ _ => rfl) { outputs with pending := [] }
    simpa [Outputs.after] using silent

theorem RollsBack.heardBy {cause : Error} (undo : step.RollsBack cause p events after)
    (listener : Nat) : heardBy listener (calls events) = [] := by
  cases undo with
  | rolledBack answer notice =>
    have silent := notify_heardBy notice listener fun _ => rfl
    simpa using silent

/-- A transaction commits exactly its result. -/
theorem Transacts.along {items : List ι} {result : Result (List ω)}
    (transacts : step.Transacts items p events result after) (outputs : Outputs ω) :
    outputs.along (calls events) = ⟨[], outputs.committed ++ committedBy result⟩ := by
  cases transacts with
  | notBegun before answer notice =>
    have silent := notify_along before (fun _ _ => rfl) outputs
    have told := notify_along notice (fun _ _ => rfl) { outputs with pending := [] }
    simpa [Outputs.after, silent, committedBy] using told
  | notProcessed before answer process undo =>
    have silent := notify_along before (fun _ _ => rfl) outputs
    simp [Outputs.after, silent, process.along, undo.along, committedBy]
  | notWritten before answer process write undo =>
    have silent := notify_along before (fun _ _ => rfl) outputs
    simp [Outputs.after, silent, process.along, write.along, undo.along, committedBy]
  | notCommitted before answer process write commit undo =>
    have silent := notify_along before (fun _ _ => rfl) outputs
    simp [Outputs.after, silent, process.along, write.along, undo.along, committedBy]
  | @committed _ _ _ _ _ _ _ _ _ _ _ _ produced before answer process write commit notice =>
    -- Only here do the pending outputs move over to the committed ones.
    have silent := notify_along before (fun _ _ => rfl) outputs
    have told := notify_along notice (fun _ _ => rfl) ⟨[], outputs.committed ++ [produced]⟩
    simpa [Outputs.after, silent, process.along, write.along, committedBy] using told

/-- Every chunk listener is told of exactly what a transaction commits. -/
theorem Transacts.heardBy {items : List ι} {result : Result (List ω)}
    (transacts : step.Transacts items p events result after) {listener : Nat}
    (registered : listener < step.chunkListeners.length) :
    heardBy listener (calls events) = committedBy result := by
  cases transacts with
  | notBegun before answer notice =>
    have silent := notify_heardBy before listener fun _ => rfl
    have told := notify_heardBy notice listener fun _ => rfl
    simp [silent, told, committedBy]
  | notProcessed before answer process undo =>
    have silent := notify_heardBy before listener fun _ => rfl
    simp [silent, process.heardBy, undo.heardBy, committedBy]
  | notWritten before answer process write undo =>
    have silent := notify_heardBy before listener fun _ => rfl
    simp [silent, process.heardBy, write.heardBy, undo.heardBy, committedBy]
  | notCommitted before answer process write commit undo =>
    have silent := notify_heardBy before listener fun _ => rfl
    simp [silent, process.heardBy, write.heardBy, undo.heardBy, committedBy]
  | @committed _ _ _ _ _ _ _ _ _ _ _ _ produced before answer process write commit notice =>
    have silent := notify_heardBy before listener fun _ => rfl
    -- Each listener is called once, so a registered one hears the chunk once.
    have told : heardBy listener ((List.range' 0 step.chunkListeners.length).map
        (Call.afterChunk (ι := ι) · produced)) = [produced] := by
      rw [heardBy_afterChunk, if_pos (by omega)]
    simp [silent, process.heardBy, write.heardBy, notify_calls notice, told, committedBy]

end ChunkStep

/-- Calls between transactions, by the chunks they commit: these are added to the committed ones,
and each of so many chunk listeners is told of them. -/
structure Commits (listeners : Nat) (chunks : List (List ω)) (made : List (Call ι ω)) : Prop where
  along : ∀ outputs : Outputs ω, outputs.pending = [] →
    outputs.along made = ⟨[], outputs.committed ++ chunks⟩
  heard : ∀ listener < listeners, heardBy listener made = chunks

theorem Commits.unheard {listeners : Nat} {chunks : List (List ω)} {made : List (Call ι ω)}
    (commits : Commits listeners chunks made) : Commits 0 chunks made where
  along := commits.along
  heard listener registered := absurd registered (Nat.not_lt_zero listener)

theorem Commits.nil (listeners : Nat) : Commits listeners [] ([] : List (Call ι ω)) where
  along outputs settled := by rw [Outputs.along_nil, List.append_nil, ← settled]
  heard _ _ := rfl

theorem Commits.append {listeners : Nat} {chunks later : List (List ω)}
    {first second : List (Call ι ω)} (before : Commits listeners chunks first)
    (after : Commits listeners later second) :
    Commits listeners (chunks ++ later) (first ++ second) where
  along outputs settled := by
    rw [Outputs.along_append, before.along outputs settled, after.along _ rfl, List.append_assoc]
  heard listener registered := by
    rw [heardBy_append, before.heard listener registered, after.heard listener registered]

/-- Opening and closing the store commit nothing. -/
theorem Commits.committedChunks {listeners : Nat} {chunks : List (List ω)} {made : List (Call ι ω)}
    (commits : Commits listeners chunks made) (closed : Option (Result Unit)) :
    committedChunks (.openStore (.ok ()) :: (made ++ (closed.map .closeStore).toList)) =
      chunks := by
  have along := commits.along {} rfl
  rw [Batchwork.committedChunks, Outputs.along_cons, Outputs.along_append]
  simp only [Outputs.after, along]
  cases closed <;> rfl

namespace ChunkStep

variable {step : ChunkStep σ ε ι ω} {p after : Progress σ} {events : List (StepEvent ι ω ε)}

theorem Reads.commits {room : Nat} {items : List ι} {ending : Result ChunkStatus}
    (reads : step.Reads room p events items ending after) :
    Commits step.chunkListeners.length [] (calls events) where
  along outputs settled := by rw [reads.along, List.append_nil, ← settled]
  heard listener _ := reads.heardBy listener

theorem Transacts.commits {items : List ι} {result : Result (List ω)}
    (transacts : step.Transacts items p events result after) :
    Commits step.chunkListeners.length (committedBy result) (calls events) where
  along outputs _ := transacts.along outputs
  heard _ registered := transacts.heardBy registered

theorem Round.commits {result : Option (Result Unit)}
    (round : step.Round p events result after) :
    ∃ chunks, Commits step.chunkListeners.length chunks (calls events) := by
  cases round with
  | notRead reads | exhausted reads => exact ⟨_, reads.commits⟩
  | failed reads nonempty transacts | last reads nonempty transacts
  | more reads nonempty transacts =>
    rw [calls_log, calls_append]
    exact ⟨_, reads.commits.append transacts.commits⟩

theorem Rounds.commits {rounds : Nat} {result : Option (Result Unit)}
    (all : step.Rounds rounds p events result after) :
    ∃ chunks, Commits step.chunkListeners.length chunks (calls events) := by
  induction all with
  | unfinished | stopped crowded => exact ⟨_, .nil _⟩
  | last round => exact round.commits
  | more round rest ih =>
    obtain ⟨_, first⟩ := round.commits
    obtain ⟨_, later⟩ := ih
    rw [calls_append]
    exact ⟨_, first.append later⟩

/-- Every chunk listener is told of exactly the committed chunks, in order. -/
theorem Runs.heardBy {rounds : Nat} {result : Option (Result Unit)}
    (runs : step.Runs rounds p events result after) {listener : Nat}
    (registered : listener < step.chunkListeners.length) :
    heardBy listener (calls events) = committedChunks (calls events) := by
  cases runs with
  | notOpened answer => simp [committedChunks, Outputs.after]
  | unfinished answer all | closed answer all close =>
    -- Opening and closing commit nothing, so the rounds decide.
    obtain ⟨chunks, commits⟩ := all.commits
    simp [committedChunks, Outputs.after, commits.along {} rfl, commits.heard listener registered]

end ChunkStep

end Batchwork
