import Batchwork.Proofs.Memory.ReferenceSemantics

/-!
# Restarting a step

A step from a queue to a store is run again and again, on new books or on those of the run before.
Every run takes its share off the front of the queue: chunks that it commits and, if it fails, the
one it failed in, which is lost. So no item is processed twice, what is stored is what was
committed, and since a run that fails takes at least one item, one of the first runs succeeds. Main
statement: `restarts_deliver`.
-/

namespace Batchwork

variable {σ δ ε ι ω : Type}

/-- The chunks that a run takes off a queue: those it commits, and the one it loses. -/
structure Share (ι : Type) where
  committed : List (List ι)
  lost : Option (List ι)

namespace Share

def chunks (share : Share ι) : List (List ι) := share.committed ++ share.lost.toList

/-- The items that are consumed. -/
def items (share : Share ι) : List ι := share.chunks.flatten

/-- The items whose chunks are committed. -/
def kept (share : Share ι) : List ι := share.committed.flatten

/-- A run that processed the items `done` and left some items in the queue ends so. A run that
succeeds has processed all of its share and left nothing. One that fails has committed all chunks
but the one with the fatal item, which it has processed up to that item. -/
inductive Ends (done left : List ι) : Share ι → Result Unit → Prop
  | succeeded {committed : List (List ι)} (all : done = committed.flatten) (empty : left = []) :
      Ends done left ⟨committed, none⟩ (.ok ())
  | failed {committed : List (List ι)} {chunk front : List ι} {error : Error}
      (covers : ChunkStep.Covers chunk (.error error) front)
      (upTo : done = committed.flatten ++ front) :
      Ends done left ⟨committed, some chunk⟩ (.error error)

end Share

/-- What a run of a step leaves behind. -/
abbrev RunOutcome (σ ε ι ω : Type) : Type :=
  Outcome (Progress σ) (StepEvent ι ω ε) (Option (Result Unit))

namespace ChunkStep

/-- The runs of a step one after the other. Each is run on the books that `renew` makes of the books
before: the same ones, or new ones. -/
def restarts (step : ChunkStep σ ε ι ω) (rounds : Nat) : List (Ledger → Ledger) →
    Progress σ → List (RunOutcome σ ε ι ω)
  | [], _ => []
  | renew :: renewals, p =>
    let run := step.execute rounds ⟨renew p.ledger, p.state⟩
    run :: step.restarts rounds renewals run.state

/-- A run that found the items `waiting` in the queue and `held` in the store, made these calls and
left that state, has taken its share of the queue. -/
structure Takes (step : ChunkStep σ ε ι ω) (queue : Place σ (ItemQueue ι))
    (place : Place σ (ItemStore ω)) (f : ι → Result (Option ω)) (waiting : List ι) (held : List ω)
    (made : List (Call ι ω)) (result : Result Unit) (after : σ) (share : Share ι) : Prop where
  chunks : ∀ chunk ∈ share.chunks, chunk ≠ [] ∧ chunk.length ≤ step.chunkSize
  handed : handed made = share.items
  left : waiting = share.items ++ (queue.get after).items
  commits : Commits step.chunkListeners.length (share.committed.map (outputsOf f)) made
  stored : (place.get after).items = held ++ outputsOf f share.kept
  ends : share.Ends (processed made) (queue.get after).items result

variable {step : ChunkStep σ ε ι ω} {queue : Place σ (ItemQueue ι)} {place : Place σ (ItemStore ω)}
  {input : δ → ε} {name : ComponentLog → ε} {f : ι → Result (Option ω)}
  {p after : Progress σ} {events : List (StepEvent ι ω ε)}

/-! ## The share of one run -/

/-- A transaction stores the outputs of its chunk, or fails at one of its items. -/
theorem Transacts.covers {items : List ι} {result : Result (List ω)}
    (transacts : step.Transacts items p events result after)
    (memory : step.QueueToStore queue place input name f)
    (rests : (place.get p.state).AtRest) :
    ∃ ending done, Handles (calls events) [] done ∧ Covers items ending done ∧
      result = ending.map fun () => outputsOf f done := by
  cases transacts.carries memory.stores rests with
  | @carried opened middle _ told state heard processing completing outputs ending before answer
      process complete =>
    obtain ⟨done, handles, covers⟩ := process.handles
    have produced : outputs = outputsOf f done := by
      rw [process.outputs_eq memory, handles.processed]
    have opening : Handles (calls heard) [] [] := notify_handles before fun _ => ⟨rfl, rfl⟩
    rw [produced, calls_append, calls_append, calls_asked, calls_log, calls_append]
    refine ⟨ending, done, ?_, covers, rfl⟩
    exact opening.behind (.behind (.silent rfl rfl) (handles.before complete.handles))

/-- A chunk is at the front of the queue before it is read. -/
theorem Reads.split {items : List ι} {ending : Result ChunkStatus}
    (reads : step.Reads step.chunkSize p events items ending after)
    (memory : step.QueueToStore queue place input name f) :
    (queue.get p.state).items = items ++ (queue.get after.state).items := by
  obtain ⟨taken, left, -⟩ := reads.fromQueue memory
  rw [taken, left, List.take_append_drop]

/-- Reading that ends before the chunk is full has emptied the queue. -/
theorem Reads.exhausts {items : List ι}
    (reads : step.Reads step.chunkSize p events items (.ok .finished) after)
    (memory : step.QueueToStore queue place input name f) :
    (queue.get after.state).items = [] := by
  obtain ⟨-, left, ended⟩ := reads.fromQueue memory
  rw [left, List.drop_eq_nil_iff]
  split at ended
  next short => exact Nat.le_of_lt short
  next => cases ended

/-- A chunk that was taken off the front of the queue, processed as far as `done`, and stored if
none of its items was fatal. -/
structure Handled (step : ChunkStep σ ε ι ω) (queue : Place σ (ItemQueue ι))
    (place : Place σ (ItemStore ω)) (before : σ) (chunk done : List ι)
    (made : List (Call ι ω)) (result : Result (List ω)) (after : σ) : Prop where
  nonempty : chunk ≠ []
  fits : chunk.length ≤ step.chunkSize
  handles : Handles made chunk done
  commits : Commits step.chunkListeners.length (committedBy result) made
  left : (queue.get before).items = chunk ++ (queue.get after).items
  stored : (place.get after).items = (place.get before).items ++ (committedBy result).flatten
  rests : (place.get after).AtRest

theorem Reads.handled {read : Progress σ} {items : List ι} {status : ChunkStatus}
    {result : Result (List ω)} {reading transaction : List (StepEvent ι ω ε)}
    (reads : step.Reads step.chunkSize p reading items (.ok status) read)
    (nonempty : items ≠ [])
    (transacts : step.Transacts items read transaction result after)
    (memory : step.QueueToStore queue place input name f) (rests : (place.get p.state).AtRest) :
    ∃ ending done, Covers items ending done ∧ (result = ending.map fun () => outputsOf f done) ∧
      Handled step queue place p.state items done (calls (reading ++ transaction)) result
        after.state ∧
      (status = .finished → (queue.get after.state).items = []) := by
  have kept := (reads.leaves memory.stores.reader).kept
  obtain ⟨seen, settled⟩ := transacts.seen memory (kept ▸ rests)
  obtain ⟨ending, done, handles, covers, same⟩ := transacts.covers memory (kept ▸ rests)
  have queued : (queue.get after.state).items = (queue.get read.state).items :=
    congrArg Sight.queue seen
  have stored : (place.get after.state).items =
      (place.get read.state).items ++ (committedBy result).flatten := congrArg Sight.stored seen
  refine ⟨ending, done, covers, same, ⟨nonempty, reads.length_le, ?_, ?_, ?_, ?_, settled⟩, ?_⟩
  · have whole := reads.handles.append handles
    rwa [List.append_nil, List.nil_append, ← calls_append] at whole
  · rw [calls_append]
    exact reads.commits.append transacts.commits
  · rw [queued, reads.split memory]
  · rw [stored, kept]
  · rintro rfl
    rw [queued, reads.exhausts memory]

/-- A round with a result takes one chunk or none. -/
theorem Round.takes {result : Result Unit} (round : step.Round p events (some result) after)
    (memory : step.QueueToStore queue place input name f) (rests : (place.get p.state).AtRest) :
    ∃ share, Takes step queue place f (queue.get p.state).items (place.get p.state).items
      (calls events) result after.state share := by
  cases round with
  | notRead reads => cases (reads.fromQueue memory).2.2
  | exhausted reads =>
    have kept := (reads.leaves memory.stores.reader).kept
    have handles := reads.handles
    refine ⟨⟨[], none⟩, nofun, handles.handed, reads.split memory, reads.commits, ?_, ?_⟩
    · rw [kept]
      exact (List.append_nil _).symm
    · rw [calls_log, handles.processed]
      exact .succeeded rfl (reads.exhausts memory)
  | @failed read _ items status reading transaction error reads nonempty transacts =>
    obtain ⟨ending, done, covers, failed, handled, -⟩ :=
      reads.handled nonempty transacts memory rests
    rcases ending with reason | ⟨⟩ <;> cases failed
    refine ⟨⟨[], some items⟩, ?_, ?_, ?_, handled.commits, handled.stored, ?_⟩
    · intro chunk member
      cases List.mem_singleton.mp member
      exact ⟨handled.nonempty, handled.fits⟩
    · rw [calls_log, handled.handles.handed]
      exact (List.append_nil items).symm
    · rw [handled.left]
      simp [Share.items, Share.chunks]
    · rw [calls_log, handled.handles.processed]
      exact .failed covers rfl
  | @last read final items outputs reading transaction reads nonempty transacts =>
    obtain ⟨ending, done, covers, stored, handled, empty⟩ :=
      reads.handled nonempty transacts memory rests
    cases covers <;> cases stored
    refine ⟨⟨[items], none⟩, ?_, ?_, ?_, handled.commits, ?_, ?_⟩
    · intro chunk member
      cases List.mem_singleton.mp member
      exact ⟨handled.nonempty, handled.fits⟩
    · rw [calls_log, handled.handles.handed]
      exact (List.append_nil items).symm
    · rw [handled.left]
      simp [Share.items, Share.chunks]
    · rw [handled.stored]
      simp [Share.kept, committedBy]
    · rw [calls_log, handled.handles.processed]
      exact .succeeded (List.append_nil items).symm (empty rfl)

/-- A chunk that is committed is added in front of what the rest of the run takes. -/
theorem Takes.cons {before middle : σ} {chunk : List ι}
    {first made : List (Call ι ω)} {result : Result Unit} {final : σ} {share : Share ι}
    (handled : Handled step queue place before chunk chunk first (.ok (outputsOf f chunk)) middle)
    (rest : Takes step queue place f (queue.get middle).items (place.get middle).items made result
      final share) :
    Takes step queue place f (queue.get before).items (place.get before).items (first ++ made)
      result final ⟨chunk :: share.committed, share.lost⟩ where
  chunks := by
    intro member mem
    rcases List.mem_cons.mp mem with rfl | later
    · exact ⟨handled.nonempty, handled.fits⟩
    · exact rest.chunks member later
  handed := by
    rw [handed_append, handled.handles.handed, rest.handed]
    rfl
  left := by
    rw [handled.left, rest.left]
    simp [Share.items, Share.chunks]
  commits := handled.commits.append rest.commits
  stored := by
    rw [rest.stored, handled.stored]
    simp [Share.kept, committedBy, outputsOf_append]
  ends := by
    rw [processed_append, handled.handles.processed]
    cases rest.ends with
    | succeeded all empty => exact .succeeded (by rw [all]; rfl) empty
    | failed covers upTo => exact .failed covers (by rw [upTo]; simp)

theorem Rounds.takes {rounds : Nat} {result : Option (Result Unit)}
    (all : step.Rounds rounds p events result after) (room : step.HasRoom)
    (memory : step.QueueToStore queue place input name f)
    (enough : (queue.get p.state).items.length / step.chunkSize < rounds)
    (rests : (place.get p.state).AtRest) :
    ∃ ended share, result = some ended ∧
      Takes step queue place f (queue.get p.state).items (place.get p.state).items (calls events)
        ended after.state share := by
  induction all with
  | unfinished => exact absurd enough (Nat.not_lt_zero _)
  | stopped crowded => exact absurd room crowded
  | last round =>
    obtain ⟨share, takes⟩ := round.takes memory rests
    exact ⟨_, share, rfl, takes⟩
  | @more rounds p middle after first events result round rest ih =>
    cases round with
    | @more read _ chunk outputs reading transaction reads nonempty transacts =>
      obtain ⟨ending, done, covers, stored, handled, -⟩ :=
        reads.handled nonempty transacts memory rests
      cases covers <;> cases stored
      -- The chunk takes one of the rounds, and a full chunk off the queue.
      have fewer : (queue.get middle.state).items.length / step.chunkSize < rounds := by
        rw [handled.left, List.length_append, reads.length_eq rfl,
          Nat.add_div_left _ step.chunkSize_pos] at enough
        exact Nat.lt_of_succ_lt_succ enough
      obtain ⟨ended, share, same, takes⟩ := ih fewer handled.rests
      rw [calls_append, calls_log]
      exact ⟨ended, _, same, Takes.cons handled takes⟩

/-- Calls before and behind that neither hand out nor process items and commit nothing. -/
theorem Takes.framed {opening made closing : List (Call ι ω)} {waiting : List ι} {held : List ω}
    {result : Result Unit} {final : σ} {share : Share ι}
    (takes : Takes step queue place f waiting held made result final share)
    (opens : Handles opening [] [] ∧ Commits step.chunkListeners.length [] opening)
    (closes : Handles closing [] [] ∧ Commits step.chunkListeners.length [] closing) :
    Takes step queue place f waiting held (opening ++ (made ++ closing)) result final share where
  chunks := takes.chunks
  handed := by simp [handed_append, opens.1.handed, closes.1.handed, takes.handed]
  left := takes.left
  commits := by simpa using opens.2.append (takes.commits.append closes.2)
  stored := takes.stored
  ends := by
    simpa [processed_append, opens.1.processed, closes.1.processed] using takes.ends

theorem Runs.takes {rounds : Nat} {result : Option (Result Unit)}
    (runs : step.Runs rounds p events result after) (room : step.HasRoom)
    (memory : step.QueueToStore queue place input name f)
    (enough : (queue.get p.state).items.length / step.chunkSize < rounds)
    (rests : (place.get p.state).AtRest) :
    ∃ ended share, result = some ended ∧
      Takes step queue place f (queue.get p.state).items (place.get p.state).items (calls events)
        ended after.state share := by
  -- Opening and closing leave queue and store alone, and say nothing about items.
  have silent (call : Call ι ω) (uncommitted : ∀ outputs : Outputs ω, outputs.after call = outputs)
      (untold : ∀ listener, call.committedTo listener = none) :
      Commits step.chunkListeners.length [] [call] :=
    ⟨fun outputs settled => by simp [uncommitted, ← settled],
      fun listener _ => by simp [-Call.committedTo, untold]⟩
  cases runs with
  | notOpened answer => cases (memory.stores.opened answer).1
  | unfinished answer all =>
    obtain ⟨-, rfl, rfl⟩ := memory.stores.opened answer
    obtain ⟨ended, share, same, -⟩ := all.takes room memory enough rests
    cases same
  | closed answer all close =>
    obtain ⟨-, rfl, rfl⟩ := memory.stores.opened answer
    obtain ⟨rfl, rfl, rfl⟩ := memory.stores.closed close
    obtain ⟨ended, share, same, takes⟩ := all.takes room memory enough rests
    cases same
    rw [calls_log, calls_append, calls_asked, calls_append, calls_append, calls_asked,
      calls_append, calls_noted, calls_log]
    refine ⟨_, share, rfl, takes.framed ⟨.silent rfl rfl, ?_⟩ ⟨.silent rfl rfl, ?_⟩⟩
    · exact silent _ (fun _ => rfl) fun _ => rfl
    · exact silent _ (fun _ => rfl) fun _ => rfl

/-! ## The shares of successive runs -/

/-- Runs each of which takes its share of what the one before it left. -/
inductive Serves (step : ChunkStep σ ε ι ω) (queue : Place σ (ItemQueue ι))
    (place : Place σ (ItemStore ω)) (f : ι → Result (Option ω)) : σ →
    List (RunOutcome σ ε ι ω) → List (Share ι) → Prop
  | none {before : σ} : Serves step queue place f before [] []
  | run {before : σ} {outcome : RunOutcome σ ε ι ω} {runs : List (RunOutcome σ ε ι ω)}
      {result : Result Unit} {share : Share ι} {shares : List (Share ι)}
      (value : outcome.value = some result)
      (takes : Takes step queue place f (queue.get before).items (place.get before).items
        (calls outcome.events) result outcome.state.state share)
      (rest : Serves step queue place f outcome.state.state runs shares) :
      Serves step queue place f before (outcome :: runs) (share :: shares)

theorem restarts_serve (memory : step.QueueToStore queue place input name f)
    (room : step.HasRoom) {rounds : Nat} (renewals : List (Ledger → Ledger)) {p : Progress σ}
    (enough : (queue.get p.state).items.length / step.chunkSize < rounds)
    (rests : (place.get p.state).AtRest) :
    ∃ shares, Serves step queue place f p.state (step.restarts rounds renewals p) shares := by
  induction renewals generalizing p with
  | nil => exact ⟨[], .none⟩
  | cons renew renewals ih =>
    obtain ⟨events, result, after, runs, eq⟩ := step.execute_runs rounds ⟨renew p.ledger, p.state⟩
    obtain ⟨ended, share, rfl, takes⟩ := runs.takes room memory enough rests
    have stands := (runs.tracked memory.stores rests).stands
    -- What is left of the queue is not longer, so there are still rounds enough.
    have left : (queue.get after.state).items.length ≤ (queue.get p.state).items.length := by
      rw [takes.left, List.length_append]
      exact Nat.le_add_left _ _
    have fewer := Nat.lt_of_le_of_lt (Nat.div_le_div_right left) enough
    obtain ⟨shares, serves⟩ := ih fewer ⟨by simp, stands.staged, stands.active⟩
    rw [restarts, eq]
    exact ⟨share :: shares, .run rfl takes serves⟩

theorem Takes.processed_prefix {waiting : List ι} {held : List ω} {made : List (Call ι ω)}
    {result : Result Unit} {final : σ} {share : Share ι}
    (takes : Takes step queue place f waiting held made result final share) :
    processed made <+: share.items := by
  cases takes.ends with
  | succeeded all empty =>
    rw [all]
    exact ⟨[], by simp [Share.items, Share.chunks]⟩
  | @failed committed chunk front error covers upTo =>
    rw [upTo]
    obtain ⟨rest, split⟩ := covers.isPrefix
    exact ⟨rest, by simp [Share.items, Share.chunks, ← split]⟩

/-- A run that fails takes at least the item that was fatal. -/
theorem Takes.items_ne_nil {waiting : List ι} {held : List ω} {made : List (Call ι ω)}
    {error : Error} {final : σ} {share : Share ι}
    (takes : Takes step queue place f waiting held made (.error error) final share) :
    share.items ≠ [] := by
  cases ended : takes.ends with
  | @failed committed chunk front error covers upTo =>
    have nonempty := (takes.chunks chunk (by simp [Share.chunks])).1
    simp [Share.items, Share.chunks, nonempty]

/-- A run that finds nothing in the queue succeeds and stores nothing. -/
theorem Takes.of_empty {held : List ω} {made : List (Call ι ω)} {result : Result Unit} {final : σ}
    {share : Share ι} (takes : Takes step queue place f [] held made result final share) :
    result = .ok () ∧ (place.get final).items = held ∧ (queue.get final).items = [] := by
  obtain ⟨nothing, empty⟩ := List.append_eq_nil_iff.mp takes.left.symm
  rcases result with error | ⟨⟩
  · exact absurd nothing takes.items_ne_nil
  · refine ⟨rfl, ?_, empty⟩
    have stored := takes.stored
    cases takes.ends with
    | @succeeded committed all _ =>
      have kept : committed.flatten = [] := by simpa [Share.items, Share.chunks] using nothing
      rw [stored, Share.kept, kept]
      exact List.append_nil held

section

variable {before : σ} {shares : List (Share ι)}
  {runs : List (RunOutcome σ ε ι ω)} {run : RunOutcome σ ε ι ω}

theorem Serves.length_eq (serves : Serves step queue place f before runs shares) :
    shares.length = runs.length := by
  induction serves with
  | none => rfl
  | run _ _ _ ih => exact congrArg (· + 1) ih

/-- Every run finds in the queue what the shares before have left, and in the store what they have
kept. -/
theorem Serves.at_index (serves : Serves step queue place f before runs shares) {index : Nat}
    {share : Share ι} (this : runs[index]? = some run) (its : shares[index]? = some share) :
    ∃ waiting result,
      (queue.get before).items = (shares.take index).flatMap Share.items ++ waiting ∧
      run.value = some result ∧
      Takes step queue place f waiting
        ((place.get before).items ++ outputsOf f ((shares.take index).flatMap Share.kept))
        (calls run.events) result run.state.state share := by
  induction serves generalizing index with
  | none => cases this
  | @run before outcome runs result first shares value takes rest ih =>
    cases index with
    | zero =>
      cases this
      cases its
      refine ⟨_, result, rfl, value, ?_⟩
      simpa [outputsOf] using takes
    | succ index =>
      obtain ⟨waiting, later, split, ended, taken⟩ := ih this its
      refine ⟨waiting, later, ?_, ended, ?_⟩
      · rw [takes.left, split]
        simp
      · rw [takes.stored, List.append_assoc, ← outputsOf_append] at taken
        simpa using taken

/-- No item is processed twice, and the items are processed in order. -/
theorem Serves.processed_sublist (serves : Serves step queue place f before runs shares) :
    (runs.flatMap fun run => processed (calls run.events)).Sublist (queue.get before).items := by
  induction serves with
  | none => exact List.nil_sublist _
  | run value takes rest ih =>
    rw [takes.left, List.flatMap_cons]
    exact takes.processed_prefix.sublist.append ih

/-- While the queue has items, every run takes at least one. -/
theorem Serves.succeeds (serves : Serves step queue place f before runs shares)
    (enough : (queue.get before).items.length < runs.length) :
    ∃ index ≤ (queue.get before).items.length, ∃ run, runs[index]? = some run ∧
      run.value = some (.ok ()) := by
  induction serves with
  | none => cases enough
  | @run before outcome runs result share shares value takes rest ih =>
    rcases result with error | ⟨⟩
    · have taken := List.length_pos_iff.mpr takes.items_ne_nil
      have length : (queue.get before).items.length =
          share.items.length + (queue.get outcome.state.state).items.length := by
        rw [takes.left, List.length_append]
      rw [List.length_cons] at enough
      obtain ⟨index, early, run, found, ended⟩ := ih (by omega)
      exact ⟨index + 1, by omega, run, found, ended⟩
    · exact ⟨0, Nat.zero_le _, outcome, rfl, value⟩

/-- On an empty queue every run succeeds and leaves the store as it is. -/
theorem Serves.idle (serves : Serves step queue place f before runs shares)
    (empty : (queue.get before).items = []) {index : Nat} (this : runs[index]? = some run) :
    run.value = some (.ok ()) ∧ (place.get run.state.state).items = (place.get before).items := by
  induction serves generalizing index with
  | none => cases this
  | run value takes rest ih =>
    rw [empty] at takes
    obtain ⟨rfl, same, left⟩ := takes.of_empty
    cases index with
    | zero =>
      cases this
      exact ⟨value, same⟩
    | succ index =>
      obtain ⟨ended, unchanged⟩ := ih left this
      exact ⟨ended, unchanged.trans same⟩

/-- Behind a run that succeeds, every run does and leaves the store as it is. -/
theorem Serves.settled (serves : Serves step queue place f before runs shares) {first second : Nat}
    {later : RunOutcome σ ε ι ω}
    (order : first ≤ second) (this : runs[first]? = some run) (that : runs[second]? = some later)
    (success : run.value = some (.ok ())) :
    later.value = some (.ok ()) ∧
      (place.get later.state.state).items = (place.get run.state.state).items := by
  induction serves generalizing first second with
  | none => cases this
  | @run before outcome runs result share shares value takes rest ih =>
    cases first with
    | succ first =>
      obtain ⟨second, rfl⟩ := Nat.exists_eq_succ_of_ne_zero (by omega : second ≠ 0)
      exact ih (by omega) this that
    | zero =>
      cases this
      cases second with
      | zero =>
        cases that
        exact ⟨success, rfl⟩
      | succ second =>
        rw [value] at success
        cases success
        cases takes.ends with
        | succeeded all empty => exact rest.idle empty that

end

/-- What successive runs of a step make of the items in a queue, whatever its policy decides and
whatever books it is run on. Each run takes its share from where the run before stopped, in chunks,
and stores the outputs of those it commits; if it fails, one chunk is lost. No item is processed
twice. Among the first runs, one more than there are items, one succeeds, and then all later ones do
and store nothing more. -/
theorem restarts_deliver (memory : step.QueueToStore queue place input name f)
    (room : step.HasRoom) (rounds : Nat) (renewals : List (Ledger → Ledger))
    (reachable : (place.get p.state).Reachable)
    (outside : (place.get p.state).inTransaction = false)
    (enough : (queue.get p.state).items.length / step.chunkSize < rounds) :
    let items := (queue.get p.state).items
    let stored := (place.get p.state).items
    let runs := step.restarts rounds renewals p
    (∃ shares : List (Share ι), shares.length = runs.length ∧
      ∀ index run share, runs[index]? = some run → shares[index]? = some share →
        ∃ waiting result, items = (shares.take index).flatMap Share.items ++ waiting ∧
          run.value = some result ∧
          Takes step queue place f waiting
            (stored ++ outputsOf f ((shares.take index).flatMap Share.kept)) (calls run.events)
            result run.state.state share) ∧
    (runs.flatMap fun run => processed (calls run.events)).Sublist items ∧
    (items.length < runs.length → ∃ index ≤ items.length, ∃ run, runs[index]? = some run ∧
      run.value = some (.ok ())) ∧
    ∀ (first second : Nat) (run later : RunOutcome σ ε ι ω), runs[first]? = some run →
      runs[second]? = some later → first ≤ second → run.value = some (.ok ()) →
        later.value = some (.ok ()) ∧
          (place.get later.state.state).items = (place.get run.state.state).items := by
  intro items stored runs
  obtain ⟨shares, serves⟩ :=
    restarts_serve memory room renewals enough (reachable.atRest outside)
  refine ⟨⟨shares, serves.length_eq, ?_⟩, serves.processed_sublist, serves.succeeds, ?_⟩
  · intro index run share this its
    exact serves.at_index this its
  · intro first second run later this that order success
    exact serves.settled order this that success

/-- Zeros beyond the first one cost a chunk each, until a run gets to the end. -/
theorem lenient_restarts :
    let runs := lenient.restarts 3 (List.replicate 6 id) (fresh [0, 0, 3, 0, 5] {})
    (runs.flatMap fun run => processed (calls run.events)).Sublist [0, 0, 3, 0, 5] ∧
      ∃ index ≤ 5, ∃ run, runs[index]? = some run ∧ run.value = some (.ok ()) := by
  intro runs
  obtain ⟨-, once, succeeds, -⟩ := restarts_deliver lenient_memory.queueToStore (by decide)
    3 (List.replicate 6 id) (p := fresh [0, 0, 3, 0, 5] {}) .empty rfl (by decide)
  exact ⟨once, succeeds (by decide)⟩

/-- A step whose chunks there is no room for never gets to the end, as often as it is run. -/
theorem restarts_of_vast (step : ChunkStep σ ε ι ω) (sized : 0 < step.itemSize)
    (opens : ∀ state, (step.writer.openStore state).value = .ok ()) (rounds : Nat)
    (renewals : List (Ledger → Ledger)) (p : Progress σ) :
    ∀ run ∈ step.vast.restarts rounds renewals p, run.value = none := by
  induction renewals generalizing p with
  | nil => nofun
  | cons renew renewals ih =>
    intro run member
    rcases List.mem_cons.mp member with rfl | later
    · exact (step.execute_vast sized (opens _) rounds).1
    · exact ih _ run later

theorem lenient_vast_restarts :
    lenient.vast.QueueToStore (.first _ _) (.second _ _) id id nonzero ∧
    ∀ rounds renewals, ∀ run ∈ lenient.vast.restarts rounds renewals (fresh [1] {}),
      run.value ≠ some (.ok ()) := by
  refine ⟨lenient_vast_memory.queueToStore, fun rounds renewals run member => ?_⟩
  rw [lenient.restarts_of_vast (by decide) (fun _ => rfl) rounds renewals _ run member]
  nofun

end ChunkStep

end Batchwork
