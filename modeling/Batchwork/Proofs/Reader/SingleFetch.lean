import Batchwork.Http.Repository
import Batchwork.Proofs.Reader.Readings
import Batchwork.Repository

/-!
# Fetching once

A reader over a repository asks it with every reading until it gets items, and never again. Each
answer before is an error of its own reading, and from then on the readings are those items one by
one and the end, for ever. Main statement: `readings_of_fetches`.
-/

namespace Batchwork

variable {σ ε α : Type}

/-- A repository that notes each time that it is asked. -/
def Repository.noting {β : Type} (note : β) (repository : Repository σ ε α) :
    Repository (σ × List β) ε α where
  findAll := repository.findAll.noting note

namespace Fetched

variable {repository : Repository σ ε α} {log : ComponentLog → ε} {state : σ} {items : List α}

/-! ## One reading -/

theorem next_of_item (repository : Repository σ ε α) (log : ComponentLog → ε) (state : σ)
    (item : α) (rest : List α) :
    (asReader repository log).next ⟨state, some (item :: rest)⟩ =
      ⟨.ok (some item), [], ⟨state, some rest⟩⟩ := rfl

theorem next_of_nothing (repository : Repository σ ε α) (log : ComponentLog → ε) (state : σ) :
    (asReader repository log).next ⟨state, some []⟩ = ⟨.ok none, [], ⟨state, some []⟩⟩ := rfl

/-- A reading that fetches items goes on as if they had been there. -/
theorem next_of_fetched (fetched : (repository.findAll state).value = .ok items) :
    ((asReader repository log).next ⟨state, none⟩).value =
        ((asReader repository log).next ⟨(repository.findAll state).state, some items⟩).value ∧
      ((asReader repository log).next ⟨state, none⟩).state =
        ((asReader repository log).next ⟨(repository.findAll state).state, some items⟩).state := by
  simp [asReader, ensure, fetched]

/-- A reading that fetches nothing tells why, and leaves the next one to try again. -/
theorem next_of_failed {error : Error} (failed : (repository.findAll state).value = .error error) :
    ((asReader repository log).next ⟨state, none⟩).value = .error error ∧
      ((asReader repository log).next ⟨state, none⟩).state =
        ⟨(repository.findAll state).state, none⟩ := by
  simp [asReader, ensure, failed]

/-! ## All readings -/

/-- The readings of items that are there. -/
def handedOut (items : List α) : Stream' (Result (Option α)) :=
  (items.map fun item => .ok (some item)) ++ₛ .const (.ok none)

theorem readings_of_pending (repository : Repository σ ε α) (log : ComponentLog → ε) (state : σ)
    (items : List α) :
    (asReader repository log).readings ⟨state, some items⟩ = handedOut items := by
  induction items with
  | nil =>
    apply corec_const (· = ⟨state, some []⟩)
    · rintro fetched rfl
      rw [next_of_nothing]
      exact ⟨rfl, rfl⟩
    · rfl
  | cons item rest ih =>
    rw [Reader.readings_eq, next_of_item, ih]
    rfl

/-- A repository that has answered is left alone. -/
theorem stateAfter_of_pending (repository : Repository σ ε α) (log : ComponentLog → ε) (state : σ)
    (items : List α) (reads : Nat) :
    ((asReader repository log).stateAfter reads ⟨state, some items⟩).repository = state := by
  induction reads generalizing items with
  | zero => rfl
  | succ reads ih =>
    rw [Reader.stateAfter]
    cases items with
    | nil => exact ih []
    | cons item rest => exact ih rest

/-- The readings over a repository that fails some times and then has items. -/
theorem readings_of_success (log : ComponentLog → ε) {errors : List Error}
    {later : Stream' (Result (List α))}
    (fetches : repository.findAll.answers state =
      errors.map .error ++ₛ .cons (.ok items) later) :
    (asReader repository log).readings ⟨state, none⟩ =
        errors.map .error ++ₛ handedOut items ∧
      ∀ reads, ((asReader repository log).stateAfter reads ⟨state, none⟩).repository =
        repository.findAll.stateAfter (min reads (errors.length + 1)) state := by
  -- On the fetches that fail: each is one reading, and the reader stands as before, with nothing
  -- fetched, over the state that the fetch has left.
  induction errors generalizing state with
  | nil =>
    rw [Act.answers_eq] at fetches
    obtain ⟨fetched, -⟩ := Stream'.cons_injective2 fetches
    obtain ⟨value, left⟩ := next_of_fetched fetched
    constructor
    · rw [Reader.readings_eq, value, left, ← Reader.readings_eq, readings_of_pending]
      rfl
    · intro reads
      cases reads with
      | zero => rfl
      | succ reads =>
        rw [Reader.stateAfter, left, ← Reader.stateAfter, stateAfter_of_pending]
        rw [show min (reads + 1) (([] : List Error).length + 1) = 1 by simp]
        rfl
  | cons error errors ih =>
    rw [Act.answers_eq] at fetches
    obtain ⟨failed, later⟩ := Stream'.cons_injective2 fetches
    obtain ⟨value, left⟩ := next_of_failed failed
    obtain ⟨readings, asked⟩ := ih later
    constructor
    · rw [Reader.readings_eq, value, left, readings]
      rfl
    · intro reads
      cases reads with
      | zero => rfl
      | succ reads =>
        rw [Reader.stateAfter, left, asked reads, List.length_cons, Nat.succ_min_succ]
        rfl

/-- The readings over a repository that never has items. -/
theorem readings_of_failure (log : ComponentLog → ε) {errors : Stream' Error}
    (fetches : repository.findAll.answers state = errors.map .error) :
    (asReader repository log).readings ⟨state, none⟩ = errors.map .error ∧
      ∀ reads, ((asReader repository log).stateAfter reads ⟨state, none⟩).repository =
        repository.findAll.stateAfter reads state := by
  -- A reading leaves the same situation behind that it has found, so all of them are alike.
  have step : ∀ {state : σ} {errors : Stream' Error},
      repository.findAll.answers state = errors.map .error →
      ((asReader repository log).next ⟨state, none⟩).value = .error errors.head ∧
        ((asReader repository log).next ⟨state, none⟩).state =
          ⟨(repository.findAll state).state, none⟩ ∧
        repository.findAll.answers (repository.findAll state).state = errors.tail.map .error := by
    intro state errors fetches
    have failed : (repository.findAll state).value = .error errors.head :=
      congrArg Stream'.head fetches
    rw [Act.answers_eq] at fetches
    exact ⟨(next_of_failed failed).1, (next_of_failed failed).2, congrArg Stream'.tail fetches⟩
  constructor
  · apply Stream'.ext
    intro n
    induction n generalizing state errors with
    | zero => exact (step fetches).1
    | succ n ih =>
      obtain ⟨-, left, later⟩ := step fetches
      rw [Reader.readings_eq, left]
      exact ih later
  · intro reads
    induction reads generalizing state errors with
    | zero => rfl
    | succ reads ih =>
      obtain ⟨-, left, later⟩ := step fetches
      rw [Reader.stateAfter, left, ih later]
      rfl

end Fetched

namespace Http

/-- A server that notes the requests that it gets. -/
def Server.noting (server : Server σ) : Server (σ × List Request) := fun request =>
  (server request).noting request

/-- A reply that delivers items: a success with an array of them in its body. -/
def Reply.Delivers (shape : Json.Shape α) (reply : Reply) (items : List α) : Prop :=
  ∃ status body, reply = .answer status body ∧ 200 ≤ status ∧ status < 300 ∧
    Json.decode (.list shape) body = .ok items

namespace Endpoint

variable {endpoint : Endpoint} {request : Request} {shape : Json.Shape α}

theorem items_eq_ok {url : Url} {reply : Reply} {found : List α} :
    items shape url reply = .ok found ↔ reply.Delivers shape found := by
  unfold items Reply.Delivers
  cases reply with
  | unreachable => simp
  | answer status body =>
    by_cases refused : status < 200 ∨ 300 ≤ status
    · simp [refused]
      omega
    · have success : 200 ≤ status ∧ status < 300 := by omega
      cases decoded : Json.decode (.list shape) body with
      | error fault => simp [refused, decoded]
      | ok found => simp [refused, decoded, success]

/-- What a reader of an endpoint is told of a fault. -/
def told (endpoint : Endpoint) (fault : FetchFault) : Error :=
  .itemReader (fault.message endpoint.url.text)

/-- A repository that can make its request sends it, and says what became of it. -/
theorem findAll_of_request (made : endpoint.request = .ok request) (server : Server σ) (state : σ) :
    ((endpoint.asRepository server shape).findAll state).value =
        (items shape request.url (server request state).value).mapError endpoint.told ∧
      ((endpoint.asRepository server shape).findAll state).state =
        (server request state).state := by
  simp only [asRepository, fetch, Act.bind_run, Act.tell, made, Act.pure_run]
  cases items shape request.url (server request state).value <;> exact ⟨rfl, rfl⟩

/-- One that cannot make it sends nothing. -/
theorem findAll_of_fault {fault : FetchFault} (unmade : endpoint.request = .error fault)
    (shape : Json.Shape α) (server : Server σ) (state : σ) :
    ((endpoint.asRepository server shape).findAll state).value = .error (endpoint.told fault) ∧
      ((endpoint.asRepository server shape).findAll state).state = state := by
  simp only [asRepository, fetch, Act.bind_run, Act.tell, unmade, Act.pure_run]
  exact ⟨rfl, trivial⟩

/-- What the replies to a request come to. -/
def verdicts (endpoint : Endpoint) (shape : Json.Shape α) (url : Url) (replies : Stream' Reply) :
    Stream' (Result (List α)) :=
  (replies.map (items shape url)).map (Except.mapError endpoint.told)

/-- Each fetch is one request, and what it brings is the verdict on the reply. -/
theorem fetches_of_request (made : endpoint.request = .ok request) (shape : Json.Shape α)
    (server : Server σ) (state : σ) :
    (endpoint.asRepository server shape).findAll.answers state =
        endpoint.verdicts shape request.url ((server request).answers state) ∧
      ∀ times, (endpoint.asRepository server shape).findAll.stateAfter times state =
        (server request).stateAfter times state := by
  obtain ⟨answers, left⟩ := Act.answers_map
    (fun reply => (items shape request.url reply).mapError endpoint.told)
    (findAll_of_request made server) state
  refine ⟨?_, left⟩
  rw [answers, verdicts, Stream'.map_map]
  rfl

/-- A server that notes its requests brings the same, and each fetch makes a note. -/
theorem fetches_of_noting (made : endpoint.request = .ok request) (shape : Json.Shape α)
    (server : Server σ) (state : σ) :
    (endpoint.asRepository server.noting shape).findAll.answers (state, []) =
        endpoint.verdicts shape request.url ((server request).answers state) ∧
      ∀ times, ((endpoint.asRepository server.noting shape).findAll.stateAfter times
        (state, [])).2 = List.replicate times request := by
  obtain ⟨answers, left⟩ := fetches_of_request made shape server.noting (state, [])
  constructor
  · rw [answers, Server.noting, Act.answers_noting]
  · intro times
    rw [left, Server.noting, Act.stateAfter_noting, List.nil_append]

theorem verdicts_of_delivery {url : Url} {earlier : List Reply} {reply : Reply}
    {later : Stream' Reply} {found : List α} {faults : List FetchFault}
    (refused : earlier.map (items shape url) = faults.map .error)
    (delivers : reply.Delivers shape found) :
    endpoint.verdicts shape url (earlier ++ₛ .cons reply later) =
      (faults.map endpoint.told).map .error ++ₛ
        .cons (.ok found) (endpoint.verdicts shape url later) := by
  rw [verdicts, Stream'.map_append_stream, Stream'.map_append_stream, Stream'.map_cons,
    Stream'.map_cons, refused, items_eq_ok.mpr delivers, List.map_map, List.map_map]
  rfl

theorem verdicts_of_faults {url : Url} {replies : Stream' Reply} {faults : Stream' FetchFault}
    (refused : replies.map (items shape url) = faults.map .error) :
    endpoint.verdicts shape url replies = (faults.map endpoint.told).map .error := by
  rw [verdicts, refused, Stream'.map_map, Stream'.map_map]
  rfl

variable {server : Server σ} {quiet : ComponentLog → ComponentLog} {state : σ}

/-- The readings of an endpoint that delivers items at last, and the requests for them. -/
theorem readings_of_delivery (made : endpoint.request = .ok request) {earlier : List Reply}
    {reply : Reply} {later : Stream' Reply} {found : List α}
    (replies : (server request).answers state = earlier ++ₛ .cons reply later)
    (delivers : reply.Delivers shape found)
    (failed : ∀ other ∈ earlier, ∀ others, ¬other.Delivers shape others) :
    ∃ faults : List FetchFault,
      earlier.map (items shape request.url) = faults.map .error ∧
      (Fetched.asReader (endpoint.asRepository server shape) quiet).readings ⟨state, none⟩ =
        (faults.map endpoint.told).map .error ++ₛ Fetched.handedOut found ∧
      ∀ reads, ((Fetched.asReader (endpoint.asRepository server.noting shape) quiet).stateAfter
        reads ⟨(state, []), none⟩).repository.2 =
          List.replicate (min reads (earlier.length + 1)) request := by
  have refused : ∀ answer ∈ earlier.map (items shape request.url), ∀ others,
      answer ≠ .ok others := by
    rw [List.forall_mem_map]
    intro other member others success
    exact failed other member others (items_eq_ok.mp success)
  obtain ⟨faults, same⟩ := exists_errors refused
  have length : earlier.length = faults.length := by simpa using congrArg List.length same
  obtain ⟨fetches, -⟩ := fetches_of_request made shape server state
  obtain ⟨noted, sent⟩ := fetches_of_noting made shape server state
  rw [replies, verdicts_of_delivery same delivers] at fetches noted
  refine ⟨faults, same, (Fetched.readings_of_success quiet fetches).1, ?_⟩
  intro reads
  rw [(Fetched.readings_of_success quiet noted).2 reads, sent, List.length_map, length]

/-- The readings of an endpoint that never delivers any. -/
theorem readings_of_no_delivery (made : endpoint.request = .ok request)
    (failed : ∀ n others, ¬(((server request).answers state).get n).Delivers shape others) :
    ∃ faults : Stream' FetchFault,
      ((server request).answers state).map (items shape request.url) = faults.map .error ∧
      (Fetched.asReader (endpoint.asRepository server shape) quiet).readings ⟨state, none⟩ =
        (faults.map endpoint.told).map .error ∧
      ∀ reads, ((Fetched.asReader (endpoint.asRepository server.noting shape) quiet).stateAfter
        reads ⟨(state, []), none⟩).repository.2 = List.replicate reads request := by
  have refused : ∀ n others, (((server request).answers state).map
      (items shape request.url)).get n ≠ .ok others := by
    intro n others success
    exact failed n others (items_eq_ok.mp success)
  obtain ⟨faults, same⟩ := exists_errors_forever refused
  obtain ⟨fetches, -⟩ := fetches_of_request made shape server state
  obtain ⟨noted, sent⟩ := fetches_of_noting made shape server state
  rw [verdicts_of_faults same] at fetches noted
  refine ⟨faults, same, (Fetched.readings_of_failure quiet fetches).1, ?_⟩
  intro reads
  rw [(Fetched.readings_of_failure quiet noted).2 reads, sent]

/-- The readings of an endpoint without a request, which sends none. -/
theorem readings_of_no_request {fault : FetchFault} (unmade : endpoint.request = .error fault) :
    (Fetched.asReader (endpoint.asRepository server shape) quiet).readings ⟨state, none⟩ =
        .const (.error (endpoint.told fault)) ∧
      ∀ reads, ((Fetched.asReader (endpoint.asRepository server shape) quiet).stateAfter reads
        ⟨state, none⟩).repository = state := by
  obtain ⟨answers, still⟩ := Act.answers_const (findAll_of_fault unmade shape server state)
  have fetches : (endpoint.asRepository server shape).findAll.answers state =
    (Stream'.const (endpoint.told fault)).map .error := by rw [answers, Stream'.map_const]
  obtain ⟨readings, left⟩ := Fetched.readings_of_failure quiet fetches
  rw [Stream'.map_const] at readings
  refine ⟨readings, ?_⟩
  intro reads
  rw [left, still]

end Endpoint

end Http

/-- Over any repository a reader tells of the failures of its fetches, one with each reading, then
hands out the items of the first fetch that succeeds, and fetches no more. Over an endpoint it sends
a request with each reading up to the first reply that delivers items, and tells of every reply
before as an error. Two things are assumed of the client there: that a request can be made of the
parts of the endpoint, which is what `endpoint.request = .ok request` says, and that it is sent once
whenever the server is asked, so that each fetch gets one reply. If no request can be made, none is
sent. Repositories and servers that make notes show how often they are asked, and for what. -/
theorem readings_of_fetches (repository : Repository σ ε α) (log : ComponentLog → ε)
    (endpoint : Http.Endpoint) (server : Http.Server σ) (shape : Json.Shape α)
    (quiet : ComponentLog → ComponentLog) (state : σ) :
    (let fetches := repository.findAll.answers state
     let readings := (Fetched.asReader repository log).readings ⟨state, none⟩
     let asked reads := ((Fetched.asReader (repository.noting ()) log).stateAfter reads
       ⟨(state, []), none⟩).repository.2.length
     (∃ (errors : List Error) (items : List α) (later : Stream' (Result (List α))),
        fetches = errors.map .error ++ₛ .cons (.ok items) later ∧
        readings = errors.map .error ++ₛ Fetched.handedOut items ∧
        ∀ reads, asked reads = min reads (errors.length + 1)) ∨
      ∃ errors : Stream' Error,
        fetches = errors.map .error ∧ readings = errors.map .error ∧
        ∀ reads, asked reads = reads) ∧
    (let readings :=
       (Fetched.asReader (endpoint.asRepository server shape) quiet).readings ⟨state, none⟩
     let sent reads := ((Fetched.asReader (endpoint.asRepository server.noting shape)
       quiet).stateAfter reads ⟨(state, []), none⟩).repository.2
     (∀ request, endpoint.request = .ok request →
       let replies := (server request).answers state
       (∃ (earlier : List Http.Reply) (reply : Http.Reply) (later : Stream' Http.Reply)
          (items : List α) (faults : List Http.FetchFault),
          replies = earlier ++ₛ .cons reply later ∧ reply.Delivers shape items ∧
          (∀ other ∈ earlier, ∀ others, ¬other.Delivers shape others) ∧
          earlier.map (Http.Endpoint.items shape request.url) = faults.map .error ∧
          readings = (faults.map endpoint.told).map .error ++ₛ Fetched.handedOut items ∧
          ∀ reads, sent reads = List.replicate (min reads (earlier.length + 1)) request) ∨
        ∃ faults : Stream' Http.FetchFault,
          (∀ n items, ¬(replies.get n).Delivers shape items) ∧
          replies.map (Http.Endpoint.items shape request.url) = faults.map .error ∧
          readings = (faults.map endpoint.told).map .error ∧
          ∀ reads, sent reads = List.replicate reads request) ∧
     ∀ fault, endpoint.request = .error fault →
       readings = .const (.error (endpoint.told fault)) ∧ ∀ reads, sent reads = []) := by
  refine ⟨?_, ?_, ?_⟩
  · intro fetches readings asked
    have noted : (repository.noting ()).findAll.answers (state, []) = fetches :=
      Act.answers_noting () repository.findAll state []
    have count : ∀ times, ((repository.noting ()).findAll.stateAfter times (state, [])).2.length =
        times := by
      intro times
      rw [Repository.noting, Act.stateAfter_noting, List.nil_append, List.length_replicate]
    -- Among all fetches there is a first one that succeeds, or there is none that does.
    rcases exists_first_or_never (fun fetch => ∃ items, fetch = .ok items) fetches with
      ⟨front, first, later, split, ⟨items, rfl⟩, failed⟩ | never
    · obtain ⟨errors, rfl⟩ := exists_errors fun answer member value success =>
        failed answer member ⟨value, success⟩
      have left := (Fetched.readings_of_success log (noted.trans split)).2
      refine .inl ⟨errors, items, later, split, (Fetched.readings_of_success log split).1, ?_⟩
      intro reads
      exact (congrArg (·.2.length) (left reads)).trans (count _)
    · obtain ⟨errors, split⟩ := exists_errors_forever fun n value success =>
        never n ⟨value, success⟩
      have left := (Fetched.readings_of_failure log (noted.trans split)).2
      refine .inr ⟨errors, split, (Fetched.readings_of_failure log split).1, ?_⟩
      intro reads
      exact (congrArg (·.2.length) (left reads)).trans (count reads)
  · intro request made replies
    rcases exists_first_or_never (fun reply => ∃ items, reply.Delivers shape items) replies with
      ⟨earlier, reply, later, split, ⟨items, delivers⟩, before⟩ | never
    · have failed : ∀ other ∈ earlier, ∀ others, ¬other.Delivers shape others :=
        fun other member others delivered => before other member ⟨others, delivered⟩
      obtain ⟨faults, refused⟩ := Http.Endpoint.readings_of_delivery made split delivers failed
      exact .inl ⟨earlier, reply, later, items, faults, split, delivers, failed, refused⟩
    · have failed : ∀ n items, ¬(replies.get n).Delivers shape items :=
        fun n items delivered => never n ⟨items, delivered⟩
      obtain ⟨faults, refused⟩ := Http.Endpoint.readings_of_no_delivery made failed
      exact .inr ⟨faults, failed, refused⟩
  · intro fault unmade
    refine ⟨(Http.Endpoint.readings_of_no_request unmade).1, ?_⟩
    intro reads
    exact congrArg Prod.snd ((Http.Endpoint.readings_of_no_request unmade).2 reads)

/-! ## A server that is busy at first -/

namespace Http

/-- A server with a list of replies, which is out of reach behind them. -/
def Server.scripted : Server (List Reply)
  | _, [] => ⟨.unreachable, [], []⟩
  | _, reply :: rest => ⟨reply, [], rest⟩

def numbers : Endpoint :=
  { url := { scheme := "http", host := "localhost".toList, path := .segments ["n".toList] } }

/-- The array of seven, behind a refusal and a connection that is dropped. -/
def busy : List Reply := [.answer 503 [], .unreachable, .answer 200 [91, 55, 93]]

theorem busy_delivers : (Reply.answer 200 [91, 55, 93]).Delivers (.natural "u8" 8) [7] := by
  refine ⟨200, _, rfl, by decide, by decide, ?_⟩
  decide +kernel

/-- Two readings fail before the third one gets the seven. There are no more than three requests,
however many readings there are. -/
theorem readings_of_busy :
    let shape := Json.Shape.natural "u8" 8
    let request : Request := ⟨numbers.target, none⟩
    let sent reads := ((Fetched.asReader (numbers.asRepository Server.scripted.noting shape)
      id).stateAfter reads ⟨(busy, []), none⟩).repository.2
    numbers.request = .ok request ∧
    (Fetched.asReader (numbers.asRepository Server.scripted shape) id).readings ⟨busy, none⟩ =
      [.error (numbers.told (.refused 503)), .error (numbers.told (.unreachable request.url))] ++ₛ
        Fetched.handedOut [7] ∧
    ∀ reads, sent reads = List.replicate (min reads 3) request := by
  intro shape request sent
  have made : numbers.request = .ok request := rfl
  have replies : (Server.scripted request).answers busy = [.answer 503 [], .unreachable] ++ₛ
      .cons (.answer 200 [91, 55, 93]) ((Server.scripted request).answers []) := by
    rw [Act.answers_eq, Act.answers_eq, Act.answers_eq]
    rfl
  have refused : ∀ other ∈ [Reply.answer 503 [], .unreachable],
      ¬∃ items, other.Delivers shape items := by
    simp [Reply.Delivers]
  obtain ⟨-, delivered, -⟩ := readings_of_fetches (numbers.asRepository Server.scripted shape) id
    numbers Server.scripted shape id busy
  rcases delivered request made with
    ⟨earlier, reply, later, items, faults, split, delivers, before, found, readings, asked⟩ |
    ⟨-, never, -⟩
  · -- The first reply that delivers is the third of the list, so two have been refused before.
    obtain ⟨rfl, rfl⟩ := first_unique (split.symm.trans replies) ⟨items, delivers⟩
      ⟨[7], busy_delivers⟩ (fun other member success => before other member _ success.choose_spec)
      refused
    have same : Endpoint.items shape request.url (.answer 200 [91, 55, 93]) = .ok items :=
      Endpoint.items_eq_ok.mpr delivers
    rw [Endpoint.items_eq_ok.mpr busy_delivers] at same
    cases same
    have two : [FetchFault.refused 503, .unreachable request.url].map Except.error =
      (faults.map .error : List (Except FetchFault (List Nat))) := found
    obtain rfl := (List.map_inj_right fun _ _ => Except.error.inj).mp two
    exact ⟨made, readings, asked⟩
  · have third := never 2 [7]
    rw [replies] at third
    exact absurd busy_delivers third

end Http

end Batchwork
