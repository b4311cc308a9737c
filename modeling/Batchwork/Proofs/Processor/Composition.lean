import Batchwork.Processor

/-!
# Composed processors

Processors are composed two by two, so a chain of them is a tree. Only its leaves matter: an item
goes through them from left to right until one drops it or fails, and leaves that hand every item on
may be left out. Main statement: `processor_of_leaves`.
-/

namespace Batchwork

namespace Processor

variable {σ ε δ ν ι κ μ ω α : Type}

/-! ## Laws of composition -/

theorem process_andThen (first : Processor σ ε ι κ) (second : Processor σ ε κ ω) (item : ι)
    (state : σ) :
    (first.andThen second).process item state =
      match first.process item state with
      | ⟨.ok (some middle), told, next⟩ =>
        let later := second.process middle next
        ⟨later.value, told ++ later.events, later.state⟩
      | ⟨.ok none, told, next⟩ => ⟨.ok none, told, next⟩
      | ⟨.error error, told, next⟩ => ⟨.error error, told, next⟩ := by
  rcases answer : first.process item state with ⟨_ | _ | middle, told, next⟩ <;>
    simp [andThen, answer]

theorem andThen_assoc (first : Processor σ ε ι κ) (second : Processor σ ε κ μ)
    (third : Processor σ ε μ ω) :
    (first.andThen second).andThen third = first.andThen (second.andThen third) := by
  have same : ((first.andThen second).andThen third).process =
      (first.andThen (second.andThen third)).process := by
    funext item state
    simp only [process_andThen]
    rcases first.process item state with ⟨_ | _ | middle, told, next⟩
    · rfl
    · rfl
    · rcases answer : second.process middle next with ⟨_ | _ | last, later, final⟩ <;>
        simp [answer]
  exact congrArg Processor.mk same

theorem passThrough_andThen (processor : Processor σ ε ι ω) :
    (passThrough σ ε ι).andThen processor = processor := rfl

theorem andThen_passThrough (processor : Processor σ ε ι ω) :
    processor.andThen (passThrough σ ε ω) = processor := by
  have same : (processor.andThen (passThrough σ ε ω)).process = processor.process := by
    funext item state
    rw [process_andThen]
    rcases processor.process item state with ⟨_ | _ | output, told, next⟩ <;> simp [passThrough]
  exact congrArg Processor.mk same

/-! ## Trees and their leaves -/

/-- A leaf is any processor under a name, or one that hands every item on. -/
inductive Leaf (σ ε ν : Type) : Type → Type → Type 1 where
  | own {ι ω : Type} (name : ν) (processor : Processor σ ε ι ω) : Leaf σ ε ν ι ω
  | passThrough {α : Type} : Leaf σ ε ν α α

inductive Tree (σ ε ν : Type) : Type → Type → Type 1 where
  | leaf {ι ω : Type} (leaf : Leaf σ ε ν ι ω) : Tree σ ε ν ι ω
  | node {ι κ ω : Type} (first : Tree σ ε ν ι κ) (second : Tree σ ε ν κ ω) : Tree σ ε ν ι ω

/-- Leaves in a row, of which each one takes what the one before makes. -/
inductive Row (σ ε ν : Type) : Type → Type → Type 1 where
  | nil {α : Type} : Row σ ε ν α α
  | cons {ι κ ω : Type} (leaf : Leaf σ ε ν ι κ) (rest : Row σ ε ν κ ω) : Row σ ε ν ι ω

/-- A call of a leaf, and its answer. -/
structure Visit (ν : Type) : Type 1 where
  /-- The name of the leaf, if it has one. -/
  name : Option ν
  {input : Type}
  {output : Type}
  item : input
  answer : Result (Option output)

/-- The processor that also tells of its calls, as far as they are noted. -/
def watched (note : ι → Result (Option ω) → Option δ) (processor : Processor σ ε ι ω) :
    Processor σ (ε ⊕ δ) ι ω where
  process item := fun state =>
    let outcome := processor.process item state
    ⟨outcome.value, outcome.events.map .inl ++ (note item outcome.value).toList.map .inr,
      outcome.state⟩

theorem process_watched (note : ι → Result (Option ω) → Option δ) (processor : Processor σ ε ι ω)
    (item : ι) (state : σ) :
    (processor.watched note).process item state =
      ⟨(processor.process item state).value,
        (processor.process item state).events.map .inl ++
          (note item (processor.process item state).value).toList.map .inr,
        (processor.process item state).state⟩ := rfl

namespace Leaf

def name? : Leaf σ ε ν ι ω → Option ν
  | .own name _ => some name
  | .passThrough => none

def processor : Leaf σ ε ν ι ω → Processor σ ε ι ω
  | .own _ processor => processor
  | .passThrough => .passThrough σ ε _

def watched (note : Visit ν → Option δ) (leaf : Leaf σ ε ν ι ω) : Processor σ (ε ⊕ δ) ι ω :=
  leaf.processor.watched fun item answer => note ⟨leaf.name?, item, answer⟩

end Leaf

namespace Row

def append : {ι κ : Type} → Row σ ε ν ι κ → Row σ ε ν κ ω → Row σ ε ν ι ω
  | _, _, .nil, later => later
  | _, _, .cons leaf rest, later => .cons leaf (rest.append later)

/-- The row without the leaves that hand every item on. -/
def essential : {ι ω : Type} → Row σ ε ν ι ω → Row σ ε ν ι ω
  | _, _, .nil => .nil
  | _, _, .cons (.own name processor) rest => .cons (.own name processor) rest.essential
  | _, _, .cons .passThrough rest => rest.essential

/-- The composition of a row, given what is put for a leaf. -/
def composed (put : {ι ω : Type} → Leaf σ ε ν ι ω → Processor σ δ ι ω) :
    {ι ω : Type} → Row σ ε ν ι ω → Processor σ δ ι ω
  | _, _, .nil => .passThrough σ δ _
  | _, _, .cons leaf rest => (put leaf).andThen (rest.composed put)

/-- How an item passes a row: the calls that are made on the leaves, and the outcome. -/
inductive Passes : {ι ω : Type} → Row σ ε ν ι ω → ι → σ → List (Visit ν) →
    Outcome σ ε (Result (Option ω)) → Prop where
  | passed {α : Type} {item : α} {state : σ} :
      Passes .nil item state [] ⟨.ok (some item), [], state⟩
  | handedOn {ι κ ω : Type} {leaf : Leaf σ ε ν ι κ} {rest : Row σ ε ν κ ω} {item : ι} {middle : κ}
      {state next : σ} {told : List ε} {visits : List (Visit ν)}
      {later : Outcome σ ε (Result (Option ω))}
      (answer : leaf.processor.process item state = ⟨.ok (some middle), told, next⟩)
      (passes : Passes rest middle next visits later) :
      Passes (.cons leaf rest) item state (⟨leaf.name?, item, .ok (some middle)⟩ :: visits)
        ⟨later.value, told ++ later.events, later.state⟩
  | dropped {ι κ ω : Type} {leaf : Leaf σ ε ν ι κ} {rest : Row σ ε ν κ ω} {item : ι}
      {state next : σ} {told : List ε}
      (answer : leaf.processor.process item state = ⟨.ok none, told, next⟩) :
      Passes (.cons leaf rest) item state [⟨leaf.name?, item, (.ok none : Result (Option κ))⟩]
        ⟨.ok none, told, next⟩
  | failed {ι κ ω : Type} {leaf : Leaf σ ε ν ι κ} {rest : Row σ ε ν κ ω} {item : ι}
      {state next : σ} {told : List ε} {error : Error}
      (answer : leaf.processor.process item state = ⟨.error error, told, next⟩) :
      Passes (.cons leaf rest) item state
        [⟨leaf.name?, item, (.error error : Result (Option κ))⟩] ⟨.error error, told, next⟩

end Row

namespace Tree

/-- The leaves from left to right. -/
def leaves : {ι ω : Type} → Tree σ ε ν ι ω → Row σ ε ν ι ω
  | _, _, .leaf single => .cons single .nil
  | _, _, .node first second => first.leaves.append second.leaves

/-- The composition that the tree stands for, given what is put for a leaf. -/
def composed (put : {ι ω : Type} → Leaf σ ε ν ι ω → Processor σ δ ι ω) :
    {ι ω : Type} → Tree σ ε ν ι ω → Processor σ δ ι ω
  | _, _, .leaf single => put single
  | _, _, .node first second => (first.composed put).andThen (second.composed put)

def processor (tree : Tree σ ε ν ι ω) : Processor σ ε ι ω := tree.composed Leaf.processor

/-- The same composition of leaves that tell of their calls, as far as they are noted. -/
def watched (note : Visit ν → Option δ) (tree : Tree σ ε ν ι ω) : Processor σ (ε ⊕ δ) ι ω :=
  tree.composed (Leaf.watched note)

end Tree

section

variable (put : {ι ω : Type} → Leaf σ ε ν ι ω → Processor σ δ ι ω)

theorem Row.composed_append (row : Row σ ε ν ι κ) (later : Row σ ε ν κ ω) :
    (row.append later).composed put = (row.composed put).andThen (later.composed put) := by
  induction row with
  | nil => rfl
  | cons leaf rest ih => rw [append, composed, ih, composed, andThen_assoc]

/-- A tree is composed as its leaves are in a row. -/
theorem Tree.composed_leaves (tree : Tree σ ε ν ι ω) :
    tree.leaves.composed put = tree.composed put := by
  induction tree with
  | leaf leaf => exact andThen_passThrough _
  | node first second first_ih second_ih =>
    rw [leaves, Row.composed_append, first_ih, second_ih, composed]

theorem Row.composed_essential (row : Row σ ε ν ι ω)
    (neutral : ∀ α : Type, put (.passThrough : Leaf σ ε ν α α) = .passThrough σ δ α) :
    row.essential.composed put = row.composed put := by
  induction row with
  | nil => rfl
  | cons leaf rest ih =>
    cases leaf with
    | own name processor => rw [essential, composed, composed, ih]
    | passThrough => rw [essential, ih, composed, neutral, passThrough_andThen]

end

/-! ## How an item passes the leaves -/

/-- The watched run does what the plain one does, and tells of the noted ones among the calls. -/
structure Tells (note : Visit ν → Option δ) (visits : List (Visit ν)) (plain : Outcome σ ε α)
    (watched : Outcome σ (ε ⊕ δ) α) : Prop where
  value : watched.value = plain.value
  state : watched.state = plain.state
  own : watched.events.filterMap Sum.getLeft? = plain.events
  calls : watched.events.filterMap Sum.getRight? = visits.filterMap note

theorem Leaf.watched_answer {leaf : Leaf σ ε ν ι ω} {item : ι} {state next : σ}
    {value : Result (Option ω)} {told : List ε}
    (answer : leaf.processor.process item state = ⟨value, told, next⟩) (note : Visit ν → Option δ) :
    ∃ events, (leaf.watched note).process item state = ⟨value, events, next⟩ ∧
      events.filterMap Sum.getLeft? = told ∧
      events.filterMap Sum.getRight? = [⟨leaf.name?, item, value⟩].filterMap note := by
  refine ⟨_, by rw [watched, process_watched, answer], ?_, ?_⟩
  · simp [List.filterMap_append, List.filterMap_map, Function.comp_def]
  · rcases noted : note ⟨leaf.name?, item, value⟩ with _ | call <;>
      simp [List.filterMap_map, Function.comp_def, noted]

theorem Leaf.watched_passThrough {note : Visit ν → Option δ}
    (unnoted : ∀ visit, visit.name = none → note visit = none) :
    (passThrough : Leaf σ ε ν α α).watched note = .passThrough σ (ε ⊕ δ) α := by
  have same : ((passThrough : Leaf σ ε ν α α).watched note).process =
      (Processor.passThrough σ (ε ⊕ δ) α).process := by
    funext item state
    rw [watched, process_watched, unnoted _ rfl]
    rfl
  exact congrArg Processor.mk same

theorem Row.exists_passes (row : Row σ ε ν ι ω) (item : ι) (state : σ) :
    ∃ visits, row.Passes item state visits ((row.composed Leaf.processor).process item state) := by
  induction row generalizing state with
  | nil => exact ⟨[], .passed⟩
  | cons leaf rest ih =>
    rw [composed, process_andThen]
    rcases answer : leaf.processor.process item state with ⟨_ | _ | middle, told, next⟩
    · exact ⟨_, .failed answer⟩
    · exact ⟨_, .dropped answer⟩
    · obtain ⟨visits, passes⟩ := ih middle next
      exact ⟨_, .handedOn answer passes⟩

theorem Row.Passes.tells {row : Row σ ε ν ι ω} {item : ι} {state : σ} {visits : List (Visit ν)}
    {outcome : Outcome σ ε (Result (Option ω))} (passes : row.Passes item state visits outcome)
    (note : Visit ν → Option δ) :
    Tells note visits outcome ((row.composed (Leaf.watched note)).process item state) := by
  induction passes with
  | passed => exact ⟨rfl, rfl, rfl, rfl⟩
  | handedOn answer _ ih =>
    obtain ⟨events, call, own, calls⟩ := Leaf.watched_answer answer note
    rw [composed, process_andThen, call]
    refine ⟨ih.value, ih.state, ?_, ?_⟩
    · rw [List.filterMap_append, own, ih.own]
    · rw [List.filterMap_append, calls, ih.calls, ← List.filterMap_append, List.singleton_append]
  | dropped answer =>
    obtain ⟨events, call, own, calls⟩ := Leaf.watched_answer answer note
    rw [composed, process_andThen, call]
    exact ⟨rfl, rfl, own, calls⟩
  | failed answer =>
    obtain ⟨events, call, own, calls⟩ := Leaf.watched_answer answer note
    rw [composed, process_andThen, call]
    exact ⟨rfl, rfl, own, calls⟩

/-- An item goes through the leaves of a tree from left to right, until one drops it or fails, and
no leaf to the right of that one is called. So two trees of the same leaves are the same processor
and make the same calls. They are the same processor also where one has leaves more that hand every
item on, and they make the same calls on the others. -/
theorem processor_of_leaves (tree : Tree σ ε ν ι ω) :
    (∀ item state, ∃ visits,
      tree.leaves.Passes item state visits (tree.processor.process item state) ∧
      ∀ (δ : Type) (note : Visit ν → Option δ),
        Tells note visits (tree.processor.process item state)
          ((tree.watched note).process item state)) ∧
    ∀ other : Tree σ ε ν ι ω,
      (other.leaves = tree.leaves →
        other.processor = tree.processor ∧
        ∀ (δ : Type) (note : Visit ν → Option δ), other.watched note = tree.watched note) ∧
      (other.leaves.essential = tree.leaves.essential →
        other.processor = tree.processor ∧
        ∀ (δ : Type) (note : Visit ν → Option δ), (∀ visit, visit.name = none → note visit = none) →
          other.watched note = tree.watched note) := by
  refine ⟨fun item state => ?_, fun other => ⟨fun same => ⟨?_, fun δ note => ?_⟩,
    fun same => ⟨?_, fun δ note unnoted => ?_⟩⟩⟩
  · obtain ⟨visits, passes⟩ := tree.leaves.exists_passes item state
    rw [tree.composed_leaves] at passes
    refine ⟨visits, passes, fun δ note => ?_⟩
    have told := passes.tells note
    rwa [tree.composed_leaves] at told
  · rw [Tree.processor, Tree.processor, ← other.composed_leaves, same, tree.composed_leaves]
  · rw [Tree.watched, Tree.watched, ← other.composed_leaves, same, tree.composed_leaves]
  · rw [Tree.processor, ← other.composed_leaves, ← Row.composed_essential _ _ fun _ => rfl, same,
      Row.composed_essential _ _ fun _ => rfl, tree.composed_leaves, Tree.processor]
  · rw [Tree.watched, ← other.composed_leaves,
      ← Row.composed_essential _ _ fun _ => Leaf.watched_passThrough unnoted, same,
      Row.composed_essential _ _ fun _ => Leaf.watched_passThrough unnoted, tree.composed_leaves,
      Tree.watched]

/-- Adds to an item how many items it has seen. -/
def counting : Processor Nat String Nat Nat where
  process item := fun seen => ⟨.ok (some (item + seen + 1)), ["counted"], seen + 1⟩

def evenOnly : Processor Nat String Nat Nat :=
  .ofFunction fun item => .ok (if item % 2 = 0 then some item else none)

def refusing : Processor Nat String Nat Nat :=
  .ofFunction fun _ => .error (.itemProcessor "refused")

/-- `counting`, `evenOnly` and `refusing` in a row, with a leaf more and grouped in another way. The
item 2 becomes 3 and is dropped. -/
theorem processor_of_counting :
    let counted : Leaf Nat String String Nat Nat := .own "counting" counting
    let kept : Leaf Nat String String Nat Nat := .own "evenOnly" evenOnly
    let refused : Leaf Nat String String Nat Nat := .own "refusing" refusing
    let tree := Tree.node (.node (.leaf counted) (.leaf kept)) (.leaf refused)
    let regrouped := Tree.node (.leaf counted) (.node (.leaf kept) (.leaf refused))
    let padded := Tree.node (.leaf counted) (.node (.leaf .passThrough) (.node (.leaf kept)
      (.leaf refused)))
    (regrouped.leaves = tree.leaves ∧ regrouped.processor = tree.processor) ∧
    (padded.leaves.essential = tree.leaves.essential ∧
      (∀ visit : Visit String, visit.name = none → visit.name = none) ∧
      padded.processor = tree.processor ∧ padded.watched Visit.name = tree.watched Visit.name) ∧
    ∃ visits, tree.leaves.Passes 2 0 visits ⟨.ok none, ["counted"], 1⟩ ∧
      visits.filterMap Visit.name = ["counting", "evenOnly"] := by
  intro counted kept refused tree regrouped padded
  obtain ⟨passes, others⟩ := processor_of_leaves tree
  obtain ⟨visits, passed, told⟩ := passes 2 0
  have sameTree := (others regrouped).1 rfl
  have samePadded := (others padded).2 rfl
  exact ⟨⟨rfl, sameTree.1⟩, ⟨rfl, fun _ => id, samePadded.1, samePadded.2 _ _ fun _ => id⟩, visits,
    passed, (told _ Visit.name).calls.symm⟩

end Processor

end Batchwork
