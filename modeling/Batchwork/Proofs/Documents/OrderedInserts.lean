import Batchwork.Documents
import Mathlib.Data.List.Induction
import Mathlib.Data.List.Nodup

/-!
# What an ordered insert stores

A server takes the documents of an ordered insert one after the other and stops at the first whose
`_id` is taken. So it stores those at the front whose ids are new to the collection and to each
other, and no longer run of documents at the front has ids like that. Which ids are the same is for
the server to say. Main statements: `Collection.Lawful.write`, and `Collection.inMemory_lawful` for
a collection that is kept in memory.
-/

namespace Batchwork

variable {δ ω β κ : Type}

section

variable {id? : β → Option κ} {stored : List β}

/-- The ids of documents, as far as they have some. -/
def ids (id? : β → Option κ) (documents : List β) : List κ := documents.filterMap id?

@[simp] theorem ids_append (first second : List β) :
    ids id? (first ++ second) = ids id? first ++ ids id? second := List.filterMap_append

/-- A document whose id is that of a stored one. -/
def Taken (id? : β → Option κ) (stored : List β) (document : β) : Prop :=
  ∃ id ∈ id? document, id ∈ ids id? stored

instance [DecidableEq κ] (stored : List β) (document : β) : Decidable (Taken id? stored document) :=
  inferInstanceAs (Decidable (∃ id ∈ id? document, id ∈ ids id? stored))

/-- Documents whose ids are all different, and none of them that of a stored document. -/
structure NewIds (id? : β → Option κ) (stored documents : List β) : Prop where
  distinct : (ids id? documents).Nodup
  free : ∀ id ∈ ids id? documents, id ∉ ids id? stored

theorem NewIds.nil (stored : List β) : NewIds id? stored [] := ⟨.nil, nofun⟩

theorem newIds_singleton {document : β} :
    NewIds id? stored [document] ↔ ¬Taken id? stored document := by
  constructor
  · rintro ⟨-, free⟩ ⟨id, found, member⟩
    exact free id (List.mem_filterMap.mpr ⟨document, List.mem_singleton.mpr rfl, found⟩) member
  · intro free
    refine ⟨?_, fun id found member => ?_⟩
    · rw [ids, List.filterMap_cons]
      cases id? document <;> simp
    · obtain ⟨other, same, found⟩ := List.mem_filterMap.mp found
      cases List.mem_singleton.mp same
      exact free ⟨id, found, member⟩

/-- Of new documents those that are stored first are new, and the others are new next to them. -/
theorem newIds_append {first second : List β} :
    NewIds id? stored (first ++ second) ↔
      NewIds id? stored first ∧ NewIds id? (stored ++ first) second := by
  constructor
  · rintro ⟨distinct, free⟩
    rw [ids_append] at distinct free
    obtain ⟨one, two, apart⟩ := List.nodup_append'.mp distinct
    refine ⟨⟨one, fun id member => free id (List.mem_append_left _ member)⟩, two, ?_⟩
    intro id member taken
    rw [ids_append] at taken
    rcases List.mem_append.mp taken with before | among
    · exact free id (List.mem_append_right _ member) before
    · exact apart among member
  · rintro ⟨⟨one, first⟩, two, second⟩
    simp only [ids_append, List.mem_append, not_or] at second
    refine ⟨?_, fun id member => ?_⟩
    · rw [ids_append, List.nodup_append']
      exact ⟨one, two, fun id among member => (second id member).2 among⟩
    · rw [ids_append] at member
      rcases List.mem_append.mp member with among | behind
      · exact first id among
      · exact (second id behind).1

/-- Documents are new, or the first that is not splits them. -/
theorem newIds_or_taken (id? : β → Option κ) (stored documents : List β) :
    NewIds id? stored documents ∨ ∃ front document rest, documents = front ++ document :: rest ∧
      NewIds id? stored front ∧ Taken id? (stored ++ front) document := by
  -- From the back: the document that is added last is stored next to all others.
  induction documents using List.reverseRecOn with
  | nil => exact .inl (.nil stored)
  | append_singleton documents last ih =>
    rcases ih with new | ⟨front, document, rest, rfl, new, taken⟩
    · by_cases taken : Taken id? (stored ++ documents) last
      · exact .inr ⟨documents, last, [], rfl, new, taken⟩
      · exact .inl (newIds_append.mpr ⟨new, newIds_singleton.mpr taken⟩)
    · exact .inr ⟨front, document, rest ++ [last], by simp, new, taken⟩

end

namespace Collection

/-- How a collection looks from outside. -/
structure View (δ ω β κ : Type) where
  /-- The documents that it holds, in the order in which they were stored. -/
  documents : δ → List β
  /-- What an item is stored as. -/
  encode : ω → β
  /-- The `_id` that a document comes with, up to what the server takes for the same. A document
  without one is given a fresh one, which is no matter here. -/
  id? : β → Option κ

namespace View

variable (view : View δ ω β κ)

/-- Items that become documents with new ids. -/
def New (stored : List β) (items : List ω) : Prop :=
  NewIds view.id? stored (items.map view.encode)

/-- The longest run of items at the front that have new ids. -/
structure LongestNew (stored : List β) (items kept : List ω) : Prop where
  front : kept <+: items
  new : view.New stored kept
  longest : ∀ other, other <+: items → view.New stored other → other <+: kept

end View

/-- What one may rely on in a server that refuses a document only if its id is taken. -/
structure Lawful (collection : Collection δ ω) (view : View δ ω β κ) : Prop where
  inserted : ∀ {server items}, items ≠ [] → view.New (view.documents server) items →
    ∃ count after, collection.insertMany items true server = (.ok count, after) ∧
      view.documents after = view.documents server ++ items.map view.encode
  refused : ∀ {server front item} rest, view.New (view.documents server) front →
    Taken view.id? (view.documents server ++ front.map view.encode) (view.encode item) →
      ∃ reason after,
        collection.insertMany (front ++ item :: rest) true server = (.error reason, after) ∧
          view.documents after = view.documents server ++ front.map view.encode

namespace View

variable {view : View δ ω β κ} {stored : List β}

theorem LongestNew.of_new {items : List ω} (new : view.New stored items) :
    view.LongestNew stored items items := ⟨List.prefix_rfl, new, fun _ front _ => front⟩

/-- No run of new items goes beyond one whose id is taken. -/
theorem LongestNew.of_taken {front rest : List ω} {item : ω} (new : view.New stored front)
    (taken : Taken view.id? (stored ++ front.map view.encode) (view.encode item)) :
    view.LongestNew stored (front ++ item :: rest) front := by
  refine ⟨List.prefix_append _ _, new, fun other begins others => ?_⟩
  rcases List.prefix_or_prefix_of_prefix begins (List.prefix_append _ _) with shorter | longer
  · exact shorter
  · obtain ⟨more, rfl⟩ := longer
    cases more with
    | nil => simp
    | cons next more =>
      obtain ⟨rfl, -⟩ := List.cons_prefix_cons.mp ((List.prefix_append_right_inj front).mp begins)
      rw [New, List.map_append, List.map_cons, ← List.singleton_append] at others
      have behind := (newIds_append.mp others).2
      exact absurd taken (newIds_singleton.mp (newIds_append.mp behind).1)

/-- Items are new, or the first that is not splits them. -/
theorem new_or_taken (view : View δ ω β κ) (stored : List β) (items : List ω) :
    view.New stored items ∨ ∃ front item rest, items = front ++ item :: rest ∧
      view.New stored front ∧
        Taken view.id? (stored ++ front.map view.encode) (view.encode item) := by
  refine (newIds_or_taken view.id? stored (items.map view.encode)).imp_right ?_
  rintro ⟨first, document, last, split, new, taken⟩
  obtain ⟨front, behind, rfl, rfl, encoded⟩ := List.map_eq_append_iff.mp split
  obtain ⟨item, rest, rfl, rfl, rfl⟩ := List.map_eq_cons_iff.mp encoded
  exact ⟨front, item, rest, rfl, new, taken⟩

end View

/-- A write stores the longest run of new items, and fails if these are not all. -/
theorem Lawful.write {collection : Collection δ ω} {view : View δ ω β κ}
    (lawful : collection.Lawful view) {items : List ω} (nonempty : items ≠ []) (server : δ) :
    ∃ kept, view.LongestNew (view.documents server) items kept ∧
      view.documents (collection.write items server).state =
        view.documents server ++ kept.map view.encode ∧
      ((collection.write items server).value = .ok () ∧ kept = items ∨
        ∃ error, (collection.write items server).value = .error error ∧
          kept.length < items.length) := by
  rcases view.new_or_taken (view.documents server) items with
    new | ⟨front, item, rest, rfl, new, taken⟩
  · obtain ⟨count, after, answer, contents⟩ := lawful.inserted nonempty new
    have call : collection.write items server =
        ⟨.ok (), [.stored count collection.name], after⟩ := by
      simp [Collection.write, nonempty, answer]
    rw [call]
    exact ⟨items, .of_new new, contents, .inl ⟨rfl, rfl⟩⟩
  · obtain ⟨reason, after, answer, contents⟩ := lawful.refused rest new taken
    have call : collection.write (front ++ item :: rest) server =
        ⟨.error (.itemWriter s!"MongoDB insert into {collection.name} failed: {reason}"), [],
          after⟩ := by
      simp [Collection.write, answer]
    rw [call]
    exact ⟨front, .of_taken new taken, contents, .inr ⟨_, rfl, by simp⟩⟩

/-! ## Collections in memory -/

section

variable [DecidableEq κ]

/-- What is stored behind an insert, and whether all of its items are. -/
def storeMany (id? : ω → Option κ) (ordered : Bool) (stored : List ω) : List ω → List ω × Bool
  | [] => (stored, true)
  | item :: rest =>
    if Taken id? stored item then
      (if ordered then stored else (storeMany id? ordered stored rest).1, false)
    else storeMany id? ordered (stored ++ [item]) rest

/-- A collection that is the list of its documents. -/
def inMemory (name : String) (id? : ω → Option κ) : Collection (List ω) ω where
  name
  insertMany items ordered stored :=
    let (after, complete) := storeMany id? ordered stored items
    (if complete then .ok items.length else .error "E11000 duplicate key error", after)

/-- The list shows what the collection holds. -/
def inMemoryView (id? : ω → Option κ) : View (List ω) ω ω κ := ⟨id, id, id?⟩

variable {id? : ω → Option κ} {stored : List ω}

theorem storeMany_append {front : List ω} (new : NewIds id? stored front) (rest : List ω) :
    storeMany id? true stored (front ++ rest) = storeMany id? true (stored ++ front) rest := by
  induction front generalizing stored with
  | nil => simp
  | cons item front ih =>
    rw [← List.singleton_append] at new
    obtain ⟨free, others⟩ := newIds_append.mp new
    rw [List.cons_append, storeMany, if_neg (newIds_singleton.mp free), ih others]
    simp

theorem storeMany_of_new {items : List ω} (new : NewIds id? stored items) :
    storeMany id? true stored items = (stored ++ items, true) := by
  have all := storeMany_append new []
  rwa [List.append_nil, storeMany] at all

theorem storeMany_of_taken {front rest : List ω} {item : ω} (new : NewIds id? stored front)
    (taken : Taken id? (stored ++ front) item) :
    storeMany id? true stored (front ++ item :: rest) = (stored ++ front, false) := by
  rw [storeMany_append new, storeMany, if_pos taken, if_pos rfl]

/-- A collection in memory refuses an item only if its id is taken. -/
theorem inMemory_lawful (name : String) (id? : ω → Option κ) :
    (inMemory name id?).Lawful (inMemoryView id?) where
  inserted := by
    intro stored items _ new
    have fresh : NewIds id? stored items := by
      simpa [View.New, inMemoryView] using new
    refine ⟨items.length, stored ++ items, ?_, by simp [inMemoryView]⟩
    simp [inMemory, storeMany_of_new fresh]
  refused := by
    intro stored front item rest new taken
    have fresh : NewIds id? stored front := by
      simpa [View.New, inMemoryView] using new
    have same : Taken id? (stored ++ front) item := by
      simpa [inMemoryView] using taken
    refine ⟨"E11000 duplicate key error", stored ++ front, ?_, by simp [inMemoryView]⟩
    simp [inMemory, storeMany_of_taken fresh same]

end

end Collection

end Batchwork
