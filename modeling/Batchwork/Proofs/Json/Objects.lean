import Batchwork.Proofs.Json.Boundaries
import Batchwork.Proofs.Json.Spelling

/-!
# Objects as they are written

The texts whose value is an object, with their members told apart. There is one way only to tell
them apart: whatever stands behind an object, its members end where the grammar says. Main
statement: `Member.keys_of_listed`.
-/

namespace Batchwork.Json

/-- A member of an object: its name, a colon and its value. -/
structure Member where
  before : List UInt8
  /-- The text of the name, with its quotes. -/
  key : List UInt8
  between : List UInt8
  element : Element isBlank
  leading : Blank before
  string : StringText key
  trailing : Blank between

/-- A text whose value is an object. -/
structure ObjectDocument where
  lead : List UInt8
  /-- What stands between the opening brace and the first member or the closing brace. -/
  opening : List UInt8
  members : List Member
  trail : List UInt8
  leading : Blank lead
  inside : Blank opening
  trailing : Blank trail

namespace Member

/-- The member from its colon on. -/
def assigned (member : Member) : List UInt8 := 58 :: member.element.bytes

def bytes (member : Member) : List UInt8 :=
  member.before ++ (member.key ++ (member.between ++ member.assigned))

/-- The members with the commas between them. -/
def listed (members : List Member) : List UInt8 := [44].intercalate (members.map bytes)

@[simp] theorem listed_nil : listed [] = [] := rfl

theorem listed_cons (member : Member) (later : List Member) :
    listed (member :: later) = member.bytes ++ following (later.map bytes) :=
  intercalate_cons _ _

end Member

def ObjectDocument.bytes (document : ObjectDocument) : List UInt8 :=
  document.lead ++
    123 :: (document.opening ++ (Member.listed document.members ++ 125 :: document.trail))

/-! ## Where the parts end -/

/-- A comma or a closing brace. -/
def EndsMember (byte : UInt8) : Prop := byte = 44 ∨ byte = 125

theorem EndsMember.solid {byte : UInt8} (ends : EndsMember byte) : isBlank byte = false := by
  rcases ends with rfl | rfl <;> rfl

/-- An element does not go on with what ends a member. -/
theorem Derives.not_longer {text more : List UInt8} {byte : UInt8} (ends : EndsMember byte)
    (element : Derives .element text) (longer : Derives .element (text ++ byte :: more)) :
    False := by
  -- Within `depth` brackets, a scan that has passed the shorter element passes the rest as well.
  have passed (depth : Nat) :
      (Scan.outside depth).through? (byte :: more) = some (Scan.outside depth) := by
    rw [← Scan.through?_append (element.through depth nofun)]
    exact longer.through depth nofun
  rcases ends with rfl | rfl
  · cases passed 0
  · -- The brace closes a bracket if there is one, and is a byte like others if there is none.
    have one : (Scan.outside 0).through? more = some (Scan.outside 1) := passed 1
    have none : (Scan.outside 0).through? more = some (Scan.outside 0) := passed 0
    cases none.symm.trans one

theorem Derives.element_unique {text text' rest rest' : List UInt8} {byte byte' : UInt8}
    (element : Derives .element text) (element' : Derives .element text') (ends : EndsMember byte)
    (ends' : EndsMember byte') (same : text ++ byte :: rest = text' ++ byte' :: rest') :
    text = text' ∧ byte = byte' ∧ rest = rest' := by
  rcases List.append_eq_append_iff.mp same with ⟨more, rfl, behind⟩ | ⟨more, rfl, behind⟩
  · cases more with
    | nil => exact ⟨(List.append_nil text).symm, List.cons.inj behind⟩
    | cons first more =>
      obtain ⟨rfl, -⟩ := List.cons.inj behind
      exact (element.not_longer ends element').elim
  · cases more with
    | nil =>
      obtain ⟨rfl, rfl⟩ := List.cons.inj behind
      exact ⟨List.append_nil text', rfl, rfl⟩
    | cons first more =>
      obtain ⟨rfl, -⟩ := List.cons.inj behind
      exact (element'.not_longer ends' element).elim

theorem Element.derives (element : Element isBlank) : Derives .element element.bytes := by
  rw [Element.bytes, Element.content, ← List.append_assoc]
  exact .element element.leading element.value element.trailing

namespace Member

theorem key_front (member : Member) : ∃ later, member.key = 34 :: later := by
  obtain ⟨before, key, between, element, leading, string, trailing⟩ := member
  cases string with
  | mk characters => exact ⟨_, rfl⟩

/-- A member ends at the comma or the brace behind it, and its name is told from it. -/
theorem unique {member member' : Member} {rest rest' : List UInt8} {byte byte' : UInt8}
    (ends : EndsMember byte) (ends' : EndsMember byte')
    (same : member.bytes ++ byte :: rest = member'.bytes ++ byte' :: rest') :
    member.key = member'.key ∧ byte = byte' ∧ rest = rest' := by
  -- From the left: the blanks end at the quote, the name at its last quote, and the value at the
  -- comma or the brace, as none of the three can go on with what stands behind.
  simp only [bytes, assigned, List.append_assoc, List.cons_append] at same
  obtain ⟨later, quote⟩ := member.key_front
  obtain ⟨later', quote'⟩ := member'.key_front
  have before : member.before = member'.before := by
    rw [quote, quote'] at same
    exact (Blank.unique member.leading member'.leading rfl rfl same).1
  rw [before] at same
  obtain ⟨key, behind⟩ := member.string.unique member'.string (List.append_cancel_left same)
  obtain ⟨-, -, behind⟩ := Blank.unique member.trailing member'.trailing rfl rfl behind
  obtain ⟨-, parts⟩ :=
    member.element.derives.element_unique member'.element.derives ends ends' behind
  exact ⟨key, parts⟩

/-- What stands behind a member is either a comma or the closing brace. -/
theorem following_front (members : List Member) (rest : List UInt8) :
    ∃ byte later, following (members.map bytes) ++ 125 :: rest = byte :: later ∧
      EndsMember byte := by
  cases members with
  | nil => exact ⟨125, rest, rfl, .inr rfl⟩
  | cons member members => exact ⟨44, _, rfl, .inl rfl⟩

theorem unique_cons {member member' : Member} {later later' : List Member} {rest rest' : List UInt8}
    (same : member.bytes ++ (following (later.map bytes) ++ 125 :: rest) =
      member'.bytes ++ (following (later'.map bytes) ++ 125 :: rest')) :
    member.key = member'.key ∧
      following (later.map bytes) ++ 125 :: rest =
        following (later'.map bytes) ++ 125 :: rest' := by
  obtain ⟨byte, behind, front, ends⟩ := following_front later rest
  obtain ⟨byte', behind', front', ends'⟩ := following_front later' rest'
  rw [front, front'] at same ⊢
  obtain ⟨key, rfl, rfl⟩ := unique ends ends' same
  exact ⟨key, rfl⟩

theorem keys_of_following {members members' : List Member} {rest rest' : List UInt8}
    (same : following (members.map bytes) ++ 125 :: rest =
      following (members'.map bytes) ++ 125 :: rest') :
    members.map key = members'.map key := by
  induction members generalizing members' with
  | nil =>
    cases members' with
    | nil => rfl
    | cons member' later' => cases (List.cons.inj same).1
  | cons member later ih =>
    cases members' with
    | nil => cases (List.cons.inj same).1
    | cons member' later' =>
      simp only [List.map_cons, following_cons, List.cons_append, List.append_assoc,
        List.cons.injEq, true_and] at same
      obtain ⟨key, behind⟩ := unique_cons same
      exact congrArg₂ List.cons key (ih behind)

/-- The member with more blanks in front. -/
def behind {gap : List UInt8} (blank : Blank gap) (member : Member) : Member :=
  { member with before := gap ++ member.before, leading := blank.append member.leading }

theorem behind_bytes {gap : List UInt8} (blank : Blank gap) (member : Member) :
    (member.behind blank).bytes = gap ++ member.bytes := by
  simp [behind, bytes, assigned]

theorem append_listed_cons {opening : List UInt8} (blank : Blank opening) (member : Member)
    (later : List Member) (rest : List UInt8) :
    opening ++ (listed (member :: later) ++ 125 :: rest) =
      (member.behind blank).bytes ++ (following (later.map bytes) ++ 125 :: rest) := by
  rw [listed_cons, behind_bytes, List.append_assoc, List.append_assoc]

/-- A member does not begin with a closing brace. -/
theorem bytes_ne_closing {gap rest rest' : List UInt8} (blank : Blank gap) (member : Member) :
    gap ++ 125 :: rest ≠ member.bytes ++ rest' := by
  intro same
  obtain ⟨later, quote⟩ := member.key_front
  rw [bytes, quote, List.append_assoc, List.cons_append, List.cons_append] at same
  cases (Blank.unique blank member.leading rfl rfl same).2.1

/-- The names of the members of an object can be told from its text in one way only. -/
theorem keys_of_listed {opening opening' : List UInt8} (blank : Blank opening)
    (blank' : Blank opening') {members members' : List Member} {rest rest' : List UInt8}
    (same : opening ++ (listed members ++ 125 :: rest) =
      opening' ++ (listed members' ++ 125 :: rest')) :
    members.map key = members'.map key := by
  cases members with
  | nil =>
    cases members' with
    | nil => rfl
    | cons member' later' =>
      rw [append_listed_cons blank'] at same
      exact absurd same (bytes_ne_closing blank _)
  | cons member later =>
    rw [append_listed_cons blank] at same
    cases members' with
    | nil => exact absurd same.symm (bytes_ne_closing blank' _)
    | cons member' later' =>
      rw [append_listed_cons blank'] at same
      obtain ⟨key, others⟩ := unique_cons same
      exact congrArg₂ List.cons key (keys_of_following others)

end Member

end Batchwork.Json
