import Batchwork.Proofs.Json.ArrayReadings

/-!
# What is read from a document that is cut off

A document whose closing bracket does not come is never taken for one that ends. Those of its
elements are read behind which the comma still came; from then on every reading tells that the end
is missing, as often as it is asked for. The element in which the document breaks off is not read,
even if what there is of it would decode. Main statement: `readings_of_truncated`.
-/

namespace Batchwork.Json

namespace ArrayDocument

variable {gap : UInt8 → Bool} {elements later : List (Element gap)} {element second : Element gap}
  {start cut index : Nat}

/-- Whether the comma behind an element comes before the cut, for elements that begin at `start`. -/
def Ended (start : Nat) (elements : List (Element gap)) (cut index : Nat) : Prop :=
  index + 1 < elements.length ∧ start + (listed (elements.take (index + 1))).length < cut

instance : Decidable (Ended start elements cut index) :=
  inferInstanceAs (Decidable (_ ∧ _))

theorem Ended.bound (ended : Ended start elements cut index) : index < elements.length :=
  Nat.lt_of_succ_lt ended.1

theorem not_ended_singleton : ¬Ended start [element] cut index := fun ended =>
  absurd ended.1 (Nat.not_lt_of_le (Nat.le_add_left 1 index))

theorem length_listed_cons_cons :
    (listed (element :: second :: later)).length =
      element.bytes.length + 1 + (listed (second :: later)).length := by
  simp only [listed_cons_cons, List.length_append, List.length_cons]
  omega

/-- No element ends before the first one does. -/
theorem not_ended_of_le (inside : cut ≤ start + element.bytes.length) :
    ¬Ended start (element :: later) cut index := by
  rintro ⟨bound, before⟩
  have first : element.bytes.length ≤ (listed ((element :: later).take (index + 1))).length := by
    rw [List.take_succ_cons]
    cases later.take index with
    | nil => simp
    | cons second others =>
      rw [length_listed_cons_cons]
      omega
  omega

theorem ended_zero (before : start + element.bytes.length < cut) :
    Ended start (element :: second :: later) cut 0 := by
  refine ⟨by simp, ?_⟩
  simpa using before

/-- Behind the first element the others stand as they would without it. -/
theorem ended_succ {left : Nat} :
    Ended start (element :: second :: later) (start + element.bytes.length + left + 1) (index + 1) ↔
      Ended 0 (second :: later) left index := by
  have split : (listed ((element :: second :: later).take (index + 1 + 1))).length =
      element.bytes.length + 1 + (listed ((second :: later).take (index + 1))).length := by
    simp only [List.take_succ_cons]
    exact length_listed_cons_cons
  simp only [Ended, split, List.length_cons]
  omega

/-- A cut behind the comma of the first element cuts off part of the others. -/
theorem take_listed (gaps : List UInt8) (element second : Element gap) (later : List (Element gap))
    (left : Nat) :
    (gaps ++ listed (element :: second :: later)).take
        (gaps.length + element.bytes.length + left + 1) =
      gaps ++ element.bytes ++ 44 :: (listed (second :: later)).take left := by
  rw [listed_cons_cons, ← List.append_assoc, Nat.add_assoc, ← List.length_append,
    List.take_length_add_append, List.take_succ_cons]

theorem take_listed_singleton (gaps : List UInt8) (element : Element gap) (cut : Nat) :
    (gaps ++ listed [element]).take cut <+: gaps ++ element.bytes := by
  rw [listed_singleton]
  exact List.take_prefix cut _

/-- A cut in front of that comma leaves a part of the first element. -/
theorem take_listed_within {gaps : List UInt8} (inside : cut ≤ gaps.length + element.bytes.length) :
    (gaps ++ listed (element :: later)).take cut <+: gaps ++ element.bytes := by
  have short : cut ≤ (gaps ++ element.bytes).length := by
    rw [List.length_append]
    exact inside
  cases later with
  | nil => exact take_listed_singleton gaps element cut
  | cons second later =>
    rw [listed_cons_cons, ← List.append_assoc, List.take_append_of_le_length short]
    exact List.take_prefix cut _

theorem listed_append (elements : List (Element gap)) (first : Element gap)
    (rest : List (Element gap)) :
    listed (elements ++ first :: rest) =
      if elements = [] then listed (first :: rest)
      else listed elements ++ 44 :: listed (first :: rest) := by
  induction elements with
  | nil => rfl
  | cons element elements ih =>
    cases elements with
    | nil => simp [listed_cons_cons]
    | cons second others =>
      rw [List.cons_append, List.cons_append, listed_cons_cons, ← List.cons_append, ih]
      simp [listed_cons_cons]

/-! ## Documents -/

/-- The document up to the element of this index, without the comma behind it. -/
def upTo (document : ArrayDocument gap) (index : Nat) : List UInt8 :=
  document.lead ++ 91 :: (document.opening ++ listed (document.elements.take (index + 1)))

/-- Whether the comma behind this element is among the bytes before the cut. -/
def Terminated (document : ArrayDocument gap) (cut index : Nat) : Prop :=
  index + 1 < document.elements.length ∧ (document.upTo index).length < cut

/-- What stands behind an element that is not the last one is a comma. -/
theorem comma_behind (document : ArrayDocument gap) (bound : index + 1 < document.elements.length) :
    document.upTo index ++ [44] <+: document.bytes := by
  have split := List.take_append_drop (index + 1) document.elements
  cases behind : document.elements.drop (index + 1) with
  | nil => exact absurd (List.drop_eq_nil_iff.mp behind) (Nat.not_le_of_lt bound)
  | cons first rest =>
    have some : document.elements.take (index + 1) ≠ [] := by
      intro none
      simp only [List.take_eq_nil_iff, Nat.add_one_ne_zero, false_or] at none
      simp [none] at bound
    have listing := listed_append (document.elements.take (index + 1)) first rest
    rw [← behind, split, if_neg some, behind] at listing
    refine ⟨listed (first :: rest) ++ [93], ?_⟩
    simp [upTo, bytes, unclosed, listing]

instance (document : ArrayDocument gap) : Decidable (document.Terminated cut index) :=
  inferInstanceAs (Decidable (_ ∧ _))

theorem Terminated.bound {document : ArrayDocument gap} (ended : document.Terminated cut index) :
    index < document.elements.length :=
  Nat.lt_of_succ_lt ended.1

/-- Nothing has ended where not even the array has begun. -/
theorem not_terminated {document : ArrayDocument gap} (before : cut ≤ document.lead.length) :
    ¬document.Terminated cut index := by
  rintro ⟨-, within⟩
  simp only [upTo, List.length_append] at within
  omega

theorem terminated_iff {document : ArrayDocument gap} {left : Nat} :
    document.Terminated (document.lead.length + left + 1) index ↔
      Ended document.opening.length document.elements left index := by
  simp only [Terminated, Ended, upTo, List.length_append, List.length_cons]
  omega

theorem take_bytes (document : ArrayDocument gap) {left : Nat}
    (fits : left ≤ (document.opening ++ listed document.elements).length) :
    document.bytes.take (document.lead.length + left + 1) =
      document.lead ++ 91 :: (document.opening ++ listed document.elements).take left := by
  rw [bytes, unclosed, Nat.add_assoc, List.append_assoc, List.take_length_add_append,
    List.cons_append, List.take_succ_cons, List.take_append_of_le_length fits]

/-- What a reader finds wrong with a document that is cut off. -/
def cutFault (document : ArrayDocument gap) (cut : Nat) : ArrayFault :=
  if cut ≤ document.lead.length then .notAnArray "an empty document" else .unexpectedEnd

end ArrayDocument

namespace ArrayReader

open ArrayDocument

variable {α : Type} {gap : UInt8 → Bool} {shape : Shape α} {reader : ArrayReader} {position : Nat}

/-- Where the input has ended each reading tells so. -/
theorem Standing.readings_at_end (standing : reader.Standing position (.const (.ok none)))
    (shape : Shape α) :
    (asReader shape).readings reader =
      .const (.error (.itemReader ArrayFault.unexpectedEnd.message)) := by
  refine readings_const (Standing position (.const (.ok none))) (fun reader standing => ?_) standing
  have ends : Scans {} (.const (.ok none)) [] .endOfInput (.const (.ok none)) := .endOfInput rfl
  obtain ⟨value, behind⟩ := standing.cutShort ends shape
  exact ⟨congrArg reported value, behind⟩

/-- The readings where the input ends within an element. -/
theorem Standing.readings_within {bytes whole : List UInt8} {after : Scan}
    (standing : reader.Standing position (served bytes ++ₛ .const (.ok none)))
    (cut : bytes <+: whole) (passes : Scan.through? {} whole = some after) (shape : Shape α) :
    (asReader shape).readings reader =
      .const (.error (.itemReader ArrayFault.unexpectedEnd.message)) := by
  obtain ⟨middle, reached⟩ := Scan.exists_through?_of_prefix cut passes
  have ends : Scans middle (.const (.ok none)) [] .endOfInput (.const (.ok none)) := .endOfInput rfl
  obtain ⟨value, behind⟩ := standing.cutShort (Scans.through reached ends) shape
  rw [readings_eq, value, behind.readings_at_end shape]
  exact (Stream'.const_eq _).symm

/-- The readings of a reader in front of elements that are cut off. -/
theorem Standing.readings_of_cut (known : ∀ byte, gap byte = true → isGap byte = true)
    (shape : Shape α) (elements : List (Element gap)) {gaps : List UInt8}
    (blank : ∀ byte ∈ gaps, isGap byte = true) {cut : Nat}
    (standing : reader.Standing position
      (served ((gaps ++ listed elements).take cut) ++ₛ .const (.ok none))) (index : Nat) :
    ((asReader shape).readings reader).get index =
      if ended : Ended gaps.length elements cut index then
        elementReading shape (position + index) (elements.get ⟨index, ended.bound⟩).content
      else .error (.itemReader ArrayFault.unexpectedEnd.message) := by
  induction elements generalizing gaps cut position reader index with
  | nil =>
    rw [listed_nil, List.append_nil] at standing
    rw [standing.readings_within (List.take_prefix cut gaps) (Scan.through?_gaps blank),
      Stream'.get_const, dif_neg fun ended => absurd ended.bound (Nat.not_lt_zero index)]
  | cons element later ih =>
    -- The cut falls within this element, behind it if it is the last one, or behind its comma.
    by_cases inside : cut ≤ gaps.length + element.bytes.length
    · rw [standing.readings_within (take_listed_within inside) (element.through known blank),
        Stream'.get_const, dif_neg (not_ended_of_le inside)]
    · obtain ⟨left, rfl⟩ := Nat.exists_eq_add_of_lt (Nat.lt_of_not_le inside)
      cases later with
      | nil =>
        have whole := take_listed_singleton gaps element
          (gaps.length + element.bytes.length + left + 1)
        rw [standing.readings_within whole (element.through known blank), Stream'.get_const,
          dif_neg not_ended_singleton]
      | cons second later =>
        rw [take_listed, served_append, Stream'.append_append_stream] at standing
        obtain ⟨value, behind⟩ := standing.element_comma known element blank shape
        rw [readings_eq, value]
        cases index with
        | zero =>
          rw [dif_pos (ended_zero (by omega))]
          rfl
        | succ index =>
          have others : Ended ([] : List UInt8).length (second :: later) left index ↔
              Ended gaps.length (element :: second :: later)
                (gaps.length + element.bytes.length + left + 1) (index + 1) := ended_succ.symm
          rw [Stream'.get_succ_cons, ih (List.forall_mem_nil _) behind index]
          simp only [others, Nat.add_assoc, Nat.add_comm 1]
          rfl

/-- Without a bracket each reading tells that there is nothing. -/
theorem readings_of_nothing {gaps : List UInt8} (blank : ∀ byte ∈ gaps, isGap byte = true)
    (fresh : reader.started = false) (unfinished : reader.finished = false)
    (ahead : reader.input.answers = served gaps ++ₛ .const (.ok none)) (shape : Shape α) :
    (asReader shape).readings reader =
      .const (.error (.itemReader (ArrayFault.notAnArray "an empty document").message)) := by
  let Holds (reader : ArrayReader) : Prop := reader.started = false ∧ reader.finished = false ∧
    ∃ gaps, (∀ byte ∈ gaps, isGap byte = true) ∧
      reader.input.answers = served gaps ++ₛ .const (.ok none)
  refine readings_const Holds ?_ ⟨fresh, unfinished, gaps, blank, ahead⟩
  rintro reader ⟨fresh, unfinished, gaps, blank, ahead⟩
  rw [Stream'.const_eq] at ahead
  have leads : Leads (served gaps ++ₛ .cons (.ok none) (.const (.ok none))) gaps (.ok none)
      (.const (.ok none)) := .of_gaps gaps blank nofun
  obtain ⟨after, found, left, -⟩ := firstByte_of_leads (ahead ▸ leads)
  have started : reader.start =
      (.error (.notAnArray "an empty document"), { reader with input := after }) := by
    simp only [start, found]
  rw [read_of_unopened fresh unfinished started]
  exact ⟨rfl, fresh, unfinished, [], List.forall_mem_nil _, left⟩

/-- The readings of a reader in front of the beginning of a document. -/
theorem readings_of_beginning (known : ∀ byte, gap byte = true → isGap byte = true)
    (document : ArrayDocument gap) (shape : Shape α) {cut : Nat}
    (short : cut < document.bytes.length) (fresh : reader.started = false)
    (unfinished : reader.finished = false) (first : reader.position = 0)
    (ahead : reader.input.answers = served (document.bytes.take cut) ++ₛ .const (.ok none))
    (index : Nat) :
    ((asReader shape).readings reader).get index =
      if ended : document.Terminated cut index then
        elementReading shape index (document.elements.get ⟨index, ended.bound⟩).content
      else .error (.itemReader (document.cutFault cut).message) := by
  by_cases before : cut ≤ document.lead.length
  -- Not even the opening bracket has come.
  · have taken : document.bytes.take cut = document.lead.take cut := by
      rw [bytes, unclosed, List.append_assoc, List.take_append_of_le_length before]
    have blank : ∀ byte ∈ document.lead.take cut, isGap byte = true := fun byte member =>
      known byte (document.leading byte (List.mem_of_mem_take member))
    rw [taken] at ahead
    rw [readings_of_nothing blank fresh unfinished ahead, dif_neg (not_terminated before), cutFault,
      if_pos before, Stream'.get_const]
  · obtain ⟨left, rfl⟩ := Nat.exists_eq_add_of_lt (Nat.lt_of_not_le before)
    have fits : left ≤ (document.opening ++ listed document.elements).length := by
      simp only [bytes, unclosed, List.length_append, List.length_cons, List.length_nil] at short
      simp only [List.length_append]
      omega
    have leads := document.leads known
      ((document.opening ++ listed document.elements).take left) (.const (.ok none))
    rw [document.take_bytes fits] at ahead
    obtain ⟨opened, standing, same⟩ := readings_of_opening fresh unfinished (ahead ▸ leads) shape
    have blank : ∀ byte ∈ document.opening, isGap byte = true := fun byte member =>
      known byte (document.trailing byte member)
    rw [same, standing.readings_of_cut known shape document.elements blank index, cutFault,
      if_neg before]
    simp only [terminated_iff, first, Nat.zero_add]

/-- How many of these bytes a buffer of this size lets through. -/
def reached (room cut : Nat) : Nat := if room = 0 then 0 else cut

/-- From a source that ends within an array, the elements are read whose comma came; every other
reading fails. A buffer without room does not let even these through. -/
theorem readings_of_truncated (shape : Shape α) (document : ArrayDocument isBlank)
    {source : ByteSource} {cut : Nat} (short : cut < document.bytes.length)
    (serves : source.answers = served (document.bytes.take cut) ++ₛ .const (.ok none))
    (room index : Nat) :
    ((asReader shape).readings (ofSource source room)).get index =
      if ended : document.Terminated (reached room cut) index then
        elementReading shape index (document.elements.get ⟨index, ended.bound⟩).content
      else .error (.itemReader (document.cutFault (reached room cut)).message) := by
  have ahead : (ofSource source room).input.answers =
      served (document.bytes.take (reached room cut)) ++ₛ .const (.ok none) := by
    by_cases noRoom : room = 0
    · have sound : ∀ n reason, source.answers.get n ≠ .error reason := by
        rw [serves]
        exact get_served_ne_error _
      rw [BufferedSource.answers_of_no_room _ noRoom rfl sound, reached, if_pos noRoom]
      rfl
    · rw [BufferedSource.answers_of_pos _ (Nat.pos_of_ne_zero noRoom), reached, if_neg noRoom]
      exact serves
  have short : reached room cut < document.bytes.length := by
    unfold reached
    split <;> omega
  exact readings_of_beginning (fun _ => isGap_of_isBlank) document shape short rfl rfl rfl ahead
    index

/-- ` [1, "],", 2`, in two pieces. -/
def mixedCutOff : ByteSource :=
  ⟨[.bytes [32, 91, 49, 44, 32, 34], .bytes [93, 44, 34, 44, 32, 50]], none⟩

theorem readings_of_mixed_cut_off :
    (12 < mixed.bytes.length ∧
        mixedCutOff.answers = served (mixed.bytes.take 12) ++ₛ .const (.ok none)) ∧
      ((asReader (Shape.natural "u8" 8)).readings (ofSource mixedCutOff 1)).get 0 = .ok (some 1) ∧
      ((asReader (Shape.natural "u8" 8)).readings (ofSource mixedCutOff 1)).get 1 =
        .error (.itemReader
          "element 1: invalid type: string \"],\", expected u8 at line 1 column 4") ∧
      ((asReader (Shape.natural "u8" 8)).readings (ofSource mixedCutOff 1)).get 2 =
        .error (.itemReader "unexpected end of the JSON array") := by
  have short : 12 < mixed.bytes.length := by decide
  have serves : mixedCutOff.answers = served (mixed.bytes.take 12) ++ₛ .const (.ok none) := rfl
  have reading := readings_of_truncated (Shape.natural "u8" 8) mixed short serves 1
  refine ⟨⟨short, serves⟩, ?_, ?_, ?_⟩
  · rw [reading 0]
    rfl
  · rw [reading 1]
    rfl
  · rw [reading 2]
    rfl

/-- A buffer without room reads no element, although its comma comes. -/
theorem readings_without_room :
    (4 < mixed.bytes.length ∧
        (ByteSource.ofBytes (mixed.bytes.take 4)).answers =
          served (mixed.bytes.take 4) ++ₛ .const (.ok none) ∧
        mixed.Terminated 4 0) ∧
      ((asReader (Shape.natural "u8" 8)).readings
          (ofSource (.ofBytes (mixed.bytes.take 4)) 0)).get 0 ≠
        elementReading (Shape.natural "u8" 8) 0 (mixed.elements.get ⟨0, by decide⟩).content := by
  have serves : (ByteSource.ofBytes (mixed.bytes.take 4)).answers =
      served (mixed.bytes.take 4) ++ₛ .const (.ok none) := rfl
  have ahead : (ofSource (.ofBytes (mixed.bytes.take 4)) 0).input.answers =
      served [] ++ₛ .const (.ok none) := by
    apply BufferedSource.answers_of_no_room _ rfl rfl
    intro n
    exact serves ▸ get_served_ne_error _ n
  have readings := readings_of_nothing (List.forall_mem_nil _) rfl rfl ahead (Shape.natural "u8" 8)
  refine ⟨⟨by decide, serves, by decide⟩, ?_⟩
  rw [readings, Stream'.get_const]
  exact nofun

end ArrayReader

end Batchwork.Json
