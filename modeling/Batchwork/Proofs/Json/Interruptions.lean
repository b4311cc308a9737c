import Batchwork.Proofs.Json.Openings

/-!
# What is read around an interruption

A source that fails once within a document and then goes on with the next byte. Up to the failure
the readings are those of the document, and the one that meets it tells of it. What that reading had
consumed is gone: reading goes on behind it as if an element began there. So nothing but elements is
handed out, in order and each at most once, if the failure does not fall within the text of one; and
if it does, what is left of the text may be taken for elements. Main statement:
`readings_of_interrupted`.
-/

namespace Batchwork.Json

/-! ## Items among readings -/

section

variable {α : Type} {shape : Shape α} {values more : List α} {value : α}
  {readings : Stream' (Result (Option α))} {reading : Result (Option α)}

/-- The item that a reading hands out. -/
def item? : Result (Option α) → Option α
  | .ok item => item
  | .error _ => none

/-- The items that are handed out are among these values: in this order, and each at most once. -/
def ItemsAmong (values : List α) (readings : Stream' (Result (Option α))) : Prop :=
  ∀ calls, ((readings.take calls).filterMap item?).Sublist values

namespace ItemsAmong

theorem mono (among : ItemsAmong values readings) (fewer : values.Sublist more) :
    ItemsAmong more readings := fun calls => (among calls).trans fewer

theorem silent (nothing : item? reading = none) (later : ItemsAmong values readings) :
    ItemsAmong values (.cons reading readings)
  | 0 => List.nil_sublist values
  | calls + 1 => by
    rw [Stream'.take_succ_cons, List.filterMap_cons, nothing]
    exact later calls

theorem item (later : ItemsAmong values readings) :
    ItemsAmong (value :: values) (.cons (.ok (some value)) readings)
  | 0 => List.nil_sublist _
  | calls + 1 => (later calls).cons_cons value

theorem of_failures (failing : ∀ n, ∃ message, readings.get n = .error (.itemReader message)) :
    ItemsAmong values readings := by
  intro calls
  induction calls generalizing readings with
  | zero => exact List.nil_sublist values
  | succ calls ih =>
    obtain ⟨message, refused⟩ := failing 0
    have nothing : item? readings.head = none := by
      rw [show readings.head = _ from refused]
      rfl
    rw [Stream'.take_succ, List.filterMap_cons, nothing]
    exact ih fun n => failing (n + 1)

theorem ended : ItemsAmong values (.const (.ok none)) := by
  intro calls
  induction calls with
  | zero => exact List.nil_sublist values
  | succ calls ih =>
    rw [Stream'.const_eq, Stream'.take_succ_cons]
    exact ih

end ItemsAmong

end

namespace ArrayDocument

variable {gap : UInt8 → Bool} {elements later : List (Element gap)} {element : Element gap}
  {start cut : Nat}

/-- The values of elements, as far as they decode. -/
def values {α : Type} (shape : Shape α) (elements : List (Element gap)) : List α :=
  elements.filterMap fun element => (decode shape element.content).toOption

/-- What stands behind an element, by those that follow it. -/
def behind : List (Element gap) → List UInt8
  | [] => [93]
  | second :: later => 44 :: (listed (second :: later) ++ [93])

theorem listed_behind (element : Element gap) (later : List (Element gap)) :
    listed (element :: later) ++ [93] = element.bytes ++ behind later := by
  cases later with
  | nil => rw [listed_singleton, behind]
  | cons second later => rw [listed_cons_cons, behind, List.append_assoc, List.cons_append]

/-- Whether a cut splits the text of one of these elements, of which the first begins at `start`. -/
def SplitsFrom (cut : Nat) : (start : Nat) → List (Element gap) → Prop
  | _, [] => False
  | start, element :: later =>
    start + element.before.length < cut ∧
        cut < start + element.before.length + element.text.length ∨
      SplitsFrom cut (start + element.bytes.length + 1) later

instance decidableSplitsFrom (cut : Nat) :
    (start : Nat) → (elements : List (Element gap)) → Decidable (SplitsFrom cut start elements)
  | _, [] => inferInstanceAs (Decidable False)
  | start, element :: later =>
    @instDecidableOr _ _ _ (decidableSplitsFrom cut (start + element.bytes.length + 1) later)

theorem splitsFrom_add (shift : Nat) :
    SplitsFrom (shift + cut) (shift + start) elements ↔ SplitsFrom cut start elements := by
  induction elements generalizing start with
  | nil => rfl
  | cons element later ih =>
    have shifted : shift + start + element.bytes.length + 1 =
        shift + (start + element.bytes.length + 1) := by omega
    rw [SplitsFrom, SplitsFrom, shifted, ih]
    exact or_congr_left (by omega)

/-- Whether a cut splits the text of an element. -/
def Splits (document : ArrayDocument gap) (cut : Nat) : Prop :=
  SplitsFrom cut (document.lead.length + 1 + document.opening.length) document.elements

instance (document : ArrayDocument gap) : Decidable (document.Splits cut) :=
  inferInstanceAs (Decidable (SplitsFrom _ _ _))

end ArrayDocument

/-- The answers of a source that serves these bytes and fails once after so many of them. -/
def failingOnce (bytes : List UInt8) (cut : Nat) (reason : String) (rest : Stream' Answer) :
    Stream' Answer :=
  served (bytes.take cut) ++ₛ .cons (.error reason) (served (bytes.drop cut) ++ₛ rest)

theorem failingOnce_append_of_le {first : List UInt8} {cut : Nat} (within : cut ≤ first.length)
    (second : List UInt8) (reason : String) (rest : Stream' Answer) :
    failingOnce (first ++ second) cut reason rest =
      served (first.take cut) ++ₛ
        .cons (.error reason) (served (first.drop cut ++ second) ++ₛ rest) := by
  rw [failingOnce, List.take_append_of_le_length within, List.drop_append_of_le_length within]

theorem failingOnce_append (first second : List UInt8) (cut : Nat) (reason : String)
    (rest : Stream' Answer) :
    failingOnce (first ++ second) (first.length + cut) reason rest =
      served first ++ₛ failingOnce second cut reason rest := by
  rw [failingOnce, List.take_length_add_append, List.drop_length_add_append, served_append,
    Stream'.append_append_stream, failingOnce]

namespace ArrayReader

open ArrayDocument

variable {α : Type} {gap : UInt8 → Bool} {shape : Shape α} {reader : ArrayReader} {position : Nat}
  {answers rest : Stream' Answer} {bytes gaps : List UInt8} {reason : String} {cut : Nat}

/-- What a reading tells that meets a failure of its source. -/
def unreadable (reason : String) : Result (Option α) :=
  .error (.itemReader (ArrayFault.unreadable reason).message)

/-- The reading of an element hands out its value, or none if it does not decode. -/
theorem itemsAmong_reading (element : Element gap) {later : List (Element gap)}
    {readings : Stream' (Result (Option α))} (among : ItemsAmong (values shape later) readings)
    (index : Nat) :
    ItemsAmong (values shape (element :: later))
      (.cons (elementReading shape index element.content) readings) := by
  rw [values, List.filterMap_cons, elementReading]
  cases decode shape element.content with
  | error fault => exact .silent rfl among
  | ok value => exact .item among

theorem itemsAmong_elements (shape : Shape α) (elements : List (Element gap)) (position : Nat) :
    ItemsAmong (values shape elements)
      (elements.mapIdx (fun index element =>
        elementReading shape (position + index) element.content) ++ₛ .const (.ok none)) := by
  induction elements generalizing position with
  | nil => exact .ended
  | cons element later ih =>
    have others := ih (position + 1)
    simp only [Nat.add_assoc, Nat.add_comm 1] at others
    rw [List.mapIdx_cons]
    exact itemsAmong_reading element others _

namespace Standing

/-- The reading of an element within which the source fails. -/
theorem broken (standing : reader.Standing position answers)
    (scans : Scans {} answers bytes (.unreadable reason) rest) (shape : Shape α) :
    reported (read shape reader).value = unreadable reason ∧
      (read shape reader).state.Standing position rest := by
  obtain ⟨after, scanned, left, -⟩ := scanElement_of_scans (standing.answers ▸ scans)
  have next :
      reader.nextElement = (.error (.unreadable reason), { reader with input := after }) := by
    simp [nextElement, scanned]
  rw [standing.read_eq, readElement_of_error next shape]
  exact ⟨rfl, standing.started, standing.unfinished, standing.position, left⟩

/-- The reading at a comma with no element in front of it. -/
theorem missing (standing : reader.Standing position answers)
    (scans : Scans {} answers bytes (.delimited .comma) rest) (empty : content bytes = [])
    (shape : Shape α) :
    item? (reported (read shape reader).value) = none ∧
      (read shape reader).state.Standing position rest := by
  obtain ⟨after, scanned, left, -⟩ := scanElement_of_scans (standing.answers ▸ scans)
  have next : reader.nextElement =
      (.error (.missingElement reader.position), { reader with input := after }) := by
    simp [nextElement, scanned, empty]
  rw [standing.read_eq, readElement_of_error next shape]
  exact ⟨rfl, standing.started, standing.unfinished, standing.position, left⟩

/-- The reading at the closing bracket with no element in front of it. -/
theorem bare (standing : reader.Standing position answers)
    (scans : Scans {} answers bytes (.delimited .bracket) rest) (empty : content bytes = [])
    (shape : Shape α) :
    item? (reported (read shape reader).value) = none ∧
      (read shape reader).state.finished = true := by
  obtain ⟨after, scanned, -⟩ := scanElement_of_scans (standing.answers ▸ scans)
  by_cases first : reader.position = 0
  · have next :
        reader.nextElement = (.ok none, { reader with input := after, finished := true }) := by
      simp [nextElement, scanned, empty, first]
    rw [standing.read_eq, readElement_of_none next shape]
    exact ⟨rfl, rfl⟩
  · have next : reader.nextElement =
        (.error .trailingComma, { reader with input := after, finished := true }) := by
      simp [nextElement, scanned, empty, Nat.pos_of_ne_zero first]
    rw [standing.read_eq, readElement_of_error next shape]
    exact ⟨rfl, rfl⟩

/-- The reading of a part of an element, at the end of which the source fails. -/
theorem interrupted {passed whole : List UInt8} {after : Scan} (part : passed <+: whole)
    (passes : Scan.through? {} whole = some after)
    (standing : reader.Standing position (served passed ++ₛ .cons (.error reason) rest))
    (shape : Shape α) :
    ∃ next : ArrayReader, next.Standing position rest ∧
      (asReader shape).readings reader =
        .cons (unreadable reason) ((asReader shape).readings next) := by
  obtain ⟨middle, reached⟩ := Scan.exists_through?_of_prefix part passes
  have stops : Scans middle (.cons (.error reason) rest) [] (.unreadable reason) rest :=
    .unreadable rfl
  obtain ⟨told, behind⟩ := standing.broken (Scans.through reached stops) shape
  exact ⟨_, behind, by rw [readings_eq, told]⟩

/-- Where no element is left over in front of a delimiter, later elements are read as they are. -/
theorem itemsAmong_behind (known : ∀ byte, gap byte = true → isGap byte = true) (shape : Shape α)
    (blank : ∀ byte ∈ gaps, isGap byte = true) (later : List (Element gap))
    (standing : reader.Standing position (served (gaps ++ behind later) ++ₛ rest)) :
    ItemsAmong (values shape later) ((asReader shape).readings reader) := by
  have passes := Scan.through?_gaps blank
  have empty := content_of_gaps blank
  rw [served_append, Stream'.append_append_stream] at standing
  cases later with
  | nil =>
    have stops : Scans {} (served [93] ++ₛ rest) [] (.delimited .bracket) rest :=
      .delimited rfl rfl
    have scans := Scans.through passes stops
    rw [List.append_nil] at scans
    obtain ⟨silent, finished⟩ := standing.bare scans empty shape
    rw [readings_eq, readings_of_finished finished]
    exact .silent silent .ended
  | cons second later =>
    have stops : Scans {} (served (behind (second :: later)) ++ₛ rest) [] (.delimited .comma)
        (served ([] ++ listed (second :: later) ++ [93]) ++ₛ rest) := .delimited rfl rfl
    have scans := Scans.through passes stops
    rw [List.append_nil] at scans
    obtain ⟨silent, ahead⟩ := standing.missing scans empty shape
    rw [readings_eq, ahead.readings known shape rest second later (List.forall_mem_nil _)]
    exact .silent silent (itemsAmong_elements shape _ position)

/-- Where a source failed in an element, but not within its text, nothing but elements is read:
those that follow it, and the element itself if all of its text is still ahead. -/
theorem itemsAmong_of_not_split (known : ∀ byte, gap byte = true → isGap byte = true)
    (shape : Shape α) (blank : ∀ byte ∈ gaps, isGap byte = true) (element : Element gap)
    (later : List (Element gap))
    (whole : cut ≤ gaps.length + element.before.length ∨
      gaps.length + element.before.length + element.text.length ≤ cut)
    (standing : reader.Standing position
      (served ((gaps ++ element.bytes).drop cut ++ behind later) ++ₛ rest)) :
    ItemsAmong (values shape (element :: later)) ((asReader shape).readings reader) := by
  have leading : ∀ byte ∈ gaps ++ element.before, isGap byte = true :=
    List.forall_mem_append.mpr
      ⟨blank, fun byte member => known byte (element.leading byte member)⟩
  rcases whole with early | late
  · -- What is left of the gaps and the element are an element with fewer gaps in front.
    let rest : Element gap :=
      { element with before := [], leading := List.forall_mem_nil _ }
    have split : (gaps ++ element.bytes).drop cut ++ behind later =
        (gaps ++ element.before).drop cut ++ listed (rest :: later) ++ [93] := by
      have fits : cut ≤ (gaps ++ element.before).length := by rwa [List.length_append]
      rw [Element.bytes, ← List.append_assoc, List.drop_append_of_le_length fits,
        List.append_assoc, List.append_assoc, listed_behind]
      rfl
    rw [split] at standing
    rw [standing.readings known shape _ rest later fun byte member =>
      leading byte (List.mem_of_mem_drop member)]
    exact itemsAmong_elements shape (rest :: later) position
  · obtain ⟨extra, rfl⟩ := Nat.exists_eq_add_of_le late
    have split : (gaps ++ element.bytes).drop
        (gaps.length + element.before.length + element.text.length + extra) =
          element.after.drop extra := by
      rw [Element.bytes, Element.content, ← List.append_assoc, ← List.append_assoc,
        ← List.length_append, ← List.length_append, List.drop_length_add_append]
    rw [split] at standing
    have among := standing.itemsAmong_behind known shape
      (fun byte member => isGap_of_isBlank (element.trailing byte (List.mem_of_mem_drop member)))
      later
    exact among.mono ((List.sublist_cons_self element later).filterMap _)

/-- A reading that meets the failure in an element or in front of what follows it. -/
theorem readings_of_failing_element (known : ∀ byte, gap byte = true → isGap byte = true)
    (shape : Shape α) (blank : ∀ byte ∈ gaps, isGap byte = true) (element : Element gap)
    (later : List (Element gap)) (here : cut ≤ (gaps ++ element.bytes).length)
    (standing : reader.Standing position
      (failingOnce (gaps ++ element.bytes ++ behind later) cut reason rest)) :
    ∃ next : ArrayReader,
      (asReader shape).readings reader =
        .cons (unreadable reason) ((asReader shape).readings next) ∧
      next.Standing position
        (served ((gaps ++ element.bytes ++ behind later).drop cut) ++ₛ rest) ∧
      (¬SplitsFrom cut gaps.length (element :: later) →
        ItemsAmong (values shape (element :: later)) ((asReader shape).readings reader)) := by
  rw [failingOnce_append_of_le here] at standing
  obtain ⟨next, ahead, told⟩ := standing.interrupted (List.take_prefix cut _)
    (element.through known blank) shape
  refine ⟨next, told, ?_, fun unsplit => ?_⟩
  · rw [List.drop_append_of_le_length here]
    exact ahead
  · -- The failure falls into the gaps in front of the text, or behind the text.
    have whole : cut ≤ gaps.length + element.before.length ∨
        gaps.length + element.before.length + element.text.length ≤ cut := by
      rw [SplitsFrom] at unsplit
      omega
    rw [told]
    exact .silent rfl (ahead.itemsAmong_of_not_split known shape blank element later whole)

/-- The readings of a reader in front of these elements and a bracket, where the source fails in
front of the bracket. -/
theorem readings_of_failingOnce (known : ∀ byte, gap byte = true → isGap byte = true)
    (shape : Shape α) (elements : List (Element gap)) (blank : ∀ byte ∈ gaps, isGap byte = true)
    (inside : cut ≤ (gaps ++ listed elements).length)
    (standing : reader.Standing position
      (failingOnce (gaps ++ listed elements ++ [93]) cut reason rest)) :
    ∃ told, ∃ next : ArrayReader,
      told <+: elements.mapIdx (fun index element =>
        elementReading shape (position + index) element.content) ∧
      (asReader shape).readings reader =
        told ++ₛ .cons (unreadable reason) ((asReader shape).readings next) ∧
      next.Standing (position + told.length)
        (served ((gaps ++ listed elements ++ [93]).drop cut) ++ₛ rest) ∧
      (¬SplitsFrom cut gaps.length elements →
        ItemsAmong (values shape elements) ((asReader shape).readings reader)) := by
  -- On the elements. A reader that has taken the first one stands in front of the others, without
  -- gaps, and the offset of the failure counts from there.
  induction elements generalizing gaps position reader cut with
  | nil =>
    rw [listed_nil, List.append_nil] at inside standing
    rw [listed_nil, List.append_nil, List.drop_append_of_le_length inside]
    rw [failingOnce_append_of_le inside] at standing
    obtain ⟨next, ahead, told⟩ :=
      standing.interrupted (List.take_prefix cut gaps) (Scan.through?_gaps blank) shape
    refine ⟨[], next, List.nil_prefix, told, ahead, fun _ => ?_⟩
    rw [told]
    exact .silent rfl (ahead.itemsAmong_behind known shape
      (fun byte member => blank byte (List.mem_of_mem_drop member)) [])
  | cons element later ih =>
    have split : gaps ++ listed (element :: later) ++ [93] =
        gaps ++ element.bytes ++ behind later := by
      rw [List.append_assoc, listed_behind, List.append_assoc]
    rw [split] at standing ⊢
    by_cases here : cut ≤ (gaps ++ element.bytes).length
    · obtain ⟨next, told, ahead, among⟩ :=
        standing.readings_of_failing_element known shape blank element later here
      exact ⟨[], next, List.nil_prefix, told, ahead, among⟩
    · -- The element is read as it is, and the failure comes behind the comma that follows it.
      obtain ⟨left, rfl⟩ := Nat.exists_eq_add_of_lt (Nat.lt_of_not_le here)
      cases later with
      | nil =>
        rw [listed_singleton] at inside
        omega
      | cons second later =>
        rw [Nat.add_assoc, failingOnce_append] at standing
        have comma : failingOnce (behind (second :: later)) (left + 1) reason rest =
            .cons (.ok (some 44))
              (failingOnce ([] ++ listed (second :: later) ++ [93]) left reason rest) := rfl
        rw [comma] at standing
        obtain ⟨value, ahead⟩ := standing.element_comma known element blank shape
        have short : left ≤ ([] ++ listed (second :: later)).length := by
          simp only [listed_cons_cons, List.length_append, List.length_cons] at inside
          rw [List.nil_append]
          omega
        obtain ⟨told, next, begins, readings, behind, among⟩ :=
          ih (List.forall_mem_nil _) short ahead
        have shift : ∀ index, position + 1 + index = position + (index + 1) := fun index => by omega
        simp only [shift] at begins behind
        rw [List.mapIdx_cons]
        refine ⟨elementReading shape position element.content :: told, next,
          List.cons_prefix_cons.mpr ⟨rfl, begins⟩, ?_, ?_, fun whole => ?_⟩
        · rw [readings_eq, value, readings]
          rfl
        · rw [Nat.add_assoc, List.drop_length_add_append]
          exact behind
        · rw [readings_eq, value]
          refine itemsAmong_reading element (among fun splits => whole ?_) position
          have moved := (splitsFrom_add ((gaps ++ element.bytes).length + 1)).mpr splits
          rw [List.length_nil, Nat.add_zero, Nat.add_right_comm] at moved
          exact .inr (by rwa [List.length_append] at moved ⊢)

end Standing

/-- The readings of a reader in front of a document, where the source fails in front of the opening
bracket. -/
theorem readings_of_failing_lead (known : ∀ byte, gap byte = true → isGap byte = true)
    (document : ArrayDocument gap) (shape : Shape α) (early : cut ≤ document.lead.length)
    (unopened : reader.Unopened 0 (failingOnce document.bytes cut reason rest)) :
    ∃ next : ArrayReader, next.Unopened 0 (served (document.bytes.drop cut) ++ₛ rest) ∧
      (asReader shape).readings reader =
        .cons (unreadable reason) ((asReader shape).readings next) ∧
      ItemsAmong (values shape document.elements) ((asReader shape).readings reader) := by
  let later : ArrayDocument gap :=
    { document with
      lead := document.lead.drop cut
      leading := fun byte member => document.leading byte (List.mem_of_mem_drop member) }
  have dropped : document.bytes.drop cut = later.bytes := by
    rw [bytes, bytes, unclosed, unclosed, List.append_assoc, List.append_assoc,
      List.drop_append_of_le_length early]
  have blank : ∀ byte ∈ document.lead.take cut, isGap byte = true := fun byte member =>
    known byte (document.leading byte (List.mem_of_mem_take member))
  have front : failingOnce document.bytes cut reason rest =
      served (document.lead.take cut) ++ₛ
        .cons (.error reason) (served (document.bytes.drop cut) ++ₛ rest) := by
    rw [failingOnce, bytes, unclosed, List.append_assoc, List.take_append_of_le_length early]
  -- The failing reading has passed some of the gaps, and the next one passes the others.
  obtain ⟨middle, fails, same⟩ := (front ▸ unopened).readings_of_gaps blank shape
  have other : (.error reason : Answer) ≠ opening := by simp [opening]
  obtain ⟨next, ahead, refused⟩ := fails.readings_of_other other shape
  have told := same.trans refused
  refine ⟨next, ahead, told, ?_⟩
  have elements := readings_of_array known later shape ahead.fresh ahead.unfinished ahead.position
    (dropped ▸ ahead.answers)
  have among := itemsAmong_elements shape document.elements 0
  simp only [Nat.zero_add] at among
  rw [told, elements]
  exact .silent rfl among

/-- The readings of a reader in front of a document, where the source fails behind the opening
bracket. -/
theorem readings_of_failing_array (known : ∀ byte, gap byte = true → isGap byte = true)
    (document : ArrayDocument gap) (shape : Shape α) (late : document.lead.length < cut)
    (inside : cut < document.bytes.length)
    (unopened : reader.Unopened 0 (failingOnce document.bytes cut reason rest)) :
    ∃ told, ∃ next : ArrayReader,
      told <+: document.elements.mapIdx (fun index element =>
        elementReading shape index element.content) ∧
      (asReader shape).readings reader =
        told ++ₛ .cons (unreadable reason) ((asReader shape).readings next) ∧
      next.Standing told.length (served (document.bytes.drop cut) ++ₛ rest) ∧
      (¬document.Splits cut →
        ItemsAmong (values shape document.elements) ((asReader shape).readings reader)) := by
  have whole : document.bytes =
      document.lead ++ [91] ++ (document.opening ++ listed document.elements ++ [93]) := by
    simp [bytes, unclosed]
  obtain ⟨left, rfl⟩ : ∃ left, cut = (document.lead ++ [91]).length + left :=
    Nat.exists_eq_add_of_le (by rwa [List.length_append])
  have fits : left ≤ (document.opening ++ listed document.elements).length := by
    simp only [whole, List.length_append, List.length_singleton] at inside
    simp only [List.length_append]
    omega
  rw [whole, failingOnce_append, served_append, Stream'.append_append_stream] at unopened
  obtain ⟨middle, opens, passed⟩ := unopened.readings_of_gaps
    (fun byte member => known byte (document.leading byte member)) shape
  obtain ⟨opened, standing, begun⟩ := opens.readings_of_bracket shape
  have same := passed.trans begun
  obtain ⟨told, next, begins, readings, ahead, among⟩ :=
    standing.readings_of_failingOnce known shape document.elements
      (fun byte member => known byte (document.trailing byte member)) fits
  simp only [Nat.zero_add] at begins ahead
  refine ⟨told, next, begins, same.trans readings, ?_, fun unsplit => ?_⟩
  · rw [whole, List.drop_length_add_append]
    exact ahead
  · rw [same]
    refine among fun splits => unsplit ?_
    have moved := (splitsFrom_add (document.lead ++ [91]).length).mpr splits
    rw [Splits]
    rwa [List.length_append, List.length_singleton] at moved ⊢

/-- From a source that fails once within an array, through a buffer with room for a byte, the
elements in front of the failure are read, then it is told of, and from then on the readings are
those of a reader in front of the next byte, whatever of an element had been consumed. Nothing but
elements is handed out, in order and each at most once, if the failure does not fall within the text
of one. -/
theorem readings_of_interrupted (shape : Shape α) (document : ArrayDocument isBlank)
    {source : ByteSource} (serves : source.answers = failingOnce document.bytes cut reason rest)
    (room : Nat) :
    let readings := (asReader shape).readings (ofSource source room)
    (0 < room → cut < document.bytes.length → ∃ told, ∃ next : ArrayReader,
      told <+: document.elements.mapIdx (fun index element =>
        elementReading shape index element.content) ∧
      readings = told ++ₛ .cons (unreadable reason) ((asReader shape).readings next) ∧
      next.input.answers = served (document.bytes.drop cut) ++ₛ rest ∧
      next.started = decide (document.lead.length < cut) ∧ next.finished = false ∧
      next.position = told.length) ∧
    (¬document.Splits cut → ItemsAmong (values shape document.elements) readings) := by
  intro readings
  have known : ∀ byte, isBlank byte = true → isGap byte = true := fun _ => isGap_of_isBlank
  rcases Nat.eq_zero_or_pos room with noRoom | pos
  · -- Without room for a byte the bracket is never found.
    have failing := ((readings_from_opening shape source room).1 (.inl noRoom))
    exact ⟨fun pos => absurd pos (Nat.not_lt.mpr (Nat.le_of_eq noRoom)),
      fun _ => .of_failures failing⟩
  have unopened : Unopened 0 (failingOnce document.bytes cut reason rest) (ofSource source room) :=
    ⟨rfl, rfl, rfl, by rw [BufferedSource.answers_of_pos _ pos]; exact serves⟩
  -- The failure comes behind the opening bracket, in front of it, or behind the whole array.
  by_cases inside : cut < document.bytes.length
  · by_cases late : document.lead.length < cut
    · obtain ⟨told, next, begins, same, ahead, among⟩ :=
        readings_of_failing_array known document shape late inside unopened
      exact ⟨fun _ _ => ⟨told, next, begins, same, ahead.answers,
        ahead.started.trans (decide_eq_true late).symm, ahead.unfinished, ahead.position⟩, among⟩
    · obtain ⟨next, ahead, same, among⟩ :=
        readings_of_failing_lead known document shape (Nat.le_of_not_lt late) unopened
      exact ⟨fun _ _ => ⟨[], next, List.nil_prefix, same, ahead.answers,
        ahead.fresh.trans (decide_eq_false late).symm, ahead.unfinished, ahead.position⟩,
        fun _ => among⟩
  · have behind : failingOnce document.bytes cut reason rest =
        served document.bytes ++ₛ
          .cons (.error reason) (served (document.bytes.drop cut) ++ₛ rest) := by
      rw [failingOnce, List.take_of_length_le (Nat.le_of_not_lt inside)]
    have elements := readings_of_array known document shape rfl rfl rfl
      (unopened.answers.trans behind)
    refine ⟨fun _ within => absurd within inside, fun _ => ?_⟩
    have among := itemsAmong_elements shape document.elements 0
    simp only [Nat.zero_add] at among
    rwa [← elements] at among

/-- ` [1, "],", 2 ]`, interrupted in front of the quote. -/
def mixedInterrupted : ByteSource :=
  ⟨[.bytes [32, 91, 49, 44, 32], .interrupted, .bytes [34, 93, 44, 34, 44, 32, 50, 32, 93]], none⟩

theorem readings_of_mixed_interrupted :
    (mixedInterrupted.answers =
        failingOnce mixed.bytes 5 "operation interrupted" (.const (.ok none)) ∧
      0 < 2 ∧ 5 < mixed.bytes.length ∧ ¬mixed.Splits 5) ∧
    (∃ told, ∃ next : ArrayReader,
      told <+: [.ok (some 1),
        .error (.itemReader
          "element 1: invalid type: string \"],\", expected u8 at line 1 column 4"),
        .ok (some 2)] ∧
      (asReader (Shape.natural "u8" 8)).readings (ofSource mixedInterrupted 2) =
        told ++ₛ .cons (.error (.itemReader "unable to read JSON: operation interrupted"))
          ((asReader (Shape.natural "u8" 8)).readings next) ∧
      next.input.answers =
        served [34, 93, 44, 34, 44, 32, 50, 32, 93] ++ₛ .const (.ok none) ∧
      next.started = true ∧ next.finished = false ∧ next.position = told.length) ∧
    ItemsAmong [1, 2]
      ((asReader (Shape.natural "u8" 8)).readings (ofSource mixedInterrupted 2)) := by
  have serves : mixedInterrupted.answers =
      failingOnce mixed.bytes 5 "operation interrupted" (.const (.ok none)) := rfl
  have inside : 5 < mixed.bytes.length := by decide
  have whole : ¬mixed.Splits 5 := by decide
  obtain ⟨met, among⟩ :=
    readings_of_interrupted (Shape.natural "u8" 8) mixed serves 2
  exact ⟨⟨serves, Nat.two_pos, inside, whole⟩, met Nat.two_pos inside, among whole⟩

theorem derives_twelve : Derives .value [49, 50] := by
  have whole : IntegerText [49, 50] :=
    .positive rfl (by decide) (List.forall_mem_singleton.mpr rfl)
  exact .number (.mk (.inl rfl) whole .absent .absent)

theorem derives_three : Derives .value [51] := derives_digit rfl (by decide)

theorem derives_two : Derives .value [50] := derives_digit rfl (by decide)

theorem blank_nothing : Blank [] := List.forall_mem_nil _

/-- An element with nothing around it. -/
def solitary {text : List UInt8} (value : Derives .value text) : Element isBlank :=
  ⟨[], text, [], blank_nothing, value, blank_nothing⟩

/-- `[12,3]`. -/
def twelveAndThree : ArrayDocument isBlank where
  lead := []
  opening := []
  elements := [solitary derives_twelve, solitary derives_three]
  leading := blank_nothing
  trailing := blank_nothing

/-- The array, interrupted within its first number. -/
def twelveTorn : ByteSource :=
  ⟨[.bytes [91, 49], .failure "disk gone", .bytes [50, 44, 51, 93]], none⟩

/-- A number of which the first digit is lost is handed out as the number of the other digits. -/
theorem torn_number_read :
    twelveTorn.answers = failingOnce twelveAndThree.bytes 2 "disk gone" (.const (.ok none)) ∧
      2 < twelveAndThree.bytes.length ∧
      values Json.document twelveAndThree.elements = [.nat 12, .nat 3] ∧
      (asReader Json.document).readings (ofSource twelveTorn) =
        [.error (.itemReader "unable to read JSON: disk gone"), .ok (some (.nat 2)),
          .ok (some (.nat 3))] ++ₛ .const (.ok none) ∧
      ¬ItemsAmong (values Json.document twelveAndThree.elements)
        ((asReader Json.document).readings (ofSource twelveTorn)) := by
  let two := solitary derives_two
  let three := solitary derives_three
  have unopened : Unopened 0 (.cons opening (served [49] ++ₛ .cons (.error "disk gone")
      (served ([] ++ listed [two, three] ++ [93]) ++ₛ .const (.ok none)))) (ofSource twelveTorn) :=
    ⟨rfl, rfl, rfl, BufferedSource.answers_of_pos _ (by decide)⟩
  obtain ⟨opened, standing, begun⟩ := unopened.readings_of_bracket Json.document
  have part : [49] <+: ([49, 50] : List UInt8) := ⟨[50], rfl⟩
  obtain ⟨next, ahead, told⟩ := standing.interrupted part rfl Json.document
  have readings : (asReader Json.document).readings (ofSource twelveTorn) =
      [.error (.itemReader "unable to read JSON: disk gone"), .ok (some (.nat 2)),
        .ok (some (.nat 3))] ++ₛ .const (.ok none) := by
    rw [begun, told, ahead.readings (fun _ => isGap_of_isBlank) Json.document _ two [three]
      (List.forall_mem_nil _)]
    rfl
  have values : values Json.document twelveAndThree.elements = [.nat 12, .nat 3] := rfl
  refine ⟨rfl, by decide, values, readings, fun among => ?_⟩
  have handedOut := among 2
  rw [readings, values] at handedOut
  exact absurd handedOut (by decide)

end ArrayReader

end Batchwork.Json
