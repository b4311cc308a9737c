import Batchwork.Proofs.Json.ArrayReadings
import Batchwork.Proofs.Json.Values
import Mathlib.Data.List.TakeWhile

/-!
# What is accepted

Where a reader gives values and then the end, with no error among them, the bytes that it has
consumed are a text whose value is an array, and its elements are what was given. Only the gaps in
front of the bracket and of the elements may hold a byte that is no white space of JSON: a form
feed. Main statement: `array_of_readings`.
-/

namespace Batchwork.Json

/-- The bytes are a document whose elements decode to these values. -/
def ArrayText (gap : UInt8 → Bool) (bytes : List UInt8) (values : List Value) : Prop :=
  ∃ array : ArrayDocument gap, array.bytes = bytes ∧
    List.Forall₂ (fun element value => decode document element.content = .ok value)
      array.elements values

/-- What is scanned and then decodes is an element, the gaps in front included. -/
theorem exists_element {gap : UInt8 → Bool} {bytes : List UInt8} {value : Value}
    (known : ∀ byte ∈ bytes, isGap byte = true → gap byte = true)
    (decoded : decode document (content bytes) = .ok value) :
    ∃ element : Element gap, element.bytes = bytes ∧ element.content = content bytes := by
  have whole : bytes.takeWhile isGap ++ content bytes = bytes := List.takeWhile_append_dropWhile
  obtain ⟨before, text, after, blank, derives, trailing, split⟩ := decode_derives decoded
  -- The reader has left out the gaps, so that the decoder finds none in front.
  have solid : before = [] := by
    cases before with
    | nil => rfl
    | cons byte before =>
      have first : (bytes.dropWhile isGap).head? = some byte := by
        rw [show bytes.dropWhile isGap = content bytes from rfl, split]
        rfl
      have stopped := List.head?_dropWhile_not isGap bytes
      rw [first] at stopped
      simp [isGap_of_isBlank (blank byte List.mem_cons_self)] at stopped
  rw [solid, List.nil_append] at split
  refine ⟨⟨bytes.takeWhile isGap, text, after, ?_, derives, trailing⟩, ?_, split.symm⟩
  · intro byte member
    exact known byte (List.takeWhile_subset isGap member)
      (List.all_eq_true.mp List.all_takeWhile byte member)
  · rw [Element.bytes, Element.content, ← split, whole]

namespace ArrayReader

variable {reader after : ArrayReader} {bytes : List UInt8} {values : List Value} {value : Value}

/-! ## One reading -/

/-- What has been consumed when an element was found: the element with the gaps in front, and the
comma or the bracket behind it. -/
theorem nextElement_some (next : reader.nextElement = (.ok (some bytes), after)) :
    ∃ passed delimiter, bytes = content passed ∧
      reader.input.remaining =
        passed ++ (ScanEnd.delimited delimiter).bytes ++ after.input.remaining ∧
      after.started = reader.started ∧ after.position = reader.position ∧
      after.finished = (reader.finished || delimiter = .bracket) := by
  obtain ⟨passed, -, element, remaining⟩ := scanElement_scans {} [] reader.input fun _ => rfl
  unfold nextElement at next
  generalize scanElement {} [] reader.input = scanned at next element remaining
  obtain ⟨found, ending, input⟩ := scanned
  have element : found = content passed := element
  rcases ending with (_ | _) | _ | reason
  · cases found with
    | nil => cases next
    | cons byte found =>
      cases next
      exact ⟨passed, .comma, element, remaining, rfl, rfl, (Bool.or_false _).symm⟩
  · cases found with
    | nil =>
      dsimp only [List.isEmpty_nil, Bool.not_true] at next
      split at next
      · contradiction
      · split at next <;> cases next
    | cons byte found =>
      cases next
      exact ⟨passed, .bracket, element, remaining, rfl, rfl, (Bool.or_true _).symm⟩
  · cases next
  · cases next

/-- The end is told at a bracket behind gaps, where no element came before. -/
theorem nextElement_none (next : reader.nextElement = (.ok none, after)) :
    ∃ passed, content passed = [] ∧
      reader.input.remaining = passed ++ [93] ++ after.input.remaining ∧
      reader.position = 0 ∧ after.finished = true := by
  obtain ⟨passed, -, element, remaining⟩ := scanElement_scans {} [] reader.input fun _ => rfl
  unfold nextElement at next
  generalize scanElement {} [] reader.input = scanned at next element remaining
  obtain ⟨found, ending, input⟩ := scanned
  have element : found = content passed := element
  rcases ending with (_ | _) | _ | reason
  · cases found <;> cases next
  · cases found with
    | nil =>
      by_cases first : reader.position > 0
      · simp [first] at next
      · simp only [List.isEmpty_nil, Bool.not_true, Bool.false_eq_true, if_false,
          if_neg first] at next
        cases next
        exact ⟨passed, element.symm, remaining, Nat.eq_zero_of_not_pos first, rfl⟩
    | cons byte found => cases next
  · cases next
  · cases next

theorem read_some (started : reader.started = true) (unfinished : reader.finished = false)
    (told : (read document reader).value = .ok (some value)) :
    ∃ passed delimiter, decode document (content passed) = .ok value ∧
      reader.input.remaining = passed ++ (ScanEnd.delimited delimiter).bytes ++
        (read document reader).state.input.remaining ∧
      (read document reader).state.started = true ∧
      (read document reader).state.position = reader.position + 1 ∧
      (read document reader).state.finished = decide (delimiter = .bracket) := by
  rw [read_of_started started unfinished] at told ⊢
  unfold readElement at told ⊢
  rcases next : reader.nextElement with ⟨fault | _ | bytes, after⟩
  · simp [next] at told
  · simp [next] at told
  · obtain ⟨passed, delimiter, rfl, remaining, same, position, finished⟩ := nextElement_some next
    rw [unfinished, Bool.false_or] at finished
    simp only [next] at told ⊢
    cases decoded : decode document (content passed) with
    | error fault => simp [decoded] at told
    | ok found =>
      obtain rfl : found = value := by simpa [decoded] using told
      exact ⟨passed, delimiter, decoded, remaining, same.trans started,
        congrArg (fun position => position + 1) position, finished⟩

theorem read_none (started : reader.started = true) (unfinished : reader.finished = false)
    (told : (read document reader).value = .ok none) :
    ∃ passed, content passed = [] ∧
      reader.input.remaining = passed ++ [93] ++ (read document reader).state.input.remaining ∧
      reader.position = 0 := by
  rw [read_of_started started unfinished] at told ⊢
  unfold readElement at told ⊢
  rcases next : reader.nextElement with ⟨fault | _ | bytes, after⟩
  · simp [next] at told
  · obtain ⟨passed, empty, remaining, position, -⟩ := nextElement_none next
    exact ⟨passed, empty, remaining, position⟩
  · simp only [next] at told
    cases decoded : decode document bytes <;> simp [decoded] at told

/-- Reading begins at a bracket behind gaps, and goes on as if it had begun there. -/
theorem read_opening {item : Option Value} (fresh : reader.started = false)
    (unfinished : reader.finished = false) (told : (read document reader).value = .ok item) :
    ∃ gaps, ∃ opened : ArrayReader, (∀ byte ∈ gaps, isGap byte = true) ∧
      reader.input.remaining = gaps ++ 91 :: opened.input.remaining ∧
      opened.started = true ∧ opened.finished = false ∧ opened.position = reader.position ∧
      read document reader = read document opened := by
  obtain ⟨gaps, leads, remaining⟩ := firstByte_leads reader.input
  rcases began : reader.start with ⟨fault | ⟨⟩, opened⟩
  · rw [read_of_unopened fresh unfinished began] at told
    cases told
  · have same := read_of_opened fresh unfinished began document
    unfold start at began
    rcases found : firstByte reader.input with ⟨reason | _ | byte, after⟩
    · simp [found] at began
    · simp [found] at began
    · rw [found] at remaining
      simp only [found] at began
      by_cases opening : byte = 91
      · rw [if_pos opening] at began
        cases began
        refine ⟨gaps, { reader with input := after, started := true }, leads.blank, ?_, rfl,
          unfinished, rfl, ?_⟩
        · simp [remaining, handedOver, opening]
        · rw [same]
          symm
          apply read_of_started
          · rfl
          · exact unfinished
      · simp [opening] at began

/-! ## All readings -/

theorem reported_eq_ok {reading : Except ArrayFault (Option Value)} {item : Option Value}
    (told : reported reading = .ok item) : reading = .ok item := by
  cases reading with
  | error fault => cases told
  | ok found =>
    cases told
    rfl

theorem take_readings (shape : Shape Value) (reader : ArrayReader) (calls : Nat) :
    ((asReader shape).readings reader).take (calls + 1) =
      reported (read shape reader).value ::
        ((asReader shape).readings (read shape reader).state).take calls := by
  rw [readings_eq]
  rfl

theorem stateAfter_succ (shape : Shape Value) (reader : ArrayReader) (calls : Nat) :
    (asReader shape).stateAfter (calls + 1) reader =
      (asReader shape).stateAfter calls (read shape reader).state := by
  rw [Reader.stateAfter, asReader_next_state]

/-- A reader that has read the closing bracket gives nothing but the end and consumes nothing. -/
theorem finished_told (finished : reader.finished = true)
    (told : ((asReader document).readings reader).take (values.length + 1) =
      values.map (fun value => .ok (some value)) ++ [.ok none]) :
    values = [] ∧ (asReader document).stateAfter (values.length + 1) reader = reader := by
  have same := read_of_finished finished document
  rw [take_readings, same] at told
  cases values with
  | nil =>
    rw [List.length_nil, stateAfter_succ, same]
    exact ⟨rfl, rfl⟩
  | cons value values => cases (List.cons.inj told).1

/-- What has been consumed for these values and the end to be told. -/
theorem exists_elements (started : reader.started = true) (unfinished : reader.finished = false)
    (told : ((asReader document).readings reader).take (values.length + 1) =
      values.map (fun value => .ok (some value)) ++ [.ok none]) :
    ∃ consumed, reader.input.remaining = consumed ++
        ((asReader document).stateAfter (values.length + 1) reader).input.remaining ∧
      (values = [] ∧ reader.position = 0 ∧
          (∃ gaps, (∀ byte ∈ gaps, isGap byte = true) ∧ consumed = gaps ++ [93]) ∨
        ∀ gap : UInt8 → Bool, (∀ byte ∈ consumed, isGap byte = true → gap byte = true) →
          ∃ elements : List (Element gap), elements ≠ [] ∧
            consumed = ArrayDocument.listed elements ++ [93] ∧
            List.Forall₂ (fun element value => decode document element.content = .ok value)
              elements values) := by
  -- By induction on the values; that commas are followed by elements needs the position.
  induction values generalizing reader with
  | nil =>
    rw [take_readings] at told
    obtain ⟨passed, empty, remaining, first⟩ :=
      read_none started unfinished (reported_eq_ok (List.cons.inj told).1)
    refine ⟨passed ++ [93], ?_, .inl ⟨rfl, first, passed, List.dropWhile_eq_nil_iff.mp empty, rfl⟩⟩
    rw [List.length_nil, stateAfter_succ]
    exact remaining
  | cons value values ih =>
    rw [List.length_cons, take_readings, List.map_cons, List.cons_append] at told
    obtain ⟨now, later⟩ := List.cons.inj told
    obtain ⟨passed, delimiter, decoded, remaining, started', position, finished⟩ :=
      read_some started unfinished (reported_eq_ok now)
    rw [List.length_cons, stateAfter_succ]
    cases delimiter with
    | bracket =>
      obtain ⟨rfl, unchanged⟩ := finished_told finished later
      rw [unchanged]
      refine ⟨passed ++ [93], remaining, .inr fun gap known => ?_⟩
      obtain ⟨element, whole, text⟩ := exists_element
        (fun byte member => known byte (List.mem_append_left _ member)) decoded
      refine ⟨[element], nofun, ?_, .cons (text ▸ decoded) .nil⟩
      rw [ArrayDocument.listed_singleton, whole]
    | comma =>
      obtain ⟨consumed, remaining', told⟩ := ih started' finished later
      refine ⟨passed ++ [44] ++ consumed, ?_, .inr fun gap known => ?_⟩
      · rw [remaining, remaining', ← List.append_assoc]
        rfl
      -- Behind a comma there is no closing bracket without an element in front.
      rcases told with ⟨-, first, -⟩ | told
      · omega
      obtain ⟨elements, some, listing, decode⟩ :=
        told gap fun byte member => known byte (List.mem_append_right _ member)
      obtain ⟨element, whole, text⟩ := exists_element (fun byte member =>
        known byte (List.mem_append_left _ (List.mem_append_left _ member))) decoded
      obtain ⟨second, others, rfl⟩ := List.exists_cons_of_ne_nil some
      refine ⟨element :: second :: others, nofun, ?_, .cons (text ▸ decoded) decode⟩
      rw [ArrayDocument.listed_cons_cons, whole, listing]
      simp

/-- The same from the very start: the document is what has been consumed. -/
theorem exists_document (fresh : reader.started = false) (unfinished : reader.finished = false)
    (told : ((asReader document).readings reader).take (values.length + 1) =
      values.map (fun value => .ok (some value)) ++ [.ok none]) :
    ∃ consumed, reader.input.remaining = consumed ++
        ((asReader document).stateAfter (values.length + 1) reader).input.remaining ∧
      ∀ gap : UInt8 → Bool, (∀ byte ∈ consumed, isGap byte = true → gap byte = true) →
        ArrayText gap consumed values := by
  obtain ⟨item, first⟩ : ∃ item, (read document reader).value = .ok item := by
    rw [take_readings] at told
    cases values with
    | nil => exact ⟨none, reported_eq_ok (List.cons.inj told).1⟩
    | cons value values => exact ⟨some value, reported_eq_ok (List.cons.inj told).1⟩
  obtain ⟨lead, opened, blank, remaining, started, unfinished, position, same⟩ :=
    read_opening fresh unfinished first
  rw [take_readings, same, ← take_readings] at told
  obtain ⟨consumed, remaining', text⟩ := exists_elements started unfinished told
  rw [stateAfter_succ, same, ← stateAfter_succ]
  refine ⟨lead ++ 91 :: consumed, by rw [remaining, remaining']; simp, fun gap known => ?_⟩
  have leading : ∀ byte ∈ lead, gap byte = true := fun byte member =>
    known byte (List.mem_append_left _ member) (blank byte member)
  have known : ∀ byte ∈ consumed, isGap byte = true → gap byte = true := fun byte member =>
    known byte (List.mem_append_right _ (List.mem_cons_of_mem _ member))
  rcases text with ⟨rfl, -, gaps, blanks, rfl⟩ | text
  · have trailing : ∀ byte ∈ gaps, gap byte = true := fun byte member =>
      known byte (List.mem_append_left _ member) (blanks byte member)
    refine ⟨⟨lead, gaps, [], leading, trailing⟩, ?_, .nil⟩
    simp [ArrayDocument.bytes, ArrayDocument.unclosed]
  · obtain ⟨elements, -, rfl, decode⟩ := text gap known
    refine ⟨⟨lead, [], elements, leading, List.forall_mem_nil _⟩, ?_, decode⟩
    simp [ArrayDocument.bytes, ArrayDocument.unclosed]

/-- Where values and then the end are told with no error among them, what has been consumed is the
text of an array of these values. Gaps in front of the bracket and of the elements are white space
of JSON but for the form feed. -/
theorem array_of_readings {source : ByteSource} {room : Nat}
    (told : ((asReader document).readings (ofSource source room)).take (values.length + 1) =
      values.map (fun value => .ok (some value)) ++ [.ok none]) :
    ∃ consumed, source.remaining = consumed ++
        ((asReader document).stateAfter (values.length + 1)
          (ofSource source room)).input.remaining ∧
      ArrayText isGap consumed values ∧ (12 ∉ consumed → ArrayText isBlank consumed values) := by
  obtain ⟨consumed, remaining, text⟩ := exists_document rfl rfl told
  refine ⟨consumed, remaining, text isGap fun _ _ gap => gap, fun noFormFeed => ?_⟩
  apply text
  intro byte member gap
  simp only [isGap, Bool.or_eq_true, decide_eq_true_eq] at gap
  rcases gap with blank | rfl
  · exact blank
  · exact absurd member noFormFeed

def mixedValues : List Value := [.nat 1, .string "],", .nat 2]

theorem array_of_mixed :
    ((asReader document).readings (ofSource mixedInPieces 2)).take (mixedValues.length + 1) =
        mixedValues.map (fun value => .ok (some value)) ++ [.ok none] ∧
      ∃ consumed, mixedInPieces.remaining = consumed ++
          ((asReader document).stateAfter (mixedValues.length + 1)
            (ofSource mixedInPieces 2)).input.remaining ∧
        ArrayText isGap consumed mixedValues ∧
        (12 ∉ consumed → ArrayText isBlank consumed mixedValues) := by
  have ahead : (ofSource mixedInPieces 2).input.answers =
      served mixed.bytes ++ₛ (served [93, 120] ++ₛ .const (.ok none)) :=
    BufferedSource.answers_of_pos _ Nat.two_pos
  have told : ((asReader document).readings (ofSource mixedInPieces 2)).take
      (mixedValues.length + 1) =
        mixedValues.map (fun value => .ok (some value)) ++ [.ok none] := by
    rw [readings_of_array (fun _ => isGap_of_isBlank) mixed document rfl rfl rfl ahead]
    rfl
  exact ⟨told, array_of_readings told⟩

/-- A form feed and an empty array. -/
def behindFormFeed : ByteSource := .ofBytes [12, 91, 93]

/-- The end is told with no error before, yet nothing of what was read is an array. -/
theorem form_feed_accepted :
    ((asReader document).readings (ofSource behindFormFeed)).take 1 = [.ok none] ∧
      ¬∃ consumed rest, behindFormFeed.remaining = consumed ++ rest ∧
        ArrayText isBlank consumed [] := by
  constructor
  · let array : ArrayDocument isGap :=
      { lead := [12], opening := [], elements := [],
        leading := List.forall_mem_singleton.mpr rfl, trailing := List.forall_mem_nil _ }
    have ahead : (ofSource behindFormFeed).input.answers =
        served array.bytes ++ₛ .const (.ok none) :=
      BufferedSource.answers_of_pos _ (by decide)
    rw [readings_of_array (fun _ gap => gap) array document rfl rfl rfl ahead]
    rfl
  · rintro ⟨consumed, rest, split, ⟨lead, opening, elements, leading, trailing⟩, rfl, -⟩
    cases lead with
    | nil => cases (List.cons.inj split).1
    | cons byte lead =>
      obtain rfl : 12 = byte := (List.cons.inj split).1
      exact absurd (leading 12 List.mem_cons_self) (by decide)

end ArrayReader

end Batchwork.Json
