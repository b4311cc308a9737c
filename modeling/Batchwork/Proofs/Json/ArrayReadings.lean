import Batchwork.Proofs.Json.Boundaries
import Batchwork.Proofs.Json.Buffering

/-!
# What is read from a document

From a document that a source serves, each reading decodes one element, in order and each on its
own: an element that does not decode is reported under its index and shifts none of the others.
Behind the closing bracket there is nothing to read, whatever follows there. Main statement:
`readings_of_document`.
-/

namespace Batchwork.Json

/-! ## Gaps in front of a value -/

theorem isGap_of_isBlank {byte : UInt8} (blank : isBlank byte = true) : isGap byte = true := by
  simp [isGap, blank]

theorem Scan.isOrdinary_of_isGap {byte : UInt8} (blank : isGap byte = true) :
    isOrdinary byte = true := by
  simp only [isGap, Bool.or_eq_true, decide_eq_true_eq] at blank
  rcases blank with blank | rfl
  · exact isOrdinary_of_isBlank blank
  · rfl

theorem Scan.through?_gaps {gaps : List UInt8} (blank : ∀ byte ∈ gaps, isGap byte = true) :
    Scan.through? {} gaps = some {} :=
  through?_ordinary 0 fun byte member => isOrdinary_of_isGap (blank byte member)

/-- No value begins with a gap. -/
theorem Derives.solid {text : List UInt8} (value : Derives .value text) :
    ∃ first rest, text = first :: rest ∧ isGap first = Bool.false := by
  cases value with
  | null | true | «false» => exact ⟨_, _, rfl, rfl⟩
  | emptyArray | array | emptyObject | object => exact ⟨_, _, rfl, rfl⟩
  | string string =>
    cases string
    exact ⟨_, _, rfl, rfl⟩
  | number number =>
    obtain @⟨sign, whole, fraction, exponent, signed, integer, fractional, scaled⟩ := number
    rcases signed with rfl | rfl
    · cases integer with
      | zero => exact ⟨_, _, rfl, rfl⟩
      | positive digit nonzero digits => exact ⟨_, _, rfl, isGap_digit digit⟩
    · exact ⟨_, _, rfl, rfl⟩

theorem content_gaps {gaps : List UInt8} (blank : ∀ byte ∈ gaps, isGap byte = true)
    (bytes : List UInt8) : content (gaps ++ bytes) = content bytes := by
  induction gaps with
  | nil => rfl
  | cons byte gaps ih =>
    have here := blank byte List.mem_cons_self
    have skipped : content (byte :: (gaps ++ bytes)) = content (gaps ++ bytes) := by
      simp [content, here]
    rw [List.cons_append, skipped, ih fun byte member => blank byte (List.mem_cons_of_mem _ member)]

theorem content_of_gaps {gaps : List UInt8} (blank : ∀ byte ∈ gaps, isGap byte = true) :
    content gaps = [] := by
  have dropped := content_gaps blank []
  rwa [List.append_nil] at dropped

namespace Element

variable {gap : UInt8 → Bool}

theorem content_ne_nil (element : Element gap) : element.content ≠ [] := by
  obtain ⟨first, rest, eq, -⟩ := element.value.solid
  simp [content, eq]

/-- Of an element with gaps around it, those in front are left out. -/
theorem content_bytes (known : ∀ byte, gap byte = true → isGap byte = true) (element : Element gap)
    {gaps : List UInt8} (blank : ∀ byte ∈ gaps, isGap byte = true) :
    Json.content (gaps ++ element.bytes) = element.content := by
  obtain ⟨first, rest, eq, solid⟩ := element.value.solid
  have leading : ∀ byte ∈ element.before, isGap byte = true := fun byte member =>
    known byte (element.leading byte member)
  rw [content_gaps blank, bytes, content_gaps leading]
  simp [Json.content, content, eq, solid]

theorem content_bytes_ne_nil (known : ∀ byte, gap byte = true → isGap byte = true)
    (element : Element gap) {gaps : List UInt8} (blank : ∀ byte ∈ gaps, isGap byte = true) :
    Json.content (gaps ++ element.bytes) ≠ [] := by
  rw [element.content_bytes known blank]
  exact element.content_ne_nil

theorem through (known : ∀ byte, gap byte = true → isGap byte = true) (element : Element gap)
    {gaps : List UInt8} (blank : ∀ byte ∈ gaps, isGap byte = true) :
    Scan.through? {} (gaps ++ element.bytes) = some {} := by
  have before : ∀ byte ∈ element.before, isGap byte = true := fun byte member =>
    known byte (element.leading byte member)
  rw [Scan.through?_append (Scan.through?_gaps blank), bytes,
    Scan.through?_append (Scan.through?_gaps before), content,
    Scan.through?_append (element.value.through 0 nofun)]
  exact Scan.through?_blank 0 element.trailing

/-- The scan of an element stops at the delimiter behind it. -/
theorem scans (known : ∀ byte, gap byte = true → isGap byte = true) (element : Element gap)
    {gaps : List UInt8} (blank : ∀ byte ∈ gaps, isGap byte = true) {byte : UInt8}
    {delimiter : Delimiter} (ends : ({} : Scan).delimiter? byte = some delimiter)
    (rest : Stream' Answer) :
    Scans {} (served (gaps ++ element.bytes) ++ₛ .cons (.ok (some byte)) rest)
      (gaps ++ element.bytes) (.delimited delimiter) rest := by
  have stops : Scans {} (.cons (.ok (some byte)) rest) [] (.delimited delimiter) rest :=
    .delimited rfl ends
  have scans := Scans.through (element.through known blank) stops
  rwa [List.append_nil] at scans

end Element

namespace ArrayDocument

variable {gap : UInt8 → Bool}

/-- The search of the first byte finds the opening bracket. -/
theorem leads (known : ∀ byte, gap byte = true → isGap byte = true) (document : ArrayDocument gap)
    (inner : List UInt8) (rest : Stream' Answer) :
    Leads (served (document.lead ++ 91 :: inner) ++ₛ rest) document.lead (.ok (some 91))
      (served inner ++ₛ rest) := by
  rw [served_append, Stream'.append_append_stream]
  apply Leads.of_gaps
  · exact fun byte member => known byte (document.leading byte member)
  · rintro byte ⟨⟩
    rfl

end ArrayDocument

/-! ## One reading -/

namespace ArrayReader

variable {α : Type} {shape : Shape α} {reader : ArrayReader} {position : Nat}
  {answers rest : Stream' Answer} {bytes : List UInt8}

/-- The reading of an element that stands at this index of the array. -/
def elementReading (shape : Shape α) (index : Nat) (content : List UInt8) : Result (Option α) :=
  match decode shape content with
  | .ok value => .ok (some value)
  | .error fault => .error (.itemReader s!"element {index}: {fault.message}")

theorem read_of_finished (finished : reader.finished = true) (shape : Shape α) :
    read shape reader = ⟨.ok none, [], reader⟩ := by
  simp only [read, finished, if_true]

theorem read_of_started (started : reader.started = true) (unfinished : reader.finished = false)
    (shape : Shape α) : read shape reader = readElement shape reader := by
  simp only [read, unfinished, started, Bool.false_eq_true, if_false, if_true]

theorem read_of_opened {opened : ArrayReader} (fresh : reader.started = false)
    (unfinished : reader.finished = false) (began : reader.start = (.ok (), opened))
    (shape : Shape α) : read shape reader = readElement shape opened := by
  simp only [read, unfinished, fresh, began, Bool.false_eq_true, if_false]

theorem read_of_unopened {stopped : ArrayReader} {fault : ArrayFault}
    (fresh : reader.started = false) (unfinished : reader.finished = false)
    (began : reader.start = (.error fault, stopped))
    (shape : Shape α) : read shape reader = ⟨.error fault, [], stopped⟩ := by
  simp only [read, unfinished, fresh, began, Bool.false_eq_true, if_false]

/-- A reader in front of an element, with so many elements behind it and these answers ahead. -/
structure Standing (position : Nat) (answers : Stream' Answer) (reader : ArrayReader) : Prop where
  started : reader.started = true
  unfinished : reader.finished = false
  position : reader.position = position
  answers : reader.input.answers = answers

theorem readElement_of_some {after : ArrayReader}
    (next : reader.nextElement = (.ok (some bytes), after)) (shape : Shape α) :
    reported (readElement shape reader).value = elementReading shape after.position bytes ∧
      (readElement shape reader).state = { after with position := after.position + 1 } := by
  simp only [readElement, next, elementReading]
  cases decode shape bytes <;> exact ⟨rfl, rfl⟩

theorem readElement_of_none {after : ArrayReader} (next : reader.nextElement = (.ok none, after))
    (shape : Shape α) :
    readElement shape reader = ⟨.ok none, [.arrayEnded after.position], after⟩ := by
  simp only [readElement, next]

theorem readElement_of_error {after : ArrayReader} {fault : ArrayFault}
    (next : reader.nextElement = (.error fault, after)) (shape : Shape α) :
    readElement shape reader = ⟨.error fault, [], after⟩ := by
  simp only [readElement, next]

namespace Standing

theorem read_eq (standing : reader.Standing position answers) (shape : Shape α) :
    read shape reader = readElement shape reader :=
  read_of_started standing.started standing.unfinished shape

/-- The reading of an element behind which a comma stands. -/
theorem comma (standing : reader.Standing position answers)
    (scans : Scans {} answers bytes (.delimited .comma) rest) (nonempty : content bytes ≠ [])
    (shape : Shape α) :
    reported (read shape reader).value = elementReading shape position (content bytes) ∧
      (read shape reader).state.Standing (position + 1) rest := by
  obtain ⟨after, scanned, left, -⟩ := scanElement_of_scans (standing.answers ▸ scans)
  have next :
      reader.nextElement = (.ok (some (content bytes)), { reader with input := after }) := by
    simp [nextElement, scanned, nonempty]
  obtain ⟨value, state⟩ := readElement_of_some next shape
  rw [standing.read_eq, value, state, standing.position]
  exact ⟨rfl, standing.started, standing.unfinished, rfl, left⟩

/-- The reading of an element behind which the closing bracket stands. -/
theorem bracket (standing : reader.Standing position answers)
    (scans : Scans {} answers bytes (.delimited .bracket) rest) (nonempty : content bytes ≠ [])
    (shape : Shape α) :
    reported (read shape reader).value = elementReading shape position (content bytes) ∧
      (read shape reader).state.finished = true := by
  obtain ⟨after, scanned, -⟩ := scanElement_of_scans (standing.answers ▸ scans)
  have next : reader.nextElement =
      (.ok (some (content bytes)), { reader with input := after, finished := true }) := by
    simp [nextElement, scanned, nonempty]
  obtain ⟨value, state⟩ := readElement_of_some next shape
  rw [standing.read_eq, value, state, standing.position]
  exact ⟨rfl, rfl⟩

/-- The reading of an element of a document, with a comma behind it. -/
theorem element_comma {gap : UInt8 → Bool} (known : ∀ byte, gap byte = true → isGap byte = true)
    (element : Element gap) {gaps : List UInt8} (blank : ∀ byte ∈ gaps, isGap byte = true)
    (standing : reader.Standing position
      (served (gaps ++ element.bytes) ++ₛ .cons (.ok (some 44)) rest)) (shape : Shape α) :
    reported (read shape reader).value = elementReading shape position element.content ∧
      (read shape reader).state.Standing (position + 1) rest := by
  have ends : ({} : Scan).delimiter? 44 = some .comma := rfl
  have scans := element.scans known blank ends rest
  rw [← element.content_bytes known blank]
  exact standing.comma scans (element.content_bytes_ne_nil known blank) shape

/-- The reading of the last element of a document. -/
theorem element_bracket {gap : UInt8 → Bool} (known : ∀ byte, gap byte = true → isGap byte = true)
    (element : Element gap) {gaps : List UInt8} (blank : ∀ byte ∈ gaps, isGap byte = true)
    (standing : reader.Standing position
      (served (gaps ++ element.bytes) ++ₛ .cons (.ok (some 93)) rest)) (shape : Shape α) :
    reported (read shape reader).value = elementReading shape position element.content ∧
      (read shape reader).state.finished = true := by
  have ends : ({} : Scan).delimiter? 93 = some .bracket := rfl
  have scans := element.scans known blank ends rest
  rw [← element.content_bytes known blank]
  exact standing.bracket scans (element.content_bytes_ne_nil known blank) shape

/-- The reading at the closing bracket of an empty array. -/
theorem closed (standing : reader.Standing 0 answers)
    (scans : Scans {} answers bytes (.delimited .bracket) rest) (empty : content bytes = [])
    (shape : Shape α) :
    reported (read shape reader).value = .ok none ∧ (read shape reader).state.finished = true := by
  obtain ⟨after, scanned, -⟩ := scanElement_of_scans (standing.answers ▸ scans)
  have next :
      reader.nextElement = (.ok none, { reader with input := after, finished := true }) := by
    simp [nextElement, scanned, empty, standing.position]
  rw [standing.read_eq, readElement_of_none next shape]
  exact ⟨rfl, rfl⟩

/-- The reading of an element that the input does not bring to its end. -/
theorem cutShort (standing : reader.Standing position answers)
    (scans : Scans {} answers bytes .endOfInput rest) (shape : Shape α) :
    (read shape reader).value = .error .unexpectedEnd ∧
      (read shape reader).state.Standing position rest := by
  obtain ⟨after, scanned, left, -⟩ := scanElement_of_scans (standing.answers ▸ scans)
  have next : reader.nextElement = (.error .unexpectedEnd, { reader with input := after }) := by
    simp [nextElement, scanned]
  rw [standing.read_eq, readElement_of_error next shape]
  exact ⟨rfl, standing.started, standing.unfinished, standing.position, left⟩

end Standing

/-! ## All readings -/

/-- An invariant that settles a reading settles all of them. -/
theorem readings_const (Holds : ArrayReader → Prop) {reading : Result (Option α)}
    (step : ∀ reader, Holds reader →
      reported (read shape reader).value = reading ∧ Holds (read shape reader).state)
    (holds : Holds reader) : (asReader shape).readings reader = .const reading := by
  refine corec_const Holds (fun reader holds => ?_) holds
  rw [asReader_next_value, asReader_next_state]
  exact step reader holds

theorem readings_of_finished (finished : reader.finished = true) (shape : Shape α) :
    (asReader shape).readings reader = .const (.ok none) := by
  refine readings_const (fun reader => reader.finished = true) (fun reader finished => ?_) finished
  rw [read_of_finished finished]
  exact ⟨rfl, finished⟩

/-- The opening bracket alone is not worth a reading. -/
theorem readings_of_opening {gaps : List UInt8} (fresh : reader.started = false)
    (unfinished : reader.finished = false)
    (leads : Leads reader.input.answers gaps (.ok (some 91)) rest) (shape : Shape α) :
    ∃ opened : ArrayReader, opened.Standing reader.position rest ∧
      (asReader shape).readings reader = (asReader shape).readings opened := by
  obtain ⟨after, found, left, -⟩ := firstByte_of_leads leads
  have started : reader.start = (.ok (), { reader with input := after, started := true }) := by
    simp only [start, found, if_true]
  have standing : Standing reader.position rest { reader with input := after, started := true } :=
    ⟨rfl, unfinished, rfl, left⟩
  have same : read shape reader = read shape { reader with input := after, started := true } := by
    rw [standing.read_eq, read_of_opened fresh unfinished started]
  refine ⟨_, standing, ?_⟩
  rw [readings_eq shape reader, same, ← readings_eq]

/-- The readings of a reader in front of these elements, the first of them behind some gaps. -/
theorem Standing.readings {gap : UInt8 → Bool} (known : ∀ byte, gap byte = true → isGap byte = true)
    (shape : Shape α) (rest : Stream' Answer) (element : Element gap) (later : List (Element gap))
    {gaps : List UInt8} (blank : ∀ byte ∈ gaps, isGap byte = true)
    (standing : reader.Standing position
      (served (gaps ++ ArrayDocument.listed (element :: later) ++ [93]) ++ₛ rest)) :
    (asReader shape).readings reader =
      (element :: later).mapIdx
          (fun index element => elementReading shape (position + index) element.content) ++ₛ
        .const (.ok none) := by
  induction later generalizing element gaps position reader with
  | nil =>
    rw [ArrayDocument.listed_singleton, served_append, Stream'.append_append_stream] at standing
    obtain ⟨value, finished⟩ := standing.element_bracket known element blank shape
    rw [readings_eq, value, readings_of_finished finished]
    rfl
  | cons second later ih =>
    have ahead : gaps ++ ArrayDocument.listed (element :: second :: later) ++ [93] =
        gaps ++ element.bytes ++ 44 :: ([] ++ ArrayDocument.listed (second :: later) ++ [93]) := by
      simp [ArrayDocument.listed_cons_cons]
    rw [ahead, served_append, Stream'.append_append_stream] at standing
    obtain ⟨value, behind⟩ := standing.element_comma known element blank shape
    -- The others stand at the next index, with no gaps in front that are not their own.
    rw [readings_eq, value, ih second (List.forall_mem_nil _) behind,
      List.mapIdx_cons (l := second :: later)]
    simp only [Nat.add_assoc, Nat.add_comm 1]
    rfl

/-- The readings of a reader in front of a document, whose gaps are such as the reader skips. -/
theorem readings_of_array {gap : UInt8 → Bool} (known : ∀ byte, gap byte = true → isGap byte = true)
    (document : ArrayDocument gap) (shape : Shape α) (fresh : reader.started = false)
    (unfinished : reader.finished = false) (first : reader.position = 0)
    (ahead : reader.input.answers = served document.bytes ++ₛ rest) :
    (asReader shape).readings reader =
      document.elements.mapIdx (fun index element => elementReading shape index element.content) ++ₛ
        .const (.ok none) := by
  have leads := document.leads known
    (document.opening ++ ArrayDocument.listed document.elements ++ [93]) rest
  rw [ArrayDocument.bytes, ArrayDocument.unclosed, List.append_assoc, List.cons_append] at ahead
  obtain ⟨opened, standing, same⟩ := readings_of_opening fresh unfinished (ahead ▸ leads) shape
  rw [same]
  rw [first] at standing
  obtain ⟨lead, opening, elements, leading, trailing⟩ := document
  have blank : ∀ byte ∈ opening, isGap byte = true := fun byte member =>
    known byte (trailing byte member)
  cases elements with
  | nil =>
    have stops : Scans {} (served [93] ++ₛ rest) [] (.delimited .bracket) rest := .delimited rfl rfl
    have scans := Scans.through (Scan.through?_gaps blank) stops
    rw [← Stream'.append_append_stream, ← served_append, List.append_nil] at scans
    simp only [ArrayDocument.listed_nil, List.append_nil] at standing
    obtain ⟨value, finished⟩ := standing.closed scans (content_of_gaps blank) shape
    rw [readings_eq, value, readings_of_finished finished]
    exact (Stream'.const_eq _).symm
  | cons element later =>
    have readings := standing.readings known shape rest element later blank
    simpa only [Nat.zero_add] using readings

/-- From a buffer with room for a byte, in front of a source that serves an array and then whatever
else, the elements are read one by one, each decoded on its own, and behind the last of them there
is nothing ever after. -/
theorem readings_of_document (shape : Shape α) (document : ArrayDocument isBlank)
    {source : ByteSource} {rest : Stream' Answer}
    (serves : source.answers = served document.bytes ++ₛ rest) {room : Nat} (pos : 0 < room) :
    (asReader shape).readings (ofSource source room) =
      document.elements.mapIdx (fun index element => elementReading shape index element.content) ++ₛ
        .const (.ok none) := by
  have ahead : (ofSource source room).input.answers = served document.bytes ++ₛ rest := by
    rw [BufferedSource.answers_of_pos _ pos]
    exact serves
  exact readings_of_array (fun _ => isGap_of_isBlank) document shape rfl rfl rfl ahead

/-- A text of one digit. -/
theorem derives_digit {byte : UInt8} (digit : isDigit byte = true) (nonzero : byte ≠ 48) :
    Derives .value [byte] := by
  have whole : IntegerText [byte] := .positive digit nonzero (List.forall_mem_nil _)
  exact .number (.mk (.inl rfl) whole .absent .absent)

/-- The text `"],"`. -/
theorem derives_delimiters : Derives .value [34, 93, 44, 34] := by
  have comma : CharactersText [44] :=
    .cons (.plain (c := ',') (by decide) (by decide) (by decide)) .nil
  have both : CharactersText [93, 44] :=
    .cons (.plain (c := ']') (by decide) (by decide) (by decide)) comma
  exact .string (.mk both)

/-- ` [1, "],", 2 ]`, of which not all elements are numbers. -/
def mixed : ArrayDocument isBlank where
  lead := [32]
  opening := []
  elements := [
    ⟨[], [49], [], List.forall_mem_nil _, derives_digit rfl (by decide), List.forall_mem_nil _⟩,
    ⟨[32], [34, 93, 44, 34], [], List.forall_mem_singleton.mpr rfl, derives_delimiters,
      List.forall_mem_nil _⟩,
    ⟨[32], [50], [32], List.forall_mem_singleton.mpr rfl, derives_digit rfl (by decide),
      List.forall_mem_singleton.mpr rfl⟩]
  leading := List.forall_mem_singleton.mpr rfl
  trailing := List.forall_mem_nil _

/-- The document in three pieces, with more behind it. -/
def mixedInPieces : ByteSource :=
  ⟨[.bytes [32, 91, 49, 44, 32, 34, 93], .bytes [44, 34, 44], .bytes [32, 50, 32, 93, 93, 120]],
    none⟩

theorem readings_of_mixed :
    mixedInPieces.answers = served mixed.bytes ++ₛ (served [93, 120] ++ₛ .const (.ok none)) ∧
      0 < 2 ∧
      (asReader (Shape.natural "u8" 8)).readings (ofSource mixedInPieces 2) =
        [.ok (some 1),
          .error (.itemReader
            "element 1: invalid type: string \"],\", expected u8 at line 1 column 4"),
          .ok (some 2)] ++ₛ .const (.ok none) := by
  have serves : mixedInPieces.answers =
      served mixed.bytes ++ₛ (served [93, 120] ++ₛ .const (.ok none)) := rfl
  have readings := readings_of_document (Shape.natural "u8" 8) mixed serves Nat.two_pos
  refine ⟨serves, Nat.two_pos, ?_⟩
  rw [readings]
  rfl

end ArrayReader

end Batchwork.Json
