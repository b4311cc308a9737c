import Batchwork.Proofs.Json.Boundaries
import Mathlib.Data.List.Induction
import Mathlib.Data.List.TakeWhile

/-!
# Where the scan of an element stops

On whatever bytes, well-formed or not, the scan of an element loses nothing: it consumes gaps, the
bytes that it gathers, and the delimiter at which it stops. The delimiter is the first comma or
closing bracket at the top of the bytes, where no string is open and every bracket opened outside of
strings has been matched. What is at the top is said here without a scan: strings are read off the
quotes and the backslashes in front of them, and brackets are matched in pairs of any kind. Main
statement: `nextElement_lossless`.
-/

namespace Batchwork.Json

/-! ## Strings and brackets -/

/-- The length of the run of backslashes at the end of a text. -/
def backslashes (text : List UInt8) : Nat := (text.reverse.takeWhile (· == 92)).length

/-- A string with these bytes behind its opening quote is still open: all quotes among them are
escaped, by an odd run of backslashes. -/
def StaysOpen (body : List UInt8) : Prop :=
  ∀ front later, body = front ++ 34 :: later → backslashes front % 2 = 1

/-- The bytes of a text that stand outside of its strings, all of which are closed. A string ends
with the next quote that is not escaped. -/
inductive Unquoted : List UInt8 → List UInt8 → Prop
  | nil : Unquoted [] []
  | byte {byte : UInt8} {text outer : List UInt8} (noQuote : byte ≠ 34)
      (rest : Unquoted text outer) : Unquoted (byte :: text) (byte :: outer)
  | string {body text outer : List UInt8} (stays : StaysOpen body)
      (closes : backslashes body % 2 = 0) (rest : Unquoted text outer) :
      Unquoted (34 :: (body ++ 34 :: text)) outer

def isOpening (byte : UInt8) : Bool := byte = 123 || byte = 91

def isClosing (byte : UInt8) : Bool := byte = 125 || byte = 93

/-- Brackets come in pairs, of whatever kinds, and none is left over. -/
inductive Balanced : List UInt8 → Prop
  | nil : Balanced []
  | byte {byte : UInt8} {text : List UInt8} (opens : isOpening byte = false)
      (closes : isClosing byte = false) (rest : Balanced text) : Balanced (byte :: text)
  | pair {opening closing : UInt8} {inner text : List UInt8} (opens : isOpening opening = true)
      (closes : isClosing closing = true) (within : Balanced inner) (rest : Balanced text) :
      Balanced (opening :: (inner ++ closing :: text))

/-- Every bracket that is opened is matched by a later one. A closing bracket counts for nothing
where none is open. -/
inductive Matched : List UInt8 → Prop
  | nil : Matched []
  | byte {byte : UInt8} {text : List UInt8} (opens : isOpening byte = false)
      (rest : Matched text) : Matched (byte :: text)
  | pair {opening closing : UInt8} {inner text : List UInt8} (opens : isOpening opening = true)
      (closes : isClosing closing = true) (within : Balanced inner) (rest : Matched text) :
      Matched (opening :: (inner ++ closing :: text))

/-- Behind this text no string is open, and no bracket that was opened outside of strings. -/
def AtTop (text : List UInt8) : Prop := ∃ outer, Unquoted text outer ∧ Matched outer

/-! ## Brackets by their depth -/

/-- The number of brackets open behind one more byte. -/
def deepen (depth : Nat) (byte : UInt8) : Nat :=
  if isOpening byte then depth + 1 else if isClosing byte then depth - 1 else depth

/-- The number of brackets open behind a text. -/
def depthBehind (depth : Nat) (text : List UInt8) : Nat := text.foldl deepen depth

@[simp] theorem depthBehind_cons (depth : Nat) (byte : UInt8) (text : List UInt8) :
    depthBehind depth (byte :: text) = depthBehind (deepen depth byte) text := rfl

@[simp] theorem depthBehind_append (depth : Nat) (first second : List UInt8) :
    depthBehind depth (first ++ second) = depthBehind (depthBehind depth first) second :=
  List.foldl_append

theorem deepen_opening {byte : UInt8} (opens : isOpening byte = true) (depth : Nat) :
    deepen depth byte = depth + 1 := if_pos opens

theorem isOpening_of_isClosing {byte : UInt8} (closes : isClosing byte = true) :
    isOpening byte = false := by
  simp only [isClosing, Bool.or_eq_true, decide_eq_true_eq] at closes
  rcases closes with rfl | rfl <;> rfl

theorem deepen_closing {byte : UInt8} (closes : isClosing byte = true) (depth : Nat) :
    deepen depth byte = depth - 1 := by
  simp [deepen, closes, isOpening_of_isClosing closes]

theorem deepen_other {byte : UInt8} (opens : isOpening byte = false)
    (closes : isClosing byte = false) (depth : Nat) : deepen depth byte = depth := by
  simp [deepen, opens, closes]

/-- Where no bracket is open, what opens none changes nothing. -/
theorem deepen_zero {byte : UInt8} (opens : isOpening byte = false) : deepen 0 byte = 0 := by
  simp [deepen, opens]

theorem Balanced.depthBehind {text : List UInt8} (balanced : Balanced text) (depth : Nat) :
    depthBehind depth text = depth := by
  induction balanced generalizing depth with
  | nil => rfl
  | byte opens closes rest ih => rw [depthBehind_cons, deepen_other opens closes, ih]
  | pair opens closes within rest ihWithin ihRest =>
    rw [depthBehind_cons, deepen_opening opens, depthBehind_append, ihWithin, depthBehind_cons,
      deepen_closing closes, Nat.add_sub_cancel, ihRest]

theorem Matched.depthBehind {text : List UInt8} (matched : Matched text) :
    depthBehind 0 text = 0 := by
  induction matched with
  | nil => rfl
  | byte opens rest ih => rw [depthBehind_cons, deepen_zero opens, ih]
  | pair opens closes within rest ih =>
    rw [depthBehind_cons, deepen_opening opens, depthBehind_append, within.depthBehind,
      depthBehind_cons, deepen_closing closes, Nat.add_sub_cancel, ih]

/-- A text behind which fewer brackets are open than before it closes one of those. Up to there it
is balanced. -/
theorem exists_closing {depth : Nat} (text : List UInt8)
    (fewer : depthBehind (depth + 1) text ≤ depth) :
    ∃ inner closing rest, text = inner ++ closing :: rest ∧ Balanced inner ∧
      isClosing closing = true ∧ depthBehind (depth + 1) text = depthBehind depth rest := by
  match text with
  | [] => exact absurd fewer (Nat.not_succ_le_self depth)
  | byte :: text =>
    by_cases opens : isOpening byte = true
    · -- The bracket opened here is closed first, and the one asked for behind that.
      rw [depthBehind_cons, deepen_opening opens] at fewer ⊢
      obtain ⟨inner, closing, rest, split, within, closes, same⟩ :=
        exists_closing text (Nat.le_succ_of_le fewer)
      have shorter : rest.length < text.length := by
        rw [split, List.length_append, List.length_cons]
        omega
      rw [same] at fewer ⊢
      obtain ⟨inner', closing', rest', split', within', closes', same'⟩ :=
        exists_closing rest fewer
      refine ⟨byte :: (inner ++ closing :: inner'), closing', rest', ?_, ?_, closes', same'⟩
      · rw [split, split', List.cons_append, List.append_assoc, List.cons_append]
      · exact .pair opens closes within within'
    · simp only [Bool.not_eq_true] at opens
      by_cases closes : isClosing byte = true
      · exact ⟨[], byte, text, rfl, .nil, closes, by
          rw [depthBehind_cons, deepen_closing closes, Nat.add_sub_cancel]⟩
      · simp only [Bool.not_eq_true] at closes
        rw [depthBehind_cons, deepen_other opens closes] at fewer ⊢
        obtain ⟨inner, closing, rest, split, within, closes', same⟩ := exists_closing text fewer
        exact ⟨byte :: inner, closing, rest, congrArg (byte :: ·) split,
          .byte opens closes within, closes', same⟩
termination_by text.length
decreasing_by all_goals simp only [List.length_cons]; omega

theorem matched_of_depthBehind (text : List UInt8) (none : depthBehind 0 text = 0) :
    Matched text := by
  match text with
  | [] => exact .nil
  | byte :: text =>
    by_cases opens : isOpening byte = true
    · -- At the end no bracket is open, so this one is closed on the way.
      rw [depthBehind_cons, deepen_opening opens] at none
      obtain ⟨inner, closing, rest, split, within, closes, same⟩ :=
        exists_closing text (Nat.le_of_eq none)
      have shorter : rest.length < text.length := by
        rw [split, List.length_append, List.length_cons]
        omega
      rw [split]
      exact .pair opens closes within (matched_of_depthBehind rest (same.symm.trans none))
    · simp only [Bool.not_eq_true] at opens
      rw [depthBehind_cons, deepen_zero opens] at none
      exact .byte opens (matched_of_depthBehind text none)
termination_by text.length
decreasing_by all_goals simp only [List.length_cons]; omega

theorem matched_iff {text : List UInt8} : Matched text ↔ depthBehind 0 text = 0 :=
  ⟨Matched.depthBehind, matched_of_depthBehind text⟩

/-! ## Strings by their quotes -/

theorem backslashes_append_backslash (text : List UInt8) :
    backslashes (text ++ [92]) = backslashes text + 1 := by
  simp [backslashes]

theorem backslashes_append_other (text : List UInt8) {byte : UInt8} (other : byte ≠ 92) :
    backslashes (text ++ [byte]) = 0 := by
  simp [backslashes, other]

theorem StaysOpen.nil : StaysOpen [] := by
  intro front later split
  simp at split

theorem StaysOpen.of_append {first second : List UInt8} (stays : StaysOpen (first ++ second)) :
    StaysOpen first := by
  rintro front later rfl
  exact stays front (later ++ second) (by simp)

theorem StaysOpen.append {text : List UInt8} {byte : UInt8} (stays : StaysOpen text)
    (escaped : byte = 34 → backslashes text % 2 = 1) : StaysOpen (text ++ [byte]) := by
  intro front later split
  rcases List.append_eq_append_iff.mp split with ⟨middle, rfl, rest⟩ | ⟨middle, rfl, rest⟩
  · -- The quote is the last byte.
    rcases middle with _ | ⟨other, middle⟩
    · obtain ⟨rfl, -⟩ := List.cons.inj rest
      simpa using escaped rfl
    · simp at rest
  · rcases middle with _ | ⟨quote, middle⟩
    · obtain ⟨rfl, -⟩ := List.cons.inj rest
      simpa using escaped rfl
    · obtain ⟨rfl, -⟩ := List.cons.inj rest
      exact stays front middle rfl

/-- A string that was opened is closed somewhere, or stays open to the end. -/
theorem closed_or_staysOpen (text : List UInt8) :
    (∃ body later, text = body ++ 34 :: later ∧ StaysOpen body ∧ backslashes body % 2 = 0) ∨
      StaysOpen text := by
  induction text using List.reverseRecOn with
  | nil => exact .inr .nil
  | append_singleton text byte ih =>
    rcases ih with ⟨body, later, rfl, stays, closes⟩ | stays
    · exact .inl ⟨body, later ++ [byte], by simp, stays, closes⟩
    · -- The last byte closes the string if it is a quote that is not escaped.
      by_cases closes : byte = 34 ∧ backslashes text % 2 = 0
      · obtain ⟨rfl, even⟩ := closes
        exact .inl ⟨text, [], rfl, stays, even⟩
      · refine .inr (stays.append fun quote => ?_)
        have odd : backslashes text % 2 ≠ 0 := fun even => closes ⟨quote, even⟩
        omega

/-! ## The state of a scan -/

namespace Scan

/-- The state behind these bytes. -/
def behind (scan : Scan) (text : List UInt8) : Scan := text.foldl step scan

@[simp] theorem behind_nil (scan : Scan) : scan.behind [] = scan := rfl

@[simp] theorem behind_cons (scan : Scan) (byte : UInt8) (text : List UInt8) :
    scan.behind (byte :: text) = (scan.step byte).behind text := rfl

@[simp] theorem behind_append (scan : Scan) (first second : List UInt8) :
    scan.behind (first ++ second) = (scan.behind first).behind second := List.foldl_append

theorem step_outside (depth : Nat) {byte : UInt8} (noQuote : byte ≠ 34) :
    (outside depth).step byte = outside (deepen depth byte) := by
  simp only [step, noQuote, Bool.false_eq_true, if_false]
  change (if isOpening byte then _ else if isClosing byte then _ else _) = _
  unfold deepen
  split
  · rfl
  · split <;> rfl

/-- Within a string the flag for an escape says whether the run of backslashes read last is odd. -/
theorem behind_staysOpen (depth : Nat) {body : List UInt8} (stays : StaysOpen body) :
    (inside depth).behind body = ⟨depth, true, decide (backslashes body % 2 = 1)⟩ := by
  induction body using List.reverseRecOn with
  | nil => rfl
  | append_singleton body byte ih =>
    rw [behind_append, ih stays.of_append, behind_cons, behind_nil]
    by_cases odd : backslashes body % 2 = 1
    · -- Whatever byte this is, it is escaped and escapes nothing.
      have even : backslashes (body ++ [byte]) % 2 = 0 := by
        by_cases backslash : byte = 92
        · rw [backslash, backslashes_append_backslash]
          omega
        · rw [backslashes_append_other body backslash]
      simp [step, odd, even]
    · by_cases backslash : byte = 92
      · have next : backslashes (body ++ [byte]) % 2 = 1 := by
          rw [backslash, backslashes_append_backslash]
          omega
        rw [next]
        simp [step, odd, backslash]
      · have noQuote : byte ≠ 34 := by
          rintro rfl
          exact odd (stays body [] rfl)
        simp [step, odd, backslash, noQuote, backslashes_append_other body backslash]

/-- A text whose strings are closed leads from outside of strings to outside of strings. -/
theorem behind_unquoted {text outer : List UInt8} (unquoted : Unquoted text outer) (depth : Nat) :
    (outside depth).behind text = outside (depthBehind depth outer) := by
  induction unquoted generalizing depth with
  | nil => rfl
  | byte noQuote rest ih => rw [behind_cons, step_outside depth noQuote, ih, depthBehind_cons]
  | string stays closes rest ih =>
    have opened : (outside depth).step 34 = inside depth := rfl
    rw [behind_cons, opened, behind_append, behind_staysOpen depth stays, behind_cons]
    simp only [closes]
    exact ih depth

theorem exists_unquoted (depth : Nat) (text : List UInt8)
    (closed : ((outside depth).behind text).inString = false) :
    ∃ outer, Unquoted text outer := by
  match text with
  | [] => exact ⟨[], .nil⟩
  | byte :: text =>
    by_cases quote : byte = 34
    · -- A quote opens a string. Were it not closed, the scan would end within it.
      subst quote
      have opened : (outside depth).step 34 = inside depth := rfl
      rw [behind_cons, opened] at closed
      rcases closed_or_staysOpen text with ⟨body, later, split, stays, closes⟩ | stays
      · have shorter : later.length < text.length := by
          rw [split, List.length_append, List.length_cons]
          omega
        rw [split, behind_append, behind_staysOpen depth stays, behind_cons] at closed
        simp only [closes] at closed
        obtain ⟨outer, rest⟩ := exists_unquoted depth later closed
        rw [split]
        exact ⟨outer, .string stays closes rest⟩
      · rw [behind_staysOpen depth stays] at closed
        cases closed
    · rw [behind_cons, step_outside depth quote] at closed
      obtain ⟨outer, rest⟩ := exists_unquoted _ text closed
      exact ⟨byte :: outer, .byte quote rest⟩
termination_by text.length
decreasing_by all_goals simp only [List.length_cons]; omega

end Scan

/-- A scan is at the top of what it has read if it counts no open bracket and is in no string. -/
theorem atTop_iff {text : List UInt8} :
    AtTop text ↔ (Scan.behind {} text).inString = false ∧ (Scan.behind {} text).depth = 0 := by
  constructor
  · rintro ⟨outer, unquoted, matched⟩
    have state := Scan.behind_unquoted unquoted 0
    rw [matched_iff.mp matched] at state
    exact ⟨congrArg Scan.inString state, congrArg Scan.depth state⟩
  · rintro ⟨closed, none⟩
    obtain ⟨outer, unquoted⟩ := Scan.exists_unquoted 0 text closed
    have state := Scan.behind_unquoted unquoted 0
    exact ⟨outer, unquoted, matched_iff.mpr ((congrArg Scan.depth state).symm.trans none)⟩

/-- A string ends behind two backslashes, but not behind one. -/
example : AtTop [34, 92, 92, 34] ∧ ¬AtTop [34, 92, 34] := by
  simp only [atTop_iff]
  decide

/-! ## What is consumed -/

theorem Scan.delimiter?_ne_none {scan : Scan} {byte : UInt8} :
    scan.delimiter? byte ≠ none ↔
      (byte = 44 ∨ byte = 93) ∧ scan.inString = false ∧ scan.depth = 0 := by
  obtain ⟨depth, inString, escaped⟩ := scan
  cases inString with
  | true => simp [delimiter?]
  | false =>
    by_cases top : depth = 0
    · by_cases comma : byte = 44 <;> by_cases bracket : byte = 93 <;>
        simp [delimiter?, top, comma, bracket]
    · simp [delimiter?, top]

/-- A scan passes gaps as if they were not there. -/
theorem Scan.behind_gaps (depth : Nat) {gaps : List UInt8}
    (blank : ∀ byte ∈ gaps, isGap byte = true) : (outside depth).behind gaps = outside depth := by
  induction gaps with
  | nil => rfl
  | cons byte gaps ih =>
    obtain ⟨first, others⟩ := List.forall_mem_cons.mp blank
    rw [behind_cons, step_gap rfl first, ih others]

/-- The answer at which a scan stops. -/
def ScanEnd.answer : ScanEnd → Answer
  | .delimited .comma => .ok (some 44)
  | .delimited .bracket => .ok (some 93)
  | .endOfInput => .ok none
  | .unreadable reason => .error reason

namespace Scans

variable {scan : Scan} {answers rest : Stream' Answer} {bytes : List UInt8} {ending : ScanEnd}

/-- Between the first answer that a scan is given and those that it leaves there are the bytes that
it passes and the answer that stops it. -/
theorem answers_eq (scans : Scans scan answers bytes ending rest) :
    answers = served bytes ++ₛ .cons ending.answer rest := by
  induction scans with
  | @delimited scan answers byte delimiter head ends =>
    have same := Scan.delimiter?_eq_some ends
    rw [← Stream'.eta answers, head]
    cases delimiter <;> cases same <;> rfl
  | @endOfInput scan answers head | @unreadable scan answers reason head =>
    rw [← Stream'.eta answers, head]
    rfl
  | @passed scan answers rest byte bytes ending head inside later ih =>
    rw [← Stream'.eta answers, head, ih]
    rfl

/-- A scan passes no byte that is a delimiter where it stands, and stops at one that is. -/
theorem delimiters (scans : Scans scan answers bytes ending rest) :
    (∀ front byte later, bytes = front ++ byte :: later →
      (scan.behind front).delimiter? byte = none) ∧
    ∀ delimiter, ending = .delimited delimiter →
      ∃ byte, (scan.behind bytes).delimiter? byte = some delimiter := by
  induction scans with
  | delimited head ends =>
    refine ⟨fun front byte later split => by simp at split, ?_⟩
    rintro _ ⟨⟩
    exact ⟨_, ends⟩
  | endOfInput head | unreadable head =>
    exact ⟨fun front byte later split => by simp at split, nofun⟩
  | passed head inside later ih =>
    refine ⟨fun front byte behind split => ?_, ih.2⟩
    rcases front with _ | ⟨first, front⟩
    · obtain ⟨rfl, -⟩ := List.cons.inj split
      exact inside
    · obtain ⟨rfl, others⟩ := List.cons.inj split
      exact ih.1 front byte behind others

end Scans

/-- How a scan uses up the input in front of it: gaps, the bytes of an element, and the delimiter
that stops it, unless something else does. -/
structure Consumes (before : BufferedSource) (gaps element : List UInt8) (ending : ScanEnd)
    (after : BufferedSource) : Prop where
  remaining : before.remaining = gaps ++ element ++ ending.bytes ++ after.remaining
  answers : before.answers = served (gaps ++ element) ++ₛ .cons ending.answer after.answers
  blank : ∀ byte ∈ gaps, isGap byte = true
  solid : ∀ byte, element.head? = some byte → isGap byte = false
  within : ∀ front byte later, element = front ++ byte :: later → byte = 44 ∨ byte = 93 →
    ¬AtTop front
  atTop : ∀ delimiter, ending = .delimited delimiter → AtTop element

theorem scanElement_consumes (input : BufferedSource) :
    ∃ gaps, Consumes input gaps (scanElement {} [] input).element (scanElement {} [] input).ending
      (scanElement {} [] input).input := by
  obtain ⟨bytes, scans, element, remaining⟩ := scanElement_scans {} [] input fun _ => rfl
  have kept : (scanElement {} [] input).element = content bytes := element
  -- The gaps are what is dropped in front, and the scan is as new behind them.
  have whole : bytes.takeWhile isGap ++ content bytes = bytes := List.takeWhile_append_dropWhile
  have blank : ∀ byte ∈ bytes.takeWhile isGap, isGap byte = true :=
    fun byte => List.mem_takeWhile_imp
  have fresh : Scan.behind {} (bytes.takeWhile isGap) = {} := Scan.behind_gaps 0 blank
  obtain ⟨passed, stopped⟩ := scans.delimiters
  refine ⟨bytes.takeWhile isGap, ?_⟩
  constructor
  case remaining => rw [kept, whole, remaining]
  case answers => rw [kept, whole, scans.answers_eq]
  case blank => exact blank
  case solid =>
    intro byte head
    have first := List.head?_dropWhile_not isGap bytes
    rw [kept, content] at head
    simpa [head] using first
  case within =>
    intro front byte later split delimits top
    have inside := passed (bytes.takeWhile isGap ++ front) byte later (by
      rw [List.append_assoc, ← split, kept, whole])
    rw [Scan.behind_append, fresh] at inside
    exact Scan.delimiter?_ne_none.mpr ⟨delimits, atTop_iff.mp top⟩ inside
  case atTop =>
    intro delimiter ended
    obtain ⟨byte, delimits⟩ := stopped delimiter ended
    rw [← whole, Scan.behind_append, fresh, ← kept] at delimits
    exact atTop_iff.mpr (Scan.delimiter?_ne_none.mp (delimits ▸ Option.some_ne_none _)).2

namespace ArrayReader

/-- A call for the next element leaves the input behind its scan, hands out what this gathered if
anything and if a delimiter stands behind it, and fails for lack of a delimiter exactly if there is
none. -/
theorem nextElement_scanned (reader : ArrayReader) :
    let scanned := scanElement {} [] reader.input
    let answer := reader.nextElement.1
    reader.nextElement.2.input = scanned.input ∧
    (∀ bytes, answer = .ok (some bytes) → bytes = scanned.element) ∧
    (scanned.ending.bytes ≠ [] → scanned.element ≠ [] → answer = .ok (some scanned.element)) ∧
    (scanned.ending.bytes = [] ↔
      answer = .error .unexpectedEnd ∨ ∃ reason, answer = .error (.unreadable reason)) := by
  unfold nextElement
  generalize scanElement {} [] reader.input = scanned
  obtain ⟨element, ending, input⟩ := scanned
  rcases ending with delimiter | _ | reason
  · -- At a delimiter the answer depends on whether anything was gathered, and at a bracket also on
    -- whether there were elements before.
    cases delimiter with
    | comma => cases element <;> simp [ScanEnd.bytes]
    | bracket =>
      cases element with
      | nil => by_cases behind : reader.position > 0 <;> simp [ScanEnd.bytes, behind]
      | cons byte bytes => simp [ScanEnd.bytes]
  · simp [ScanEnd.bytes]
  · simp [ScanEnd.bytes]

/-- On any bytes whatever, a call for the next element consumes gaps, the bytes that it gathers, and
one delimiter unless the input ends or fails before there is one. What it gathers does not begin
with a gap, and the delimiter is the first comma or closing bracket at the top of it. A delimiter
behind some bytes is answered with these. -/
theorem nextElement_lossless (reader : ArrayReader) :
    let scanned := scanElement {} [] reader.input
    let answer := reader.nextElement.1
    let after := reader.nextElement.2
    (∃ gaps, Consumes reader.input gaps scanned.element scanned.ending after.input) ∧
    (∀ bytes, answer = .ok (some bytes) → bytes = scanned.element) ∧
    (scanned.ending.bytes ≠ [] → scanned.element ≠ [] → answer = .ok (some scanned.element)) ∧
    (scanned.ending.bytes = [] ↔
      answer = .error .unexpectedEnd ∨ ∃ reason, answer = .error (.unreadable reason)) := by
  intro scanned answer after
  obtain ⟨left, handed, stopped⟩ := reader.nextElement_scanned
  obtain ⟨gaps, consumes⟩ := scanElement_consumes reader.input
  exact ⟨⟨gaps, left ▸ consumes⟩, handed, stopped⟩

end ArrayReader

end Batchwork.Json
