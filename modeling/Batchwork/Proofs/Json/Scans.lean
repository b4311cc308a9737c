import Batchwork.Json.ArrayReader
import Batchwork.Proofs.Json.Answers

/-!
# Scans

What a scan does is settled by the answers of its input: which bytes it passes, why it stops, and
the answers it leaves. Two relations say so, one for the search of the first byte and one for the
bytes of an element. Either has one outcome for given answers, and the scan is that outcome. Main
statements: `firstByte_of_leads`, `scanElement_of_scans`.
-/

namespace Batchwork.Json

/-! ## The first byte -/

/-- Before the answer that is no gap there are these gaps, and these answers behind it. -/
inductive Leads : Stream' Answer → List UInt8 → Answer → Stream' Answer → Prop
  | found {answers : Stream' Answer}
      (solid : ∀ byte, answers.head = .ok (some byte) → isGap byte = false) :
      Leads answers [] answers.head answers.tail
  | gap {answers rest : Stream' Answer} {byte : UInt8} {gaps : List UInt8} {answer : Answer}
      (head : answers.head = .ok (some byte)) (blank : isGap byte = true)
      (later : Leads answers.tail gaps answer rest) : Leads answers (byte :: gaps) answer rest

namespace Leads

variable {answers rest rest' : Stream' Answer} {gaps gaps' : List UInt8} {answer answer' : Answer}

theorem unique (first : Leads answers gaps answer rest)
    (second : Leads answers gaps' answer' rest') :
    gaps = gaps' ∧ answer = answer' ∧ rest = rest' := by
  induction first generalizing gaps' with
  | found solid =>
    cases second with
    | found => exact ⟨rfl, rfl, rfl⟩
    | gap head blank => simp [solid _ head] at blank
  | gap head blank later ih =>
    cases second with
    | found solid => simp [solid _ head] at blank
    | gap head' blank' later' =>
      obtain ⟨rfl⟩ : some _ = some _ := Except.ok.inj (head.symm.trans head')
      obtain ⟨rfl, same⟩ := ih later'
      exact ⟨rfl, same⟩

theorem blank (leads : Leads answers gaps answer rest) : ∀ byte ∈ gaps, isGap byte = true := by
  induction leads with
  | found => simp
  | gap head blank later ih => simpa using ⟨blank, ih⟩

/-- Gaps that are served are passed. -/
theorem of_gaps (gaps : List UInt8) (blank : ∀ byte ∈ gaps, isGap byte = true)
    (solid : ∀ byte, answer = .ok (some byte) → isGap byte = false) :
    Leads (served gaps ++ₛ .cons answer rest) gaps answer rest := by
  induction gaps with
  | nil => exact .found solid
  | cons byte gaps ih =>
    exact .gap rfl (blank byte List.mem_cons_self)
      (ih fun byte member => blank byte (List.mem_cons_of_mem _ member))

end Leads

theorem firstByte_leads (input : BufferedSource) :
    ∃ gaps, Leads input.answers gaps (firstByte input).1 (firstByte input).2.answers ∧
      input.remaining =
        gaps ++ handedOver (firstByte input).1 ++ (firstByte input).2.remaining := by
  fun_induction firstByte input with
  | case1 input byte after next blank ih =>
    obtain ⟨head, tail, consumed⟩ := BufferedSource.answers_of_next next
    obtain ⟨gaps, leads, remaining⟩ := ih
    refine ⟨byte :: gaps, .gap head blank (tail ▸ leads), ?_⟩
    rw [consumed, remaining]
    simp [handedOver]
  | case2 input byte after next solid =>
    obtain ⟨head, tail, consumed⟩ := BufferedSource.answers_of_next next
    have leads : Leads input.answers [] input.answers.head input.answers.tail := by
      refine .found fun other same => ?_
      cases head.symm.trans same
      simpa using solid
    rw [head, tail] at leads
    exact ⟨[], leads, consumed⟩
  | case3 input other =>
    have leads : Leads input.answers [] input.answers.head input.answers.tail :=
      .found fun byte head => (other byte input.next.2 (Prod.ext head rfl)).elim
    rw [input.tail_answers] at leads
    exact ⟨[], leads, input.remaining_eq⟩

/-- The search ends where the answers say. -/
theorem firstByte_of_leads {input : BufferedSource} {gaps : List UInt8} {answer : Answer}
    {rest : Stream' Answer} (leads : Leads input.answers gaps answer rest) :
    ∃ after, firstByte input = (answer, after) ∧ after.answers = rest ∧
      input.remaining = gaps ++ handedOver answer ++ after.remaining := by
  obtain ⟨gaps', leads', remaining⟩ := firstByte_leads input
  obtain ⟨rfl, rfl, rfl⟩ := leads.unique leads'
  exact ⟨_, rfl, rfl, remaining⟩

/-! ## The bytes of an element -/

/-- From this state on a scan passes these bytes, stops for this reason and leaves these answers. -/
inductive Scans : Scan → Stream' Answer → List UInt8 → ScanEnd → Stream' Answer → Prop
  | delimited {scan : Scan} {answers : Stream' Answer} {byte : UInt8} {delimiter : Delimiter}
      (head : answers.head = .ok (some byte)) (ends : scan.delimiter? byte = some delimiter) :
      Scans scan answers [] (.delimited delimiter) answers.tail
  | endOfInput {scan : Scan} {answers : Stream' Answer} (head : answers.head = .ok none) :
      Scans scan answers [] .endOfInput answers.tail
  | unreadable {scan : Scan} {answers : Stream' Answer} {reason : String}
      (head : answers.head = .error reason) :
      Scans scan answers [] (.unreadable reason) answers.tail
  | passed {scan : Scan} {answers rest : Stream' Answer} {byte : UInt8} {bytes : List UInt8}
      {ending : ScanEnd} (head : answers.head = .ok (some byte))
      (inside : scan.delimiter? byte = none)
      (later : Scans (scan.step byte) answers.tail bytes ending rest) :
      Scans scan answers (byte :: bytes) ending rest

/-- The bytes that were consumed for a scan to stop. -/
def ScanEnd.bytes : ScanEnd → List UInt8
  | .delimited .comma => [44]
  | .delimited .bracket => [93]
  | .endOfInput | .unreadable _ => []

theorem Scan.delimiter?_eq_some {scan : Scan} {byte : UInt8} {delimiter : Delimiter}
    (ends : scan.delimiter? byte = some delimiter) :
    [byte] = (ScanEnd.delimited delimiter).bytes := by
  unfold Scan.delimiter? at ends
  split at ends
  · cases ends
  · split at ends
    next comma =>
      cases ends
      exact congrArg (fun byte => [byte]) comma
    · split at ends
      next bracket =>
        cases ends
        exact congrArg (fun byte => [byte]) bracket
      · cases ends

theorem Scans.unique {scan : Scan} {answers rest rest' : Stream' Answer} {bytes bytes' : List UInt8}
    {ending ending' : ScanEnd} (first : Scans scan answers bytes ending rest)
    (second : Scans scan answers bytes' ending' rest') :
    bytes = bytes' ∧ ending = ending' ∧ rest = rest' := by
  induction first generalizing bytes' with
  | delimited head ends =>
    cases second with
    | delimited head' ends' =>
      cases head.symm.trans head'
      cases ends.symm.trans ends'
      exact ⟨rfl, rfl, rfl⟩
    | endOfInput head' => cases head.symm.trans head'
    | unreadable head' => cases head.symm.trans head'
    | passed head' inside' =>
      cases head.symm.trans head'
      cases ends.symm.trans inside'
  | endOfInput head =>
    cases second with
    | endOfInput => exact ⟨rfl, rfl, rfl⟩
    | delimited head' | unreadable head' | passed head' => cases head.symm.trans head'
  | unreadable head =>
    cases second with
    | unreadable head' =>
      cases head.symm.trans head'
      exact ⟨rfl, rfl, rfl⟩
    | delimited head' | endOfInput head' | passed head' => cases head.symm.trans head'
  | passed head inside later ih =>
    cases second with
    | delimited head' ends' =>
      cases head.symm.trans head'
      cases inside.symm.trans ends'
    | endOfInput head' => cases head.symm.trans head'
    | unreadable head' => cases head.symm.trans head'
    | passed head' inside' later' =>
      cases head.symm.trans head'
      obtain ⟨rfl, same⟩ := ih later'
      exact ⟨rfl, same⟩

/-- A gap outside of a string changes nothing. -/
theorem Scan.step_gap {scan : Scan} {byte : UInt8} (outside : scan.inString = false)
    (blank : isGap byte = true) : scan.step byte = scan := by
  have quote : byte ≠ 34 := by rintro rfl; simp [isGap, isBlank] at blank
  have opening : ¬(byte = 123 ∨ byte = 91) := by
    rintro (rfl | rfl) <;> simp [isGap, isBlank] at blank
  have closing : ¬(byte = 125 ∨ byte = 93) := by
    rintro (rfl | rfl) <;> simp [isGap, isBlank] at blank
  simp [Scan.step, outside, quote, opening, closing]

/-- What the reader keeps of the bytes that a scan has passed. -/
def content (bytes : List UInt8) : List UInt8 := bytes.dropWhile isGap

/-- What becomes of the bytes gathered when the scan passes more: gaps are left out as long as
nothing has been gathered. -/
def keeping (gathered bytes : List UInt8) : List UInt8 :=
  if gathered = [] then content bytes else gathered.reverse ++ bytes

theorem keeping_nil (gathered : List UInt8) : keeping gathered [] = gathered.reverse := by
  unfold keeping
  split
  next none => rw [none]; rfl
  · exact List.append_nil _

theorem keeping_gap {byte : UInt8} (blank : isGap byte = true) (bytes : List UInt8) :
    keeping [] (byte :: bytes) = keeping [] bytes := by
  simp [keeping, content, blank]

theorem keeping_cons {gathered : List UInt8} {byte : UInt8}
    (solid : gathered = [] → isGap byte = false) (bytes : List UInt8) :
    keeping gathered (byte :: bytes) = keeping (byte :: gathered) bytes := by
  by_cases none : gathered = []
  · subst none
    simp [keeping, content, solid rfl]
  · simp [keeping, none]

theorem scanElement_scans (scan : Scan) (gathered : List UInt8) (input : BufferedSource)
    (fresh : gathered = [] → scan.inString = false) :
    ∃ bytes, Scans scan input.answers bytes (scanElement scan gathered input).ending
        (scanElement scan gathered input).input.answers ∧
      (scanElement scan gathered input).element = keeping gathered bytes ∧
      input.remaining = bytes ++ (scanElement scan gathered input).ending.bytes ++
        (scanElement scan gathered input).input.remaining := by
  fun_induction scanElement scan gathered input with
  | case1 scan gathered input reason after next =>
    obtain ⟨head, tail, consumed⟩ := BufferedSource.answers_of_next next
    exact ⟨[], tail ▸ .unreadable head, (keeping_nil _).symm, consumed⟩
  | case2 scan gathered input after next =>
    obtain ⟨head, tail, consumed⟩ := BufferedSource.answers_of_next next
    exact ⟨[], tail ▸ .endOfInput head, (keeping_nil _).symm, consumed⟩
  | case3 scan gathered input byte after next delimiter ends =>
    obtain ⟨head, tail, consumed⟩ := BufferedSource.answers_of_next next
    refine ⟨[], tail ▸ .delimited head ends, (keeping_nil _).symm, ?_⟩
    rw [consumed, ← Scan.delimiter?_eq_some ends]
    rfl
  | case4 scan gathered input byte after next inside skipped ih =>
    obtain ⟨none, blank⟩ : gathered = [] ∧ isGap byte = true := by simpa using skipped
    obtain ⟨head, tail, consumed⟩ := BufferedSource.answers_of_next next
    obtain ⟨bytes, scans, element, remaining⟩ := ih fun _ => fresh none
    have same := Scan.step_gap (fresh none) blank
    refine ⟨byte :: bytes, .passed head inside (by rwa [same, tail]), ?_, ?_⟩
    · rw [element, none, keeping_gap blank]
    · rw [consumed, remaining]
      simp [handedOver]
  | case5 scan gathered input byte after next inside kept ih =>
    obtain ⟨head, tail, consumed⟩ := BufferedSource.answers_of_next next
    obtain ⟨bytes, scans, element, remaining⟩ := ih nofun
    refine ⟨byte :: bytes, .passed head inside (tail ▸ scans), ?_, ?_⟩
    · rw [element, keeping_cons]
      intro none
      simpa [none] using kept
    · rw [consumed, remaining]
      simp [handedOver]

/-- A fresh scan ends where the answers say, with all that it passed but the gaps in front. -/
theorem scanElement_of_scans {input : BufferedSource} {bytes : List UInt8} {ending : ScanEnd}
    {rest : Stream' Answer} (scans : Scans {} input.answers bytes ending rest) :
    ∃ after, scanElement {} [] input = ⟨content bytes, ending, after⟩ ∧ after.answers = rest ∧
      input.remaining = bytes ++ ending.bytes ++ after.remaining := by
  obtain ⟨bytes', scans', element, remaining⟩ := scanElement_scans {} [] input fun _ => rfl
  obtain ⟨rfl, rfl, rfl⟩ := scans.unique scans'
  refine ⟨_, ?_, rfl, remaining⟩
  rw [show content bytes = keeping [] bytes from rfl, ← element]

end Batchwork.Json
