import Batchwork.Json.ByteSource
import Batchwork.Json.Document
import Batchwork.Component
import Batchwork.File
import Batchwork.Log

/-!
# Reading the elements of an array

A reader of the elements of one JSON array, which holds no more of it than one element at a time. It
finds the end of an element by its brackets and quotes and decodes the element afterwards, so an
element that does not decode fails alone. What follows the closing bracket is never looked at.
-/

namespace Batchwork.Json

/-- The blanks around elements, one more than JSON knows: the form feed. -/
def isGap (byte : UInt8) : Bool := isBlank byte || byte = 12

/-- Where in an element a scan is. -/
structure Scan where
  depth : Nat := 0
  inString : Bool := false
  escaped : Bool := false
  deriving Repr, DecidableEq, Inhabited

inductive Delimiter where
  | comma
  | bracket
  deriving Repr, DecidableEq, Inhabited

namespace Scan

/-- What ends an element here, if the byte does. -/
def delimiter? (scan : Scan) (byte : UInt8) : Option Delimiter :=
  if scan.inString || scan.depth ≠ 0 then none
  else if byte = 44 then some .comma
  else if byte = 93 then some .bracket
  else none

/-- The state behind a byte of the element. -/
def step (scan : Scan) (byte : UInt8) : Scan :=
  if scan.inString then
    if scan.escaped then { scan with escaped := false }
    else if byte = 92 then { scan with escaped := true }
    else if byte = 34 then { scan with inString := false }
    else scan
  else if byte = 34 then { scan with inString := true }
  else if byte = 123 || byte = 91 then { scan with depth := scan.depth + 1 }
  else if byte = 125 || byte = 93 then { scan with depth := scan.depth - 1 }
  else scan

end Scan

/-- Why the scan of an element stopped. -/
inductive ScanEnd where
  | delimited (delimiter : Delimiter)
  | endOfInput
  | unreadable (reason : String)
  deriving Repr, DecidableEq, Inhabited

structure Scanned where
  element : List UInt8
  ending : ScanEnd
  input : BufferedSource
  deriving Repr, DecidableEq, Inhabited

theorem BufferedSource.next_shorter {input after : BufferedSource} {byte : UInt8}
    (h : input.next = (.ok (some byte), after)) :
    after.remaining.length < input.remaining.length := by
  simp [BufferedSource.remaining_next h]

/-- Gathers the bytes of an element, the last one first. -/
def scanElement (scan : Scan) (gathered : List UInt8) (input : BufferedSource) : Scanned :=
  match _ : input.next with
  | (.error reason, after) => ⟨gathered.reverse, .unreadable reason, after⟩
  | (.ok none, after) => ⟨gathered.reverse, .endOfInput, after⟩
  | (.ok (some byte), after) =>
    match scan.delimiter? byte with
    | some delimiter => ⟨gathered.reverse, .delimited delimiter, after⟩
    | none =>
      if gathered.isEmpty && isGap byte then scanElement scan [] after
      else scanElement (scan.step byte) (byte :: gathered) after
termination_by input.remaining.length
decreasing_by all_goals exact BufferedSource.next_shorter ‹_›

/-- Skips gaps: the first byte that is none. -/
def firstByte (input : BufferedSource) : Except String (Option UInt8) × BufferedSource :=
  match _ : input.next with
  | (.ok (some byte), after) => if isGap byte then firstByte after else (.ok (some byte), after)
  | other => other
termination_by input.remaining.length
decreasing_by exact BufferedSource.next_shorter ‹_›

inductive ArrayFault where
  | unreadable (reason : String)
  | notAnArray (found : String)
  | malformedStart (byte : UInt8)
  | unexpectedEnd
  | missingElement (position : Nat)
  | trailingComma
  | element (position : Nat) (fault : Fault)
  deriving Repr, DecidableEq, Inhabited

def ArrayFault.message : ArrayFault → String
  | unreadable reason => s!"unable to read JSON: {reason}"
  | notAnArray found => s!"expected a JSON array, found {found}"
  | malformedStart byte =>
    s!"malformed JSON: unexpected '{Text.escapeByte byte}' at the start of the document"
  | unexpectedEnd => "unexpected end of the JSON array"
  | missingElement position => s!"element {position}: missing value before ','"
  | trailingComma => "trailing ',' before the end of the JSON array"
  | element position fault => s!"element {position}: {fault.message}"

structure ArrayReader where
  input : BufferedSource
  started : Bool := false
  finished : Bool := false
  /-- The number of elements that have ended. -/
  position : Nat := 0
  deriving Repr, DecidableEq, Inhabited

namespace ArrayReader

/-- The buffer of a reader that is not told otherwise. -/
def defaultCapacity : Nat := 8192

def ofSource (source : ByteSource) (capacity : Nat := defaultCapacity) : ArrayReader where
  input := { source, capacity }

/-- A reader of a file. A file that opens but cannot be read is only noticed by the first read. -/
def ofFile (path : String) (look : FileLook) (capacity : Nat := defaultCapacity) :
    Result ArrayReader :=
  match look with
  | .content bytes => .ok (ofSource (.ofBytes bytes) capacity)
  | .unreadable problem => .ok (ofSource { deliveries := [], broken := problem.message } capacity)
  | .unopened problem => .error (.itemReader s!"unable to open {path}: {problem.message}")

/-- What a first byte that is no opening bracket begins. -/
def startFault (byte : UInt8) : ArrayFault :=
  if byte = 123 then .notAnArray "an object"
  else if byte = 34 then .notAnArray "a string"
  else if byte = 45 || isDigit byte then .notAnArray "a number"
  else .malformedStart byte

/-- Looks for the opening bracket. A byte that is none is consumed all the same. -/
def start (reader : ArrayReader) : Except ArrayFault Unit × ArrayReader :=
  match firstByte reader.input with
  | (.error reason, input) => (.error (.unreadable reason), { reader with input })
  | (.ok none, input) => (.error (.notAnArray "an empty document"), { reader with input })
  | (.ok (some byte), input) =>
    if byte = 91 then (.ok (), { reader with input, started := true })
    else (.error (startFault byte), { reader with input })

/-- The bytes of the next element, or nothing at the end of the array. -/
def nextElement (reader : ArrayReader) : Except ArrayFault (Option (List UInt8)) × ArrayReader :=
  let scanned := scanElement {} [] reader.input
  let reader := { reader with input := scanned.input }
  match scanned.ending with
  | .unreadable reason => (.error (.unreadable reason), reader)
  | .endOfInput => (.error .unexpectedEnd, reader)
  | .delimited .comma =>
    if scanned.element.isEmpty then (.error (.missingElement reader.position), reader)
    else (.ok (some scanned.element), reader)
  | .delimited .bracket =>
    let reader := { reader with finished := true }
    if !scanned.element.isEmpty then (.ok (some scanned.element), reader)
    else if reader.position > 0 then (.error .trailingComma, reader)
    else (.ok none, reader)

/-- Reads the next element of a reader that has found the opening bracket. -/
def readElement {α : Type} (shape : Shape α) :
    Act ArrayReader ComponentLog (Except ArrayFault (Option α)) := fun reader =>
  match reader.nextElement with
  | (.error fault, reader) => ⟨.error fault, [], reader⟩
  | (.ok none, reader) => ⟨.ok none, [.arrayEnded reader.position], reader⟩
  | (.ok (some bytes), reader) =>
    let position := reader.position
    let reader := { reader with position := position + 1 }
    match decode shape bytes with
    | .ok value => ⟨.ok (some value), [], reader⟩
    | .error fault => ⟨.error (.element position fault), [], reader⟩

/-- The next element, or nothing once the closing bracket has been read. -/
def read {α : Type} (shape : Shape α) :
    Act ArrayReader ComponentLog (Except ArrayFault (Option α)) := fun reader =>
  if reader.finished then ⟨.ok none, [], reader⟩
  else if reader.started then readElement shape reader
  else
    match reader.start with
    | (.error fault, reader) => ⟨.error fault, [], reader⟩
    | (.ok (), reader) => readElement shape reader

/-- An array as the source of a step. -/
def asReader {α : Type} (shape : Shape α) : Reader ArrayReader ComponentLog α where
  next := do
    match ← read shape with
    | .ok item => return .ok item
    | .error fault => return .error (.itemReader fault.message)

end ArrayReader

end Batchwork.Json
