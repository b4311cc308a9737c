import Batchwork.Json.Value
import Batchwork.Text.Quoted

/-!
# Faults of JSON text

Why a text could not be decoded, and where. A fault of the text itself is found at a place; a fault
of the decoded value, such as a number that is too large, is given its place by the decoder that
read the value.
-/

namespace Batchwork.Json

/-- A line, counted from one, and the number of bytes of it that stand before the place. -/
structure Position where
  line : Nat
  column : Nat
  deriving Repr, DecidableEq, Inhabited

/-- What stood where something else was expected. -/
inductive Found where
  | null
  | bool (value : Bool)
  | number (value : Number)
  | string (value : String)
  | sequence
  | map
  deriving Repr, DecidableEq, Inhabited

def Found.text : Found → String
  | null => "null"
  | bool true => "boolean `true`"
  | bool false => "boolean `false`"
  | number (.int value) => s!"integer `{value}`"
  | number (.float value) => s!"floating point `{value.text}`"
  | string value => s!"string {Text.quoted value}"
  | sequence => "sequence"
  | map => "map"

inductive Cause where
  | eofInList
  | eofInObject
  | eofInString
  | eofInValue
  | expectedColon
  | expectedListCommaOrEnd
  | expectedObjectCommaOrEnd
  | expectedWord
  | expectedValue
  | invalidEscape
  | invalidNumber
  | numberOutOfRange
  | invalidUnicode
  | controlCharacter
  | keyNotString
  | loneSurrogate
  | trailingComma
  | trailingCharacters
  | halfSurrogatePair
  | nestedTooDeep
  | invalidType (found : Found) (expected : String)
  | invalidValue (found : Found) (expected : String)
  | invalidLength (length : Nat) (expected : String)
  | unknownField (name : String) (known : List String)
  | unknownVariant (name : String) (known : List String)
  | missingField (name : String)
  | duplicateField (name : String)
  deriving Repr, DecidableEq, Inhabited

namespace Cause

/-- A choice of names: all of them if there are more than two. -/
def choice : List String → String
  | [name] => s!"`{name}`"
  | [first, second] => s!"`{first}` or `{second}`"
  | names => "one of " ++ ", ".intercalate (names.map fun name => s!"`{name}`")

def unknown (what name : String) : List String → String
  | [] => s!"unknown {what} `{name}`, there are no {what}s"
  | known => s!"unknown {what} `{name}`, expected {choice known}"

def message : Cause → String
  | eofInList => "EOF while parsing a list"
  | eofInObject => "EOF while parsing an object"
  | eofInString => "EOF while parsing a string"
  | eofInValue => "EOF while parsing a value"
  | expectedColon => "expected `:`"
  | expectedListCommaOrEnd => "expected `,` or `]`"
  | expectedObjectCommaOrEnd => "expected `,` or `\x7d`"
  | expectedWord => "expected ident"
  | expectedValue => "expected value"
  | invalidEscape => "invalid escape"
  | invalidNumber => "invalid number"
  | numberOutOfRange => "number out of range"
  | invalidUnicode => "invalid unicode code point"
  | controlCharacter => "control character (\\u0000-\\u001F) found while parsing a string"
  | keyNotString => "key must be a string"
  | loneSurrogate => "lone leading surrogate in hex escape"
  | trailingComma => "trailing comma"
  | trailingCharacters => "trailing characters"
  | halfSurrogatePair => "unexpected end of hex escape"
  | nestedTooDeep => "recursion limit exceeded"
  | invalidType found expected => s!"invalid type: {found.text}, expected {expected}"
  | invalidValue found expected => s!"invalid value: {found.text}, expected {expected}"
  | invalidLength length expected => s!"invalid length {length}, expected {expected}"
  | unknownField name known => unknown "field" name known
  | unknownVariant name known => unknown "variant" name known
  | missingField name => s!"missing field `{name}`"
  | duplicateField name => s!"duplicate field `{name}`"

end Cause

structure Fault where
  cause : Cause
  position : Option Position := none
  deriving Repr, DecidableEq, Inhabited

def Fault.message (fault : Fault) : String :=
  match fault.position with
  | none => fault.cause.message
  | some place => s!"{fault.cause.message} at line {place.line} column {place.column}"

/-- Gives a fault a place unless it has one. -/
def Fault.placedAt (fault : Fault) (place : Position) : Fault :=
  { fault with position := fault.position.or (some place) }

end Batchwork.Json
