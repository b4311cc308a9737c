import Batchwork.Json.Value
import Batchwork.Text.Quoted

/-!
# Printing JSON values

`Value.compact` writes a value as JSON text without any whitespace, and `Value.inspect` as a record
of its structure for people to read.
-/

namespace Batchwork.Json

def Number.text : Number → String
  | .int value => toString value
  | .float value => value.text

def escapeChar (c : Char) : List Char :=
  match c with
  | '"' => ['\\', '"']
  | '\\' => ['\\', '\\']
  | '\n' => ['\\', 'n']
  | '\r' => ['\\', 'r']
  | '\t' => ['\\', 't']
  | '\x08' => ['\\', 'b']
  | '\x0c' => ['\\', 'f']
  | c =>
    if c < ' ' then
      let digits := Text.hexDigits c.toNat
      ['\\', 'u'] ++ List.replicate (4 - digits.length) '0' ++ digits
    else [c]

def quote (s : String) : String := "\"" ++ String.ofList (s.toList.flatMap escapeChar) ++ "\""

mutual

def Value.compact : Value → String
  | .null => "null"
  | .bool true => "true"
  | .bool false => "false"
  | .number value => value.text
  | .string value => quote value
  | .array items => "[" ++ ",".intercalate (Value.compactItems items) ++ "]"
  | .object members => "\x7b" ++ ",".intercalate (Value.compactMembers members) ++ "\x7d"

def Value.compactItems : List Value → List String
  | [] => []
  | item :: rest => item.compact :: Value.compactItems rest

def Value.compactMembers : List (String × Value) → List String
  | [] => []
  | (name, value) :: rest => (quote name ++ ":" ++ value.compact) :: Value.compactMembers rest

end

mutual

def Value.inspect : Value → String
  | .null => "Null"
  | .bool true => "Bool(true)"
  | .bool false => "Bool(false)"
  | .number value => "Number(" ++ value.text ++ ")"
  | .string value => "String(" ++ Text.quoted value ++ ")"
  | .array items => "Array [" ++ ", ".intercalate (Value.inspectItems items) ++ "]"
  | .object members => "Object \x7b" ++ ", ".intercalate (Value.inspectMembers members) ++ "\x7d"

def Value.inspectItems : List Value → List String
  | [] => []
  | item :: rest => item.inspect :: Value.inspectItems rest

def Value.inspectMembers : List (String × Value) → List String
  | [] => []
  | (name, value) :: rest =>
    (Text.quoted name ++ ": " ++ value.inspect) :: Value.inspectMembers rest

end

end Batchwork.Json
