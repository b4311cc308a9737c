import Batchwork.Table.Fault

/-!
# Insert statements

The text of an insert statement is put together from the table and the columns of a writer as they
were given, so it may be no valid statement, or name other columns than it seems to. `Insert.parse`
reads it back the way a database does.
-/

namespace Batchwork.Table

inductive Token where
  | name (text : String)
  | quotedName (text : String) (source : String)
  | mark (text : String)
  deriving Repr, DecidableEq, Inhabited

namespace Token

def source : Token → String
  | name text => text
  | quotedName _ source => source
  | mark text => text

def isSpace (c : Char) : Bool := c = ' ' || c = '\t' || c = '\n' || c = '\x0c' || c = '\r'

def startsName (c : Char) : Bool := c.isAlpha || c = '_' || c.toNat ≥ 128

def continuesName (c : Char) : Bool := startsName c || c.isDigit || c = '$'

/-- Reads up to a closing quote. A doubled quote stands for one. -/
def quoted (quote : Char) : List Char → Option (List Char × List Char)
  | [] => none
  | c :: rest =>
    if c = quote then
      match rest with
      | d :: rest =>
        if d = quote then (quoted quote rest).map fun (text, left) => (quote :: text, left)
        else some ([], d :: rest)
      | [] => some ([], [])
    else (quoted quote rest).map fun (text, left) => (c :: text, left)

/-- The quote that closes a quoted name. -/
def closing? : Char → Option Char
  | '"' => some '"'
  | '\'' => some '\''
  | '\x60' => some '\x60'
  | '[' => some ']'
  | _ => none

/-- Skips a comment up to the end of its line. -/
def skipLine (cs : List Char) : List Char := cs.dropWhile (· ≠ '\n')

/-- Skips a comment in stars. -/
def skipStarred : List Char → List Char
  | '*' :: '/' :: rest => rest
  | _ :: rest => skipStarred rest
  | [] => []

/-- The token at the head of a text that does not begin with a blank. A quote that is not closed
takes up `behind` as well, the text behind the one that is read. -/
def read (behind : String) (c : Char) (rest : List Char) : Except Fault (Token × List Char) :=
  match closing? c with
  | some close =>
    let found :=
      if close = ']' then
        let text := rest.takeWhile (· ≠ close)
        if text.length < rest.length then some (text, rest.drop (text.length + 1)) else none
      else quoted close rest
    match found with
    | some (text, left) =>
      let used := (c :: rest).take (rest.length + 1 - left.length)
      .ok (.quotedName (String.ofList text) (String.ofList used), left)
    | none => .error (.unrecognizedToken (String.ofList (c :: rest) ++ behind))
  | none =>
    if startsName c then
      let text := c :: rest.takeWhile continuesName
      .ok (.name (String.ofList text), rest.dropWhile continuesName)
    else if c.isDigit then
      let text := c :: rest.takeWhile continuesName
      let left := rest.dropWhile continuesName
      if text.all Char.isDigit then .ok (.mark (String.ofList text), left)
      else .error (.unrecognizedToken (String.ofList text))
    else if "(),.;?=<>+-*/%&|~".toList.contains c then .ok (.mark (String.singleton c), rest)
    else .error (.unrecognizedToken (String.singleton c))

/-- The tokens of a text, and the fault at which they end if they do. -/
def tokenize (behind : String) : (fuel : Nat) → List Char → List Token × Option Fault
  | 0, _ => ([], none)
  | _ + 1, [] => ([], none)
  | fuel + 1, '-' :: '-' :: rest => tokenize behind fuel (skipLine rest)
  | fuel + 1, '/' :: '*' :: rest => tokenize behind fuel (skipStarred rest)
  | fuel + 1, c :: rest =>
    if isSpace c then tokenize behind fuel rest
    else
      match read behind c rest with
      | .error fault => ([], some fault)
      | .ok (token, left) =>
        let (tokens, fault) := tokenize behind fuel left
        (token :: tokens, fault)

/-- Words that name nothing unless they are quoted. -/
def reserved : List String :=
  ["add", "all", "alter", "and", "as", "autoincrement", "between", "case", "check", "collate",
    "commit", "constraint", "create", "default", "deferrable", "delete", "distinct", "drop", "else",
    "escape", "except", "exists", "foreign", "from", "group", "having", "in", "index", "insert",
    "intersect", "into", "is", "isnull", "limit", "not", "nothing", "notnull", "null", "on", "or",
    "order", "primary", "references", "returning", "select", "set", "table", "then", "to",
    "transaction", "union", "unique", "update", "using", "values", "when", "where"]

def isReserved (text : String) : Bool := reserved.contains (text.map Char.toLower)

/-- What a token names. -/
def name? : Token → Option String
  | name text => if isReserved text then none else some text
  | quotedName text _ => some text
  | mark _ => none

end Token

/-- An insert statement: a table, and the columns that get the values of each row. -/
structure Insert where
  database : Option String
  table : String
  columns : List String
  deriving Repr, DecidableEq, Inhabited

namespace Insert

/-- The text of a statement up to its rows. -/
def head (table : String) (columns : List String) : String :=
  "INSERT INTO " ++ table ++ " (" ++ ",".intercalate columns ++ ") VALUES "

/-- The text of rows with the given numbers of values, each value a placeholder. -/
def rowsText (counts : List Nat) : String :=
  let row (count : Nat) : String := "(" ++ ", ".intercalate (List.replicate count "?") ++ ")"
  ", ".intercalate (counts.map row)

abbrev Input : Type := List Token × Option Fault

/-- The fault of a statement that ends or goes wrong here. -/
def unexpected : Input → Fault
  | (token :: _, _) => .syntaxError token.source
  | ([], some fault) => fault
  | ([], none) => .incompleteInput

def expectMark (text : String) (input : Input) : Except Fault Input :=
  match input with
  | (.mark found :: rest, fault) =>
    if found = text then .ok (rest, fault) else .error (unexpected input)
  | _ => .error (unexpected input)

def expectName (input : Input) : Except Fault (String × Input) :=
  match input with
  | (token :: rest, fault) =>
    match token.name? with
    | some name => .ok (name, (rest, fault))
    | none => .error (unexpected input)
  | _ => .error (unexpected input)

def expectWord (word : String) (input : Input) : Except Fault Input :=
  match input with
  | (.name text :: rest, fault) =>
    if text.map Char.toLower = word then .ok (rest, fault) else .error (unexpected input)
  | _ => .error (unexpected input)

/-- Names separated by commas, up to a closing bracket. -/
def names : (fuel : Nat) → Input → Except Fault (List String × Input)
  | 0, input => .error (unexpected input)
  | fuel + 1, input => do
    let (name, input) ← expectName input
    match input with
    | (.mark "," :: rest, fault) =>
      let (others, input) ← names fuel (rest, fault)
      return (name :: others, input)
    | _ => return ([name], ← expectMark ")" input)

/-- The rest of a name that may name a database as well. -/
def qualified (first : String) (input : Input) : Except Fault (Option String × String × Input) :=
  match input with
  | (.mark "." :: rest, fault) => do
    let (table, input) ← expectName (rest, fault)
    return (some first, table, input)
  | _ => .ok (none, first, input)

/-- Another name for the table, which a statement may give it but does not use. -/
def afterAlias (input : Input) : Except Fault Input :=
  match input with
  | (.name text :: rest, fault) =>
    if text.map Char.toLower = "as" then do return (← expectName (rest, fault)).2
    else .ok input
  | _ => .ok input

/-- Checks the rows, which are placeholders in brackets: none may be empty, and all have as many
values as the first. -/
def checkRows (width : Option Nat) : List Nat → Except Fault Unit
  | [] => .ok ()
  | count :: rest =>
    if count = 0 then .error (.syntaxError ")")
    else if width.all (· = count) then checkRows (some count) rest
    else .error .unevenRows

/-- Reads a statement whose rows have the given numbers of values. -/
def parse (text : String) (counts : List Nat) : Except Fault Insert := do
  let input := Token.tokenize (rowsText counts) (text.length + 1) text.toList
  let input ← expectWord "insert" input
  let input ← expectWord "into" input
  let (first, input) ← expectName input
  let (database, table, input) ← qualified first input
  let input ← afterAlias input
  let input ← expectMark "(" input
  let (columns, input) ← names (text.length + 1) input
  let input ← expectWord "values" input
  checkRows none counts
  match input with
  | ([], none) => return { database, table, columns }
  | _ => throw (unexpected input)

end Insert

end Batchwork.Table
