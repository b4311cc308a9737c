import Batchwork.Json.Printer
import Batchwork.Processor
import Batchwork.Table.Cell
import Batchwork.Text.Blank

/-!
# Rules

Processors and validators written as data: a list of rules, the first of which that applies to an
item says what becomes of it.
-/

namespace Batchwork.Rehearsal

open Json

/-- What a rule asks of an item. All that is given must hold. -/
structure Condition where
  /-- The member to look at instead of the item itself. -/
  field : Option String := none
  equals : Option Value := none
  among : Option (List Value) := none
  /-- A modulus and the remainder of a division by it. -/
  remainder : Option (Int × Int) := none
  above : Option Int := none
  blank : Option Bool := none
  startsWith : Option String := none
  deriving Repr, DecidableEq, Inhabited

inductive Verdict where
  | keep
  | filter
  | set (value : Value)
  | add (amount : Int)
  | append (suffix : String)
  | pick (fields : List String)
  | row (fields : List String)
  | fail (error : Error)
  deriving Repr, DecidableEq, Inhabited

structure Rule where
  condition : Condition
  verdict : Verdict
  deriving Repr, DecidableEq, Inhabited

/-- A member of an item, `null` if it has none of that name. -/
def memberOrNull (item : Value) (name : String) : Value := (item.member? name).getD .null

/-- An item that is an integer of sixty-four bits with a sign. -/
def int64? : Value → Option Int
  | .number (.int n) => if Table.minInt ≤ n ∧ n ≤ Table.maxInt then some n else none
  | _ => none

def isBlankText : Value → Bool
  | .string text => text.toList.all Text.isBlank
  | _ => false

def hasStart (start : String) : Value → Bool
  | .string text => start.toList.isPrefixOf text.toList
  | _ => false

def Condition.holds (condition : Condition) (item : Value) : Bool :=
  let subject :=
    match condition.field with
    | some name => memberOrNull item name
    | none => item
  condition.equals.all (· = subject)
    && condition.among.all (·.contains subject)
    && condition.remainder.all (fun (modulus, rest) =>
      (int64? subject).any fun n => n.emod modulus = rest)
    && condition.above.all (fun bound => (int64? subject).any (bound < ·))
    && condition.blank.all (· = isBlankText subject)
    && condition.startsWith.all (hasStart · subject)

/-- How an error speaks of an item. -/
def itemText : Value → String
  | .string text => text
  | item => item.compact

/-- Puts a text in place of every mark `{item}`. -/
def fillText (item : String) (text : String) : String :=
  item.intercalate (text.splitOn "\x7bitem\x7d")

def fillError (item : String) : Error → Error
  | .itemReader reason => .itemReader (fillText item reason)
  | .itemProcessor reason => .itemProcessor (fillText item reason)
  | .invalidItem name reason => .invalidItem (fillText item name) (fillText item reason)
  | .validation reason => .validation (fillText item reason)
  | .itemWriter reason => .itemWriter (fillText item reason)
  | .transaction reason => .transaction (fillText item reason)
  | .skipLimitExceeded limit => .skipLimitExceeded limit
  | .step name source => .step (fillText item name) (fillError item source)
  | .configuration reason => .configuration (fillText item reason)

def Verdict.apply (verdict : Verdict) (item : Value) : Result (Option Value) :=
  match verdict with
  | keep => .ok (some item)
  | filter => .ok none
  | set value => .ok (some value)
  | add amount =>
    match item with
    | .number (.int n) => .ok (some (.int (n + amount)))
    | _ => .ok (some item)
  | append suffix =>
    match item with
    | .string text => .ok (some (.string (text ++ suffix)))
    | _ => .ok (some item)
  | pick fields => .ok (some (.ofMembers (fields.map fun name => (name, memberOrNull item name))))
  | row fields => .ok (some (.array (fields.map (memberOrNull item))))
  | fail error => .error (fillError (itemText item) error)

/-- What becomes of an item. An item that no rule speaks of is kept. -/
def judge (rules : List Rule) (item : Value) : Result (Option Value) :=
  match rules.find? fun rule => rule.condition.holds item with
  | some rule => rule.verdict.apply item
  | none => .ok (some item)

/-- The rules as a check, which an item passes unless they give an error. -/
def check (rules : List Rule) (item : Value) : Result Unit := (judge rules item).map fun _ => ()

end Batchwork.Rehearsal
