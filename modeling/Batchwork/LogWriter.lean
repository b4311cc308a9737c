import Batchwork.Component
import Batchwork.Log
import Batchwork.Text.Quoted

/-!
# Writing items to the log

A writer that records every item in the log, in a form that shows the structure of the item.
-/

namespace Batchwork

/-- Values that can be shown with their structure. -/
class Inspect (α : Type) where
  inspect : α → String

namespace Inspect

variable {α : Type}

instance : Inspect String := ⟨Text.quoted⟩

instance : Inspect Int := ⟨toString⟩

instance : Inspect Bool := ⟨toString⟩

instance [Inspect α] : Inspect (Option α) where
  inspect
    | none => "None"
    | some value => s!"Some({inspect value})"

instance [Inspect α] : Inspect (List α) where
  inspect items := "[" ++ ", ".intercalate (items.map inspect) ++ "]"

/-- A record by its name and the shown values of its fields. -/
def record (name : String) (fields : List (String × String)) : String :=
  let shown := fields.map fun (field, value) => s!"{field}: {value}"
  name ++ " \x7b " ++ ", ".intercalate shown ++ " \x7d"

end Inspect

def LogWriter.asWriter (σ α : Type) [Inspect α] : Writer σ ComponentLog α where
  write items := fun state =>
    ⟨.ok (), items.map fun item => .record (Inspect.inspect item), state⟩

end Batchwork
