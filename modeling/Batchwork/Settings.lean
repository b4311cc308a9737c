import Batchwork.File
import Batchwork.Component
import Batchwork.Json.Document
import Batchwork.Json.Record

/-!
# Step settings

The settings of a chunk step as a JSON document. Every field may be left out and has a default then;
a field that is not known, or given twice, is an error.
-/

namespace Batchwork

structure Settings where
  name : Option String := none
  chunkSize : Nat := 10
  faultTolerant : Bool := false
  skipLimit : Nat := 0
  skipOn : List ErrorKind := [.invalidItem]
  deriving Repr, DecidableEq, Inhabited

namespace Settings

/-- Settings that have been read in part. -/
structure Draft where
  name : Option (Option String) := none
  chunkSize : Option Nat := none
  faultTolerant : Option Bool := none
  skipLimit : Option Nat := none
  skipOn : Option (List ErrorKind) := none
  deriving Repr, DecidableEq, Inhabited

def Draft.settings (draft : Draft) : Settings :=
  let defaults : Settings := {}
  { name := draft.name.getD defaults.name
    chunkSize := draft.chunkSize.getD defaults.chunkSize
    faultTolerant := draft.faultTolerant.getD defaults.faultTolerant
    skipLimit := draft.skipLimit.getD defaults.skipLimit
    skipOn := draft.skipOn.getD defaults.skipOn }

open Json in
def fields : List (Json.Field Draft) := [
  { name := "name", isSet := (·.name.isSome), optional := true
    read := .map (fun value draft => { draft with name := some value }) (.option .text) },
  { name := "chunk_size", isSet := (·.chunkSize.isSome), optional := true
    read := .map (fun value draft => { draft with chunkSize := some value })
      (.natural "usize" 64) },
  { name := "fault_tolerant", isSet := (·.faultTolerant.isSome), optional := true
    read := .map (fun value draft => { draft with faultTolerant := some value }) .bool },
  { name := "skip_limit", isSet := (·.skipLimit.isSome), optional := true
    read := .map (fun value draft => { draft with skipLimit := some value })
      (.natural "usize" 64) },
  { name := "skip_on", isSet := (·.skipOn.isSome), optional := true
    read := .map (fun value draft => { draft with skipOn := some value })
      (.list .errorKind) }]

def record : Json.Record Draft Settings where
  name := "StepSettings"
  fields := fields
  blank := {}
  finish draft := .ok draft.settings
  lenient := false

/-- A chunk holds one item at least. -/
def validate (settings : Settings) : Result Unit :=
  if settings.chunkSize = 0 then .error (.configuration "chunk_size must be at least 1")
  else .ok ()

def ofText (text : String) : Result Settings := do
  match Json.decodeText record.shape text with
  | .error fault => .error (.configuration fault.message)
  | .ok settings =>
    settings.validate
    return settings

def ofFile (path : String) (look : FileLook) : Result Settings :=
  match look.text with
  | .error problem => .error (.configuration s!"unable to read {path}: {problem.message}")
  | .ok text => ofText text

end Settings

end Batchwork
