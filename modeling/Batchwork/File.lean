/-!
# Files

What a look at a file finds: its bytes, or why it cannot be opened or read.
-/

namespace Batchwork

inductive FileProblem where
  | notFound
  | notADirectory
  | isADirectory
  | nameTooLong
  | nulInName
  | notText
  deriving Repr, DecidableEq, Inhabited

def FileProblem.message : FileProblem → String
  | notFound => "No such file or directory (os error 2)"
  | notADirectory => "Not a directory (os error 20)"
  | isADirectory => "Is a directory (os error 21)"
  | nameTooLong => "File name too long (os error 36)"
  | nulInName => "file name contained an unexpected NUL byte"
  | notText => "stream did not contain valid UTF-8"

inductive FileLook where
  | content (bytes : List UInt8)
  | unopened (problem : FileProblem)
  /-- The file opens, but every attempt to read it fails. -/
  | unreadable (problem : FileProblem)
  deriving Repr, DecidableEq, Inhabited

/-- The whole text of a file. -/
def FileLook.text : FileLook → Except FileProblem String
  | content bytes =>
    match String.fromUTF8? ⟨bytes.toArray⟩ with
    | some text => .ok text
    | none => .error .notText
  | unopened problem => .error problem
  | unreadable problem => .error problem

end Batchwork
