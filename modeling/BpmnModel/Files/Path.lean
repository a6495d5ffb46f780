import BpmnModel.Text.Split

/-!
# Paths

A path is a row of steps through directories, written with slashes between them.  It begins
at the root when a slash stands in front, and in the working directory otherwise; several
slashes in a row count as one.  A path is not made shorter before it is followed: whether a
step back is possible depends on what the step before it leads to.

## Main definitions

* `PathStep` — a step.
* `Path` — the steps, and where they begin and end.
* `Path.ofText text` — reads a path.
-/

namespace BpmnModel

/-- A step of a path. -/
inductive PathStep where
  /-- Stays in the directory. -/
  | stay
  /-- Goes to the directory around it. -/
  | up
  /-- Goes to what has the name in the directory. -/
  | down (name : String)
deriving DecidableEq, Repr

/-- The step that a part between slashes stands for. -/
def PathStep.ofPart : List Char → PathStep
  | ['.'] => .stay
  | ['.', '.'] => .up
  | name => .down (String.ofList name)

/-- A way through directories. -/
structure Path where
  /-- Whether the way begins at the root. -/
  absolute : Bool
  /-- The steps. -/
  steps : List PathStep
  /-- Whether a slash stands at the end, as it does behind the name of a directory. -/
  closed : Bool
deriving DecidableEq, Repr

namespace Path

/-- Reads a path. -/
def ofText (text : String) : Path where
  absolute := text.toList.head? == some '/'
  steps := ((Text.split '/' text.toList).filter fun part => part ≠ []).map PathStep.ofPart
  closed := text.toList.getLast? == some '/'

/-! ## Limits -/

/-- The number of bytes that a name has at most. -/
def nameLimit : Nat := 255

/-- The number of bytes that the text of a path stays below. -/
def textLimit : Nat := 4096

end Path

end BpmnModel
