/-!
# Reports

What a command leaves behind for its caller: an exit code and two texts.
-/

namespace BpmnModel

/-- The outcome of a command. -/
structure Report where
  /-- Zero when all went well. -/
  exitCode : Nat := 0
  /-- What goes to the standard output. -/
  output : String := ""
  /-- What goes to the standard error. -/
  errors : String := ""
deriving DecidableEq, Repr, Inhabited

namespace Report

/-- A failure with nothing but an error text. -/
def failed (exitCode : Nat) (errors : String) : Report := { exitCode, errors }

/-- A command line that can not be read. -/
def misused (usage : String) : Report :=
  failed 2 ("error: the command line can not be read\n\nUsage: " ++ usage ++ "\n")

end Report

end BpmnModel
