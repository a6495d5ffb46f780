import BpmnModel.Model.Metadata
import BpmnModel.Model.Process

/-!
# Compiled documents

A document is what a successful compilation yields: one model and its processes.

## Main definitions

* `Document` — the model with the processes, in the order of the source.
* `Document.summary d` — one line for the model and one for each process.
-/

namespace BpmnModel

/-- A compiled document. -/
structure Document where
  /-- The metadata that the processes share. -/
  model : Model
  /-- The processes. -/
  processes : List Process
deriving DecidableEq, Inhabited

namespace Document

/-- The line of a summary that describes the model. -/
def headline (m : Model) : String :=
  "Model '" ++ m.name ++ "' (" ++ m.id ++ ") v" ++ m.version.text ++
    (if m.isPrivate then " [private]" else "") ++
    " with " ++ m.dataStoreFields.length.repr ++ " data-store field(s)"

/-- The line of a summary that describes one process. -/
def processLine (p : Process) : String :=
  "  - Process '" ++ p.name ++ "' (" ++ p.id ++ "): " ++
    p.participants.length.repr ++ " participant(s), " ++
    p.activityCount.repr ++ " activit(y/ies), " ++
    p.gatewayCount.repr ++ " gateway(s), " ++
    p.transitions.length.repr ++ " transition(s)"

/-- One line for the model, then one for each process. -/
def summary (d : Document) : String :=
  "\n".intercalate (headline d.model :: d.processes.map processLine)

end Document

end BpmnModel
