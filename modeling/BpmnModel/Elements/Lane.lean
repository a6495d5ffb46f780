import BpmnModel.Model.Process
import BpmnModel.Properties.Basic

/-!
# Lanes

A lane with properties is a participant and lists the tasks of its actor.  A lane without
properties only groups elements and is passed over.

## Main definitions

* `Lane.read settings lane` — the participant that a lane stands for.
* `Lane.readAll settings process` — the participants of a process, in the order in which
  their lanes open.
-/

namespace BpmnModel.Lane

/-- The participant that a lane stands for. -/
def read (s : Settings) (lane : Element) : Except StructureError (Option Participant) := do
  let properties ← Properties.read s lane
  return properties.map fun p => {
    id := lane.id
    name := lane.name
    tasks := lane.childTexts "flowNodeRef"
    conditionalPerformer := p.flag? "conditionalPerformer"
    properties := p.values }

/-- The lanes of a process: those at any depth below its lane sets. -/
def lanes (process : Element) : List Element :=
  (process.childrenNamed "laneSet").flatMap fun set => set.descendantsNamed "lane"

/-- The participants of a process. -/
def readAll (s : Settings) (process : Element) : Except StructureError (List Participant) := do
  let participants ← (lanes process).mapM (read s)
  return participants.filterMap fun p => p

end BpmnModel.Lane
