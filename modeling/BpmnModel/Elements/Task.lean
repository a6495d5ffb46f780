import BpmnModel.Model.Process
import BpmnModel.Properties.Basic

/-!
# Tasks and sub-processes

Five elements become activities.  All of them share what their properties say; each kind
adds its fixed fields and its own rule.

## Main definitions

* `Task.seed` — the activity that the properties describe, with the defaults of its kind.
* `Task.readPlain`, `Task.readUser`, `Task.readSend`, `Task.readService`,
  `Task.readSubProcess` — the activity of an element, by kind.
-/

namespace BpmnModel.Task

/-- The activity that an element and its properties describe. -/
def seed (node : Element) (kind : ActivityKind) (p : Properties) : Activity where
  id := node.id
  name := node.name
  kind := kind
  application := (p.get? "application").getD ""
  subProcessModelId := (p.get? "subProcessModelId").getD ""
  subProcessDefinitionId := (p.get? "processId").getD ""
  dataMappings := p.mappings

/-- The behavior that the properties declare by its code, or the given one. -/
def behaviorOr (node : Element) (p : Properties) (fallback : TaskBehavior) :
    Except StructureError TaskBehavior :=
  match p.get? "behavior" with
  | none => .ok fallback
  | some raw =>
    match Coded.parseCode? raw with
    | some b => .ok b
    | none => .error (.invalidTaskBehavior node.id raw)

/-- Whether an element runs once per item of a collection. -/
def hasLoop (node : Element) : Bool :=
  node.children.any fun c => Text.endsWith c.tag "LoopCharacteristics"

/-- The first participant whose lane lists the element. -/
def assignee? (participants : List Participant) (node : Element) : Option Participant :=
  participants.find? fun p => p.performs node.id

/-! ## The five kinds -/

/-- A plain task sends, unless it declares another behavior. -/
def readPlain (s : Settings) (node : Element) : Except StructureError Activity := do
  let p ← Properties.readOrEmpty s node
  let behavior ← behaviorOr node p .send
  return { seed node .task p with behavior }

/-- A user task waits for the participant whose lane lists it. -/
def readUser (s : Settings) (participants : List Participant) (node : Element) :
    Except StructureError Activity :=
  match assignee? participants node with
  | none => .error (.noAssignee node.id)
  | some participant => do
    let p ← Properties.readOrEmpty s node
    return { seed node .userTask p with
      assignee := participant.id
      taskType := .user
      behavior := .sendReceive
      multiInstance := hasLoop node }

/-- A send task sends and receives, unless it declares another behavior. -/
def readSend (s : Settings) (node : Element) : Except StructureError Activity := do
  let p ← Properties.readOrEmpty s node
  let behavior ← behaviorOr node p .sendReceive
  return { seed node .sendTask p with taskType := .event, behavior }

/-- A service task has to name its application. -/
def readService (s : Settings) (node : Element) : Except StructureError Activity := do
  let p ← Properties.readOrEmpty s node
  match p.nonEmpty? "application" with
  | none => .error (.missingApplication node.id)
  | some _ => return { seed node .serviceTask p with taskType := .service, behavior := .send }

/-- A sub-process has to name the process that it calls. -/
def readSubProcess (s : Settings) (node : Element) : Except StructureError Activity := do
  let p ← Properties.readOrEmpty s node
  match p.nonEmpty? "processId" with
  | none => .error (.missingProcessId node.id)
  | some _ => return { seed node .subProcess p with activityType := .subprocess }

end BpmnModel.Task
