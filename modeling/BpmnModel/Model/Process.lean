import BpmnModel.Model.Activity
import BpmnModel.Model.Flow
import BpmnModel.Table

/-!
# Processes

A process collects its flow elements by kind, each collection in the order of the document.
-/

namespace BpmnModel

/-- The actor in charge of the tasks of one lane. -/
structure Participant where
  /-- Identifier of the lane. -/
  id : String
  /-- Display name of the lane. -/
  name : String
  /-- The tasks that the lane lists. -/
  tasks : List String
  /-- Whether the actor performs only under a condition, when the lane says so. -/
  conditionalPerformer : Option Bool
  /-- The extension properties of the lane. -/
  properties : Table String
deriving DecidableEq, Inhabited

/-- Whether the participant's lane lists the task. -/
def Participant.performs (p : Participant) (taskId : String) : Bool :=
  p.tasks.any fun t => t == taskId

/-- A process with its participants and its flow graph. -/
structure Process where
  /-- Identifier of the element. -/
  id : String
  /-- Display name of the element. -/
  name : String
  /-- The interface that the process offers. -/
  interface : String
  /-- The participants, in the order of their lanes. -/
  participants : List Participant := []
  /-- The plain tasks. -/
  tasks : List Activity := []
  /-- The tasks carried out by a participant. -/
  userTasks : List Activity := []
  /-- The tasks that send an event. -/
  sendTasks : List Activity := []
  /-- The tasks that call an application. -/
  serviceTasks : List Activity := []
  /-- The calls of other processes. -/
  subProcesses : List Activity := []
  /-- The gateways that choose one edge. -/
  xorGateways : List Gateway := []
  /-- The gateways that take all edges. -/
  andGateways : List Gateway := []
  /-- The edges. -/
  transitions : List Transition := []
  /-- The display name of each activity; of two activities with one id, the later one's. -/
  activityMap : Table String := .empty
  /-- The fallback edges of the gateways, with their targets. -/
  defaultTransitions : List DefaultTransition := []
deriving DecidableEq, Inhabited

namespace Process

/-- The activities of one kind. -/
def activitiesOf (p : Process) : ActivityKind → List Activity
  | .task => p.tasks
  | .userTask => p.userTasks
  | .sendTask => p.sendTasks
  | .serviceTask => p.serviceTasks
  | .subProcess => p.subProcesses

/-- All activities, kind by kind. -/
def activities (p : Process) : List Activity :=
  (Closed.all (α := ActivityKind)).flatMap p.activitiesOf

/-- The number of activities of all kinds. -/
def activityCount (p : Process) : Nat :=
  p.activities.length

/-- The number of gateways of both kinds. -/
def gatewayCount (p : Process) : Nat :=
  p.xorGateways.length + p.andGateways.length

/-- The first edge with the given identifier. -/
def transition? (p : Process) (id : String) : Option Transition :=
  p.transitions.find? fun t => t.id == id

/-! ## One more flow element -/

/-- The process with an activity at the end of the collection of its kind, and its name in the
stead of any other name for its identifier. -/
def addActivity (p : Process) (a : Activity) : Process :=
  let p := { p with activityMap := p.activityMap.insert a.id a.name }
  match a.kind with
  | .task => { p with tasks := p.tasks ++ [a] }
  | .userTask => { p with userTasks := p.userTasks ++ [a] }
  | .sendTask => { p with sendTasks := p.sendTasks ++ [a] }
  | .serviceTask => { p with serviceTasks := p.serviceTasks ++ [a] }
  | .subProcess => { p with subProcesses := p.subProcesses ++ [a] }

/-- The process with a gateway at the end of the collection of its type; one type has none. -/
def addGateway (p : Process) (g : Gateway) : Process :=
  match g.gatewayType with
  | .xor => { p with xorGateways := p.xorGateways ++ [g] }
  | .and => { p with andGateways := p.andGateways ++ [g] }
  | .or => p

/-- The process with an edge at the end of its edges. -/
def addTransition (p : Process) (t : Transition) : Process :=
  { p with transitions := p.transitions ++ [t] }

theorem activities_eq (p : Process) : p.activities =
    p.tasks ++ (p.userTasks ++ (p.sendTasks ++ (p.serviceTasks ++ p.subProcesses))) := by
  show _ ++ (_ ++ (_ ++ (_ ++ (_ ++ [])))) = _
  rw [List.append_nil]
  rfl

end Process

end BpmnModel
