import BpmnModel.Model.Kinds

/-!
# Activities

All kinds of activity share one shape.  A field that means nothing for a kind keeps the
default that is written here.
-/

namespace BpmnModel

/-- Binds an input or output slot of an activity to a field of a data store. -/
structure DataMapping where
  /-- The slot. -/
  id : String
  /-- Whether the slot is fed or filled. -/
  direction : Direction
  /-- The path of the field. -/
  dataPath : String
  /-- The store of the field; empty for the process instance's own store. -/
  dataStorageId : String
deriving DecidableEq, Repr, Inhabited

/-- An activity of a process. -/
structure Activity where
  /-- Identifier of the element. -/
  id : String
  /-- Display name of the element. -/
  name : String
  /-- The element that the activity stands for. -/
  kind : ActivityKind
  /-- The participant in charge; only user tasks have one. -/
  assignee : String := ""
  /-- What the activity is. -/
  activityType : ActivityType := .task
  /-- Who carries it out. -/
  taskType : TaskType := .unassigned
  /-- How it interacts with its application. -/
  behavior : TaskBehavior := .send
  /-- Whether the activity runs once per item of a collection. -/
  multiInstance : Bool := false
  /-- The application in charge. -/
  application : String := ""
  /-- The model of a called sub-process. -/
  subProcessModelId : String := ""
  /-- The process that a sub-process calls. -/
  subProcessDefinitionId : String := ""
  /-- The data mappings, absent when the element declares none. -/
  dataMappings : Option (List DataMapping) := none
deriving DecidableEq, Repr, Inhabited

end BpmnModel
