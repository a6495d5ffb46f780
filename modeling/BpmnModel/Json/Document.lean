import BpmnModel.Json.Printer
import BpmnModel.Model.Document

/-!
# Documents as JSON

Each record is an object with its fields in their order.  A member of a closed set is its
symbol, an absent value is null, and a table is an object with its entries in their order.

## Main definitions

* `Document.toJson d` — the value of a document.
* `Document.json d` — its text.
-/

namespace BpmnModel

namespace Json

/-- The symbol of a member of a closed set. -/
def ofMember {α : Type} [DecidableEq α] [Closed α] (a : α) : Json :=
  .ofText (Closed.symbol a)

/-- The object with the entries of a table. -/
def ofTable (t : Table String) : Json :=
  record (t.entries.map fun e => (e.1, .ofText e.2))

end Json

/-! ## Metadata -/

/-- A version is the array of its three numbers. -/
def Version.toJson (v : Version) : Json :=
  .ofList (fun n => .ofNat n.toNat) [v.major, v.minor, v.patch]

/-- The object of a declared field. -/
def DataStoreField.toJson (f : DataStoreField) : Json :=
  .record [
    ("data_storage_id", .ofText f.dataStorageId),
    ("data_path", .ofText f.dataPath),
    ("parameter_type", .ofMember f.parameterType)]

/-- The object of a model. -/
def Model.toJson (m : Model) : Json :=
  .record [
    ("id", .ofText m.id),
    ("name", .ofText m.name),
    ("version", m.version.toJson),
    ("private", .bool m.isPrivate),
    ("data_store_fields", .ofList DataStoreField.toJson m.dataStoreFields)]

/-! ## Participants and activities -/

/-- The object of a participant. -/
def Participant.toJson (p : Participant) : Json :=
  .record [
    ("id", .ofText p.id),
    ("name", .ofText p.name),
    ("tasks", .ofList .ofText p.tasks),
    ("conditional_performer", .ofOption .bool p.conditionalPerformer),
    ("properties", .ofTable p.properties)]

/-- The object of a data mapping. -/
def DataMapping.toJson (m : DataMapping) : Json :=
  .record [
    ("id", .ofText m.id),
    ("direction", .ofMember m.direction),
    ("data_path", .ofText m.dataPath),
    ("data_storage_id", .ofText m.dataStorageId)]

/-- The object of an activity. -/
def Activity.toJson (a : Activity) : Json :=
  .record [
    ("id", .ofText a.id),
    ("name", .ofText a.name),
    ("kind", .ofMember a.kind),
    ("assignee", .ofText a.assignee),
    ("activity_type", .ofMember a.activityType),
    ("task_type", .ofMember a.taskType),
    ("behavior", .ofMember a.behavior),
    ("multi_instance", .bool a.multiInstance),
    ("application", .ofText a.application),
    ("sub_process_model_id", .ofText a.subProcessModelId),
    ("sub_process_definition_id", .ofText a.subProcessDefinitionId),
    ("data_mappings", .ofOption (.ofList DataMapping.toJson) a.dataMappings)]

/-! ## Edges -/

/-- The object of a gateway. -/
def Gateway.toJson (g : Gateway) : Json :=
  .record [
    ("id", .ofText g.id),
    ("gateway_type", .ofMember g.gatewayType),
    ("incoming", .ofList .ofText g.incoming),
    ("outgoing", .ofList .ofText g.outgoing),
    ("default", .ofOption .ofText g.fallback)]

/-- The object of a fallback edge. -/
def DefaultTransition.toJson (d : DefaultTransition) : Json :=
  .record [
    ("gateway", .ofText d.gateway),
    ("transition", .ofText d.transition),
    ("activity", .ofText d.activity)]

/-- A value is an object with one member, whose name tells the kind. -/
def ConditionValue.toJson : ConditionValue → Json
  | .raw s => .record [("Raw", .ofText s)]
  | .bool b => .record [("Bool", .bool b)]
  | .int n => .record [("Int", .ofInt n.toInt)]
  | .uint n => .record [("Uint", .ofNat n.toNat)]
  | .text s => .record [("Text", .ofText s)]

/-- The object of a condition. -/
def Condition.toJson (c : Condition) : Json :=
  .record [
    ("lh_data_storage_id", .ofText c.lhDataStorageId),
    ("lh_data_path", .ofText c.lhDataPath),
    ("operator", .ofText c.operator),
    ("comparator", .ofOption .ofMember c.comparator),
    ("rh_value", c.rhValue.toJson),
    ("rh_data_storage_id", .ofOption .ofText c.rhDataStorageId),
    ("rh_data_path", .ofOption .ofText c.rhDataPath),
    ("data_type", .ofOption .ofMember c.dataType)]

/-- The object of a transition. -/
def Transition.toJson (t : Transition) : Json :=
  .record [
    ("id", .ofText t.id),
    ("source", .ofText t.source),
    ("target", .ofText t.target),
    ("condition", .ofOption Condition.toJson t.condition)]

/-! ## Processes and documents -/

/-- The object of a process. -/
def Process.toJson (p : Process) : Json :=
  .record [
    ("id", .ofText p.id),
    ("name", .ofText p.name),
    ("interface", .ofText p.interface),
    ("participants", .ofList Participant.toJson p.participants),
    ("tasks", .ofList Activity.toJson p.tasks),
    ("user_tasks", .ofList Activity.toJson p.userTasks),
    ("send_tasks", .ofList Activity.toJson p.sendTasks),
    ("service_tasks", .ofList Activity.toJson p.serviceTasks),
    ("sub_processes", .ofList Activity.toJson p.subProcesses),
    ("xor_gateways", .ofList Gateway.toJson p.xorGateways),
    ("and_gateways", .ofList Gateway.toJson p.andGateways),
    ("transitions", .ofList Transition.toJson p.transitions),
    ("activity_map", .ofTable p.activityMap),
    ("default_transitions", .ofList DefaultTransition.toJson p.defaultTransitions)]

namespace Document

/-- The value of a document. -/
def toJson (d : Document) : Json :=
  .record [
    ("model", d.model.toJson),
    ("processes", .ofList Process.toJson d.processes)]

/-- The text of a document. -/
def json (d : Document) : String :=
  d.toJson.pretty

end Document

end BpmnModel
