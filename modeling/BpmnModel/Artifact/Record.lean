import BpmnModel.Codec.Member
import BpmnModel.Model.Document

/-!
# Records as bytes

Each record of a compiled document is written as its fields, one after the other and
nothing between them.
-/

namespace BpmnModel.Artifact

open Codec

/-- Three numbers without a length. -/
def version : Codec Version :=
  (word32.pair <| word32.pair word32).map
    (fun (major, minor, patch) => { major, minor, patch })
    fun v => (v.major, v.minor, v.patch)

/-- A declared field of a data store. -/
def dataStoreField : Codec DataStoreField :=
  (string.pair <| string.pair member).map
    (fun (dataStorageId, dataPath, parameterType) => { dataStorageId, dataPath, parameterType })
    fun f => (f.dataStorageId, f.dataPath, f.parameterType)

/-- The metadata of a document. -/
def model : Codec Model :=
  (string.pair <| string.pair <| version.pair <| bool.pair <| list dataStoreField).map
    (fun (id, name, version, isPrivate, dataStoreFields) =>
      { id, name, version, isPrivate, dataStoreFields })
    fun m => (m.id, m.name, m.version, m.isPrivate, m.dataStoreFields)

/-- A participant. -/
def participant : Codec Participant :=
  (string.pair <| string.pair <| (list string).pair <| (option bool).pair <| table string).map
    (fun (id, name, tasks, conditionalPerformer, properties) =>
      { id, name, tasks, conditionalPerformer, properties })
    fun p => (p.id, p.name, p.tasks, p.conditionalPerformer, p.properties)

/-- A data mapping. -/
def dataMapping : Codec DataMapping :=
  (string.pair <| member.pair <| string.pair string).map
    (fun (id, direction, dataPath, dataStorageId) => { id, direction, dataPath, dataStorageId })
    fun m => (m.id, m.direction, m.dataPath, m.dataStorageId)

/-- An activity. -/
def activity : Codec Activity :=
  (string.pair <| string.pair <| member.pair <| string.pair <| member.pair <| member.pair <|
    member.pair <| bool.pair <| string.pair <| string.pair <| string.pair <|
    option (list dataMapping)).map
    (fun (id, name, kind, assignee, activityType, taskType, behavior, multiInstance, application,
        subProcessModelId, subProcessDefinitionId, dataMappings) =>
      { id, name, kind, assignee, activityType, taskType, behavior, multiInstance, application,
        subProcessModelId, subProcessDefinitionId, dataMappings })
    fun a => (a.id, a.name, a.kind, a.assignee, a.activityType, a.taskType, a.behavior,
      a.multiInstance, a.application, a.subProcessModelId, a.subProcessDefinitionId,
      a.dataMappings)

/-- A gateway. -/
def gateway : Codec Gateway :=
  (string.pair <| member.pair <| (list string).pair <| (list string).pair <| option string).map
    (fun (id, gatewayType, incoming, outgoing, fallback) =>
      { id, gatewayType, incoming, outgoing, fallback })
    fun g => (g.id, g.gatewayType, g.incoming, g.outgoing, g.fallback)

/-- A fallback edge. -/
def defaultTransition : Codec DefaultTransition :=
  (string.pair <| string.pair string).map
    (fun (gateway, transition, activity) => { gateway, transition, activity })
    fun d => (d.gateway, d.transition, d.activity)

/-! ## Conditions -/

/-- The value of a condition: its kind as a number, then what it holds. -/
def conditionValue : Codec ConditionValue where
  encode
    | .raw s => encodeWord 0 ++ string.encode s
    | .bool b => encodeWord 1 ++ bool.encode b
    | .int n => encodeWord 2 ++ int64.encode n
    | .uint n => encodeWord 3 ++ word64.encode n
    | .text s => encodeWord 4 ++ string.encode s
  decode bytes := do
    let (kind, rest) ← decodeWord 4 bytes
    match kind with
    | 0 => (string.decode rest).map fun r => (.raw r.1, r.2)
    | 1 => (bool.decode rest).map fun r => (.bool r.1, r.2)
    | 2 => (int64.decode rest).map fun r => (.int r.1, r.2)
    | 3 => (word64.decode rest).map fun r => (.uint r.1, r.2)
    | 4 => (string.decode rest).map fun r => (.text r.1, r.2)
    | _ => none

/-- A condition. -/
def condition : Codec Condition :=
  (string.pair <| string.pair <| string.pair <| (option member).pair <| conditionValue.pair <|
    (option string).pair <| (option string).pair <| option member).map
    (fun (lhDataStorageId, lhDataPath, operator, comparator, rhValue, rhDataStorageId,
        rhDataPath, dataType) =>
      { lhDataStorageId, lhDataPath, operator, comparator, rhValue, rhDataStorageId,
        rhDataPath, dataType })
    fun c => (c.lhDataStorageId, c.lhDataPath, c.operator, c.comparator, c.rhValue,
      c.rhDataStorageId, c.rhDataPath, c.dataType)

/-- A transition. -/
def transition : Codec Transition :=
  (string.pair <| string.pair <| string.pair <| option condition).map
    (fun (id, source, target, condition) => { id, source, target, condition })
    fun t => (t.id, t.source, t.target, t.condition)

/-! ## Processes -/

/-- A process. -/
def process : Codec Process :=
  (string.pair <| string.pair <| string.pair <| (list participant).pair <|
    (list activity).pair <| (list activity).pair <| (list activity).pair <|
    (list activity).pair <| (list activity).pair <| (list gateway).pair <|
    (list gateway).pair <| (list transition).pair <| (table string).pair <|
    list defaultTransition).map
    (fun (id, name, interface, participants, tasks, userTasks, sendTasks, serviceTasks,
        subProcesses, xorGateways, andGateways, transitions, activityMap,
        defaultTransitions) =>
      { id, name, interface, participants, tasks, userTasks, sendTasks, serviceTasks,
        subProcesses, xorGateways, andGateways, transitions, activityMap,
        defaultTransitions })
    fun p => (p.id, p.name, p.interface, p.participants, p.tasks, p.userTasks, p.sendTasks,
      p.serviceTasks, p.subProcesses, p.xorGateways, p.andGateways, p.transitions,
      p.activityMap, p.defaultTransitions)

/-- A document: its model, then its processes. -/
def document : Codec Document :=
  (model.pair (list process)).map
    (fun (model, processes) => { model, processes })
    fun d => (d.model, d.processes)

end BpmnModel.Artifact
