import BpmnModel.Model.Flow
import BpmnModel.Properties.Basic

/-!
# Sequence flows

A sequence flow is an edge between two elements.  Its properties may declare a condition,
for which four of them belong together: either all are there or none.

## Main definitions

* `SequenceFlow.conditionKeys` — the properties that belong together.
* `SequenceFlow.read settings node` — the transition of an element, its condition as
  declared.
-/

namespace BpmnModel.SequenceFlow

/-- The properties that make up a condition. -/
def conditionKeys : List String :=
  ["lhDataPath", "lhDataStorageId", "operator", "rhValue"]

/-- The properties of a condition that are not there. -/
def missingKeys (p : Properties) : List String :=
  conditionKeys.filter fun k => !p.contains k

/-- An attribute that has to be there and not to be empty. -/
def requiredAttr (node : Element) (name : String) : Except StructureError String :=
  match (node.attr? name).filter fun v => v != "" with
  | some v => .ok v
  | none => .error (.missingAttribute node.id name)

/-- The condition that properties declare, all keys being there. -/
def declaredCondition (s : Settings) (p : Properties) : Condition where
  lhDataStorageId := s.normalize ((p.get? "lhDataStorageId").getD "")
  lhDataPath := (p.get? "lhDataPath").getD ""
  operator := Text.trim ((p.get? "operator").getD "")
  comparator := none
  rhValue := .raw ((p.get? "rhValue").getD "")
  rhDataStorageId := (p.get? "rhDataStorageId").map s.normalize
  rhDataPath := p.get? "rhDataPath"
  dataType := none

/-- The condition of the transition `id`, as its properties declare it. -/
def readCondition (s : Settings) (id : String) (p : Properties) :
    Except StructureError (Option Condition) :=
  match missingKeys p with
  | [] => .ok (some (declaredCondition s p))
  | missing =>
    if missing = conditionKeys then .ok none
    else .error (.incompleteCondition id missing)

/-- The transition of an element. -/
def read (s : Settings) (node : Element) : Except StructureError Transition := do
  let source ← requiredAttr node "sourceRef"
  let target ← requiredAttr node "targetRef"
  let condition ← match ← Properties.read s node with
    | none => pure none
    | some p => readCondition s node.id p
  return { id := node.id, source, target, condition }

end BpmnModel.SequenceFlow
