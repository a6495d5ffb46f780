import BpmnModel.Model.Kinds

/-!
# Gateways, transitions and conditions

The edges of a process and the points where they fork and join.  A condition is declared as
text; checking a process fills in what the text stands for.
-/

namespace BpmnModel

/-- A point where edges fork or join. -/
structure Gateway where
  /-- Identifier of the element. -/
  id : String
  /-- How the gateway chooses. -/
  gatewayType : GatewayType
  /-- The edges that enter. -/
  incoming : List String
  /-- The edges that leave. -/
  outgoing : List String
  /-- The edge declared for the case that no condition holds. -/
  fallback : Option String
deriving DecidableEq, Repr, Inhabited

/-- The edge that a gateway takes when no condition on its other edges holds. -/
structure DefaultTransition where
  /-- The gateway. -/
  gateway : String
  /-- The edge. -/
  transition : String
  /-- The target of the edge; empty until the edge has been found. -/
  activity : String
deriving DecidableEq, Repr, Inhabited

/-- The right-hand side of a condition: as declared, or as read for the type of the field. -/
inductive ConditionValue where
  | raw (text : String)
  | bool (value : Bool)
  | int (value : Int64)
  | uint (value : UInt64)
  | text (value : String)
deriving DecidableEq, Repr, Inhabited

/-- The declared text, while the value has not been read. -/
def ConditionValue.raw? : ConditionValue → Option String
  | .raw s => some s
  | _ => none

/-- Compares a field of a data store with a value. -/
structure Condition where
  /-- The store of the compared field; empty for the process instance's own store. -/
  lhDataStorageId : String
  /-- The path of the compared field. -/
  lhDataPath : String
  /-- The operator as declared, without outer blanks. -/
  operator : String
  /-- The operator that the declaration stands for, once checked. -/
  comparator : Option Operator
  /-- The value to compare with. -/
  rhValue : ConditionValue
  /-- The store of a field to compare with. -/
  rhDataStorageId : Option String
  /-- The path of a field to compare with. -/
  rhDataPath : Option String
  /-- The storage type of the compared field, once checked. -/
  dataType : Option DataType
deriving DecidableEq, Repr, Inhabited

/-- An edge from one element to another. -/
structure Transition where
  /-- Identifier of the edge. -/
  id : String
  /-- The element that the edge leaves. -/
  source : String
  /-- The element that the edge enters. -/
  target : String
  /-- The condition under which the edge is taken. -/
  condition : Option Condition
deriving DecidableEq, Repr, Inhabited

end BpmnModel
