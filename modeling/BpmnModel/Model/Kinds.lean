import BpmnModel.Model.Code

/-!
# The kinds of a model

The closed sets that records refer to.  Codes are those of the downstream engine; labels
are what summaries and messages show; symbols are what the textual form of a document and
a settings file write.
-/

namespace BpmnModel

/-! ## Activities -/

/-- What an activity is. -/
inductive ActivityType where
  | task
  | subprocess
deriving DecidableEq, Repr, Inhabited

instance : Coded ActivityType where
  all := [.task, .subprocess]
  symbol
    | .task => "TASK"
    | .subprocess => "SUBPROCESS"
  mem_all a := by cases a <;> decide
  symbol_injective a b := by cases a <;> cases b <;> simp
  code
    | .task => 0
    | .subprocess => 1
  label
    | .task => "TASK"
    | .subprocess => "SUBPROCESS"
  code_injective a b := by cases a <;> cases b <;> simp

/-- Who carries out a task. -/
inductive TaskType where
  | unassigned
  | user
  | service
  | event
deriving DecidableEq, Repr, Inhabited

instance : Coded TaskType where
  all := [.unassigned, .user, .service, .event]
  symbol
    | .unassigned => "NONE"
    | .user => "USER"
    | .service => "SERVICE"
    | .event => "EVENT"
  mem_all a := by cases a <;> decide
  symbol_injective a b := by cases a <;> cases b <;> simp
  code
    | .unassigned => 0
    | .user => 1
    | .service => 2
    | .event => 3
  label
    | .unassigned => "NONE"
    | .user => "USER"
    | .service => "SERVICE"
    | .event => "EVENT"
  code_injective a b := by cases a <;> cases b <;> simp

/-- How a task interacts with its application. -/
inductive TaskBehavior where
  | send
  | sendReceive
  | receive
deriving DecidableEq, Repr, Inhabited

instance : Coded TaskBehavior where
  all := [.send, .sendReceive, .receive]
  symbol
    | .send => "SEND"
    | .sendReceive => "SEND_RECEIVE"
    | .receive => "RECEIVE"
  mem_all a := by cases a <;> decide
  symbol_injective a b := by cases a <;> cases b <;> simp
  code
    | .send => 0
    | .sendReceive => 1
    | .receive => 2
  label
    | .send => "SEND"
    | .sendReceive => "SENDRECEIVE"
    | .receive => "RECEIVE"
  code_injective a b := by cases a <;> cases b <;> simp

/-- The element that an activity stands for, and so the collection that holds it. -/
inductive ActivityKind where
  | task
  | userTask
  | sendTask
  | serviceTask
  | subProcess
deriving DecidableEq, Repr, Inhabited

instance : Closed ActivityKind where
  all := [.task, .userTask, .sendTask, .serviceTask, .subProcess]
  symbol
    | .task => "Task"
    | .userTask => "UserTask"
    | .sendTask => "SendTask"
    | .serviceTask => "ServiceTask"
    | .subProcess => "SubProcess"
  mem_all a := by cases a <;> decide
  symbol_injective a b := by cases a <;> cases b <;> simp

/-! ## Gateways and conditions -/

/-- How a gateway chooses among its edges. -/
inductive GatewayType where
  | xor
  | or
  | and
deriving DecidableEq, Repr, Inhabited

instance : Coded GatewayType where
  all := [.xor, .or, .and]
  symbol
    | .xor => "XOR"
    | .or => "OR"
    | .and => "AND"
  mem_all a := by cases a <;> decide
  symbol_injective a b := by cases a <;> cases b <;> simp
  code
    | .xor => 0
    | .or => 1
    | .and => 2
  label
    | .xor => "XOR"
    | .or => "OR"
    | .and => "AND"
  code_injective a b := by cases a <;> cases b <;> simp

/-- Whether a data mapping feeds an activity or is filled by it. -/
inductive Direction where
  | input
  | output
deriving DecidableEq, Repr, Inhabited

instance : Coded Direction where
  all := [.input, .output]
  symbol
    | .input => "IN"
    | .output => "OUT"
  mem_all a := by cases a <;> decide
  symbol_injective a b := by cases a <;> cases b <;> simp
  code
    | .input => 0
    | .output => 1
  label
    | .input => "IN"
    | .output => "OUT"
  code_injective a b := by cases a <;> cases b <;> simp

/-- The comparator of a condition. -/
inductive Operator where
  | eq
  | lt
  | gt
  | lte
  | gte
  | neq
deriving DecidableEq, Repr, Inhabited

instance : Coded Operator where
  all := [.eq, .lt, .gt, .lte, .gte, .neq]
  symbol
    | .eq => "EQ"
    | .lt => "LT"
    | .gt => "GT"
    | .lte => "LTE"
    | .gte => "GTE"
    | .neq => "NEQ"
  mem_all a := by cases a <;> decide
  symbol_injective a b := by cases a <;> cases b <;> simp
  code
    | .eq => 0
    | .lt => 1
    | .gt => 2
    | .lte => 3
    | .gte => 4
    | .neq => 5
  label
    | .eq => "=="
    | .lt => "<"
    | .gt => ">"
    | .lte => "<="
    | .gte => ">="
    | .neq => "!="
  code_injective a b := by cases a <;> cases b <;> simp

/-! ## Data -/

/-- The type of a data-store field as its author sees it. -/
inductive ParameterType where
  | boolean
  | string
  | number
  | date
  | datetime
  | monetaryAmount
  | userOrganization
  | contractAddress
  | signingParty
  | bytes32
  | document
  | largeText
  | positiveNumber
deriving DecidableEq, Repr, Inhabited

namespace ParameterType

/-- The upper-case name, which is also the label. -/
def name : ParameterType → String
  | .boolean => "BOOLEAN"
  | .string => "STRING"
  | .number => "NUMBER"
  | .date => "DATE"
  | .datetime => "DATETIME"
  | .monetaryAmount => "MONETARY_AMOUNT"
  | .userOrganization => "USER_ORGANIZATION"
  | .contractAddress => "CONTRACT_ADDRESS"
  | .signingParty => "SIGNING_PARTY"
  | .bytes32 => "BYTES32"
  | .document => "DOCUMENT"
  | .largeText => "LARGE_TEXT"
  | .positiveNumber => "POSITIVE_NUMBER"

end ParameterType

instance : Coded ParameterType where
  all := [.boolean, .string, .number, .date, .datetime, .monetaryAmount, .userOrganization,
    .contractAddress, .signingParty, .bytes32, .document, .largeText, .positiveNumber]
  symbol := ParameterType.name
  mem_all a := by cases a <;> decide
  symbol_injective a b := by cases a <;> cases b <;> simp [ParameterType.name]
  code
    | .boolean => 0
    | .string => 1
    | .number => 2
    | .date => 3
    | .datetime => 4
    | .monetaryAmount => 5
    | .userOrganization => 6
    | .contractAddress => 7
    | .signingParty => 8
    | .bytes32 => 9
    | .document => 10
    | .largeText => 11
    | .positiveNumber => 12
  label := ParameterType.name
  code_injective a b := by cases a <;> cases b <;> simp

/-- The type under which storage holds a value, and to which conditions are read. -/
inductive DataType where
  | bool
  | string
  | uint256
  | int256
  | address
  | bytes32
deriving DecidableEq, Repr, Inhabited

instance : Coded DataType where
  all := [.bool, .string, .uint256, .int256, .address, .bytes32]
  symbol
    | .bool => "BOOL"
    | .string => "STRING"
    | .uint256 => "UINT256"
    | .int256 => "INT256"
    | .address => "ADDRESS"
    | .bytes32 => "BYTES32"
  mem_all a := by cases a <;> decide
  symbol_injective a b := by cases a <;> cases b <;> simp
  code
    | .bool => 1
    | .string => 2
    | .uint256 => 8
    | .int256 => 18
    | .address => 40
    | .bytes32 => 59
  label
    | .bool => "BOOL"
    | .string => "STRING"
    | .uint256 => "UINT256"
    | .int256 => "INT256"
    | .address => "ADDRESS"
    | .bytes32 => "BYTES32"
  code_injective a b := by cases a <;> cases b <;> simp

end BpmnModel
