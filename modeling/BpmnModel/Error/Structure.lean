/-!
# Structural errors

A document that breaks a structural rule is refused at the first such place.  Each error
carries the identifiers and texts that its message shows.
-/

namespace BpmnModel

/-- Why the structure of a document can not be compiled. -/
inductive StructureError where
  | malformedExtension (nodeId reason : String)
  | invalidTaskBehavior (taskId value : String)
  | noAssignee (taskId : String)
  | missingApplication (taskId : String)
  | missingProcessId (activityId : String)
  | gatewayMissingEdges (gatewayId : String)
  | degenerateGateway (gatewayId : String)
  | incompleteCondition (transitionId : String) (missing : List String)
  | danglingDefault (gatewayId transitionId : String)
  | missingDataStore (dataStorageId : String)
  | invalidAgreementField (dataStorageId field : String)
  | invalidParameterType (dataStorageId dataPath value : String)
  | noModelDetails
  | invalidVersion (raw : String)
  | missingAttribute (element name : String)
  | unexpectedRoot (tag : String)
  | unsupportedElement (id tag : String)
  | noProcesses
deriving DecidableEq, Repr

/-- The text shown for a structural error. -/
def StructureError.message : StructureError → String
  | .malformedExtension nodeId reason =>
    "Malformed extension properties on node '" ++ nodeId ++ "': " ++ reason
  | .invalidTaskBehavior taskId value =>
    "Task '" ++ taskId ++ "' declares invalid behavior '" ++ value ++ "'"
  | .noAssignee taskId =>
    "No assignee found for user task '" ++ taskId ++ "': no participant lists it"
  | .missingApplication taskId =>
    "Service task '" ++ taskId ++ "' does not declare an application"
  | .missingProcessId activityId =>
    "Sub-process '" ++ activityId ++ "' does not declare a processId"
  | .gatewayMissingEdges gatewayId =>
    "Gateway '" ++ gatewayId ++ "' must have at least one incoming and one outgoing transition"
  | .degenerateGateway gatewayId =>
    "Gateway '" ++ gatewayId ++ "' has exactly one incoming and one outgoing transition; " ++
      "a gateway must fork or join"
  | .incompleteCondition transitionId missing =>
    "Condition on transition '" ++ transitionId ++ "' is incomplete, missing: " ++
      ", ".intercalate missing
  | .danglingDefault gatewayId transitionId =>
    "Default transition '" ++ transitionId ++ "' of gateway '" ++ gatewayId ++
      "' does not exist"
  | .missingDataStore dataStorageId =>
    "Required data store '" ++ dataStorageId ++ "' is not declared"
  | .invalidAgreementField dataStorageId field =>
    "Data store '" ++ dataStorageId ++ "' must declare field '" ++ field ++
      "' of type CONTRACT_ADDRESS"
  | .invalidParameterType dataStorageId dataPath value =>
    "Field '" ++ dataPath ++ "' of data store '" ++ dataStorageId ++
      "' has invalid parameter type '" ++ value ++ "'"
  | .noModelDetails =>
    "No model details found: the collaboration is missing or has no extension properties"
  | .invalidVersion raw =>
    "Invalid model version '" ++ raw ++ "': expected numeric 'major.minor.patch'"
  | .missingAttribute element name =>
    "Element '" ++ element ++ "' is missing required attribute '" ++ name ++ "'"
  | .unexpectedRoot tag => "Expected a 'definitions' root element, found '" ++ tag ++ "'"
  | .unsupportedElement id tag =>
    "Element '" ++ id ++ "' of kind '" ++ tag ++ "' is not supported"
  | .noProcesses => "Document declares no process"

end BpmnModel
