import BpmnModel.Model.Kinds
import BpmnModel.Model.Version

/-!
# Model metadata

What all processes of a document share: the name and version of the model, and the typed
fields that its data stores declare.
-/

namespace BpmnModel

/-- A typed field that a data store declares. -/
structure DataStoreField where
  /-- The store that declares the field. -/
  dataStorageId : String
  /-- The path of the field within the store. -/
  dataPath : String
  /-- The declared type. -/
  parameterType : ParameterType
deriving DecidableEq, Repr, Inhabited

/-- The metadata of a document, with the fields of its data stores. -/
structure Model where
  /-- Identifier of the collaboration. -/
  id : String
  /-- Display name of the collaboration. -/
  name : String
  /-- Version of the model. -/
  version : Version
  /-- Whether the model is marked as private. -/
  isPrivate : Bool
  /-- The declared fields, those of the process instance's own store first. -/
  dataStoreFields : List DataStoreField
deriving DecidableEq, Repr, Inhabited

/-- The first declared field with the given path. -/
def Model.field? (m : Model) (dataPath : String) : Option DataStoreField :=
  m.dataStoreFields.find? fun f => f.dataPath == dataPath

end BpmnModel
