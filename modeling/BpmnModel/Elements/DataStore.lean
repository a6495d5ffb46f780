import BpmnModel.Model.Metadata
import BpmnModel.Properties.Basic

/-!
# Data stores

A data store declares its fields as properties: the name is the path of the field, the
value the code of its type.  Two stores are reserved and have to be declared.

## Main definitions

* `DataStore.read settings root storeId` — the fields of a store, ordered by path.
-/

namespace BpmnModel.DataStore

/-- The field that a property of the store `storeId` declares. -/
def readField (storeId path raw : String) : Except StructureError DataStoreField :=
  match Coded.parseCode? raw with
  | some t => .ok { dataStorageId := storeId, dataPath := path, parameterType := t }
  | none => .error (.invalidParameterType storeId path raw)

/-- The fields of the first store of the document with the given identifier, ordered by
path.  The first path in that order whose type is no code is told, wherever it was
declared. -/
def read (s : Settings) (root : Element) (storeId : String) :
    Except StructureError (List DataStoreField) :=
  match root.findById? "dataStore" storeId with
  | none => .error (.missingDataStore storeId)
  | some store => do
    match ← Properties.read s store with
    | none => return []
    | some p => p.values.entries.mapM fun e => readField storeId e.1 e.2

end BpmnModel.DataStore
