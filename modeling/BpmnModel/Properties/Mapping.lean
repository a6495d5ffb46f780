import BpmnModel.Model.Activity
import BpmnModel.Settings
import BpmnModel.Table
import BpmnModel.Text.Blank

/-!
# Data mappings as properties

A data mapping is spread over three properties of a node.  With the standard prefixes the
mapping of the input slot `customer` is

    INDATAID_1                    customer
    INDATA_customer_dataPath      buyer
    INDATA_customer_dataStorageId PROCESS_INSTANCE

The first names the slot; the other two are found under keys that are built from the slot,
and of two properties with one key the later one counts.

## Main definitions

* `MappingFault` — what a declaration lacks.
* `DataMapping.decode settings entries` — the mappings that properties declare, in the order
  of the properties that name a slot.
* `DataMapping.encode settings mappings` — properties that declare given mappings.
-/

namespace BpmnModel

/-- What the declaration of a data mapping lacks. -/
inductive MappingFault where
  /-- The property names no slot. -/
  | unnamed (key : String)
  /-- A companion property is not there. -/
  | missing (id key : String)
deriving DecidableEq, Repr

/-- The text that describes an incomplete declaration. -/
def MappingFault.message : MappingFault → String
  | .unnamed key => "'" ++ key ++ "' does not name a data mapping id"
  | .missing id key => "data mapping '" ++ id ++ "' is missing '" ++ key ++ "'"

namespace DataMapping

/-! ## Keys -/

/-- How the keys of a direction begin. -/
def keyStart (s : Settings) : Direction → String
  | .input => s.inDataPrefix
  | .output => s.outDataPrefix

/-- How the keys that name a slot begin. -/
def idKeyStart (s : Settings) (d : Direction) : String :=
  keyStart s d ++ "ID"

/-- The key of the property that names the slot `id`. -/
def idKey (s : Settings) (d : Direction) (id : String) : String :=
  idKeyStart s d ++ "_" ++ id

/-- The key of a companion property of the slot `id`. -/
def companionKey (s : Settings) (d : Direction) (id part : String) : String :=
  keyStart s d ++ "_" ++ id ++ "_" ++ part

/-- The direction of a property that names a slot; the input prefix is tried first. -/
def directionOf? (s : Settings) (key : String) : Option Direction :=
  if Text.startsWith key (idKeyStart s .input) then some .input
  else if Text.startsWith key (idKeyStart s .output) then some .output
  else none

/-- Properties whose name begins with either prefix declare mappings and nothing else. -/
def isMappingKey (s : Settings) (key : String) : Bool :=
  Text.startsWith key s.inDataPrefix || Text.startsWith key s.outDataPrefix

/-! ## Reading -/

/-- A companion property of the slot `id`. -/
def companion (s : Settings) (values : Table String) (d : Direction) (id part : String) :
    Except MappingFault String :=
  match values.get? (companionKey s d id part) with
  | some v => .ok v
  | none => .error (.missing id (companionKey s d id part))

/-- The mapping whose slot is named by the property `key` with the given value. -/
def decodeEntry (s : Settings) (values : Table String) (d : Direction) (key value : String) :
    Except MappingFault DataMapping :=
  let id := Text.trim value
  if id = "" then .error (.unnamed key)
  else do
    let dataPath ← companion s values d id "dataPath"
    let dataStorageId ← companion s values d id "dataStorageId"
    return { id, direction := d, dataPath, dataStorageId := s.normalize dataStorageId }

/-- The properties that name a slot, each with its direction. -/
def idEntries (s : Settings) (entries : List (String × String)) :
    List (Direction × String × String) :=
  entries.filterMap fun e => (directionOf? s e.1).map fun d => (d, e)

/-- The mappings that properties declare. -/
def decode (s : Settings) (entries : List (String × String)) :
    Except MappingFault (List DataMapping) :=
  let values := Table.ofList entries
  (idEntries s entries).mapM fun e => decodeEntry s values e.1 e.2.1 e.2.2

/-! ## Writing -/

/-- The properties that declare one mapping. -/
def entries (s : Settings) (m : DataMapping) : List (String × String) :=
  [(idKey s m.direction m.id, m.id),
    (companionKey s m.direction m.id "dataPath", m.dataPath),
    (companionKey s m.direction m.id "dataStorageId", m.dataStorageId)]

/-- Properties that declare the given mappings, in order. -/
def encode (s : Settings) (mappings : List DataMapping) : List (String × String) :=
  mappings.flatMap (entries s)

@[simp] theorem encode_nil (s : Settings) : encode s [] = [] := rfl

@[simp] theorem encode_cons (s : Settings) (m : DataMapping) (ms : List DataMapping) :
    encode s (m :: ms) = entries s m ++ encode s ms := by
  simp [encode]

end DataMapping

end BpmnModel
