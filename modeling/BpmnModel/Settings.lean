import BpmnModel.Model.Kinds

/-!
# Settings

The reserved names and the type table that documents are compiled against.  A settings
value without any override is the standard one.

## Main definitions

* `Settings` — reserved names and type mappings, each with its standard value.
* `Settings.dataTypeFor?` — the storage type of a parameter type; the first mapping counts.
* `Settings.normalize` — the empty text stands for the process instance's own store.
* `SettingsError` — why settings could not be loaded.
-/

namespace BpmnModel

/-- Assigns a storage type to a parameter type. -/
structure TypeMapping where
  /-- The type that a document declares. -/
  parameterType : ParameterType
  /-- The type to which conditions are read. -/
  dataType : DataType
deriving DecidableEq, Repr, Inhabited

namespace TypeMapping

/-- One mapping for each parameter type. -/
def standard : List TypeMapping :=
  [⟨.boolean, .bool⟩, ⟨.string, .string⟩, ⟨.number, .int256⟩, ⟨.date, .uint256⟩,
    ⟨.datetime, .uint256⟩, ⟨.monetaryAmount, .int256⟩, ⟨.userOrganization, .address⟩,
    ⟨.contractAddress, .address⟩, ⟨.signingParty, .address⟩, ⟨.bytes32, .bytes32⟩,
    ⟨.document, .string⟩, ⟨.largeText, .string⟩, ⟨.positiveNumber, .uint256⟩]

/-- The standard mappings name every parameter type once, in order. -/
example : standard.map parameterType = Closed.all := by decide

end TypeMapping

/-- Reserved names and type mappings. -/
structure Settings where
  /-- The process instance's own store. -/
  processInstanceStore : String := "PROCESS_INSTANCE"
  /-- The store of the agreement. -/
  agreementStore : String := "agreement"
  /-- The field of the instance store that has to hold a contract address. -/
  agreementField : String := "agreement"
  /-- How the names of input mapping properties begin. -/
  inDataPrefix : String := "INDATA"
  /-- How the names of output mapping properties begin. -/
  outDataPrefix : String := "OUTDATA"
  /-- The property of a process that holds its interface. -/
  interfaceProperty : String := "processInterface"
  /-- The storage types of the parameter types. -/
  typeMappings : List TypeMapping := TypeMapping.standard
deriving DecidableEq, Repr, Inhabited

namespace Settings

/-- Settings without any override. -/
def standard : Settings := {}

/-- The storage type of a parameter type, by the first mapping that names it. -/
def dataTypeFor? (s : Settings) (t : ParameterType) : Option DataType :=
  (s.typeMappings.find? fun m => m.parameterType == t).map TypeMapping.dataType

/-- The empty text in the stead of the process instance's own store; any other store is kept
as it is. -/
def normalize (s : Settings) (dataStorageId : String) : String :=
  if dataStorageId = s.processInstanceStore then "" else dataStorageId

@[simp] theorem normalize_processInstanceStore (s : Settings) :
    s.normalize s.processInstanceStore = "" := by
  simp [normalize]

/-- Normalizing twice is normalizing once. -/
@[simp] theorem normalize_normalize (s : Settings) (i : String) :
    s.normalize (s.normalize i) = s.normalize i := by
  by_cases h : i = s.processInstanceStore
  · by_cases h' : "" = s.processInstanceStore <;> simp [normalize, h, h']
  · simp [normalize, h]

/-- A normalized store is not the reserved one, unless that has the empty name. -/
theorem normalize_ne (s : Settings) (h : s.processInstanceStore ≠ "") (i : String) :
    s.normalize i ≠ s.processInstanceStore := by
  unfold normalize
  split
  · exact fun e => h e.symm
  · assumption

end Settings

/-- Why settings could not be loaded. -/
inductive SettingsError where
  /-- The file could not be read. -/
  | io (path message : String)
  /-- The text is no settings value. -/
  | invalid (message : String)
deriving DecidableEq, Repr

/-- The text shown for a failure to load settings. -/
def SettingsError.message : SettingsError → String
  | .io path message => "Could not read configuration file '" ++ path ++ "': " ++ message
  | .invalid message => "Invalid configuration: " ++ message

end BpmnModel
