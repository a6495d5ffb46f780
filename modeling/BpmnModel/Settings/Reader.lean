import BpmnModel.Json.Reader
import BpmnModel.Settings

/-!
# Reading settings

Settings are an object that names what it overrides, or an array that gives the values by
position.  Unknown names are passed over, a known one may stand once, and what is not named
keeps its standard value.

## Main definitions

* `Json.fields? names v` — the members of a record, by name.
* `Settings.ofJson? v` — the settings that a value stands for.
* `Settings.ofText text` — the settings that a text stands for.
-/

namespace BpmnModel

namespace Json

/-! ## Records -/

/-- The members of an object with their names read. -/
def readNames (members : List (List Char × Json)) : Option (List (String × Json)) :=
  members.mapM fun m => (textOf? m.1).map fun name => (name, m.2)

/-- Whether a name stands at most once. -/
def isSingle (members : List (String × Json)) (name : String) : Bool :=
  (members.filter fun m => m.1 == name).length ≤ 1

/-- The members of a record: those of an object, where none of the given names is repeated,
or the items of an array, which take the given names in order. -/
def fields? (names : List String) : Json → Option (List (String × Json))
  | .object members => do
    let members ← readNames members
    if names.all (isSingle members) then return members else none
  | .array items => if items.length ≤ names.length then some (names.zip items) else none
  | _ => none

/-- The member of a closed set with the symbol that a value stands for, which may be the one
name of an object with a null. -/
def member? {α : Type} [DecidableEq α] [Closed α] : Json → Option α
  | .string literal => (textOf? literal).bind Closed.ofSymbol?
  | .object [(name, .null)] => (textOf? name).bind Closed.ofSymbol?
  | _ => none

end Json

/-! ## Settings -/

/-- The type mapping that a value stands for; both types have to be there. -/
def TypeMapping.ofJson? (v : Json) : Option TypeMapping := do
  let fields ← v.fields? ["parameterType", "dataType"]
  let parameterType ← (← fields.lookup "parameterType").member?
  let dataType ← (← fields.lookup "dataType").member?
  return { parameterType, dataType }

namespace Settings

/-- The names of the settings, in the order in which an array gives them. -/
def names : List String :=
  ["processInstanceStore", "agreementStore", "agreementField", "inDataPrefix",
    "outDataPrefix", "interfaceProperty", "typeMappings"]

/-- The text of a field, or the given one without the field. -/
def textOr (fields : List (String × Json)) (name standard : String) : Option String :=
  match fields.lookup name with
  | none => some standard
  | some v => v.text?

/-- The type mappings of a field, or the standard ones without the field. -/
def mappingsOf (fields : List (String × Json)) : Option (List TypeMapping) :=
  match fields.lookup "typeMappings" with
  | none => some TypeMapping.standard
  | some (.array items) => items.mapM TypeMapping.ofJson?
  | some _ => none

/-- The settings that a value stands for. -/
def ofJson? (v : Json) : Option Settings := do
  let fields ← v.fields? names
  let processInstanceStore ←
    textOr fields "processInstanceStore" standard.processInstanceStore
  let agreementStore ← textOr fields "agreementStore" standard.agreementStore
  let agreementField ← textOr fields "agreementField" standard.agreementField
  let inDataPrefix ← textOr fields "inDataPrefix" standard.inDataPrefix
  let outDataPrefix ← textOr fields "outDataPrefix" standard.outDataPrefix
  let interfaceProperty ← textOr fields "interfaceProperty" standard.interfaceProperty
  let typeMappings ← mappingsOf fields
  return { processInstanceStore, agreementStore, agreementField, inDataPrefix, outDataPrefix,
           interfaceProperty, typeMappings }

/-- The settings that a text stands for. -/
def ofText (text : String) : Except SettingsError Settings :=
  match (Json.read text).bind ofJson? with
  | some s => .ok s
  | none => .error (.invalid "the text is no settings object")

end Settings

end BpmnModel
