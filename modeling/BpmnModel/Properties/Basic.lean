import BpmnModel.Error.Structure
import BpmnModel.Properties.Mapping
import BpmnModel.Xml.Element

/-!
# Extension properties

An element may carry a block of named properties.  Those that declare data mappings are set
aside and decoded; all others are kept as they are.

## Main definitions

* `Properties` — the plain properties and the data mappings of a block.
* `Properties.block? node` — the block of an element.
* `Properties.read settings node` — what the block says.
-/

namespace BpmnModel

/-- The properties of an element. -/
structure Properties where
  /-- The plain properties. -/
  values : Table String := .empty
  /-- The data mappings, absent when no property declares one. -/
  mappings : Option (List DataMapping) := none
deriving DecidableEq, Inhabited

namespace Properties

/-- The value of a plain property. -/
def get? (p : Properties) (key : String) : Option String :=
  p.values.get? key

/-- The value of a plain property, unless it is empty. -/
def nonEmpty? (p : Properties) (key : String) : Option String :=
  (p.get? key).filter fun v => v != ""

/-- Whether a plain property is there. -/
def contains (p : Properties) (key : String) : Bool :=
  p.values.contains key

/-- Whether there is neither a plain property nor a declaration of mappings. -/
def isEmpty (p : Properties) : Bool :=
  p.values.isEmpty && p.mappings.isNone

/-- Whether a plain property says `true`, in any case and with any outer blanks. -/
def flag? (p : Properties) (key : String) : Option Bool :=
  (p.get? key).map Text.isTrue

/-! ## Blocks -/

/-- The block of an element: the first `properties` in its first `extensionElements`. -/
def block? (node : Element) : Option Element :=
  (node.firstChild? "extensionElements").bind fun e => e.firstChild? "properties"

/-- The named properties of a block in order; one without a value has the empty value. -/
def entries (block : Element) : List (String × String) :=
  (block.childrenNamed "property").filterMap fun p =>
    (p.attr? "name").map fun name => (name, (p.attr? "value").getD "")

/-- The entries that declare mappings. -/
def mappingEntries (s : Settings) (block : Element) : List (String × String) :=
  (entries block).filter fun e => DataMapping.isMappingKey s e.1

/-- The entries that do not declare mappings. -/
def plainEntries (s : Settings) (block : Element) : List (String × String) :=
  (entries block).filter fun e => !DataMapping.isMappingKey s e.1

/-- What a block says. -/
def ofBlock (s : Settings) (block : Element) : Except MappingFault Properties :=
  let values := Table.ofList (plainEntries s block)
  match mappingEntries s block with
  | [] => .ok { values }
  | es => (DataMapping.decode s es).map fun ms => { values, mappings := some ms }

/-- What the block of an element says; nothing when the element has none. -/
def read (s : Settings) (node : Element) : Except StructureError (Option Properties) :=
  match block? node with
  | none => .ok none
  | some block =>
    match ofBlock s block with
    | .ok p => .ok (some p)
    | .error fault => .error (.malformedExtension node.id fault.message)

/-- What the block of an element says, where a missing block and an empty one are alike. -/
def readOrEmpty (s : Settings) (node : Element) : Except StructureError Properties := do
  return (← read s node).getD {}

/-- The plain properties of a block are the last values of the names without prefix. -/
theorem values_of_ofBlock {s : Settings} {block : Element} {p : Properties}
    (h : ofBlock s block = .ok p) : p.values = Table.ofList (plainEntries s block) := by
  unfold ofBlock at h
  simp only at h
  split at h
  · rw [← Except.ok.inj h]
  · cases hd : DataMapping.decode s (mappingEntries s block) with
    | error e => simp [hd, Except.map] at h
    | ok ms =>
      rw [hd] at h
      rw [← Except.ok.inj h]

end Properties

end BpmnModel
