import BpmnModel.Elements.DataStore

/-!
# The collaboration

The collaboration names the model and carries its version; the fields of the model are
those of the two reserved data stores.

## Main definitions

* `Collaboration.read settings root` — the model of a document.
-/

namespace BpmnModel.Collaboration

/-- Whether the agreement field is declared as a contract address. -/
def declaresAgreement (s : Settings) (fields : List DataStoreField) : Bool :=
  fields.any fun f => f.dataPath == s.agreementField && f.parameterType == .contractAddress

/-- The version in the properties of a collaboration. -/
def readVersion (p : Properties) : Except StructureError Version :=
  let raw := (p.get? "version").getD ""
  match Version.parse? raw with
  | some v => .ok v
  | none => .error (.invalidVersion raw)

/-- The first collaboration of the document, which has to have properties. -/
def details (s : Settings) (root : Element) : Except StructureError (Element × Properties) :=
  match (root.descendantsNamed "collaboration").head? with
  | none => .error .noModelDetails
  | some node => do
    match ← Properties.read s node with
    | none => .error .noModelDetails
    | some p => return (node, p)

/-- The model of a document.  The stores are read first, then the agreement field is looked
for, and the collaboration comes last. -/
def read (s : Settings) (root : Element) : Except StructureError Model := do
  let instanceFields ← DataStore.read s root s.processInstanceStore
  let agreementFields ← DataStore.read s root s.agreementStore
  if declaresAgreement s instanceFields then
    let (node, p) ← details s root
    let version ← readVersion p
    return {
      id := node.id
      name := node.name
      version
      isPrivate := (p.flag? "private").getD false
      dataStoreFields := instanceFields ++ agreementFields }
  else .error (.invalidAgreementField s.processInstanceStore s.agreementField)

end BpmnModel.Collaboration
