import BpmnModel.Proofs.Compile.Children
import BpmnModel.Proofs.Compile.Stages
import BpmnModel.Proofs.Elements.Fields

/-!
# What is kept of the properties of stores and lanes

A block is read alike wherever it stands: properties whose names begin like those of data mappings
are set aside, to be decoded.  An activity has its mappings back in a field of its own.  A store and
a lane have no such field, and what has been set aside there is kept nowhere; all their other
properties are kept.

## Main definitions

* `Properties.Declares node key` — the block of an element has a property with a name.
* `Document.Keeps settings root d` — the fields and the participants of a document hold exactly the
  properties of their stores and lanes that are not set aside.

## Main statements

* `Compiler.keeps_of_compile` — what is kept of an accepted document.
* `Compiler.compile_datasets` — an accepted document that loses a field and a property of a lane.
-/

namespace BpmnModel

open Properties (visible?)

variable {s : Settings} {c : Compiler} {root process node : Element} {id key : String}
variable {d : Document} {p q : Process}

/-! ## Declared properties -/

namespace Properties

/-- The block of the element has a property with the name. -/
def Declares (node : Element) (key : String) : Prop :=
  ∃ block, block? node = some block ∧
    ∃ property ∈ block.children, property.tag = "property" ∧ property.attr? "name" = some key

/-- **An element shows what it declares** under a name that does not declare a mapping. -/
theorem isSome_visible?_iff : (visible? s node key).isSome ↔
    Declares node key ∧ DataMapping.isMappingKey s key = false := by
  rw [visible?]
  cases hkey : DataMapping.isMappingKey s key with
  | true => simp
  | false =>
    cases hblock : block? node with
    | none => simp [Declares, hblock]
    | some block =>
      simp only [Bool.false_eq_true, if_false, Option.bind_some, List.lookup_isSome_iff,
        List.mem_reverse, Declares, hblock, Option.some.injEq, exists_eq_left', and_true]
      simp [entries, Element.childrenNamed, and_assoc]

end Properties

/-! ## Kept properties -/

/-- The first store with a reserved identifier has a field for each property that it declares, and a
participant has each property that its lane declares, save those whose names begin like those of
data mappings. -/
structure Document.Keeps (s : Settings) (root : Element) (d : Document) : Prop where
  fields : ∀ id ∈ DataStore.reserved s, ∃ store, DataStore.IsFirst root id store ∧ ∀ key,
    (∃ f ∈ d.model.dataStoreFields, f.dataStorageId = id ∧ f.dataPath = key) ↔
      Properties.Declares store key ∧ DataMapping.isMappingKey s key = false
  participants : List.Forall₂ (fun process p => List.Forall₂ (fun lane q => ∀ key,
      (q.properties.get? key).isSome ↔
        Properties.Declares lane key ∧ DataMapping.isMappingKey s key = false)
      ((Lane.lanes process).filter fun lane => (Properties.block? lane).isSome) p.participants)
    (root.childrenNamed "process") d.processes

/-- The fields of a store are for the properties that it shows. -/
theorem DataStore.Lists.exists_field_iff {store : Element} {fields : List DataStoreField}
    (h : Lists s store fields) :
    (∃ f ∈ fields, f.dataPath = key) ↔ (visible? s store key).isSome := by
  rw [Option.isSome_iff_exists]
  constructor
  · rintro ⟨f, hf, rfl⟩
    obtain ⟨raw, hraw, -⟩ := h.sound f hf
    exact ⟨raw, hraw⟩
  · rintro ⟨raw, hraw⟩
    obtain ⟨f, hf, hpath, -⟩ := h.complete key raw hraw
    exact ⟨f, hf, hpath⟩

namespace Collaboration

variable {m : Model}

/-- Every reserved store has its fields in the model. -/
theorem Canonical.exists_own (h : Canonical s root m) (hid : id ∈ DataStore.reserved s) :
    ∃ fields, DataStore.Canonical s root id fields ∧ ∀ f ∈ fields, f ∈ m.dataStoreFields := by
  obtain ⟨instanceFields, agreementFields, hm, hinstance, hagreement⟩ := h.fields
  simp only [DataStore.reserved, List.mem_cons, List.not_mem_nil, or_false] at hid
  rw [hm]
  rcases hid with rfl | rfl
  · exact ⟨instanceFields, hinstance, fun f hf => List.mem_append_left _ hf⟩
  · exact ⟨agreementFields, hagreement, fun f hf => List.mem_append_right _ hf⟩

/-- Every field of the model is one of the store that it belongs to. -/
theorem Canonical.exists_owner (h : Canonical s root m) {f : DataStoreField}
    (hf : f ∈ m.dataStoreFields) :
    ∃ fields, DataStore.Canonical s root f.dataStorageId fields ∧ f ∈ fields := by
  obtain ⟨instanceFields, agreementFields, hm, hinstance, hagreement⟩ := h.fields
  rw [hm] at hf
  rcases List.mem_append.mp hf with hf | hf
  · exact ⟨instanceFields, hinstance.owned f hf ▸ hinstance, hf⟩
  · exact ⟨agreementFields, hagreement.owned f hf ▸ hagreement, hf⟩

/-- **The fields of a reserved store** are for the properties that it declares and shows. -/
theorem Canonical.exists_field_iff (h : Canonical s root m) (hid : id ∈ DataStore.reserved s) :
    ∃ store, DataStore.IsFirst root id store ∧ ∀ key,
      (∃ f ∈ m.dataStoreFields, f.dataStorageId = id ∧ f.dataPath = key) ↔
        Properties.Declares store key ∧ DataMapping.isMappingKey s key = false := by
  obtain ⟨fields, hown, hmodel⟩ := h.exists_own hid
  obtain ⟨store, hfirst, hlists⟩ := hown.declared
  refine ⟨store, hfirst, fun key => ?_⟩
  rw [← Properties.isSome_visible?_iff]
  constructor
  · -- both reserved stores may have one identifier, and then the field stands in either part
    rintro ⟨f, hf, rfl, rfl⟩
    obtain ⟨fields', howner, hf'⟩ := h.exists_owner hf
    obtain ⟨store', hfirst', hlists'⟩ := howner.declared
    obtain rfl := hfirst'.unique hfirst
    exact hlists'.exists_field_iff.mp ⟨f, hf', rfl⟩
  · intro hvisible
    obtain ⟨f, hf, hpath⟩ := hlists.exists_field_iff.mpr hvisible
    exact ⟨f, hmodel f hf, hown.owned f hf, hpath⟩

end Collaboration

/-- The participants of a process have the properties that their lanes declare and show. -/
theorem Process.forall₂_participants {r : Registry} (hread : read r s process = .ok p)
    {m : Model} (hcheck : p.check s m = .ok q) :
    List.Forall₂ (fun lane participant => ∀ key, (participant.properties.get? key).isSome ↔
        Properties.Declares lane key ∧ DataMapping.isMappingKey s key = false)
      ((Lane.lanes process).filter fun lane => (Properties.block? lane).isSome)
      q.participants := by
  obtain ⟨-, rfl⟩ := check_eq_ok_iff.mp hcheck
  obtain ⟨-, -, participants, hparticipants, -, -, -, -, rfl⟩ := read_eq_ok_iff.mp hread
  refine (Lane.forall₂_of_readAll hparticipants).imp fun lane participant h key => ?_
  rw [h.properties, Properties.isSome_visible?_iff]

/-- **What is kept of an accepted document**, whatever the registry that it has been compiled
with. -/
theorem Compiler.keeps_of_compile (h : c.compile root = .ok d) : d.Keeps c.settings root := by
  obtain ⟨-, -, hmodel, ps, hread, hcheck⟩ := compile_eq_ok_iff.mp h
  refine {
    fields := fun id hid => (Collaboration.canonical_of_read hmodel).exists_field_iff hid
    participants := (Outcome.forall₂_trans hread hcheck).imp ?_ }
  rintro process q ⟨p, hp, hq⟩
  exact Process.forall₂_participants hp hq

/-! ## Two documents -/

/-- An instance store with one more field than it has to have. -/
def Element.ledger (field : String) : Element where
  tag := "dataStore"
  attributes := .ofList [("id", "PROCESS_INSTANCE")]
  children := [.propertyBlock [("agreement", "7"), (field, "2")]]

/-- A lane with one property. -/
def Element.desk (property : String) : Element where
  tag := "lane"
  attributes := .ofList [("id", "L")]
  children := [.propertyBlock [(property, "main")]]

/-- A document with such a store and such a lane. -/
def Element.archive (field property : String) : Element where
  tag := "definitions"
  children := [
    .ledger field,
    { tag := "dataStore", attributes := .ofList [("id", "agreement")] },
    { tag := "collaboration", attributes := .ofList [("id", "C")]
      children := [.propertyBlock [("version", "1.0.0")]] },
    { tag := "process", attributes := .ofList [("id", "P")]
      children := [{ tag := "laneSet", children := [.desk property] }] }]

/-- The paths of the fields, and the properties of all participants. -/
def Document.kept (d : Document) : List String × List (List (String × String)) :=
  (d.model.dataStoreFields.map DataStoreField.dataPath,
    d.processes.flatMap fun p => p.participants.map fun q => q.properties.entries)

/-- A field and a property of a lane are kept whose names begin like no mapping. -/
theorem Compiler.keeps_of_compile_dataset : ∃ d,
    ({} : Compiler).compile (.archive "DATASET" "DATABASE") = .ok d ∧
      d.kept = (["DATASET", "agreement"], [[("DATABASE", "main")]]) ∧
      d.Keeps {} (.archive "DATASET" "DATABASE") := by
  obtain ⟨d, hd, hkept⟩ := Outcome.exists_of_toOption_map
    (show (({} : Compiler).compile (.archive "DATASET" "DATABASE")).toOption.map Document.kept =
      some (["DATASET", "agreement"], [[("DATABASE", "main")]]) from by decide +kernel)
  exact ⟨d, hd, hkept, keeps_of_compile hd⟩

/-- **A field and a property of a lane are lost**, without any word, in an accepted document.  Their
names begin like those of mappings, although neither of them belongs to any. -/
theorem Compiler.compile_datasets :
    (DataStore.IsFirst (.archive "INDATASET" "OUTDATABASE") "PROCESS_INSTANCE"
        (.ledger "INDATASET") ∧ Properties.Declares (.ledger "INDATASET") "INDATASET") ∧
      ((Element.archive "INDATASET" "OUTDATABASE").childrenNamed "process").flatMap Lane.lanes =
        [.desk "OUTDATABASE"] ∧ Properties.Declares (.desk "OUTDATABASE") "OUTDATABASE" ∧
      ∃ d, ({} : Compiler).compile (.archive "INDATASET" "OUTDATABASE") = .ok d ∧
        d.kept = (["agreement"], [[]]) := by
  refine ⟨⟨?first, ?field⟩, rfl, ?property, ?accepted⟩
  case first => exact ⟨[], _, rfl, ⟨rfl, rfl⟩, by simp⟩
  case field =>
    exact ⟨_, rfl, { tag := "property", attributes := _ }, List.mem_of_getElem? (i := 1) rfl, rfl,
      rfl⟩
  case property =>
    exact ⟨_, rfl, { tag := "property", attributes := _ }, List.mem_of_getElem? (i := 0) rfl, rfl,
      rfl⟩
  case accepted => exact Outcome.exists_of_toOption_map (by decide +kernel)

end BpmnModel
