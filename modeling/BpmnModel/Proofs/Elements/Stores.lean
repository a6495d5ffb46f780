import Mathlib.Data.List.Find
import BpmnModel.Condition.Check
import BpmnModel.Elements.Collaboration
import BpmnModel.Proofs.Model.Denotes
import BpmnModel.Proofs.Properties.Visible

/-!
# Stores and the fields that they declare

The two reserved stores declare the fields of a model.  What a condition is compared with is
said here of the tree alone: its own store is asked first, then both stores in their order.

## Main definitions

* `DataStore.Readable settings root id` — a reserved store is there and declares types only.
* `DataStore.declaredType? settings root id path` — the type that a store declares for a path.
* `DataStore.comparedType? settings root id path` — the type of the field that a condition on
  `path` in the store `id` is compared with.
* `Collaboration.Readable settings root` — the stores and the collaboration keep their rules.

## Main statements

* `Collaboration.exists_read_iff` — when the model of a document can be read.
* `Collaboration.comparedType?_eq` — its fields are those that the tree declares.
-/

namespace BpmnModel

open Properties (visible? Decodable)

variable {s : Settings} {root : Element} {id : String}

namespace DataStore

/-! ## One store -/

/-- The store is declared, and what it shows are codes of types. -/
def Readable (s : Settings) (root : Element) (id : String) : Prop :=
  ∃ store, root.findById? "dataStore" id = some store ∧ Decodable s store ∧
    ∀ path raw, visible? s store path = some raw → ∃ t : ParameterType, Coded.Denotes raw t

/-- The type that a store declares for a path. -/
def declaredType? (s : Settings) (root : Element) (id path : String) : Option ParameterType :=
  (root.findById? "dataStore" id).bind fun store =>
    (visible? s store path).bind Coded.parseCode?

theorem exists_readField_iff {path raw : String} :
    (∃ f, readField id path raw = .ok f) ↔ ∃ t : ParameterType, Coded.Denotes raw t := by
  simp only [← Coded.parseCode?_eq_some_iff, readField]
  cases Coded.parseCode? (α := ParameterType) raw <;> simp

theorem readField_eq_ok_iff {path raw : String} {f : DataStoreField} :
    readField id path raw = .ok f ↔
      ∃ t, Coded.parseCode? raw = some t ∧ f = ⟨id, path, t⟩ := by
  rw [readField]
  cases Coded.parseCode? (α := ParameterType) raw <;> simp [eq_comm]

/-- A store without a block is read like one with an empty block. -/
theorem read_of_findById? {store : Element} (h : root.findById? "dataStore" id = some store) :
    read s root id = (do
      let p ← Properties.readOrEmpty s store
      p.values.entries.mapM fun e => readField id e.1 e.2) := by
  rw [read, h]
  simp only [Properties.readOrEmpty, bind_assoc, pure_bind]
  congr! with o
  cases o with
  | none => rfl
  | some p => rfl

/-- A store that is read is there, and its fields are read entry by entry. -/
theorem entries_of_read {fields : List DataStoreField} (h : read s root id = .ok fields) :
    ∃ store p, root.findById? "dataStore" id = some store ∧
      Properties.readOrEmpty s store = .ok p ∧
        List.Forall₂ (fun e f => readField id e.1 e.2 = .ok f) p.values.entries fields := by
  cases hstore : root.findById? "dataStore" id with
  | none => simp [read, hstore] at h
  | some store =>
    rw [read_of_findById? hstore, Outcome.bind_eq_ok_iff] at h
    obtain ⟨p, hp, hfields⟩ := h
    exact ⟨store, p, rfl, hp, Outcome.mapM_eq_ok_iff.mp hfields⟩

/-- What is entered for a store is what it shows. -/
theorem mem_entries_iff {store : Element} {p : Properties} {path raw : String}
    (hp : Properties.readOrEmpty s store = .ok p) :
    (path, raw) ∈ p.values.entries ↔ visible? s store path = some raw := by
  rw [← Properties.get?_of_readOrEmpty hp, Properties.get?, Table.get?_eq_some_iff]

/-- **A reserved store can be read when it is there and what it shows are codes of types.** -/
theorem exists_read_iff : (∃ fields, read s root id = .ok fields) ↔ Readable s root id := by
  rw [Readable]
  cases hstore : root.findById? "dataStore" id with
  | none => simp [read, hstore]
  | some store =>
    simp only [read_of_findById? hstore, Option.some.injEq, exists_eq_left',
      ← Properties.exists_readOrEmpty_iff]
    refine Outcome.exists_bind_iff fun p hp => ?_
    simp only [Outcome.exists_mapM_iff, exists_readField_iff, Prod.forall, mem_entries_iff hp]

/-- Each field that is read belongs to the store, which declares its type. -/
theorem declared_of_read {fields : List DataStoreField} (h : read s root id = .ok fields)
    {f : DataStoreField} (hf : f ∈ fields) :
    f.dataStorageId = id ∧ declaredType? s root id f.dataPath = some f.parameterType := by
  obtain ⟨store, p, hstore, hp, hfields⟩ := entries_of_read h
  obtain ⟨e, he, hread⟩ := Outcome.exists_of_mem_right hfields hf
  obtain ⟨t, ht, rfl⟩ := readField_eq_ok_iff.mp hread
  have hvisible : visible? s store e.1 = some e.2 := (mem_entries_iff hp).mp he
  exact ⟨rfl, by rw [declaredType?, hstore, Option.bind_some, hvisible, Option.bind_some, ht]⟩

/-- Among fields that are read one by one, the first with a path is read from the first entry
with it. -/
theorem find?_of_forall₂ {entries : List (String × String)} {fields : List DataStoreField}
    (h : List.Forall₂ (fun e f => readField id e.1 e.2 = .ok f) entries fields) (path : String) :
    (fields.find? fun f => f.dataPath == path).map DataStoreField.parameterType =
      (entries.lookup path).bind Coded.parseCode? := by
  induction h with
  | nil => rfl
  | @cons e f entries fields hf _ ih =>
    obtain ⟨t, ht, rfl⟩ := readField_eq_ok_iff.mp hf
    rw [Table.lookup_cons_eq, List.find?_cons]
    by_cases hpath : path = e.1
    · simp [hpath, ht]
    · rw [if_neg hpath, beq_false_of_ne (Ne.symm hpath), ih]

/-- **The fields of a store are those that it declares.** -/
theorem find?_of_read {fields : List DataStoreField} (h : read s root id = .ok fields)
    (path : String) :
    (fields.find? fun f => f.dataPath == path).map DataStoreField.parameterType =
      declaredType? s root id path := by
  obtain ⟨store, p, hstore, hp, hfields⟩ := entries_of_read h
  rw [declaredType?, hstore, Option.bind_some, find?_of_forall₂ hfields,
    ← Properties.get?_of_readOrEmpty hp]
  rfl

/-! ## Both stores -/

/-- The reserved stores, in the order in which they are read. -/
def reserved (s : Settings) : List String :=
  [s.processInstanceStore, s.agreementStore]

/-- The type of the field that a condition on `path` in the store `id` is compared with: its own
store is asked first, then both stores. -/
def comparedType? (s : Settings) (root : Element) (id path : String) : Option ParameterType :=
  ((reserved s).filter (fun i => s.normalize i == s.normalize id) ++ reserved s).findSome?
    fun store => declaredType? s root store path

end DataStore

namespace Collaboration

/-! ## The model -/

/-- The collaboration of the document, its first, shows a version. -/
def ShowsVersion (s : Settings) (root : Element) : Prop :=
  ∃ node, (root.descendantsNamed "collaboration").head? = some node ∧
    (Properties.block? node).isSome ∧ Decodable s node ∧
      ∃ raw v, visible? s node "version" = some raw ∧ Version.Denotes raw v

/-- The stores and the collaboration keep their rules. -/
structure Readable (s : Settings) (root : Element) : Prop where
  stores : ∀ id ∈ DataStore.reserved s, DataStore.Readable s root id
  agreement : DataStore.declaredType? s root s.processInstanceStore s.agreementField =
    some .contractAddress
  version : ShowsVersion s root

theorem exists_readVersion_iff {node : Element} {p : Properties}
    (hp : Properties.read s node = .ok (some p)) :
    (∃ v, readVersion p = .ok v) ↔
      ∃ raw v, visible? s node "version" = some raw ∧ Version.Denotes raw v := by
  rw [readVersion, Properties.get?_of_read hp]
  cases hv : visible? s node "version" with
  | none =>
    simp only [Option.getD_none, reduceCtorEq, false_and, exists_false, iff_false]
    rw [show Version.parse? "" = none from by decide]
    simp
  | some raw =>
    simp only [Option.getD_some, Option.some.injEq, ← Version.parse?_eq_some_iff]
    cases hraw : Version.parse? raw with
    | none => simp [hraw]
    | some v => simp [hraw]

theorem details_eq_ok_iff {node : Element} {p : Properties} :
    details s root = .ok (node, p) ↔ (root.descendantsNamed "collaboration").head? = some node ∧
      Properties.read s node = .ok (some p) := by
  rw [details]
  split
  · rename_i hnone
    simp [hnone]
  · rename_i node' hnode
    rw [hnode, Outcome.bind_eq_ok_iff, Option.some.injEq]
    constructor
    · rintro ⟨o, ho, h⟩
      cases o with
      | none => simp at h
      | some p' =>
        obtain ⟨rfl, rfl⟩ : node' = node ∧ p' = p := by
          simpa [Outcome.pure_eq_ok_iff] using h
        exact ⟨rfl, ho⟩
    · rintro ⟨rfl, hp⟩
      exact ⟨some p, hp, rfl⟩

theorem exists_details_iff :
    (∃ node p v, details s root = .ok (node, p) ∧ readVersion p = .ok v) ↔
      ShowsVersion s root := by
  simp only [details_eq_ok_iff]
  constructor
  · rintro ⟨node, p, v, ⟨hnode, hp⟩, hv⟩
    have hblock : (Properties.block? node).isSome := by
      rw [← Properties.isSome_of_read hp, Option.isSome_some]
    exact ⟨node, hnode, hblock, Properties.exists_read_iff.mp ⟨_, hp⟩,
      (exists_readVersion_iff hp).mp ⟨v, hv⟩⟩
  · rintro ⟨node, hnode, hblock, hdecodable, hversion⟩
    obtain ⟨o, ho⟩ := Properties.exists_read_iff.mpr hdecodable
    rw [← Properties.isSome_of_read ho] at hblock
    obtain ⟨p, rfl⟩ := Option.isSome_iff_exists.mp hblock
    obtain ⟨v, hv⟩ := (exists_readVersion_iff ho).mpr hversion
    exact ⟨node, p, v, ⟨hnode, ho⟩, hv⟩

/-- A store declares a field at most once, so that any field is the first with its path. -/
theorem declaresAgreement_iff {fields : List DataStoreField}
    (h : DataStore.read s root s.processInstanceStore = .ok fields) :
    declaresAgreement s fields = true ↔
      DataStore.declaredType? s root s.processInstanceStore s.agreementField =
        some .contractAddress := by
  simp only [declaresAgreement, List.any_eq_true, Bool.and_eq_true, beq_iff_eq]
  constructor
  · rintro ⟨f, hf, hpath, htype⟩
    rw [← hpath, (DataStore.declared_of_read h hf).2, htype]
  · intro hdeclared
    rw [← DataStore.find?_of_read h] at hdeclared
    obtain ⟨f, hf, htype⟩ := Option.map_eq_some_iff.mp hdeclared
    exact ⟨f, List.mem_of_find?_eq_some hf, by simpa using List.find?_some hf, htype⟩

theorem read_eq_ok_iff {m : Model} : read s root = .ok m ↔
    ∃ instanceFields agreementFields,
      DataStore.read s root s.processInstanceStore = .ok instanceFields ∧
      DataStore.read s root s.agreementStore = .ok agreementFields ∧
      declaresAgreement s instanceFields = true ∧
      ∃ node p v, (details s root = .ok (node, p) ∧ readVersion p = .ok v) ∧
        m = { id := node.id, name := node.name, version := v,
              isPrivate := (p.flag? "private").getD false,
              dataStoreFields := instanceFields ++ agreementFields } := by
  simp only [read, Outcome.bind_eq_ok_iff]
  constructor
  · rintro ⟨instanceFields, hinstance, agreementFields, hagreement, h⟩
    split at h
    · rename_i hdeclares
      obtain ⟨⟨node, p⟩, hdetails, v, hv, h⟩ := by
        simpa only [Outcome.bind_eq_ok_iff] using h
      exact ⟨instanceFields, agreementFields, hinstance, hagreement, hdeclares, node, p, v,
        ⟨hdetails, hv⟩, (Outcome.pure_eq_ok_iff.mp h).symm⟩
    · simp at h
  · rintro ⟨instanceFields, agreementFields, hinstance, hagreement, hdeclares, node, p, v,
      ⟨hdetails, hv⟩, rfl⟩
    refine ⟨instanceFields, hinstance, agreementFields, hagreement, ?_⟩
    rw [if_pos hdeclares, hdetails]
    show (readVersion p >>= _) = _
    rw [hv]
    rfl

/-- **The model of a document can be read when the stores and the collaboration keep their
rules.** -/
theorem exists_read_iff : (∃ m, read s root = .ok m) ↔ Readable s root := by
  simp only [read_eq_ok_iff]
  constructor
  · rintro ⟨m, instanceFields, agreementFields, hinstance, hagreement, hdeclares, node, p, v,
      hdetails, -⟩
    exact {
      stores := by
        simp only [DataStore.reserved, List.forall_mem_cons, ← DataStore.exists_read_iff]
        exact ⟨⟨_, hinstance⟩, ⟨_, hagreement⟩, by simp⟩
      agreement := (declaresAgreement_iff hinstance).mp hdeclares
      version := exists_details_iff.mp ⟨node, p, v, hdetails⟩ }
  · rintro ⟨hstores, hdeclares, hversion⟩
    simp only [DataStore.reserved, List.forall_mem_cons, ← DataStore.exists_read_iff] at hstores
    obtain ⟨⟨instanceFields, hinstance⟩, ⟨agreementFields, hagreement⟩, -⟩ := hstores
    obtain ⟨node, p, v, hdetails⟩ := exists_details_iff.mpr hversion
    exact ⟨_, instanceFields, agreementFields, hinstance, hagreement,
      (declaresAgreement_iff hinstance).mpr hdeclares, node, p, v, hdetails, rfl⟩

/-- **A condition is compared with the field that the tree declares for it.** -/
theorem comparedType?_eq {m : Model} (h : read s root = .ok m) (id path : String) :
    (m.comparedField? s (s.normalize id) path).map DataStoreField.parameterType =
      DataStore.comparedType? s root id path := by
  obtain ⟨instanceFields, agreementFields, hinstance, hagreement, -, node, p, v, -, rfl⟩ :=
    read_eq_ok_iff.mp h
  -- the fields of one store all bear its name, so that its name decides for all of them
  have own : ∀ {store : String} {fields : List DataStoreField},
      DataStore.read s root store = .ok fields →
        (fields.find? fun f => f.dataPath == path &&
          s.normalize f.dataStorageId == s.normalize id).map DataStoreField.parameterType =
        if s.normalize store == s.normalize id then DataStore.declaredType? s root store path
        else none := by
    intro store fields hread
    rw [← DataStore.find?_of_read hread]
    have hsame : ∀ f ∈ fields, (f.dataPath == path &&
        s.normalize f.dataStorageId == s.normalize id) =
          (f.dataPath == path && s.normalize store == s.normalize id) := by
      intro f hf
      rw [(DataStore.declared_of_read hread hf).1]
    rw [List.find?_congr hsame]
    cases s.normalize store == s.normalize id <;> simp
  simp only [Model.comparedField?, Model.field?, List.find?_append, Option.map_or,
    own hinstance, own hagreement, DataStore.find?_of_read hinstance,
    DataStore.find?_of_read hagreement, DataStore.comparedType?, DataStore.reserved,
    List.findSome?_append]
  cases hi : s.normalize s.processInstanceStore == s.normalize id <;>
    cases ha : s.normalize s.agreementStore == s.normalize id <;>
      simp only [List.filter_cons, List.filter_nil, hi, ha, if_true, if_false,
        Bool.false_eq_true, List.findSome?_cons, List.findSome?_nil] <;>
      cases DataStore.declaredType? s root s.processInstanceStore path <;>
        cases DataStore.declaredType? s root s.agreementStore path <;> rfl

end Collaboration

end BpmnModel
