import BpmnModel.Proofs.Elements.Stores
import BpmnModel.Proofs.Text.ByteOrder

/-!
# The table of fields

The fields of a model are those of the two reserved stores, one store after the other and each in
the order of its paths.  The order in which a store declares them is lost on the way through a
table of properties, so that the fields, and the path that is told where a type is no code, depend
on the declared paths alone.

## Main definitions

* `DataStore.IsFirst root id store` — the store is the first of the document with its identifier.
* `DataStore.Untyped settings store path raw` — the store shows a path without a type.
* `DataStore.Canonical settings root id fields` — the fields of a store, in their order.
* `DataStore.FirstUntyped settings root id path raw` — the path is the first one without a type.
* `Collaboration.Canonical settings root m` — the fields of a model.

## Main statements

* `DataStore.canonical_of_read` — the fields of a store.
* `DataStore.read_eq_untyped_iff` — which path is told.
* `Collaboration.table_canonical` — the fields of a model, and which path is told for it.
-/

namespace BpmnModel

open Properties (visible? Decodable)

variable {s : Settings} {root store : Element} {id id' path raw : String}
variable {fields : List DataStoreField}

namespace DataStore

/-! ## What a store declares -/

/-- The first store of the document with an identifier. -/
def IsFirst (root : Element) (id : String) (store : Element) : Prop :=
  FirstWith (fun e => e.tag = "dataStore" ∧ e.id = id) root.descendants store

/-- The store shows the path, but with a value that is no code of a type. -/
def Untyped (s : Settings) (store : Element) (path raw : String) : Prop :=
  visible? s store path = some raw ∧ ¬∃ t : ParameterType, Coded.Denotes raw t

/-- The fields are those that the store shows: each has the type whose code the store tells for its
path, and no path is missing. -/
structure Lists (s : Settings) (store : Element) (fields : List DataStoreField) : Prop where
  sound : ∀ f ∈ fields, ∃ raw, visible? s store f.dataPath = some raw ∧
    Coded.Denotes raw f.parameterType
  complete : ∀ path raw, visible? s store path = some raw →
    ∃ f ∈ fields, f.dataPath = path ∧ Coded.Denotes raw f.parameterType

/-- The fields are those of the first store with the identifier.  Their paths rise strictly in the
order of bytes, so that each path stands once. -/
structure Canonical (s : Settings) (root : Element) (id : String)
    (fields : List DataStoreField) : Prop where
  ordered : fields.Pairwise fun f g => Codec.utf8 f.dataPath < Codec.utf8 g.dataPath
  owned : ∀ f ∈ fields, f.dataStorageId = id
  declared : ∃ store, IsFirst root id store ∧ Lists s store fields

/-- The path is the first, in the order of bytes, of those for which the first store with the
identifier tells no type. -/
def FirstUntyped (s : Settings) (root : Element) (id path raw : String) : Prop :=
  ∃ store, IsFirst root id store ∧ Decodable s store ∧ Untyped s store path raw ∧
    ∀ other raw', Untyped s store other raw' →
      other = path ∨ Codec.utf8 path < Codec.utf8 other

theorem findById?_eq_some_iff :
    root.findById? "dataStore" id = some store ↔ IsFirst root id store := by
  rw [IsFirst, firstWith_iff_find?, Element.findById?, Element.descendantsNamed, List.find?_filter]
  simp only [Bool.decide_and, beq_eq_decide, decide_eq_true_eq]

theorem IsFirst.unique {store' : Element} (h : IsFirst root id store)
    (h' : IsFirst root id store') : store = store' :=
  Option.some.inj ((findById?_eq_some_iff.mpr h).symm.trans (findById?_eq_some_iff.mpr h'))

/-! ## Reading a store -/

/-- **The fields of a store** are those that it shows, in the order of their paths. -/
theorem canonical_of_read (h : read s root id = .ok fields) : Canonical s root id fields := by
  obtain ⟨store, p, hstore, hp, hfields⟩ := entries_of_read h
  have hfirst : IsFirst root id store := findById?_eq_some_iff.mp hstore
  refine { ordered := ?ordered, owned := ?owned, declared := ⟨store, hfirst, ?sound, ?complete⟩ }
  case ordered =>
    have hpaths : p.values.entries.map Prod.fst = fields.map DataStoreField.dataPath := by
      rw [← List.forall₂_eq_eq_eq, List.forall₂_map_left_iff, List.forall₂_map_right_iff]
      refine hfields.imp fun e f hf => ?_
      obtain ⟨t, -, rfl⟩ := readField_eq_ok_iff.mp hf
      rfl
    have hordered : (fields.map DataStoreField.dataPath).Pairwise
        fun a b => Codec.utf8 a < Codec.utf8 b := by
      rw [← hpaths, List.pairwise_map]
      exact p.values.ordered.imp Codec.utf8_lt_iff.mpr
    rwa [List.pairwise_map] at hordered
  case owned =>
    intro f hf
    exact (declared_of_read h hf).1
  case sound =>
    intro f hf
    obtain ⟨e, he, hread⟩ := Outcome.exists_of_mem_right hfields hf
    obtain ⟨t, ht, rfl⟩ := readField_eq_ok_iff.mp hread
    exact ⟨e.2, (mem_entries_iff hp).mp he, Coded.parseCode?_eq_some_iff.mp ht⟩
  case complete =>
    intro path raw hvisible
    obtain ⟨f, hf, hread⟩ :=
      Outcome.exists_of_mem_left hfields ((mem_entries_iff hp).mpr hvisible)
    obtain ⟨t, ht, rfl⟩ := readField_eq_ok_iff.mp hread
    exact ⟨_, hf, rfl, Coded.parseCode?_eq_some_iff.mp ht⟩

/-! ## The path that is told -/

theorem readField_eq_error_iff {e : StructureError} : readField id path raw = .error e ↔
    (¬∃ t : ParameterType, Coded.Denotes raw t) ∧ e = .invalidParameterType id path raw := by
  simp only [← Coded.parseCode?_eq_some_iff, readField]
  cases Coded.parseCode? (α := ParameterType) raw <;> simp [eq_comm]

/-- Entries that stand in the order of their paths fail with the least path without a type. -/
theorem mapM_readField_eq_error_iff {es : List (String × String)} {e : StructureError}
    (hes : es.Pairwise fun a b => Text.precedes a.1 b.1 = true) :
    es.mapM (fun e => readField id e.1 e.2) = .error e ↔ ∃ a ∈ es,
      (¬∃ t : ParameterType, Coded.Denotes a.2 t) ∧ e = .invalidParameterType id a.1 a.2 ∧
        ∀ b ∈ es, (¬∃ t : ParameterType, Coded.Denotes b.2 t) →
          b = a ∨ Text.precedes a.1 b.1 = true := by
  have hasymm : ∀ a b : String × String, Text.precedes a.1 b.1 = true →
      ¬Text.precedes b.1 a.1 = true := by
    intro a b hab
    simp [Text.precedes_asymm hab]
  rw [Outcome.mapM_eq_error_iff_first]
  simp only [readField_eq_error_iff, exists_and_left, exists_eq, and_true,
    firstWith_iff_least hes hasymm]
  constructor
  · rintro ⟨a, ⟨ha, huntyped, hleast⟩, -, he⟩
    exact ⟨a, ha, huntyped, he, hleast⟩
  · rintro ⟨a, ha, huntyped, he, hleast⟩
    exact ⟨a, ⟨ha, huntyped, hleast⟩, huntyped, he⟩

/-- A block that can not be read is told with its store, not with a path. -/
theorem readOrEmpty_ne_untyped : Properties.readOrEmpty s store ≠
    .error (.invalidParameterType id path raw) := by
  intro h
  rw [Properties.readOrEmpty, Outcome.bind_eq_error_iff] at h
  rcases h with hread | ⟨o, -, hpure⟩
  · obtain ⟨reason, hreason⟩ := Properties.cause_of_read hread
    simp at hreason
  · simp [pure, Except.pure] at hpure

/-- **The path that is told** is the first one of the store, in the order of bytes, without a type,
wherever it has been declared. -/
theorem read_eq_untyped_iff : read s root id = .error (.invalidParameterType id' path raw) ↔
    id' = id ∧ FirstUntyped s root id path raw := by
  cases hstore : root.findById? "dataStore" id with
  | none =>
    have hnone : ∀ store, ¬IsFirst root id store := by
      intro store hfirst
      rw [findById?_eq_some_iff.mpr hfirst] at hstore
      simp at hstore
    simp [read, hstore, FirstUntyped, hnone]
  | some store =>
    have hfirst := findById?_eq_some_iff.mp hstore
    rw [read_of_findById? hstore, Outcome.bind_eq_error_iff]
    constructor
    · -- entries stand in the order of their paths, so that the first failure is the least path
      rintro (hblock | ⟨p, hp, hentries⟩)
      · exact absurd hblock readOrEmpty_ne_untyped
      · rw [mapM_readField_eq_error_iff p.values.ordered] at hentries
        obtain ⟨a, ha, huntyped, he, hleast⟩ := hentries
        obtain ⟨rfl, rfl, rfl⟩ := StructureError.invalidParameterType.inj he
        have hdecodable := Properties.exists_readOrEmpty_iff.mp ⟨p, hp⟩
        refine ⟨rfl, store, hfirst, hdecodable, ⟨(mem_entries_iff hp).mp ha, huntyped⟩, ?_⟩
        intro other raw' hother
        rcases hleast (other, raw') ((mem_entries_iff hp).mpr hother.1) hother.2 with hsame | hlt
        · exact .inl (congrArg Prod.fst hsame)
        · exact .inr (Codec.utf8_lt_iff.mpr hlt)
    · rintro ⟨rfl, store', hfirst', hdecodable, ⟨hvisible, huntyped⟩, hleast⟩
      obtain rfl := hfirst'.unique hfirst
      obtain ⟨p, hp⟩ := Properties.exists_readOrEmpty_iff.mpr hdecodable
      refine .inr ⟨p, hp, (mapM_readField_eq_error_iff p.values.ordered).mpr
        ⟨(path, raw), (mem_entries_iff hp).mpr hvisible, huntyped, rfl, ?_⟩⟩
      rintro ⟨other, raw'⟩ hother huntyped'
      have hvisible' := (mem_entries_iff hp).mp hother
      rcases hleast other raw' ⟨hvisible', huntyped'⟩ with rfl | hlt
      · rw [hvisible, Option.some.injEq] at hvisible'
        exact .inl (by rw [hvisible'])
      · exact .inr (Codec.utf8_lt_iff.mp hlt)

end DataStore

namespace Collaboration

/-! ## The model -/

/-- The fields of the model are those of the reserved stores, in their order, and the agreement
field is the contract address of the instance store. -/
structure Canonical (s : Settings) (root : Element) (m : Model) : Prop where
  fields : ∃ instanceFields agreementFields,
    m.dataStoreFields = instanceFields ++ agreementFields ∧
      DataStore.Canonical s root s.processInstanceStore instanceFields ∧
      DataStore.Canonical s root s.agreementStore agreementFields
  agreement : m.field? s.agreementField =
    some ⟨s.processInstanceStore, s.agreementField, .contractAddress⟩

/-- The first path without a type in the instance store or, where that store has none, in the store
of the agreement. -/
def FirstUntyped (s : Settings) (root : Element) (id path raw : String) : Prop :=
  id = s.processInstanceStore ∧ DataStore.FirstUntyped s root s.processInstanceStore path raw ∨
    DataStore.Readable s root s.processInstanceStore ∧ id = s.agreementStore ∧
      DataStore.FirstUntyped s root s.agreementStore path raw

/-- The agreement field is found before any field of the other store. -/
theorem field?_agreement {instanceFields agreementFields : List DataStoreField}
    (h : DataStore.read s root s.processInstanceStore = .ok instanceFields)
    (hdeclares : declaresAgreement s instanceFields = true) :
    ((instanceFields ++ agreementFields).find? fun f => f.dataPath == s.agreementField) =
      some ⟨s.processInstanceStore, s.agreementField, .contractAddress⟩ := by
  have hdeclared := (declaresAgreement_iff h).mp hdeclares
  rw [← DataStore.find?_of_read h] at hdeclared
  obtain ⟨⟨owner, path, type⟩, hf, rfl⟩ := Option.map_eq_some_iff.mp hdeclared
  have howner : owner = s.processInstanceStore :=
    (DataStore.declared_of_read h (List.mem_of_find?_eq_some hf)).1
  have hpath : path = s.agreementField := by simpa using List.find?_some hf
  rw [List.find?_append, hf, Option.some_or, howner, hpath]

/-- Only the stores are refused for a path. -/
theorem details_ne_untyped : details s root ≠ .error (.invalidParameterType id path raw) := by
  intro h
  rw [details] at h
  split at h
  · simp at h
  · rw [Outcome.bind_eq_error_iff] at h
    rcases h with hread | ⟨o, -, hpure⟩
    · obtain ⟨reason, hreason⟩ := Properties.cause_of_read hread
      simp at hreason
    · cases o <;> simp [pure, Except.pure] at hpure

theorem readVersion_ne_untyped {p : Properties} :
    readVersion p ≠ .error (.invalidParameterType id path raw) := by
  rw [readVersion]
  split <;> simp

theorem read_eq_untyped_iff : read s root = .error (.invalidParameterType id path raw) ↔
    FirstUntyped s root id path raw := by
  rw [FirstUntyped, ← DataStore.exists_read_iff, ← DataStore.read_eq_untyped_iff,
    ← DataStore.read_eq_untyped_iff, read, Outcome.bind_eq_error_iff]
  refine or_congr_right ?_
  constructor
  · rintro ⟨instanceFields, hinstance, h⟩
    rcases Outcome.bind_eq_error_iff.mp h with hagreement | ⟨agreementFields, -, hrest⟩
    · exact ⟨⟨_, hinstance⟩, hagreement⟩
    · exfalso
      split at hrest
      · rcases Outcome.bind_eq_error_iff.mp hrest with hdetails | ⟨⟨node, p⟩, -, hversion⟩
        · exact details_ne_untyped hdetails
        · rcases Outcome.bind_eq_error_iff.mp hversion with hversion | ⟨v, -, hpure⟩
          · exact readVersion_ne_untyped hversion
          · simp [pure, Except.pure] at hpure
      · simp at hrest
  · rintro ⟨⟨instanceFields, hinstance⟩, hagreement⟩
    exact ⟨instanceFields, hinstance, Outcome.bind_eq_error_iff.mpr (.inl hagreement)⟩

theorem canonical_of_read {m : Model} (h : read s root = .ok m) : Canonical s root m := by
  obtain ⟨instanceFields, agreementFields, hinstance, hagreement, hdeclares, -, -, -, -, rfl⟩ :=
    read_eq_ok_iff.mp h
  exact {
    fields := ⟨instanceFields, agreementFields, rfl, DataStore.canonical_of_read hinstance,
      DataStore.canonical_of_read hagreement⟩
    agreement := field?_agreement hinstance hdeclares }

/-- **The table of fields is canonical**: it holds what the reserved stores show, store by store and
path by path in the order of bytes.  Where it can not be built for want of a type, the first path
without one is told, that of the instance store before any of the other. -/
theorem table_canonical :
    (∀ m, read s root = .ok m → Canonical s root m) ∧
      ∀ id path raw, read s root = .error (.invalidParameterType id path raw) ↔
        FirstUntyped s root id path raw :=
  ⟨fun _ => canonical_of_read, fun _ _ _ => read_eq_untyped_iff⟩

/-- A document with an instance store of the given properties, and another store with the same
identifier behind it that counts for nothing. -/
def storesDeclaring (declared : List (String × String)) : Element where
  tag := "definitions"
  children := [
    { tag := "dataStore", attributes := .ofList [("id", "PROCESS_INSTANCE")],
      children := [.propertyBlock declared] },
    { tag := "dataStore", attributes := .ofList [("id", "PROCESS_INSTANCE")],
      children := [.propertyBlock [("alpha", "7")]] },
    { tag := "dataStore", attributes := .ofList [("id", "agreement")],
      children := [.propertyBlock [("price", "6"), ("amount", "12")]] },
    { tag := "collaboration", children := [.propertyBlock [("version", "1.0.0")]] }]

/-- Four properties give two fields, the one that is declared twice with its later type; and of two
paths without a type the lesser one is told, which is declared last. -/
theorem table_canonical_stores :
    (∃ m, read {} (storesDeclaring [("total", "no"), ("agreement", "7"), ("INDATASET", "no"),
        ("total", "2")]) = .ok m ∧
      m.dataStoreFields = [⟨"PROCESS_INSTANCE", "agreement", .contractAddress⟩,
        ⟨"PROCESS_INSTANCE", "total", .number⟩, ⟨"agreement", "amount", .positiveNumber⟩,
        ⟨"agreement", "price", .userOrganization⟩] ∧
      Canonical {} (storesDeclaring [("total", "no"), ("agreement", "7"), ("INDATASET", "no"),
        ("total", "2")]) m) ∧
    FirstUntyped {} (storesDeclaring [("total", "no"), ("agreement", "7"), ("price", "")])
      "PROCESS_INSTANCE" "price" "" := by
  have htold : read {} (storesDeclaring [("total", "no"), ("agreement", "7"), ("price", "")]) =
      .error (.invalidParameterType "PROCESS_INSTANCE" "price" "") := by decide +kernel
  refine ⟨?_, (table_canonical.2 _ _ _).mp htold⟩
  obtain ⟨m, hm, hfields⟩ := Outcome.exists_of_toOption_map
    (show (read {} (storesDeclaring [("total", "no"), ("agreement", "7"), ("INDATASET", "no"),
        ("total", "2")])).toOption.map Model.dataStoreFields =
      some [⟨"PROCESS_INSTANCE", "agreement", .contractAddress⟩,
        ⟨"PROCESS_INSTANCE", "total", .number⟩, ⟨"agreement", "amount", .positiveNumber⟩,
        ⟨"agreement", "price", .userOrganization⟩] from by decide +kernel)
  exact ⟨m, hm, hfields, table_canonical.1 m hm⟩

end Collaboration

end BpmnModel
