import BpmnModel.Condition.Check
import BpmnModel.Proofs.Model.Denotes

/-!
# Sound conditions

A condition of a checked process has a comparator, a storage type and a value, and they are the
ones that its declaration stands for.  The rules are stated over the model and the process, not
over the order in which they are checked.

## Main definitions

* `Settings.MapsFirst settings t d` — `d` is the first storage type assigned to `t`.
* `Model.Compared settings m store path f` — `f` is the field that a condition is compared with.
* `Process.SingleXor p id` — one choosing gateway and no other gateway has the identifier.
* `Condition.Sound settings m p source raw c` — all of a checked condition.

## Main statements

* `Condition.problems_eq_nil_iff` — the conditions in which nothing is wrong.
* `Condition.sound_complete` — completing such a condition makes it sound.
-/

namespace BpmnModel

variable {s : Settings} {m : Model} {p : Process}

/-! ## Types and fields -/

/-- The first mapping of a parameter type assigns the storage type. -/
def Settings.MapsFirst (s : Settings) (t : ParameterType) (d : DataType) : Prop :=
  ∃ before after, s.typeMappings = before ++ ⟨t, d⟩ :: after ∧
    ∀ mapping ∈ before, mapping.parameterType ≠ t

theorem Settings.dataTypeFor?_eq_some_iff {t : ParameterType} {d : DataType} :
    s.dataTypeFor? t = some d ↔ s.MapsFirst t d := by
  simp only [dataTypeFor?, Option.map_eq_some_iff, List.find?_eq_some_iff_append, beq_iff_eq,
    Bool.not_eq_true', beq_eq_false_iff_ne]
  constructor
  · rintro ⟨⟨t', d'⟩, ⟨rfl, before, after, happ, hbefore⟩, rfl⟩
    exact ⟨before, after, happ, hbefore⟩
  · rintro ⟨before, after, happ, hbefore⟩
    exact ⟨⟨t, d⟩, ⟨rfl, before, after, happ, hbefore⟩, rfl⟩

/-- The field that a condition on a path is compared with: one of the condition's own store when
any has the path, and else the first with the path. -/
structure Model.Compared (s : Settings) (m : Model) (store path : String) (f : DataStoreField) :
    Prop where
  mem : f ∈ m.dataStoreFields
  dataPath : f.dataPath = path
  own : (∃ g ∈ m.dataStoreFields, g.dataPath = path ∧ s.normalize g.dataStorageId = store) →
    s.normalize f.dataStorageId = store
  first : (∀ g ∈ m.dataStoreFields, g.dataPath = path → s.normalize g.dataStorageId ≠ store) →
    ∃ before after, m.dataStoreFields = before ++ f :: after ∧
      ∀ g ∈ before, g.dataPath ≠ path

theorem Model.compared_of_comparedField? {store path : String} {f : DataStoreField}
    (h : m.comparedField? s store path = some f) : m.Compared s store path f := by
  rw [comparedField?, Option.or_eq_some_iff] at h
  rcases h with hown | ⟨hnone, hfirst⟩
  · have hf := List.find?_some hown
    rw [Bool.and_eq_true, beq_iff_eq, beq_iff_eq] at hf
    have hmem := List.mem_of_find?_eq_some hown
    exact {
      mem := hmem
      dataPath := hf.1
      own := fun _ => hf.2
      first := fun hno => absurd hf.2 (hno f hmem hf.1) }
  · rw [List.find?_eq_none] at hnone
    have hno : ∀ g ∈ m.dataStoreFields, g.dataPath = path → s.normalize g.dataStorageId ≠ store := by
      intro g hg hpath hstore
      exact hnone g hg (by simp [hpath, hstore])
    obtain ⟨hpath, before, after, happ, hbefore⟩ := List.find?_eq_some_iff_append.mp hfirst
    exact {
      mem := List.mem_of_find?_eq_some hfirst
      dataPath := by simpa using hpath
      own := fun ⟨g, hg, hgpath, hgstore⟩ => absurd hgstore (hno g hg hgpath)
      first := fun _ => ⟨before, after, happ, fun g hg => by simpa using hbefore g hg⟩ }

/-! ## Sources -/

/-- One choosing gateway and no gateway of the other kind has the identifier. -/
def Process.SingleXor (p : Process) (id : String) : Prop :=
  (p.xorGateways.filter fun g => g.id == id).length = 1 ∧ ∀ g ∈ p.andGateways, g.id ≠ id

theorem Process.isSingleXor_iff {id : String} : p.isSingleXor id = true ↔ p.SingleXor id := by
  simp [isSingleXor, countGateways, SingleXor, List.filter_eq_nil_iff]

/-! ## Values -/

/-- A declared value is resolved by reading its text. -/
theorem ConditionValue.resolve_raw_iff {raw : String} {d : DataType} {v : ConditionValue} :
    (ConditionValue.raw raw).resolve d = .ok v ↔ Denotes raw d v := by
  rw [resolve, ofText_eq_ok_iff]

namespace Condition

/-! ## Nothing wrong -/

/-- A checked condition on an edge from `source` whose value was declared as `raw`. -/
structure Sound (s : Settings) (m : Model) (p : Process) (source raw : String) (c : Condition) :
    Prop where
  singleXor : p.SingleXor source
  comparator : ∃ op, c.comparator = some op ∧ Text.integer? c.operator = some (Coded.code op : Int)
  value : ∃ f d, m.Compared s c.lhDataStorageId c.lhDataPath f ∧ s.MapsFirst f.parameterType d ∧
    c.dataType = some d ∧ ConditionValue.Denotes raw d c.rhValue

variable {source : String} {c : Condition}

/-- **Nothing is wrong with a condition** when its field, the type of the field, its value, its
operator and its source are all what they have to be. -/
theorem problems_eq_nil_iff : c.problems s m p source = [] ↔
    ∃ f d, m.comparedField? s c.lhDataStorageId c.lhDataPath = some f ∧
      s.dataTypeFor? f.parameterType = some d ∧ (∃ v, c.rhValue.resolve d = .ok v) ∧
        (∃ op : Operator, Coded.Denotes c.operator op) ∧ p.SingleXor source := by
  have hoperator : c.operatorProblems = [] ↔ ∃ op : Operator, Coded.Denotes c.operator op := by
    simp only [operatorProblems, ← Coded.parseCode?_eq_some_iff]
    cases Coded.parseCode? (α := Operator) c.operator <;> simp
  have hsource : sourceProblems p source = [] ↔ p.SingleXor source := by
    rw [← Process.isSingleXor_iff, sourceProblems]
    cases p.isSingleXor source <;> simp
  have hvalue : ∀ f, c.valueProblems s f = [] ↔
      ∃ d, s.dataTypeFor? f.parameterType = some d ∧ ∃ v, c.rhValue.resolve d = .ok v := by
    intro f
    rw [valueProblems]
    cases s.dataTypeFor? f.parameterType with
    | none => simp
    | some d => cases hv : c.rhValue.resolve d <;> simp [hv]
  rw [problems]
  cases m.comparedField? s c.lhDataStorageId c.lhDataPath with
  | none => simp
  | some f =>
    simp only [List.append_eq_nil_iff, hvalue, hoperator, hsource, Option.some.injEq]
    constructor
    · rintro ⟨⟨⟨d, htype, hv⟩, hop⟩, hxor⟩
      exact ⟨f, d, rfl, htype, hv, hop, hxor⟩
    · rintro ⟨f', d, rfl, htype, hv, hop, hxor⟩
      exact ⟨⟨⟨d, htype, hv⟩, hop⟩, hxor⟩

/-- What completing a condition fills in. -/
theorem complete_eq {f : DataStoreField} {d : DataType} {v : ConditionValue} {op : Operator}
    (hfield : m.comparedField? s c.lhDataStorageId c.lhDataPath = some f)
    (htype : s.dataTypeFor? f.parameterType = some d) (hvalue : c.rhValue.resolve d = .ok v)
    (hop : Coded.Denotes c.operator op) :
    c.complete s m = { c with comparator := some op, dataType := some d, rhValue := v } := by
  simp [complete, hfield, htype, hvalue, Coded.parseCode?_eq_some_iff.mpr hop, Except.toOption]

/-- **Completing a condition in which nothing is wrong makes it sound.** -/
theorem sound_complete {raw : String} (hraw : c.rhValue = .raw raw)
    (htrim : Text.trim c.operator = c.operator) (h : c.problems s m p source = []) :
    Sound s m p source raw (c.complete s m) := by
  obtain ⟨f, d, hfield, htype, ⟨v, hv⟩, ⟨op, hop⟩, hsource⟩ := problems_eq_nil_iff.mp h
  rw [complete_eq hfield htype hv hop]
  rw [hraw] at hv
  rw [Coded.Denotes, htrim] at hop
  exact {
    singleXor := hsource
    comparator := ⟨op, rfl, hop⟩
    value := ⟨f, d, Model.compared_of_comparedField? hfield,
      Settings.dataTypeFor?_eq_some_iff.mp htype, rfl, ConditionValue.resolve_raw_iff.mp hv⟩ }

end Condition

/-! ## Processes -/

/-- No rule is broken when nothing is wrong with any condition. -/
theorem Process.violations_eq_nil_iff : p.violations s m = [] ↔
    ∀ t ∈ p.transitions, ∀ c, t.condition = some c → c.problems s m p t.source = [] := by
  simp only [violations, List.flatMap_eq_nil_iff]
  refine forall₂_congr fun t _ => ?_
  rw [Transition.violations]
  cases t.condition <;> simp

end BpmnModel
