import BpmnModel.Proofs.Condition.Sound
import BpmnModel.Proofs.Condition.Wording
import BpmnModel.Proofs.Row

/-!
# What a check tells

A check goes over the transitions of a process once and tells every rule that one of them breaks.
Which rules a transition breaks is said here of the transition itself, of the gateways around it, of
the declared fields and of the settings, with the text in which each of them is told.  No transition
hides, doubles or moves what is told of another one.

## Main definitions

* `Model.Finds settings m store path f` — `f` is the field that a path leads to.
* `Condition.BreaksValue`, `Condition.CodesOperator` — the rules on values and operators.
* `Transition.IsTold t problem v` — the violation `v` tells that `t` has the problem.
* `Transition.Tells settings m p t violations` — the violations of a transition.
* `Process.told settings m p` — what a check of the process tells.

## Main statements

* `Transition.tells_iff` — the violations that a pass finds are those of the transition.
* `Process.exists_own_violations` — a process is told what its transitions break, one by one.
-/

namespace BpmnModel

variable {s : Settings} {m : Model} {p : Process} {t : Transition} {c : Condition}
variable {f : DataStoreField} {store path source : String} {problems : List ConditionProblem}

/-! ## Fields -/

/-- The field has the path and belongs to the store. -/
def DataStoreField.IsAt (s : Settings) (store path : String) (f : DataStoreField) : Prop :=
  f.dataPath = path ∧ s.normalize f.dataStorageId = store

instance : DecidablePred (DataStoreField.IsAt s store path) := fun f =>
  inferInstanceAs (Decidable (f.dataPath = path ∧ s.normalize f.dataStorageId = store))

/-- The field that a path leads to: the first one with the path in the condition's own store or,
where that store has none, the first one with the path. -/
def Model.Finds (s : Settings) (m : Model) (store path : String) (f : DataStoreField) : Prop :=
  FirstWith (DataStoreField.IsAt s store path) m.dataStoreFields f ∨
    (∀ g ∈ m.dataStoreFields, ¬g.IsAt s store path) ∧
      FirstWith (fun g => g.dataPath = path) m.dataStoreFields f

theorem Model.comparedField?_eq_some_iff :
    m.comparedField? s store path = some f ↔ m.Finds s store path f := by
  have hown : (fun g : DataStoreField =>
      g.dataPath == path && s.normalize g.dataStorageId == store) =
        fun g => decide (g.IsAt s store path) := by
    funext g
    rw [Bool.eq_iff_iff, decide_eq_true_iff]
    simp [DataStoreField.IsAt]
  have hany : (fun g : DataStoreField => g.dataPath == path) =
      fun g => decide (g.dataPath = path) := by
    funext g
    rw [Bool.eq_iff_iff]
    simp
  rw [comparedField?, Option.or_eq_some_iff, Finds, field?, hown, hany, firstWith_iff_find?,
    firstWith_iff_find?, List.find?_eq_none]
  simp

theorem Model.comparedField?_eq_none_iff : m.comparedField? s store path = none ↔
    ∀ g ∈ m.dataStoreFields, g.dataPath ≠ path := by
  rw [comparedField?, Option.or_eq_none_iff, field?, List.find?_eq_none, List.find?_eq_none]
  simp only [Bool.and_eq_true, beq_iff_eq, not_and]
  exact ⟨fun h => h.2, fun h => ⟨fun g hg hpath => absurd hpath (h g hg), h⟩⟩

/-! ## Values -/

/-- What a text fails to be that is no value of the type. -/
inductive ValueFault.Names (raw : String) : DataType → ValueFault → Prop
  | bool : Names raw .bool (.notBoolean raw)
  | int : Names raw .int256 (.notInteger raw)
  | uint : Names raw .uint256 (.notUnsigned raw)

theorem ValueFault.names_of_ofText {raw : String} {d : DataType} {cause : ValueFault}
    (h : ConditionValue.ofText raw d = .error cause) : cause.Names raw d := by
  cases d with
  | bool =>
    rw [ConditionValue.ofText] at h
    split at h
    · simp at h
    · exact Except.error.inj h ▸ .bool
  | int256 =>
    rw [ConditionValue.ofText] at h
    split at h
    · simp at h
    · exact Except.error.inj h ▸ .int
  | uint256 =>
    rw [ConditionValue.ofText] at h
    split at h
    · simp at h
    · exact Except.error.inj h ▸ .uint
  | _ => simp [ConditionValue.ofText] at h

theorem ConditionValue.ofText_eq_error_iff {raw : String} {d : DataType} {cause : ValueFault} :
    ofText raw d = .error cause ↔ (∀ v, ¬Denotes raw d v) ∧ cause.Names raw d := by
  simp only [← ofText_eq_ok_iff]
  cases h : ofText raw d with
  | ok v => simp
  | error cause' =>
    have hnames := ValueFault.names_of_ofText h
    simp only [Except.error.injEq, reduceCtorEq, not_false_eq_true, implies_true, true_and]
    constructor
    · rintro rfl
      exact hnames
    · intro hcause
      cases hcause <;> cases hnames <;> rfl

/-- A value that has been read before is not read again. -/
theorem ConditionValue.exists_resolve_iff {value : ConditionValue} {d : DataType} :
    (∃ v, value.resolve d = .ok v) ↔ ∀ raw, value = .raw raw → ∃ v, Denotes raw d v := by
  cases value with
  | raw raw => simp [resolve, ofText_eq_ok_iff]
  | _ => simp [resolve]

theorem ConditionValue.resolve_eq_error_iff {value : ConditionValue} {d : DataType}
    {cause : ValueFault} : value.resolve d = .error cause ↔
      ∃ raw, value = .raw raw ∧ (∀ v, ¬Denotes raw d v) ∧ cause.Names raw d := by
  cases value with
  | raw raw => simp [resolve, ofText_eq_error_iff]
  | _ => simp [resolve]

/-! ## The rules of a condition -/

/-- A row that holds the problem where the rule is broken, and else nothing. -/
inductive ToldWhere (broken : Prop) (problem : ConditionProblem) : List ConditionProblem → Prop
  | told (h : broken) : ToldWhere broken problem [problem]
  | silent (h : ¬broken) : ToldWhere broken problem []

theorem toldWhere_iff {broken : Prop} [Decidable broken] {problem : ConditionProblem} :
    ToldWhere broken problem problems ↔ problems = if broken then [problem] else [] := by
  constructor
  · intro h
    cases h with
    | told h => rw [if_pos h]
    | silent h => rw [if_neg h]
  · rintro rfl
    by_cases h : broken
    · rw [if_pos h]
      exact .told h
    · rw [if_neg h]
      exact .silent h

namespace Condition

/-- What is told of a value: that the type of the field is mapped to no storage type, or that the
value is a text still and none of that type. -/
inductive BreaksValue (s : Settings) (f : DataStoreField) (c : Condition) :
    List ConditionProblem → Prop
  | unmapped (h : ∀ d, ¬s.MapsFirst f.parameterType d) :
    BreaksValue s f c [.unmappedType f.parameterType f.dataPath]
  | denied {d : DataType} {raw : String} {cause : ValueFault} (hd : s.MapsFirst f.parameterType d)
    (hraw : c.rhValue = .raw raw) (h : ∀ v, ¬ConditionValue.Denotes raw d v)
    (hcause : cause.Names raw d) : BreaksValue s f c [.value cause]
  | kept {d : DataType} (hd : s.MapsFirst f.parameterType d)
    (h : ∀ raw, c.rhValue = .raw raw → ∃ v, ConditionValue.Denotes raw d v) : BreaksValue s f c []

theorem breaksValue_iff : BreaksValue s f c problems ↔ problems = c.valueProblems s f := by
  rw [valueProblems]
  constructor
  · intro h
    cases h with
    | unmapped h =>
      have hnone : s.dataTypeFor? f.parameterType = none :=
        Option.eq_none_iff_forall_ne_some.mpr fun d hd =>
          h d (Settings.dataTypeFor?_eq_some_iff.mp hd)
      rw [hnone]
    | denied hd hraw h hcause =>
      have hvalue := ConditionValue.resolve_eq_error_iff.mpr ⟨_, hraw, h, hcause⟩
      simp only [Settings.dataTypeFor?_eq_some_iff.mpr hd, hvalue]
    | kept hd h =>
      obtain ⟨v, hv⟩ := ConditionValue.exists_resolve_iff.mpr h
      simp only [Settings.dataTypeFor?_eq_some_iff.mpr hd, hv]
  · rintro rfl
    cases htype : s.dataTypeFor? f.parameterType with
    | none =>
      refine .unmapped fun d hd => ?_
      simp [Settings.dataTypeFor?_eq_some_iff.mpr hd] at htype
    | some d =>
      have hd := Settings.dataTypeFor?_eq_some_iff.mp htype
      cases hv : c.rhValue.resolve d with
      | ok v =>
        simp only [hv]
        exact .kept hd (ConditionValue.exists_resolve_iff.mp ⟨v, hv⟩)
      | error cause =>
        obtain ⟨raw, hraw, h, hcause⟩ := ConditionValue.resolve_eq_error_iff.mp hv
        simp only [hv]
        exact .denied hd hraw h hcause

/-- The operator is one of the codes from 0 to 5. -/
def CodesOperator (c : Condition) : Prop :=
  ∃ n : Int, 0 ≤ n ∧ n ≤ 5 ∧ Text.integer? (Text.trim c.operator) = some n

theorem codesOperator_iff : c.CodesOperator ↔ ∃ op : Operator, Coded.Denotes c.operator op := by
  constructor
  · rintro ⟨n, hmin, hmax, hn⟩
    obtain rfl | rfl | rfl | rfl | rfl | rfl :
        n = 0 ∨ n = 1 ∨ n = 2 ∨ n = 3 ∨ n = 4 ∨ n = 5 := by omega
    · exact ⟨.eq, hn⟩
    · exact ⟨.lt, hn⟩
    · exact ⟨.gt, hn⟩
    · exact ⟨.lte, hn⟩
    · exact ⟨.gte, hn⟩
    · exact ⟨.neq, hn⟩
  · rintro ⟨op, hop⟩
    refine ⟨Coded.code op, by omega, ?_, hop⟩
    cases op <;> decide

theorem toldWhere_operator_iff : ToldWhere (¬c.CodesOperator) (.operator c.operator) problems ↔
    problems = c.operatorProblems := by
  classical
  rw [toldWhere_iff, codesOperator_iff, operatorProblems]
  simp only [← Coded.parseCode?_eq_some_iff]
  cases Coded.parseCode? (α := Operator) c.operator <;> simp

end Condition

theorem Process.toldWhere_source_iff :
    ToldWhere (¬p.SingleXor source) (.source source) problems ↔
      problems = Condition.sourceProblems p source := by
  classical
  rw [toldWhere_iff, Condition.sourceProblems, ← isSingleXor_iff]
  cases p.isSingleXor source <;> simp

/-! ## The rules of a transition -/

/-- The violation tells of a problem of the transition: it names the transition, and its text is
that of the problem. -/
structure Transition.IsTold (t : Transition) (problem : ConditionProblem) (v : Violation) :
    Prop where
  transition : v.transitionId = t.id
  message : problem.Says v.message

theorem Transition.isTold_iff {problem : ConditionProblem} {v : Violation} :
    t.IsTold problem v ↔ ⟨t.id, problem.message⟩ = v := by
  constructor
  · rintro ⟨htransition, hmessage⟩
    rw [← htransition, ← ConditionProblem.says_iff.mp hmessage]
  · rintro rfl
    exact ⟨rfl, ConditionProblem.says_iff.mpr rfl⟩

theorem Transition.forall₂_isTold_iff {violations : List Violation} :
    List.Forall₂ t.IsTold problems violations ↔
      violations = problems.map fun problem => ⟨t.id, problem.message⟩ := by
  have hrow : t.IsTold = fun problem v => ⟨t.id, problem.message⟩ = v := by
    funext problem v
    exact propext isTold_iff
  rw [hrow, ← List.forall₂_map_left_iff, List.forall₂_eq_eq_eq, eq_comm]

/-- The violations of a transition.  Without a condition there is none; a path that no field has is
the only one; and where a field is found, each of the three rules makes for one at most. -/
inductive Transition.Tells (s : Settings) (m : Model) (p : Process) (t : Transition) :
    List Violation → Prop
  | unconditional (hc : t.condition = none) : Tells s m p t []
  | unknownPath {c : Condition} {v : Violation} (hc : t.condition = some c)
    (h : ∀ f ∈ m.dataStoreFields, f.dataPath ≠ c.lhDataPath)
    (hv : t.IsTold (.unknownPath c.lhDataPath) v) : Tells s m p t [v]
  | known {c : Condition} {f : DataStoreField} {value operator source : List ConditionProblem}
    {violations : List Violation} (hc : t.condition = some c)
    (hf : m.Finds s c.lhDataStorageId c.lhDataPath f) (hvalue : c.BreaksValue s f value)
    (hoperator : ToldWhere (¬c.CodesOperator) (.operator c.operator) operator)
    (hsource : ToldWhere (¬p.SingleXor t.source) (.source t.source) source)
    (hviolations : List.Forall₂ t.IsTold (value ++ operator ++ source) violations) :
    Tells s m p t violations

/-- **A pass tells the violations of a transition**, all of them and no others. -/
theorem Transition.tells_iff {violations : List Violation} :
    t.Tells s m p violations ↔ violations = t.violations s m p := by
  constructor
  · intro h
    cases h with
    | unconditional hc => rw [Transition.violations, hc]
    | unknownPath hc h hv =>
      obtain rfl := isTold_iff.mp hv
      rw [Transition.violations, hc]
      simp only [Condition.problems, Model.comparedField?_eq_none_iff.mpr h]
      rfl
    | known hc hf hvalue hoperator hsource hviolations =>
      obtain rfl := forall₂_isTold_iff.mp hviolations
      rw [Transition.violations, hc]
      simp only [Condition.problems, Model.comparedField?_eq_some_iff.mpr hf,
        ← Condition.breaksValue_iff.mp hvalue, ← Condition.toldWhere_operator_iff.mp hoperator,
        ← Process.toldWhere_source_iff.mp hsource]
  · rintro rfl
    rw [Transition.violations]
    cases hc : t.condition with
    | none => exact .unconditional hc
    | some c =>
      simp only [Condition.problems]
      cases hf : m.comparedField? s c.lhDataStorageId c.lhDataPath with
      | none =>
        exact .unknownPath hc (Model.comparedField?_eq_none_iff.mp hf) (isTold_iff.mpr rfl)
      | some f =>
        exact .known hc (Model.comparedField?_eq_some_iff.mp hf) (Condition.breaksValue_iff.mpr rfl)
          (Condition.toldWhere_operator_iff.mpr rfl) (Process.toldWhere_source_iff.mpr rfl)
          (forall₂_isTold_iff.mpr rfl)

/-! ## Processes -/

namespace Process

/-- What a check of the process tells. -/
def told (s : Settings) (m : Model) (p : Process) : List Violation :=
  match p.check s m with
  | .ok _ => []
  | .error e => e.violations

theorem told_eq (s : Settings) (m : Model) (p : Process) : p.told s m = p.violations s m := by
  rw [told]
  by_cases h : p.violations s m = []
  · rw [check_of_nil h, h]
  · rw [check_of_ne_nil h]

theorem exists_error_iff : (∃ e, p.check s m = .error e) ↔
    ∃ t ∈ p.transitions, t.violations s m p ≠ [] := by
  have hrefused : (∃ e, p.check s m = .error e) ↔ p.violations s m ≠ [] := by
    by_cases h : p.violations s m = []
    · simp [check_of_nil h, h]
    · simp [check_of_ne_nil h, h]
  rw [hrefused, violations]
  simp only [ne_eq, List.flatMap_eq_nil_iff, not_forall, exists_prop]

/-- **A process is told what its transitions break, one by one.**  It is refused when any of them
breaks a rule, and then all violations are told in the order of the transitions.  Those of one
transition depend on nothing but the settings, the model, the gateways and the transition, and the
text of each of them tells of one problem only. -/
theorem exists_own_violations :
    (∀ (t : Transition) (a b : ConditionProblem) (v : Violation),
      t.IsTold a v → t.IsTold b v → a = b) ∧
    ∃ own : Settings → Model → List Gateway → List Gateway → Transition → List Violation,
      ∀ (s : Settings) (m : Model) (p : Process),
        (∀ t violations, t.Tells s m p violations ↔
          violations = own s m p.xorGateways p.andGateways t) ∧
        ((∃ e, p.check s m = .error e) ↔
          ∃ t ∈ p.transitions, own s m p.xorGateways p.andGateways t ≠ []) ∧
        (∀ e, p.check s m = .error e → e.processId = p.id ∧
          e.violations = p.transitions.flatMap (own s m p.xorGateways p.andGateways)) ∧
        ∀ as bs : List Transition, { p with transitions := as ++ bs }.told s m =
          { p with transitions := as }.told s m ++ { p with transitions := bs }.told s m := by
  -- the rules look at nothing of a process but its gateways
  refine ⟨fun t a b v ha hb => ha.message.unique hb.message,
    fun s m xorGateways andGateways t => t.violations s m
    { id := "", name := "", interface := "", xorGateways, andGateways }, fun s m p => ?_⟩
  refine ⟨fun t violations => Transition.tells_iff, exists_error_iff, ?_, ?_⟩
  · intro e he
    rw [eq_of_check_eq_error he]
    exact ⟨rfl, rfl⟩
  · intro as bs
    simp only [told_eq]
    exact List.flatMap_append

/-- An unknown path leaves nothing else to tell of its own edge, and hides nothing of a later
one. -/
example :
    let condition (path operator value : String) : Condition := {
      lhDataStorageId := "", lhDataPath := path, operator, comparator := none
      rhValue := .raw value, rhDataStorageId := none, rhDataPath := none, dataType := none }
    let model : Model := {
      id := "C", name := "", version := ⟨1, 0, 0⟩, isPrivate := false
      dataStoreFields := [⟨"PROCESS_INSTANCE", "amount", .number⟩] }
    let transitions : List Transition := [
      ⟨"F1", "T", "A", some (condition "price" "9" "x")⟩, ⟨"F2", "T", "B", none⟩,
      ⟨"F3", "T", "C", some (condition "amount" "9" "x")⟩]
    (told {} model { id := "P", name := "", interface := "", transitions }).map
      Violation.transitionId = ["F1", "F3", "F3", "F3"] := by
  decide +kernel

end Process

end BpmnModel
