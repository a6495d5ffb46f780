import BpmnModel.Condition.Value
import BpmnModel.Error.Violation
import BpmnModel.Model.Document
import BpmnModel.Settings

/-!
# Checking conditions

A condition compares a declared field with a value.  Checking looks for every way in which
the conditions of a process break the rules, and tells them all; a process without any gets
its conditions completed.  It goes over the transitions once, filling in what a condition
stands for and telling what is wrong with it as it goes.  What is told about a transition
depends on that transition, the gateways of the process, the model and the settings, and on
nothing else.

## Main definitions

* `ConditionProblem` — a rule that a condition breaks.
* `CheckPass`, `CheckPass.step` — the pass over the transitions, one at a time.
* `Process.check` — the process with its conditions completed, or all that is wrong.
* `Condition.problems`, `Condition.complete` — what the pass tells of a condition and what it
  makes of it.
* `Process.violations` — the rules that the transitions of a process break.

## Main statements

* `CheckPass.violations_step`, `CheckPass.violations_run` — what a pass tells.
* `CheckPass.transitions_run` — what a pass that tells nothing leaves behind.
-/

namespace BpmnModel

/-! ## What can be wrong -/

/-- A rule that a condition breaks. -/
inductive ConditionProblem where
  | unknownPath (path : String)
  | unmappedType (type : ParameterType) (path : String)
  | value (cause : ValueFault)
  | operator (text : String)
  | source (id : String)
deriving DecidableEq, Repr

/-- The text that describes the broken rule. -/
def ConditionProblem.message : ConditionProblem → String
  | .unknownPath path => "condition references unknown data path '" ++ path ++ "'"
  | .unmappedType type path => "no data type is mapped for parameter type " ++
      Coded.label type ++ " of '" ++ path ++ "'"
  | .value cause => cause.message
  | .operator text => "invalid operator '" ++ text ++ "', expected a code between 0 and " ++
      ((Closed.all (α := Operator)).length - 1).repr
  | .source id => "conditions are only allowed on transitions leaving a single XOR " ++
      "gateway, but source '" ++ id ++ "' is not one"

/-! ## One condition -/

/-- The value as the given type reads it; a value that has been read before is kept. -/
def ConditionValue.resolve (type : DataType) : ConditionValue → Except ValueFault ConditionValue
  | .raw s => ofText s type
  | v => .ok v

/-- The compared field: one with the path in the condition's own store, else the first one
with the path in any store. -/
def Model.comparedField? (s : Settings) (m : Model) (storageId path : String) :
    Option DataStoreField :=
  (m.dataStoreFields.find? fun f =>
    f.dataPath == path && s.normalize f.dataStorageId == storageId).or (m.field? path)

namespace Process

/-- The number of gateways in a list that have the identifier. -/
def countGateways (id : String) (gateways : List Gateway) : Nat :=
  (gateways.filter fun g => g.id == id).length

/-- Whether an identifier belongs to one choosing gateway and to no other one. -/
def isSingleXor (p : Process) (id : String) : Bool :=
  countGateways id p.xorGateways == 1 && countGateways id p.andGateways == 0

end Process

namespace Condition

/-- What is wrong with the value of a condition on a field. -/
def valueProblems (s : Settings) (f : DataStoreField) (c : Condition) : List ConditionProblem :=
  match s.dataTypeFor? f.parameterType with
  | none => [.unmappedType f.parameterType f.dataPath]
  | some type =>
    match c.rhValue.resolve type with
    | .ok _ => []
    | .error cause => [.value cause]

/-- What is wrong with the operator of a condition. -/
def operatorProblems (c : Condition) : List ConditionProblem :=
  match Coded.parseCode? (α := Operator) c.operator with
  | some _ => []
  | none => [.operator c.operator]

/-- What is wrong with the source of a conditional transition. -/
def sourceProblems (p : Process) (source : String) : List ConditionProblem :=
  if p.isSingleXor source then [] else [.source source]

/-- The rules that a condition on a transition from `source` breaks.  Without a field there
is nothing to hold the rest against. -/
def problems (s : Settings) (m : Model) (p : Process) (source : String) (c : Condition) :
    List ConditionProblem :=
  match m.comparedField? s c.lhDataStorageId c.lhDataPath with
  | none => [.unknownPath c.lhDataPath]
  | some f => c.valueProblems s f ++ c.operatorProblems ++ sourceProblems p source

/-- The condition with its comparator, its type and its value, as far as they can be
found. -/
def complete (s : Settings) (m : Model) (c : Condition) : Condition :=
  match m.comparedField? s c.lhDataStorageId c.lhDataPath with
  | none => c
  | some f =>
    match s.dataTypeFor? f.parameterType with
    | none => { c with comparator := Coded.parseCode? c.operator }
    | some type =>
      { c with
        comparator := Coded.parseCode? c.operator
        dataType := some type
        rhValue := (c.rhValue.resolve type).toOption.getD c.rhValue }

end Condition

/-! ## One process -/

namespace Transition

/-- The rules that a transition breaks; without a condition there are none. -/
def violations (s : Settings) (m : Model) (p : Process) (t : Transition) : List Violation :=
  match t.condition with
  | none => []
  | some c => (c.problems s m p t.source).map fun problem => ⟨t.id, problem.message⟩

/-- The transition with its condition completed. -/
def complete (s : Settings) (m : Model) (t : Transition) : Transition :=
  { t with condition := t.condition.map (Condition.complete s m) }

end Transition

namespace Process

/-- The rules that the transitions of a process break, in their order. -/
def violations (s : Settings) (m : Model) (p : Process) : List Violation :=
  p.transitions.flatMap (Transition.violations s m p)

end Process

/-! ## The pass over the transitions -/

/-- A pass over the transitions of a process. -/
structure CheckPass where
  /-- The transitions that the pass has left behind, in their order. -/
  transitions : List Transition := []
  /-- What the pass has told. -/
  violations : List Violation := []

namespace CheckPass

/-- Tells that a transition breaks a rule. -/
def tell (pass : CheckPass) (t : Transition) (problem : ConditionProblem) : CheckPass :=
  { pass with violations := pass.violations ++ [⟨t.id, problem.message⟩] }

/-- Leaves a transition behind. -/
def leave (pass : CheckPass) (t : Transition) : CheckPass :=
  { pass with transitions := pass.transitions ++ [t] }

/-- Fills in the type of the field, and the value where that is still a text. -/
def readValue (s : Settings) (f : DataStoreField) (pass : CheckPass) (t : Transition)
    (c : Condition) : Condition × CheckPass :=
  match s.dataTypeFor? f.parameterType with
  | none => (c, pass.tell t (.unmappedType f.parameterType f.dataPath))
  | some type =>
    let c := { c with dataType := some type }
    match c.rhValue.resolve type with
    | .ok v => ({ c with rhValue := v }, pass)
    | .error cause => (c, pass.tell t (.value cause))

/-- Fills in the comparator. -/
def readOperator (pass : CheckPass) (t : Transition) (c : Condition) : Condition × CheckPass :=
  match Coded.parseCode? (α := Operator) c.operator with
  | some op => ({ c with comparator := some op }, pass)
  | none => (c, pass.tell t (.operator c.operator))

/-- Looks for the source among the gateways. -/
def checkSource (p : Process) (pass : CheckPass) (t : Transition) : CheckPass :=
  if p.isSingleXor t.source then pass else pass.tell t (.source t.source)

/-- Goes over one transition.  Where no field has the path, the rest of the condition is left
alone. -/
def step (s : Settings) (m : Model) (p : Process) (pass : CheckPass) (t : Transition) :
    CheckPass :=
  match t.condition with
  | none => pass.leave t
  | some c =>
    match m.comparedField? s c.lhDataStorageId c.lhDataPath with
    | none => (pass.tell t (.unknownPath c.lhDataPath)).leave t
    | some f =>
      let (c, pass) := readValue s f pass t c
      let (c, pass) := readOperator pass t c
      (checkSource p pass t).leave { t with condition := some c }

end CheckPass

/-- The process with its conditions completed, unless a rule is broken. -/
def Process.check (s : Settings) (m : Model) (p : Process) : Except ValidationError Process :=
  let pass := p.transitions.foldl (CheckPass.step s m p) {}
  match pass.violations with
  | [] => .ok { p with transitions := pass.transitions }
  | violations => .error ⟨p.id, violations⟩

/-! ## What a pass comes to -/

namespace CheckPass

variable {s : Settings} {m : Model} {p : Process} {f : DataStoreField} {t : Transition}
variable {c : Condition} {pass : CheckPass} {ts : List Transition}

theorem violations_readValue : (readValue s f pass t c).2.violations =
    pass.violations ++ (c.valueProblems s f).map fun problem => ⟨t.id, problem.message⟩ := by
  rw [readValue, Condition.valueProblems]
  cases s.dataTypeFor? f.parameterType with
  | none => rfl
  | some type => cases hvalue : c.rhValue.resolve type <;> simp [hvalue, tell]

theorem violations_readOperator : (readOperator pass t c).2.violations =
    pass.violations ++ c.operatorProblems.map fun problem => ⟨t.id, problem.message⟩ := by
  rw [readOperator, Condition.operatorProblems]
  cases Coded.parseCode? (α := Operator) c.operator <;> simp [tell]

theorem violations_checkSource : (checkSource p pass t).violations =
    pass.violations ++ (Condition.sourceProblems p t.source).map
      fun problem => ⟨t.id, problem.message⟩ := by
  rw [checkSource, Condition.sourceProblems]
  cases p.isSingleXor t.source <;> simp [tell]

/-- Reading the value keeps the operator. -/
theorem operator_readValue : (readValue s f pass t c).1.operator = c.operator := by
  rw [readValue]
  cases s.dataTypeFor? f.parameterType with
  | none => rfl
  | some type => cases hvalue : c.rhValue.resolve type <;> simp [hvalue]

/-- **A step tells what is wrong with its transition**, whatever has been told before. -/
theorem violations_step :
    (step s m p pass t).violations = pass.violations ++ t.violations s m p := by
  rw [step, Transition.violations]
  cases t.condition with
  | none => simp [leave]
  | some c =>
    simp only [Condition.problems]
    cases m.comparedField? s c.lhDataStorageId c.lhDataPath with
    | none => simp [leave, tell]
    | some f =>
      simp only [leave, violations_checkSource, violations_readOperator, violations_readValue,
        Condition.operatorProblems, operator_readValue, List.map_append, List.append_assoc]

/-- **A pass tells what is wrong with its transitions**, one after the other. -/
theorem violations_run : (ts.foldl (step s m p) pass).violations =
    pass.violations ++ ts.flatMap (Transition.violations s m p) := by
  induction ts generalizing pass with
  | nil => simp
  | cons t ts ih => rw [List.foldl_cons, ih, violations_step, List.flatMap_cons, List.append_assoc]

/-! ## What a pass leaves behind -/

theorem transitions_readValue : (readValue s f pass t c).2.transitions = pass.transitions := by
  rw [readValue]
  cases s.dataTypeFor? f.parameterType with
  | none => rfl
  | some type => cases hvalue : c.rhValue.resolve type <;> simp [hvalue, tell]

theorem transitions_readOperator : (readOperator pass t c).2.transitions = pass.transitions := by
  rw [readOperator]
  cases Coded.parseCode? (α := Operator) c.operator <;> rfl

theorem transitions_checkSource : (checkSource p pass t).transitions = pass.transitions := by
  rw [checkSource]
  cases p.isSingleXor t.source <;> rfl

/-- Where nothing is wrong, both readings together complete a condition. -/
theorem readOperator_readValue (hfield : m.comparedField? s c.lhDataStorageId c.lhDataPath = some f)
    (hvalue : c.valueProblems s f = []) (hoperator : c.operatorProblems = [])
    (pass pass' : CheckPass) (t : Transition) :
    (readOperator pass' t (readValue s f pass t c).1).1 = c.complete s m := by
  rw [Condition.valueProblems] at hvalue
  rw [Condition.operatorProblems] at hoperator
  rw [readValue, Condition.complete, hfield]
  cases htype : s.dataTypeFor? f.parameterType with
  | none => simp [htype] at hvalue
  | some type =>
    cases hv : c.rhValue.resolve type with
    | error cause => simp [htype, hv] at hvalue
    | ok v =>
      cases hop : Coded.parseCode? (α := Operator) c.operator with
      | none => simp [hop] at hoperator
      | some op => simp [readOperator, htype, hv, hop, Except.toOption]

/-- **A step completes a transition in which nothing is wrong.** -/
theorem transitions_step (h : t.violations s m p = []) :
    (step s m p pass t).transitions = pass.transitions ++ [t.complete s m] := by
  obtain ⟨id, source, target, condition⟩ := t
  cases condition with
  | none => rfl
  | some c =>
    simp only [Transition.violations, List.map_eq_nil_iff, Condition.problems] at h
    cases hfield : m.comparedField? s c.lhDataStorageId c.lhDataPath with
    | none => simp [hfield] at h
    | some f =>
      simp only [hfield, List.append_eq_nil_iff] at h
      simp only [step, hfield, leave, transitions_checkSource, transitions_readOperator,
        transitions_readValue, readOperator_readValue hfield h.1.1 h.1.2]
      rfl

/-- **A pass completes transitions in which nothing is wrong.**  What a pass leaves behind that has
told something is not looked at. -/
theorem transitions_run (h : ts.flatMap (Transition.violations s m p) = []) :
    (ts.foldl (step s m p) pass).transitions =
      pass.transitions ++ ts.map (Transition.complete s m) := by
  induction ts generalizing pass with
  | nil => simp
  | cons t ts ih =>
    rw [List.flatMap_cons, List.append_eq_nil_iff] at h
    rw [List.foldl_cons, ih h.2, transitions_step h.1, List.map_cons, List.append_assoc,
      List.singleton_append]

end CheckPass

namespace Process

variable {s : Settings} {m : Model} {p q : Process} {e : ValidationError}

theorem check_of_nil (h : p.violations s m = []) : p.check s m =
    .ok { p with transitions := p.transitions.map (Transition.complete s m) } := by
  simp only [check, CheckPass.violations_run, CheckPass.transitions_run h, List.nil_append]
  rw [violations] at h
  rw [h]

theorem check_of_ne_nil (h : p.violations s m ≠ []) :
    p.check s m = .error { processId := p.id, violations := p.violations s m } := by
  simp only [check, CheckPass.violations_run, List.nil_append]
  rw [violations] at h ⊢
  split
  · contradiction
  · rfl

/-- A process is refused when, and only when, a rule is broken. -/
theorem check_eq_ok_iff : p.check s m = .ok q ↔ p.violations s m = [] ∧
    q = { p with transitions := p.transitions.map (Transition.complete s m) } := by
  by_cases h : p.violations s m = []
  · simp [check_of_nil h, h, eq_comm]
  · simp [check_of_ne_nil h, h]

/-- A refused process is told by its name, with all rules that are broken. -/
theorem eq_of_check_eq_error (h : p.check s m = .error e) :
    e = { processId := p.id, violations := p.violations s m } := by
  by_cases hnone : p.violations s m = []
  · simp [check_of_nil hnone] at h
  · rw [check_of_ne_nil hnone] at h
    exact (Except.error.inj h).symm

end Process

end BpmnModel
