import BpmnModel.Elements.Gateway
import BpmnModel.Elements.Lane
import BpmnModel.Elements.SequenceFlow
import BpmnModel.Elements.Task
import BpmnModel.Proofs.Model.Denotes
import BpmnModel.Proofs.Properties.Visible

/-!
# Elements that can be read

Each reader of an element succeeds exactly for the elements that keep its rule.  The rules are
stated of the element alone, by what its attributes, its children and its visible properties
say, and not by the steps of the reader.

## Main definitions

* `Task.NamesBehavior`, `Task.Performed`, `Task.Names` — the rules of activities.
* `Gateway.Forks` — the rule of gateways.
* `SequenceFlow.Joins`, `SequenceFlow.Declares`, `SequenceFlow.Whole` — the rules of edges.

## Main statements

* `exists_readPlain_iff` and the lemmas named after the other readers.
* `Lane.performed_iff` — which lanes perform a task.
* `SequenceFlow.readAs_of_read` — the transition that an edge stands for.
-/

namespace BpmnModel

open Properties (visible? Decodable)

variable {s : Settings} {node : Element}

/-! ## Activities -/

namespace Task

/-- A behavior, if the element shows one, is the code of one. -/
def NamesBehavior (s : Settings) (node : Element) : Prop :=
  ∀ raw, visible? s node "behavior" = some raw → ∃ b : TaskBehavior, Coded.Denotes raw b

/-- A participant lists the element. -/
def Performed (participants : List Participant) (node : Element) : Prop :=
  ∃ p ∈ participants, node.id ∈ p.tasks

/-- The element shows a property that is not empty. -/
def Names (s : Settings) (node : Element) (key : String) : Prop :=
  ∃ v, visible? s node key = some v ∧ v ≠ ""

theorem exists_behaviorOr_iff {p : Properties} (hp : Properties.readOrEmpty s node = .ok p)
    (fallback : TaskBehavior) :
    (∃ b, behaviorOr node p fallback = .ok b) ↔ NamesBehavior s node := by
  rw [NamesBehavior, ← Properties.get?_of_readOrEmpty hp, behaviorOr]
  cases p.get? "behavior" with
  | none => simp
  | some raw =>
    simp only [Option.some.injEq, forall_eq', ← Coded.parseCode?_eq_some_iff]
    cases Coded.parseCode? (α := TaskBehavior) raw <;> simp

theorem exists_readPlain_iff :
    (∃ a, readPlain s node = .ok a) ↔ Decodable s node ∧ NamesBehavior s node := by
  rw [← Properties.exists_readOrEmpty_iff]
  refine Outcome.exists_bind_iff fun p hp => ?_
  rw [← exists_behaviorOr_iff hp .send]
  exact Outcome.exists_bind_pure_iff

theorem exists_readSend_iff :
    (∃ a, readSend s node = .ok a) ↔ Decodable s node ∧ NamesBehavior s node := by
  rw [← Properties.exists_readOrEmpty_iff]
  refine Outcome.exists_bind_iff fun p hp => ?_
  rw [← exists_behaviorOr_iff hp .sendReceive]
  exact Outcome.exists_bind_pure_iff

theorem exists_readUser_iff {participants : List Participant} :
    (∃ a, readUser s participants node = .ok a) ↔
      Performed participants node ∧ Decodable s node := by
  have hassignee : (assignee? participants node).isSome ↔ Performed participants node := by
    simp [assignee?, Performed, Participant.performs]
  rw [← hassignee, ← Properties.exists_readOrEmpty_iff, readUser]
  cases assignee? participants node with
  | none => simp
  | some participant =>
    rw [Option.isSome_some, eq_self, true_and]
    exact Outcome.exists_bind_pure_iff

theorem isSome_nonEmpty?_iff {p : Properties} (hp : Properties.readOrEmpty s node = .ok p)
    (key : String) : (p.nonEmpty? key).isSome ↔ Names s node key := by
  rw [Properties.nonEmpty?, Properties.get?_of_readOrEmpty hp, Names]
  cases visible? s node key <;> simp [Option.filter]

theorem exists_readService_iff :
    (∃ a, readService s node = .ok a) ↔ Decodable s node ∧ Names s node "application" := by
  rw [← Properties.exists_readOrEmpty_iff]
  refine Outcome.exists_bind_iff fun p hp => ?_
  rw [← isSome_nonEmpty?_iff hp]
  cases p.nonEmpty? "application" <;> simp [Outcome.pure_eq_ok_iff]

theorem exists_readSubProcess_iff :
    (∃ a, readSubProcess s node = .ok a) ↔ Decodable s node ∧ Names s node "processId" := by
  rw [← Properties.exists_readOrEmpty_iff]
  refine Outcome.exists_bind_iff fun p hp => ?_
  rw [← isSome_nonEmpty?_iff hp]
  cases p.nonEmpty? "processId" <;> simp [Outcome.pure_eq_ok_iff]

end Task

/-! ## Lanes -/

namespace Lane

/-- The participant of a lane with a block bears its name, lists its tasks and has the properties
that it shows. -/
structure ReadAs (s : Settings) (lane : Element) (p : Participant) : Prop where
  block : (Properties.block? lane).isSome
  decodable : Decodable s lane
  id : p.id = lane.id
  name : p.name = lane.name
  tasks : p.tasks = lane.childTexts "flowNodeRef"
  properties : ∀ key, p.properties.get? key = visible? s lane key

theorem exists_readAll_iff {process : Element} :
    (∃ ps, readAll s process = .ok ps) ↔ ∀ lane ∈ lanes process, Decodable s lane := by
  have hlane : ∀ lane, (∃ o, read s lane = .ok o) ↔ Decodable s lane := by
    intro lane
    rw [← Properties.exists_read_iff]
    exact Outcome.exists_bind_pure_iff
  have hall : (∃ ps, readAll s process = .ok ps) ↔
      ∃ os, (lanes process).mapM (read s) = .ok os := Outcome.exists_bind_pure_iff
  rw [hall, Outcome.exists_mapM_iff]
  simp only [hlane]

/-- **The participants are the lanes with a block, in their order.** -/
theorem forall₂_of_readAll {process : Element} {ps : List Participant}
    (h : readAll s process = .ok ps) :
    List.Forall₂ (ReadAs s)
      ((lanes process).filter fun lane => (Properties.block? lane).isSome) ps := by
  simp only [readAll, Outcome.bind_eq_ok_iff, Outcome.pure_eq_ok_iff] at h
  obtain ⟨os, hos, rfl⟩ := h
  rw [Outcome.mapM_eq_ok_iff] at hos
  refine (Outcome.forall₂_filterMap hos fun lane o ho => ?kind).imp ?read
  case kind =>
    simp only [read, Outcome.bind_eq_ok_iff, Outcome.pure_eq_ok_iff] at ho
    obtain ⟨o', ho', rfl⟩ := ho
    rw [Option.isSome_map, Properties.isSome_of_read ho']
  case read =>
    rintro lane p ⟨o, ho, rfl⟩
    have hdecodable : Decodable s lane := Properties.exists_read_iff.mp (by
      simp only [read, Outcome.bind_eq_ok_iff] at ho
      obtain ⟨o', ho', -⟩ := ho
      exact ⟨o', ho'⟩)
    simp only [read, Outcome.bind_eq_ok_iff, Outcome.pure_eq_ok_iff] at ho
    obtain ⟨o', ho', hp⟩ := ho
    obtain ⟨properties, rfl, rfl⟩ := Option.map_eq_some_iff.mp hp
    exact {
      block := by rw [← Properties.isSome_of_read ho', Option.isSome_some]
      decodable := hdecodable
      id := rfl
      name := rfl
      tasks := rfl
      properties := Properties.get?_of_read ho' }

/-- **A task is performed when a lane with a block lists it.** -/
theorem performed_iff {process : Element} {ps : List Participant}
    (h : readAll s process = .ok ps) :
    Task.Performed ps node ↔ ∃ lane ∈ lanes process, (Properties.block? lane).isSome ∧
      node.id ∈ lane.childTexts "flowNodeRef" := by
  have hread := forall₂_of_readAll h
  constructor
  · rintro ⟨p, hp, hid⟩
    obtain ⟨lane, hlane, hread⟩ := Outcome.exists_of_mem_right hread hp
    obtain ⟨hmem, hblock⟩ := List.mem_filter.mp hlane
    exact ⟨lane, hmem, hblock, hread.tasks ▸ hid⟩
  · rintro ⟨lane, hmem, hblock, hid⟩
    obtain ⟨p, hp, hread⟩ :=
      Outcome.exists_of_mem_left hread (List.mem_filter.mpr ⟨hmem, hblock⟩)
    exact ⟨p, hp, hread.tasks ▸ hid⟩

end Lane

/-! ## Gateways -/

namespace Gateway

/-- Edges enter and leave, and not one of each. -/
def Forks (node : Element) : Prop :=
  node.childTexts "incoming" ≠ [] ∧ node.childTexts "outgoing" ≠ [] ∧
    ¬((node.childTexts "incoming").length = 1 ∧ (node.childTexts "outgoing").length = 1)

theorem read_eq_ok_iff {type : GatewayType} {g : Gateway} :
    read type node = .ok g ↔ Forks node ∧
      g = { id := node.id, gatewayType := type, incoming := node.childTexts "incoming",
            outgoing := node.childTexts "outgoing", fallback := fallbackOf type node } := by
  simp only [read, Forks, List.isEmpty_iff, Bool.or_eq_true]
  split
  · rename_i hnone
    simp only [reduceCtorEq, false_iff]
    rintro ⟨⟨hin, hout, -⟩, -⟩
    rcases hnone with h | h
    · exact hin h
    · exact hout h
  · rename_i hsome
    split
    · rename_i hone
      simp [hone]
    · rename_i hone
      simp only [Except.ok.injEq, eq_comm (b := g)]
      have := not_or.mp hsome
      exact ⟨fun h => ⟨⟨this.1, this.2, hone⟩, h⟩, fun h => h.2⟩

theorem exists_read_iff {type : GatewayType} :
    (∃ g, read type node = .ok g) ↔ Forks node := by
  simp [read_eq_ok_iff]

end Gateway

/-! ## Edges -/

namespace SequenceFlow

/-- Both ends of the edge are named. -/
def Joins (node : Element) : Prop :=
  ∀ name ∈ ["sourceRef", "targetRef"], ∃ v, node.attr? name = some v ∧ v ≠ ""

/-- The element shows the four properties of a condition. -/
structure Declares (s : Settings) (node : Element) (store path operator value : String) :
    Prop where
  store : visible? s node "lhDataStorageId" = some store
  path : visible? s node "lhDataPath" = some path
  operator : visible? s node "operator" = some operator
  value : visible? s node "rhValue" = some value

/-- The properties of a condition are all there or none of them is. -/
def Whole (s : Settings) (node : Element) : Prop :=
  (∃ store path operator value, Declares s node store path operator value) ∨
    ∀ key ∈ conditionKeys, visible? s node key = none

/-- The transition of an edge has the names and the ends of the edge, and the condition that
the edge declares. -/
structure ReadAs (s : Settings) (node : Element) (t : Transition) : Prop where
  id : t.id = node.id
  source : node.attr? "sourceRef" = some t.source
  target : node.attr? "targetRef" = some t.target
  condition : ∀ c, t.condition = some c → ∃ store path operator value,
    Declares s node store path operator value ∧ c = {
      lhDataStorageId := s.normalize store
      lhDataPath := path
      operator := Text.trim operator
      comparator := none
      rhValue := .raw value
      rhDataStorageId := (visible? s node "rhDataStorageId").map s.normalize
      rhDataPath := visible? s node "rhDataPath"
      dataType := none }
  declared : ∀ store path operator value, Declares s node store path operator value →
    t.condition.isSome

theorem requiredAttr_eq_ok_iff {name v : String} :
    requiredAttr node name = .ok v ↔ node.attr? name = some v ∧ v ≠ "" := by
  have hfilter : (node.attr? name).filter (fun v => v != "") = some v ↔
      node.attr? name = some v ∧ v ≠ "" := by
    rw [Option.filter_eq_some_iff, bne_iff_ne]
  rw [← hfilter, requiredAttr]
  cases (node.attr? name).filter (fun v => v != "") <;> simp

/-- A missing block is read like an empty one. -/
theorem read_eq : read s node = (do
    let source ← requiredAttr node "sourceRef"
    let target ← requiredAttr node "targetRef"
    let p ← Properties.readOrEmpty s node
    let condition ← readCondition s node.id p
    return { id := node.id, source, target, condition }) := by
  have hempty : readCondition s node.id {} = .ok none := rfl
  simp only [read, Properties.readOrEmpty, bind_assoc, pure_bind]
  congr! with source target o
  cases o with
  | none => rw [Option.getD_none, hempty]; rfl
  | some p => rfl

theorem readCondition_eq_ok_iff {id : String} {p : Properties} {c : Option Condition} :
    readCondition s id p = .ok c ↔ (missingKeys p = [] ∧ c = some (declaredCondition s p)) ∨
      (missingKeys p = conditionKeys ∧ c = none) := by
  rw [readCondition]
  split
  · rename_i hnone
    have hne : ([] : List String) ≠ conditionKeys := by decide
    simp [hnone, hne, eq_comm]
  · rename_i missing hne
    by_cases hall : missingKeys p = conditionKeys
    · simp [hall, show conditionKeys ≠ [] by decide, eq_comm]
    · simp only [hall, if_false, reduceCtorEq, false_and, or_false, false_iff, not_and]
      exact fun h => absurd h hne

section Keys

variable {p : Properties} (hp : Properties.readOrEmpty s node = .ok p)
include hp

theorem contains_iff (key : String) : p.contains key = (visible? s node key).isSome := by
  rw [← Properties.get?_of_readOrEmpty hp]
  rfl

theorem missingKeys_eq_nil_iff : missingKeys p = [] ↔
    ∃ store path operator value, Declares s node store path operator value := by
  have hall : missingKeys p = [] ↔ ∀ key ∈ conditionKeys, (visible? s node key).isSome := by
    simp [missingKeys, contains_iff hp, Option.isSome_iff_ne_none]
  rw [hall]
  constructor
  · intro h
    obtain ⟨store, hstore⟩ := Option.isSome_iff_exists.mp (h "lhDataStorageId" (by decide))
    obtain ⟨path, hpath⟩ := Option.isSome_iff_exists.mp (h "lhDataPath" (by decide))
    obtain ⟨operator, hoperator⟩ := Option.isSome_iff_exists.mp (h "operator" (by decide))
    obtain ⟨value, hvalue⟩ := Option.isSome_iff_exists.mp (h "rhValue" (by decide))
    exact ⟨store, path, operator, value, hstore, hpath, hoperator, hvalue⟩
  · rintro ⟨store, path, operator, value, h⟩ key hkey
    simp only [conditionKeys, List.mem_cons, List.not_mem_nil, or_false] at hkey
    rcases hkey with rfl | rfl | rfl | rfl
    · simp [h.path]
    · simp [h.store]
    · simp [h.operator]
    · simp [h.value]

theorem missingKeys_eq_all_iff : missingKeys p = conditionKeys ↔
    ∀ key ∈ conditionKeys, visible? s node key = none := by
  simp [missingKeys, List.filter_eq_self, contains_iff hp]

theorem exists_readCondition_iff {id : String} :
    (∃ c, readCondition s id p = .ok c) ↔ Whole s node := by
  simp only [readCondition_eq_ok_iff, missingKeys_eq_nil_iff hp, missingKeys_eq_all_iff hp, Whole]
  constructor
  · rintro ⟨c, ⟨h, -⟩ | ⟨h, -⟩⟩
    · exact .inl h
    · exact .inr h
  · rintro (h | h)
    · exact ⟨_, .inl ⟨h, rfl⟩⟩
    · exact ⟨_, .inr ⟨h, rfl⟩⟩

end Keys

/-- **An edge can be read when its ends are named and its condition is whole.** -/
theorem exists_read_iff :
    (∃ t, read s node = .ok t) ↔ Joins node ∧ Decodable s node ∧ Whole s node := by
  have hends : Joins node ↔ (∃ v, requiredAttr node "sourceRef" = .ok v) ∧
      ∃ v, requiredAttr node "targetRef" = .ok v := by
    simp [Joins, requiredAttr_eq_ok_iff]
  rw [hends, and_assoc, read_eq, ← Properties.exists_readOrEmpty_iff]
  refine Outcome.exists_bind_iff fun source _ => ?_
  refine Outcome.exists_bind_iff fun target _ => ?_
  refine Outcome.exists_bind_iff fun p hp => ?_
  rw [← exists_readCondition_iff hp]
  exact Outcome.exists_bind_pure_iff

/-- Both ends of an edge are named. -/
theorem ends_ne_empty_of_read {t : Transition} (h : read s node = .ok t) :
    t.source ≠ "" ∧ t.target ≠ "" := by
  simp only [read_eq, Outcome.bind_eq_ok_iff, Outcome.pure_eq_ok_iff, requiredAttr_eq_ok_iff] at h
  obtain ⟨source, ⟨-, hsource⟩, target, ⟨-, htarget⟩, -, -, condition, -, rfl⟩ := h
  exact ⟨hsource, htarget⟩

/-- **The transition of an edge says what the edge shows.** -/
theorem readAs_of_read {t : Transition} (h : read s node = .ok t) : ReadAs s node t := by
  simp only [read_eq, Outcome.bind_eq_ok_iff, Outcome.pure_eq_ok_iff,
    requiredAttr_eq_ok_iff] at h
  obtain ⟨source, ⟨hsource, -⟩, target, ⟨htarget, -⟩, p, hp, condition, hcondition, rfl⟩ := h
  rw [readCondition_eq_ok_iff, missingKeys_eq_nil_iff hp, missingKeys_eq_all_iff hp] at hcondition
  refine { id := rfl, source := hsource, target := htarget, condition := ?_, declared := ?_ }
  · rintro c rfl
    rcases hcondition with ⟨⟨store, path, operator, value, h⟩, hc⟩ | ⟨-, hnone⟩
    · refine ⟨store, path, operator, value, h, ?_⟩
      rw [Option.some.inj hc, declaredCondition]
      simp only [Properties.get?_of_readOrEmpty hp, h.store, h.path, h.operator, h.value,
        Option.getD_some]
    · simp at hnone
  · intro store path operator value h
    rcases hcondition with ⟨-, hc⟩ | ⟨hnone, -⟩
    · simp [hc]
    · have := hnone "lhDataPath" (by decide)
      simp [h.path] at this

end SequenceFlow

end BpmnModel
