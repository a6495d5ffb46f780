import BpmnModel.Proofs.Compile.Frame
import BpmnModel.Proofs.Table

/-!
# What a flow graph holds

Each child of a process that has a classifier is read once and leaves one record, and the record
stands in one collection of the process.  Which one depends on the record and not on the tag of the
child, so that this holds of any classifiers.  The collections keep the order of the document, and
of the display names for one identifier the last one is kept, whatever the kinds of the activities.

## Main definitions

* `FlowGraph.Reads registry settings participants child e` — the child has a classifier, which
  yields `e`.
* `Process.elementCount p` — the number of records in the collections of a process.
* `Process.Holds p elements` — the collections of `p` are those of the records `elements`.

## Main statements

* `FlowGraph.classify_eq_ok_iff` — what a child is classified as.
* `FlowGraph.elementCount_collect` — no record is lost or held twice.
* `FlowGraph.holds_of_assemble` — a flow graph holds what its children are read as.
-/

namespace BpmnModel

variable {r : Registry} {s : Settings} {participants : List Participant}
variable {node : Element} {p q : Process} {e : FlowElement} {elements : List FlowElement}

/-! ## The records of the children -/

namespace FlowGraph

/-- The child has a classifier, which yields the record. -/
def Reads (r : Registry) (s : Settings) (participants : List Participant) (child : Element)
    (e : FlowElement) : Prop :=
  ∃ classifier, r.get? child.tag = some classifier ∧ classifier s participants child = .ok e

/-- The record is no gateway that a model can not hold. -/
def Supported (e : FlowElement) : Prop :=
  ∀ g stub, e = .gateway g stub → g.gatewayType ≠ .or

theorem supported_eq_ok_iff {tag : String} {e' : FlowElement} :
    supported tag e = .ok e' ↔ Supported e ∧ e = e' := by
  cases e with
  | gateway g stub => by_cases h : g.gatewayType = .or <;> simp [supported, Supported, h]
  | _ => simp [supported, Supported]

/-- **What a child is classified as.**  Nothing comes of a child without a classifier. -/
theorem classify_eq_ok_iff {o : Option FlowElement} : classify r s participants node = .ok o ↔
    r.get? node.tag = none ∧ node.tag ∉ unsupportedGateways ∧ o = none ∨
      ∃ e, Reads r s participants node e ∧ Supported e ∧ o = some e := by
  rw [classify]
  cases hc : r.get? node.tag with
  | none =>
    by_cases hm : node.tag ∈ unsupportedGateways
    · simp [List.contains_eq_mem, hm, Reads, hc]
    · simp [List.contains_eq_mem, hm, Reads, hc, eq_comm]
  | some classifier =>
    simp only [Outcome.bind_eq_ok_iff, Outcome.pure_eq_ok_iff, supported_eq_ok_iff, Reads, hc,
      Option.some.injEq, exists_eq_left', reduceCtorEq, false_and, false_or]
    constructor
    · rintro ⟨e, he, _, ⟨hsupported, rfl⟩, rfl⟩
      exact ⟨e, he, hsupported, rfl⟩
    · rintro ⟨e, he, hsupported, rfl⟩
      exact ⟨e, he, e, ⟨hsupported, rfl⟩, rfl⟩

/-- The records are those of the children with a classifier, one for each of them. -/
theorem forall₂_reads_of_elementsOf {cs : List Element}
    (h : elementsOf r s participants cs = .ok elements) :
    List.Forall₂ (Reads r s participants) (cs.filter fun c => r.contains c.tag) elements := by
  obtain ⟨os, hos, rfl⟩ := Outcome.map_eq_ok_iff.mp h
  refine (Outcome.forall₂_filterMap (Outcome.mapM_eq_ok_iff.mp hos) fun c o ho => ?kind).imp ?read
  case kind =>
    rcases classify_eq_ok_iff.mp ho with ⟨hc, -, rfl⟩ | ⟨e, ⟨classifier, hc, -⟩, -, rfl⟩
    · simp [Table.contains, hc]
    · simp [Table.contains, hc]
  case read =>
    rintro c e ⟨o, ho, rfl⟩
    rcases classify_eq_ok_iff.mp ho with ⟨-, -, ho⟩ | ⟨e', hread, -, ho⟩
    · contradiction
    · exact Option.some.inj ho ▸ hread

theorem supported_of_elementsOf {cs : List Element}
    (h : elementsOf r s participants cs = .ok elements) : ∀ e ∈ elements, Supported e := by
  obtain ⟨os, hos, rfl⟩ := Outcome.map_eq_ok_iff.mp h
  intro e he
  obtain ⟨o, ho, rfl⟩ := List.mem_filterMap.mp he
  obtain ⟨c, -, hc⟩ := Outcome.exists_of_mem_right (Outcome.mapM_eq_ok_iff.mp hos) ho
  rcases classify_eq_ok_iff.mp hc with ⟨-, -, hnone⟩ | ⟨e', -, hsupported, hsome⟩
  · contradiction
  · exact Option.some.inj hsome ▸ hsupported

end FlowGraph

/-! ## The number of records -/

namespace Process

/-- The number of records in the collections of a process. -/
def elementCount (p : Process) : Nat :=
  p.activityCount + p.gatewayCount + p.transitions.length

theorem elementCount_addActivity (a : Activity) :
    (p.addActivity a).elementCount = p.elementCount + 1 := by
  simp only [elementCount, activityCount, gatewayCount, activities_eq, List.length_append]
  cases hk : a.kind <;> simp only [addActivity, hk, List.length_append, List.length_singleton] <;>
    omega

theorem elementCount_addGateway {g : Gateway} (h : g.gatewayType ≠ .or) :
    (p.addGateway g).elementCount = p.elementCount + 1 := by
  simp only [elementCount, activityCount, gatewayCount, activities_eq, List.length_append]
  cases ht : g.gatewayType with
  | or => exact absurd ht h
  | _ =>
    simp only [addGateway, ht, List.length_append, List.length_singleton]
    omega

theorem elementCount_addTransition (t : Transition) :
    (p.addTransition t).elementCount = p.elementCount + 1 := by
  simp only [elementCount, activityCount, gatewayCount, activities_eq, addTransition,
    List.length_append, List.length_singleton]
  omega

end Process

namespace FlowGraph

/-- **A record adds one to the collections**, whatever the pass has met before. -/
theorem elementCount_enter (pass : Pass) (h : Supported e) :
    (pass.enter e).process.elementCount = pass.process.elementCount + 1 := by
  cases e with
  | activity a => exact Process.elementCount_addActivity a
  | gateway g stub => exact Process.elementCount_addGateway (h g stub rfl)
  | transition t => exact Process.elementCount_addTransition t

/-- **No record is lost, and none is held twice.** -/
theorem elementCount_collect (p : Process) (h : ∀ e ∈ elements, Supported e) :
    (collect p elements).elementCount = elements.length := by
  induction elements using List.reverseRecOn with
  | nil => rfl
  | append_singleton elements e ih =>
    rw [List.forall_mem_append] at h
    have hstep := elementCount_enter (.collected p elements) (h.2 e List.mem_cons_self)
    rw [Pass.enter_collected] at hstep
    calc (collect p (elements ++ [e])).elementCount
      _ = (collect p elements).elementCount + 1 := hstep
      _ = elements.length + 1 := by rw [ih h.1]
      _ = (elements ++ [e]).length := by rw [List.length_append, List.length_singleton]

end FlowGraph

/-! ## The collections -/

/-- The collections of a process are those of some records, in their order. -/
structure Process.Holds (p : Process) (elements : List FlowElement) : Prop where
  activities : ∀ kind, p.activitiesOf kind =
    (elements.filterMap FlowElement.activity?).filter fun a => a.kind == kind
  xorGateways : p.xorGateways =
    (elements.filterMap FlowElement.gateway?).filter fun g => g.gatewayType == .xor
  andGateways : p.andGateways =
    (elements.filterMap FlowElement.gateway?).filter fun g => g.gatewayType == .and
  transitions : p.transitions = elements.filterMap FlowElement.transition?
  keys : ∀ id, (p.activityMap.get? id).isSome ↔ ∃ a ∈ p.activities, a.id = id
  names : ∀ id name, p.activityMap.get? id = some name ↔
    ∃ a, LastWith (fun a => a.id = id) (elements.filterMap FlowElement.activity?) a ∧ a.name = name

namespace FlowGraph

theorem mem_activities_collect {a : Activity} :
    a ∈ (collect p elements).activities ↔ a ∈ elements.filterMap FlowElement.activity? := by
  have hkind : ∀ kind, (collect p elements).activitiesOf kind = activitiesOf kind elements := by
    intro kind
    cases kind <;> rfl
  simp only [Process.activities, List.mem_flatMap, hkind, activitiesOf, List.mem_filter, beq_iff_eq]
  constructor
  · rintro ⟨kind, -, ha, -⟩
    exact ha
  · intro ha
    exact ⟨a.kind, Closed.mem_all a.kind, ha, rfl⟩

/-- The name of an identifier is that of the last activity that has it. -/
theorem get?_namesOf_eq_some_iff {id name : String} : (namesOf elements).get? id = some name ↔
    ∃ a, LastWith (fun a => a.id = id) (elements.filterMap FlowElement.activity?) a ∧
      a.name = name :=
  Table.get?_ofList_map_eq_some_iff

/-- The identifiers with a name are those of the activities. -/
theorem isSome_get?_namesOf_iff {id : String} : ((namesOf elements).get? id).isSome ↔
    ∃ a ∈ elements.filterMap FlowElement.activity?, a.id = id := by
  simp only [← exists_lastWith_iff, Option.isSome_iff_exists, get?_namesOf_eq_some_iff]
  constructor
  · rintro ⟨name, a, ha, -⟩
    exact ⟨a, ha⟩
  · rintro ⟨a, ha⟩
    exact ⟨a.name, a, ha, rfl⟩

theorem holds_collect (p : Process) (elements : List FlowElement) :
    (collect p elements).Holds elements where
  activities kind := by cases kind <;> rfl
  xorGateways := rfl
  andGateways := rfl
  transitions := rfl
  keys id := by
    simp only [mem_activities_collect]
    exact isSome_get?_namesOf_iff
  names id name := get?_namesOf_eq_some_iff

/-- **A flow graph holds what its children are read as**: the records of the children that have a
classifier, one for each, every one of them in one collection. -/
theorem holds_of_assemble {id name interface : String}
    (h : assemble r s { id, name, interface, participants } node = .ok q) :
    ∃ elements, List.Forall₂ (Reads r s participants)
        (node.children.filter fun child => r.contains child.tag) elements ∧
      q.Holds elements ∧
      q.elementCount = (node.children.filter fun child => r.contains child.tag).length ∧
      q.id = id ∧ q.name = name ∧ q.interface = interface ∧ q.participants = participants := by
  rw [assemble_eq, Outcome.bind_eq_ok_iff] at h
  obtain ⟨elements, helements, hfinish⟩ := h
  obtain ⟨defaults, -, hq⟩ := Outcome.bind_eq_ok_iff.mp hfinish
  obtain rfl := Outcome.pure_eq_ok_iff.mp hq
  -- the fallback edges are resolved beside the collections
  have hholds := holds_collect { id, name, interface, participants } elements
  have hcount := elementCount_collect { id, name, interface, participants }
    (supported_of_elementsOf helements)
  have hread := forall₂_reads_of_elementsOf helements
  exact ⟨elements, hread, { hholds with }, hcount.trans hread.length_eq.symm, rfl, rfl, rfl, rfl⟩

/-- A process with a note, which has no classifier, and with a memo, for which a caller has brought
a classifier of his own: it yields a service task with the identifier of an earlier task. -/
theorem holds_of_assemble_memo :
    let memo : Classifier := fun _ _ node =>
      .ok (.activity { id := "T", name := node.text, kind := .serviceTask })
    let r := Registry.standard.withClassifier "memo" memo
    let node : Element := {
      tag := "process"
      children := [{ tag := "task", attributes := .ofList [("id", "T"), ("name", "first")] },
        { tag := "note", attributes := .ofList [("id", "N")] },
        { tag := "sequenceFlow"
          attributes := .ofList [("id", "F"), ("sourceRef", "T"), ("targetRef", "U")] },
        { tag := "memo", text := "second" },
        { tag := "task", attributes := .ofList [("id", "U"), ("name", "third")] }] }
    ∃ q, assemble r {} { id := "P", name := "", interface := "" } node = .ok q ∧
      (q.tasks ++ q.serviceTasks).map (fun a => (a.id, a.name)) =
        [("T", "first"), ("U", "third"), ("T", "second")] ∧
      q.activityMap.entries = [("T", "second"), ("U", "third")] ∧
      ∃ elements, List.Forall₂ (Reads r {} [])
          (node.children.filter fun child => r.contains child.tag) elements ∧
        q.Holds elements ∧
        q.elementCount = (node.children.filter fun child => r.contains child.tag).length ∧
        q.id = "P" ∧ q.name = "" ∧ q.interface = "" ∧ q.participants = [] := by
  intro memo r node
  have hfound : (assemble r {} { id := "P", name := "", interface := "" } node).toOption.map
      (fun q => ((q.tasks ++ q.serviceTasks).map (fun a => (a.id, a.name)),
        q.activityMap.entries)) =
      some ([("T", "first"), ("U", "third"), ("T", "second")],
        [("T", "second"), ("U", "third")]) := by
    decide +kernel
  obtain ⟨q, hq, hparts⟩ := Outcome.exists_of_toOption_map hfound
  obtain ⟨hactivities, hnames⟩ := Prod.mk.inj hparts
  exact ⟨q, hq, hactivities, hnames, holds_of_assemble hq⟩

end FlowGraph

end BpmnModel
