import BpmnModel.Proofs.Compile.Stages
import BpmnModel.Proofs.Condition.Sound
import BpmnModel.Proofs.Generate.Assembly
import BpmnModel.Proofs.Generate.WellFormed

/-!
# Generated documents compile to what was drawn

Whatever is drawn, the text of a generated document is accepted, and what it is compiled to can be
said in terms of the draws alone: which lane a task belongs to, which mappings it declares, and
which condition an edge has.

## Main definitions

* `Generate.Compared guard c` — the condition `c` compares as was drawn.
* `Generate.Joins process draw e t` — the transition `t` is the edge `e`.
* `Generate.Drawn shape draw process p` — the process `p` is what was drawn.

## Main statements

* `Generate.exists_compileText_document` — generated documents compile to what was drawn.
-/

namespace BpmnModel.Generate

open Markup (tree)

/-! ## What was drawn -/

/-- The condition compares the drawn field by the drawn operator with the drawn value, which is
read for the storage type of the field. -/
structure Compared (g : Guard) (c : Condition) : Prop where
  store : c.lhDataStorageId = ""
  path : c.lhDataPath = g.field.path
  comparator : c.comparator = some g.operator
  value : ∃ d, Settings.standard.dataTypeFor? g.field.type = some d ∧ c.dataType = some d ∧
    ConditionValue.Denotes g.value d c.rhValue

section Drawn

variable (shape : Shape) (draw : Nat → TaskDraw shape.lanes) (process : Nat)

/-- The transition joins what the edge joins, under the drawn condition if the edge has one. -/
structure Joins (e : Edge) (t : Transition) : Prop where
  id : t.id = e.id process
  source : t.source = e.source.id process
  target : t.target = e.target.id process
  condition : match e with
    | .guarded i => ∃ c, t.condition = some c ∧ Compared (draw i).guard c
    | _ => t.condition = none

/-- The process is what was drawn: its participants, tasks, gateways and edges stand in the order
of the row, and there is nothing else. -/
structure Drawn (p : Process) : Prop where
  id : p.id = "Process_" ++ process.repr
  participants : p.participants.map (fun a => (a.id, a.tasks)) =
    (List.range shape.lanes).map fun l => (laneId process l,
      ((List.range shape.tasks).filter fun t => (draw t).lane.val = l).map fun t =>
        (Node.task t).id process)
  userTasks : p.userTasks.map (fun a => (a.id, a.assignee, a.dataMappings)) =
    (List.range shape.tasks).map fun t => ((Node.task t).id process, laneId process (draw t).lane,
      if (draw t).mapped then some (mappingPair t) else none)
  otherTasks : p.tasks = [] ∧ p.sendTasks = [] ∧ p.serviceTasks = [] ∧ p.subProcesses = []
  xorGateways : p.xorGateways.map Gateway.id =
    if shape.conditions then (List.range (shape.tasks - 1)).map fun t => (Node.gateway t).id process
    else []
  andGateways : p.andGateways = []
  transitions : List.Forall₂ (Joins shape draw process) (edges shape) p.transitions
  count : p.transitions.length = if shape.conditions then 3 * (shape.tasks - 1) else shape.tasks - 1
  defaultTransitions : p.defaultTransitions = if shape.conditions then
      (List.range (shape.tasks - 1)).map fun t =>
        { gateway := (Node.gateway t).id process
          transition := (Edge.fallback t).id process
          activity := "End_" ++ process.repr }
    else []

end Drawn

/-! ## The model -/

/-- The model of every generated document. -/
def model : Model where
  id := "Collaboration_generated"
  name := "Generated Model"
  version := ⟨1, 0, 0⟩
  isPrivate := false
  dataStoreFields :=
    ([("agreement", .contractAddress), ("amount", .number), ("approved", .boolean),
      ("buyer", .userOrganization), ("quantity", .positiveNumber)].map fun f =>
        { dataStorageId := "PROCESS_INSTANCE", dataPath := f.1, parameterType := f.2 }) ++
      [{ dataStorageId := "agreement", dataPath := "effectiveDate", parameterType := .date }]

section Document

variable (shape : Shape) (draws : Draws shape.lanes)

theorem children_root : (root shape draws).tree.children =
    [(instanceStore .standard).tree, (agreementStore .standard).tree,
      (collaboration shape.processes).tree] ++
      (List.range shape.processes).map fun i =>
        (processElement .standard shape i (draws i)).tree := by
  rw [root, Markup.children_element, List.map_append, List.map_map]
  · rfl
  · rw [List.forall_mem_append, List.forall_mem_map]
    exact ⟨by simp [instanceStore, agreementStore, collaboration], fun _ _ => rfl⟩

theorem processes_root : (root shape draws).tree.childrenNamed "process" =
    (List.range shape.processes).map fun i =>
      (processElement .standard shape i (draws i)).tree := by
  rw [Element.childrenNamed, children_root, List.filter_append,
    Element.filter_tag_map (t := "process") fun _ => rfl]
  simp [instanceStore, agreementStore, collaboration, bpmn]

/-- The stores and the collaboration stand in front of all processes and hold nothing that is
drawn, so that reading them is a computation. -/
theorem read_root : Collaboration.read .standard (root shape draws).tree = .ok model := by
  rfl

end Document

/-! ## Conditions -/

theorem exists_value (g : Guard) : ∃ d v, Settings.standard.dataTypeFor? g.field.type = some d ∧
    (ConditionValue.raw g.value).resolve d = .ok v := by
  have hvalues : ∀ f : SampleField, ∀ raw ∈ f.values, ∃ d v,
      Settings.standard.dataTypeFor? f.type = some d ∧
        (ConditionValue.raw raw).resolve d = .ok v := by
    intro f raw hraw
    cases f with
    | approved =>
      simp only [SampleField.values, List.mem_cons, List.not_mem_nil, or_false] at hraw
      rcases hraw with rfl | rfl
      · exact ⟨.bool, .bool true, rfl, rfl⟩
      · exact ⟨.bool, .bool false, rfl, rfl⟩
    | amount =>
      simp only [SampleField.values, List.mem_cons, List.not_mem_nil, or_false] at hraw
      rcases hraw with rfl | rfl | rfl
      · exact ⟨.int256, .int (-50), rfl, rfl⟩
      · exact ⟨.int256, .int 100, rfl, rfl⟩
      · exact ⟨.int256, .int 2500, rfl, rfl⟩
    | quantity =>
      simp only [SampleField.values, List.mem_cons, List.not_mem_nil, or_false] at hraw
      rcases hraw with rfl | rfl | rfl
      · exact ⟨.uint256, .uint 1, rfl, rfl⟩
      · exact ⟨.uint256, .uint 10, rfl, rfl⟩
      · exact ⟨.uint256, .uint 42, rfl, rfl⟩
    | buyer => exact ⟨.address, .text raw, rfl, rfl⟩
  exact hvalues g.field g.value (List.getElem_mem _)

/-- The field of a drawn condition is found in the model. -/
theorem comparedField?_guard (g : Guard) :
    model.comparedField? .standard "" g.field.path =
      some { dataStorageId := "PROCESS_INSTANCE", dataPath := g.field.path,
             parameterType := g.field.type } := by
  cases g.field <;> rfl

theorem denotes_operator (g : Guard) :
    Coded.Denotes (declaredCondition g).operator g.operator := by
  have htrim : Text.trim (Coded.code g.operator).repr = (Coded.code g.operator).repr :=
    (Text.isId_repr _).trim
  rw [Coded.Denotes, declaredCondition, htrim]
  exact Text.integer?_repr (Coded.code g.operator : Int)

/-- **A drawn condition keeps all rules** on an edge that leaves a choosing gateway. -/
theorem problems_declaredCondition (g : Guard) {p : Process} {source : String}
    (hsource : p.SingleXor source) :
    (declaredCondition g).problems .standard model p source = [] := by
  obtain ⟨d, v, htype, hvalue⟩ := exists_value g
  rw [Condition.problems_eq_nil_iff]
  exact ⟨_, d, comparedField?_guard g, htype, ⟨v, hvalue⟩, ⟨g.operator, denotes_operator g⟩, hsource⟩

theorem compared_complete (g : Guard) :
    Compared g ((declaredCondition g).complete .standard model) := by
  obtain ⟨d, v, htype, hvalue⟩ := exists_value g
  rw [Condition.complete_eq (comparedField?_guard g) htype hvalue (denotes_operator g)]
  exact {
    store := rfl
    path := rfl
    comparator := rfl
    value := ⟨d, htype, rfl, ConditionValue.resolve_raw_iff.mp hvalue⟩ }

/-! ## Checked processes -/

section Process

variable (shape : Shape) (process : Nat) (draw : Nat → TaskDraw shape.lanes)

/-- One gateway stands behind a task. -/
theorem singleXor_gateway {t : Nat} (hconditions : shape.conditions = true)
    (ht : t < shape.tasks - 1) :
    (graph shape process draw).SingleXor ((Node.gateway t).id process) := by
  have hfilter : (List.range (shape.tasks - 1)).filter
      (fun u => (xorGateway process u).id == (Node.gateway t).id process) = [t] := by
    have hsame : ∀ u ∈ List.range (shape.tasks - 1),
        ((xorGateway process u).id == (Node.gateway t).id process) = (u == t) := by
      intro u _
      rw [Bool.eq_iff_iff, beq_iff_eq, beq_iff_eq]
      exact Node.gateway_id_inj
    rw [List.filter_congr hsame, List.filter_beq,
      List.count_eq_one_of_mem List.nodup_range (List.mem_range.mpr ht)]
    rfl
  refine ⟨?_, by simp [graph]⟩
  show ((xorGateways shape process).filter _).length = 1
  rw [xorGateways, if_pos hconditions, List.filter_map, List.length_map]
  exact congrArg List.length hfilter

/-- The process as it is checked. -/
def checkedGraph : Process :=
  { graph shape process draw with
    transitions := (edges shape).map fun e =>
      (transition shape process draw e).complete .standard model }

/-- **A generated process keeps all rules.** -/
theorem check_graph : (graph shape process draw).check .standard model =
    .ok (checkedGraph shape process draw) := by
  rw [Process.check_eq_ok_iff, Process.violations_eq_nil_iff]
  constructor
  · intro t ht c hc
    obtain ⟨e, he, rfl⟩ := List.mem_map.mp ht
    cases e with
    | guarded i =>
      obtain ⟨hi, hedge⟩ := Edge.mem_edges_iff.mp he
      have hconditions : shape.conditions = true := by
        by_contra hnone
        simp [edgesAfter, hnone] at hedge
      obtain rfl : declaredCondition (draw i).guard = c := Option.some.inj hc
      exact problems_declaredCondition _ (singleXor_gateway shape process draw hconditions hi)
    | _ => simp [transition, conditionOf] at hc
  · rw [checkedGraph, graph, List.map_map]
    rfl

theorem joins_complete (e : Edge) :
    Joins shape draw process e ((transition shape process draw e).complete .standard model) where
  id := rfl
  source := rfl
  target := rfl
  condition := by
    cases e with
    | guarded i => exact ⟨_, rfl, compared_complete (draw i).guard⟩
    | _ => rfl

/-- **A checked process is what was drawn.** -/
theorem drawn_checkedGraph : Drawn shape draw process (checkedGraph shape process draw) where
  id := rfl
  participants := by
    rw [checkedGraph, graph, participants, List.map_map]
    rfl
  userTasks := by
    rw [checkedGraph, graph, List.map_map]
    rfl
  otherTasks := ⟨rfl, rfl, rfl, rfl⟩
  xorGateways := by
    show (xorGateways shape process).map Gateway.id = _
    rw [xorGateways]
    split
    · rw [List.map_map]
      rfl
    · rfl
  andGateways := rfl
  transitions := by
    rw [checkedGraph, List.forall₂_map_right_iff, List.forall₂_same]
    exact fun e _ => joins_complete shape process draw e
  count := by
    rw [checkedGraph, List.length_map, length_edges]
  defaultTransitions := rfl

end Process

/-! ## Documents -/

/-- **A generated document compiles to what was drawn**, whatever its shape and the draws are. -/
theorem exists_compileText_document (shape : Shape) (draws : Draws shape.lanes)
    (h : 1 ≤ shape.processes) :
    ∃ d, Compiler.compileText {} (document shape draws) = .ok d ∧
      List.Forall₂ (fun i p => Drawn shape (draws i) i p) (List.range shape.processes)
        d.processes := by
  have hread : Xml.read (document shape draws) = .ok (root shape draws).tree :=
    read_document shape draws (Markup.element?_eq_some_tree rfl)
  have hnone : (root shape draws).tree.childrenNamed "process" ≠ [] := by
    rw [processes_root, ne_eq, List.map_eq_nil_iff, List.range_eq_nil]
    omega
  refine ⟨{ model, processes := (List.range shape.processes).map fun i =>
    checkedGraph shape i (draws i) }, ?_, ?_⟩
  · rw [Compiler.compileText, hread]
    show Compiler.compile {} (root shape draws).tree = _
    rw [Compiler.compile_eq_ok_iff]
    refine ⟨rfl, hnone, read_root shape draws,
      (List.range shape.processes).map fun i => graph shape i (draws i), ?_, ?_⟩
    · rw [processes_root, List.forall₂_map_left_iff, List.forall₂_map_right_iff, List.forall₂_same]
      exact fun i _ => read_processElement shape i (draws i)
    · rw [List.forall₂_map_left_iff, List.forall₂_map_right_iff, List.forall₂_same]
      exact fun i _ => check_graph shape i (draws i)
  · rw [List.forall₂_map_right_iff, List.forall₂_same]
    exact fun i _ => drawn_checkedGraph shape i (draws i)

/-- Two processes of three tasks each, whose edges have conditions. -/
theorem exists_compileText_document_conditions :
    let shape : Shape := { processes := 2, tasks := 3, lanes := 2, conditions := true }
    let draws : Draws 2 := fun process task =>
      { lane := Fin.ofNat 2 (process + task), mapped := task == 1,
        guard := .ofNumbers task process (process + task) }
    1 ≤ shape.processes ∧ ∃ d, Compiler.compileText {} (document shape draws) = .ok d ∧
      List.Forall₂ (fun i p => Drawn shape (draws i) i p) (List.range shape.processes)
        d.processes :=
  ⟨by decide, exists_compileText_document _ _ (by decide)⟩

end BpmnModel.Generate
