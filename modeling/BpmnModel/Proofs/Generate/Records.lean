import BpmnModel.Compile.FlowGraph
import BpmnModel.Proofs.Elements.Readable
import BpmnModel.Proofs.Generate.Names
import BpmnModel.Proofs.Generate.Properties

/-!
# The records of generated elements

Each lane, task, gateway and edge of a generated process is read as one record, which is a
function of what was drawn.

## Main definitions

* `Generate.participant`, `Generate.activity`, `Generate.xorGateway`, `Generate.transition` — the
  records.

## Main statements

* `Generate.read_lane`, `Generate.readUser_userTask`, `Generate.read_gateway` and
  `Generate.read_sequenceFlow` — generated elements are read as their records.
-/

namespace BpmnModel.Generate

open Markup (tree)

variable (shape : Shape) (process : Nat) (draw : Nat → TaskDraw shape.lanes)

/-- The identifier of a lane. -/
def laneId (process lane : Nat) : String :=
  "Lane_" ++ process.repr ++ "_" ++ lane.repr

/-! ## Lanes -/

/-- The properties of each lane. -/
def laneProperties : List (String × String) :=
  [("dataPath", "buyer"), ("dataStorageId", Settings.standard.processInstanceStore)]

/-- The participant that a lane is read as. -/
def participant (l : Nat) : Participant where
  id := laneId process l
  name := "Signatory " ++ l.repr
  tasks := (tasksOf shape draw l).map fun t => (Node.task t).id process
  conditionalPerformer := none
  properties := Table.ofList laneProperties

/-- The participants, in the order of their lanes. -/
def participants : List Participant :=
  (List.range shape.lanes).map (participant shape process draw)

theorem children_lane (l : Nat) : (lane .standard shape process draw l).tree.children =
    (properties laneProperties).tree ::
      (tasksOf shape draw l).map fun t =>
        (reference "flowNodeRef" ((Node.task t).id process)).tree := by
  rw [lane, Markup.children_element, List.map_cons, List.map_map]
  · rfl
  · rw [List.forall_mem_cons, List.forall_mem_map]
    exact ⟨rfl, fun _ _ => rfl⟩

/-- **A lane is read as its participant.** -/
theorem read_lane (l : Nat) : Lane.read .standard (lane .standard shape process draw l).tree =
    .ok (some (participant shape process draw l)) := by
  have hid : (lane .standard shape process draw l).tree.id = laneId process l := by
    simp [Element.id, lane, Table.lookup_cons_eq, laneId]
  have hname : (lane .standard shape process draw l).tree.name = "Signatory " ++ l.repr := by
    simp [Element.name, lane]
  have htasks : (lane .standard shape process draw l).tree.childTexts "flowNodeRef" =
      (tasksOf shape draw l).map fun t => (Node.task t).id process := by
    rw [Element.childTexts_eq, children_lane, Element.textsNamed_cons_of_ne (by decide),
      textsNamed_references fun t => Node.id_ne_empty process (.task t), if_pos rfl]
  rw [Lane.read, read_plain (children_lane shape process draw l) (by decide)]
  show Except.ok (some _) = _
  rw [hid, hname, htasks]
  rfl

/-! ## Tasks -/

/-- The references to edges, of which the first enter and the others leave. -/
theorem tree_edgeReferences (n : Node) : (edgeReferences shape process n).map tree =
    (entering shape n).map (fun e => (reference "incoming" (e.id process)).tree) ++
      (leaving shape n).map fun e => (reference "outgoing" (e.id process)).tree := by
  rw [edgeReferences, List.map_append, List.map_map, List.map_map]
  rfl

theorem isElement_edgeReferences (n : Node) :
    ∀ m ∈ edgeReferences shape process n, m.isElement = true := by
  rw [edgeReferences, List.forall_mem_append, List.forall_mem_map, List.forall_mem_map]
  exact ⟨fun _ _ => rfl, fun _ _ => rfl⟩

/-- References to edges are neither a block nor a loop. -/
theorem tag_edgeReferences (n : Node) : ∀ c ∈ (edgeReferences shape process n).map tree,
    c.tag = "incoming" ∨ c.tag = "outgoing" := by
  rw [tree_edgeReferences, List.forall_mem_append, List.forall_mem_map, List.forall_mem_map]
  exact ⟨fun _ _ => .inl rfl, fun _ _ => .inr rfl⟩

/-- The mappings of a task that declares them, with normalized stores. -/
def mappingPair (t : Nat) : List DataMapping :=
  [{ id := "in" ++ t.repr, direction := .input, dataPath := "amount", dataStorageId := "" },
   { id := "out" ++ t.repr, direction := .output, dataPath := "approved", dataStorageId := "" }]

/-- The activity that a task is read as. -/
def activity (t : Nat) : Activity where
  id := (Node.task t).id process
  name := "Review step " ++ t.repr
  kind := .userTask
  assignee := laneId process (draw t).lane
  taskType := .user
  behavior := .sendReceive
  dataMappings := if (draw t).mapped then some (mappingPair t) else none

theorem normalized_mappings (t : Nat) :
    (mappings .standard t).map (DataMapping.normalized .standard) = mappingPair t := by
  simp [mappings, mappingPair, DataMapping.normalized, Settings.normalize, Settings.standard]

theorem faithful_mappings (t : Nat) : DataMapping.Faithful .standard (mappings .standard t) where
  named := by simp [mappings]
  trimmed := by
    have hin : Text.IsId ("in" ++ t.repr) := Text.IsId.append (by decide) (Text.isId_repr t)
    have hout : Text.IsId ("out" ++ t.repr) := Text.IsId.append (by decide) (Text.isId_repr t)
    simp [mappings, hin.trim, hout.trim]
  agree := by simp [mappings]

theorem children_userTask (t : Nat) : (userTask .standard shape process draw t).tree.children =
    (if (draw t).mapped then
      [(properties (DataMapping.encode .standard (mappings .standard t))).tree] else []) ++
      (edgeReferences shape process (.task t)).map tree := by
  rw [userTask, Markup.children_element, List.map_append]
  · cases (draw t).mapped <;> rfl
  · rw [List.forall_mem_append]
    refine ⟨?_, isElement_edgeReferences shape process (.task t)⟩
    cases (draw t).mapped <;> simp [properties]

/-- A task holds a block and references to edges. -/
theorem tag_userTask (t : Nat) : ∀ c ∈ (userTask .standard shape process draw t).tree.children,
    c.tag ∈ ["extensionElements", "incoming", "outgoing"] := by
  rw [children_userTask, List.forall_mem_append]
  constructor
  · cases (draw t).mapped <;> simp [properties, bpmn]
  · intro c hc
    rcases tag_edgeReferences shape process _ c hc with htag | htag <;> simp [htag]

/-- A task declares the mappings that were drawn for it, and nothing else. -/
theorem readOrEmpty_userTask (t : Nat) :
    Properties.readOrEmpty .standard (userTask .standard shape process draw t).tree =
      .ok { mappings := if (draw t).mapped then some (mappingPair t) else none } := by
  have hchildren := children_userTask shape process draw t
  cases hmapped : (draw t).mapped with
  | true =>
    rw [hmapped, if_pos rfl, List.singleton_append] at hchildren
    rw [Properties.readOrEmpty, read_encoded hchildren (by decide) (faithful_mappings t)
      (by simp [mappings]), normalized_mappings]
    rfl
  | false =>
    rw [hmapped, if_neg (by simp), List.nil_append] at hchildren
    have htag : ∀ c ∈ (userTask .standard shape process draw t).tree.children,
        c.tag ≠ "extensionElements" := by
      rw [hchildren]
      intro c hc
      rcases tag_edgeReferences shape process _ c hc with htag | htag <;> simp [htag]
    rw [Properties.readOrEmpty, read_absent .standard htag]
    rfl

/-- **A task is assigned to the lane that was drawn for it.** -/
theorem assignee?_userTask {t : Nat} (ht : t < shape.tasks) {node : Element}
    (hid : node.id = (Node.task t).id process) :
    Task.assignee? (participants shape process draw) node =
      some (participant shape process draw (draw t).lane) := by
  have hperforms : ∀ l, (participant shape process draw l).performs node.id = true ↔
      (draw t).lane.val = l := by
    intro l
    simp [Participant.performs, participant, hid, Node.task_id_inj, tasksOf, ht]
  rw [Task.assignee?, participants, List.find?_map, Option.map_eq_some_iff]
  refine ⟨(draw t).lane, ?_, rfl⟩
  rw [List.find?_range_eq_some]
  refine ⟨(hperforms _).mpr rfl, List.mem_range.mpr (draw t).lane.isLt, fun l hl => ?_⟩
  have hne : ¬ (draw t).lane.val = l := by omega
  rw [← hperforms, Bool.not_eq_true] at hne
  simpa using hne

/-- **A task is read as its activity.** -/
theorem readUser_userTask {t : Nat} (ht : t < shape.tasks) :
    Task.readUser .standard (participants shape process draw)
      (userTask .standard shape process draw t).tree = .ok (activity shape process draw t) := by
  have hid : (userTask .standard shape process draw t).tree.id = (Node.task t).id process := by
    simp [Element.id, userTask, Table.lookup_cons_eq]
  have hname : (userTask .standard shape process draw t).tree.name =
      "Review step " ++ t.repr := by
    simp [Element.name, userTask]
  have hloop : Task.hasLoop (userTask .standard shape process draw t).tree = false := by
    have hnone : ∀ tag ∈ ["extensionElements", "incoming", "outgoing"],
        ¬ Text.endsWith tag "LoopCharacteristics" = true := by decide
    rw [Task.hasLoop, List.any_eq_false]
    exact fun c hc => hnone c.tag (tag_userTask shape process draw t c hc)
  rw [Task.readUser, assignee?_userTask shape process draw ht hid]
  simp only [readOrEmpty_userTask]
  show Except.ok _ = _
  rw [Task.seed, hid, hname, hloop]
  rfl

/-! ## Gateways -/

/-- The gateway behind a task. -/
def xorGateway (t : Nat) : Gateway where
  id := (Node.gateway t).id process
  gatewayType := .xor
  incoming := [(Edge.entry t).id process]
  outgoing := [(Edge.guarded t).id process, (Edge.fallback t).id process]
  fallback := some ((Edge.fallback t).id process)

/-- **A gateway is read as it was drawn**, with one edge that enters and two that leave. -/
theorem read_gateway {t : Nat} (hconditions : shape.conditions = true)
    (ht : t < shape.tasks - 1) :
    Gateway.read .xor (gateway shape process t).tree = .ok (xorGateway process t) := by
  have htexts : ∀ tag, (gateway shape process t).tree.childTexts tag =
      Element.textsNamed tag ((edgeReferences shape process (.gateway t)).map tree) := by
    intro tag
    rw [Element.childTexts_eq, gateway,
      Markup.children_element _ _ _ _ (isElement_edgeReferences shape process _)]
  have hincoming : (gateway shape process t).tree.childTexts "incoming" =
      [(Edge.entry t).id process] := by
    rw [htexts, tree_edgeReferences, Element.textsNamed_append,
      textsNamed_references (Edge.id_ne_empty process),
      textsNamed_references (Edge.id_ne_empty process)]
    simp [entering, ht, hconditions]
  have houtgoing : (gateway shape process t).tree.childTexts "outgoing" =
      [(Edge.guarded t).id process, (Edge.fallback t).id process] := by
    rw [htexts, tree_edgeReferences, Element.textsNamed_append,
      textsNamed_references (Edge.id_ne_empty process),
      textsNamed_references (Edge.id_ne_empty process)]
    simp [leaving, ht, hconditions]
  have hid : (gateway shape process t).tree.id = (Node.gateway t).id process := by
    simp [Element.id, gateway, Table.lookup_cons_eq]
  have hfallback : Gateway.fallbackOf .xor (gateway shape process t).tree =
      some ((Edge.fallback t).id process) := by
    simp [Gateway.fallbackOf, gateway, Option.filter, Edge.id_ne_empty process (.fallback t)]
  rw [Gateway.read_eq_ok_iff, Gateway.Forks, hincoming, houtgoing, hid, hfallback]
  exact ⟨by simp, rfl⟩

/-! ## Edges -/

/-- The condition of an edge as it is declared. -/
def declaredCondition (g : Guard) : Condition where
  lhDataStorageId := ""
  lhDataPath := g.field.path
  operator := (Coded.code g.operator).repr
  comparator := none
  rhValue := .raw g.value
  rhDataStorageId := none
  rhDataPath := none
  dataType := none

/-- The condition that was drawn for an edge. -/
def conditionOf : Edge → Option Condition
  | .guarded t => some (declaredCondition (draw t).guard)
  | _ => none

/-- The transition that an edge is read as. -/
def transition (e : Edge) : Transition where
  id := e.id process
  source := e.source.id process
  target := e.target.id process
  condition := conditionOf shape draw e

theorem plain_conditionProperties (g : Guard) : ∀ p ∈ conditionProperties .standard g,
    DataMapping.isMappingKey .standard p.1 = false := by
  have hkeys : ∀ key ∈ ["lhDataStorageId", "lhDataPath", "operator", "rhValue"],
      DataMapping.isMappingKey .standard key = false := by decide
  simpa [conditionProperties] using hkeys

/-- The properties of a condition are read as the condition. -/
theorem readCondition_guard (id : String) (g : Guard) :
    SequenceFlow.readCondition .standard id
      { values := Table.ofList (conditionProperties .standard g) } =
        .ok (some (declaredCondition g)) := by
  have htrim : Text.trim (Coded.code g.operator).repr = (Coded.code g.operator).repr :=
    (Text.isId_repr _).trim
  rw [SequenceFlow.readCondition_eq_ok_iff]
  refine .inl ⟨?_, ?_⟩
  · simp [SequenceFlow.missingKeys, SequenceFlow.conditionKeys, Properties.contains, Table.contains,
      Table.get?_ofList, conditionProperties, Table.lookup_cons_eq]
  · simp [SequenceFlow.declaredCondition, declaredCondition, Properties.get?, Table.get?_ofList,
      conditionProperties, Table.lookup_cons_eq, htrim]

theorem children_guarded (t : Nat) :
    (sequenceFlow .standard shape process draw (.guarded t)).tree.children =
      [(properties (conditionProperties .standard (draw t).guard)).tree] := rfl

/-- **An edge is read as its transition.** -/
theorem read_sequenceFlow (e : Edge) :
    SequenceFlow.read .standard (sequenceFlow .standard shape process draw e).tree =
      .ok (transition shape process draw e) := by
  have hattr : ∀ key, (sequenceFlow .standard shape process draw e).tree.attr? key =
      [("targetRef", e.target.id process), ("sourceRef", e.source.id process),
        ("id", e.id process)].lookup key := by
    intro key
    cases e <;> simp [sequenceFlow, edgeAttributes]
  have hsource : SequenceFlow.requiredAttr (sequenceFlow .standard shape process draw e).tree
      "sourceRef" = .ok (e.source.id process) := by
    rw [SequenceFlow.requiredAttr_eq_ok_iff, hattr]
    exact ⟨by simp [Table.lookup_cons_eq], Node.id_ne_empty process e.source⟩
  have htarget : SequenceFlow.requiredAttr (sequenceFlow .standard shape process draw e).tree
      "targetRef" = .ok (e.target.id process) := by
    rw [SequenceFlow.requiredAttr_eq_ok_iff, hattr]
    exact ⟨by simp, Node.id_ne_empty process e.target⟩
  have hid : (sequenceFlow .standard shape process draw e).tree.id = e.id process := by
    rw [Element.id, hattr]
    simp [Table.lookup_cons_eq]
  rw [SequenceFlow.read, hsource, htarget, hid]
  cases e with
  | guarded t =>
    rw [read_plain (children_guarded shape process draw t) (plain_conditionProperties _)]
    show (do
      let condition ← SequenceFlow.readCondition .standard _ _
      return _) = _
    rw [readCondition_guard]
    rfl
  | _ t =>
    rw [read_absent .standard (by simp [sequenceFlow])]
    rfl

end BpmnModel.Generate
