import BpmnModel.Proofs.Compile.Children
import BpmnModel.Proofs.Generate.Records

/-!
# Generated processes

The children of a generated process are read one by one, each as its record, and every fallback
edge leads to the end of the process.

## Main definitions

* `Generate.graph` — the process that a generated process element is read as.

## Main statements

* `Generate.readAll_processElement` — its participants, in the order of their lanes.
* `Generate.read_processElement` — the whole process.
-/

namespace BpmnModel.Generate

open Markup (tree)

variable (shape : Shape) (process : Nat) (draw : Nat → TaskDraw shape.lanes)

/-! ## Children -/

theorem isElement_gateways : ∀ m ∈ gateways shape process, m.isElement = true := by
  rw [gateways]
  split
  · rw [List.forall_mem_append, List.forall_mem_map]
    exact ⟨fun _ _ => rfl, by simp⟩
  · simp

theorem isElement_sequenceFlow (e : Edge) :
    (sequenceFlow .standard shape process draw e).isElement = true := by
  cases e <;> rfl

theorem children_processElement :
    (processElement .standard shape process draw).tree.children =
      [(properties [("processInterface", "Agreement Formation")]).tree,
        (laneSet .standard shape process draw).tree] ++
      (List.range shape.tasks).map (fun t => (userTask .standard shape process draw t).tree) ++
      (gateways shape process).map tree ++
      (edges shape).map fun e => (sequenceFlow .standard shape process draw e).tree := by
  rw [processElement, Markup.children_element]
  · simp only [List.map_append, List.map_map]
    rfl
  · simp only [List.forall_mem_append, List.forall_mem_map]
    exact ⟨⟨⟨by simp [properties, laneSet], fun _ _ => rfl⟩, isElement_gateways shape process⟩,
      fun e _ => isElement_sequenceFlow shape process draw e⟩

theorem tag_sequenceFlow (e : Edge) :
    (sequenceFlow .standard shape process draw e).tree.tag = "sequenceFlow" := by
  cases e <;> rfl

theorem tag_gateways : ∀ c ∈ (gateways shape process).map tree,
    c.tag = "exclusiveGateway" ∨ c.tag = "endEvent" := by
  rw [gateways]
  split
  · simp only [List.forall_mem_map, List.forall_mem_append]
    exact ⟨fun _ _ => .inl rfl, by simp [bpmn]⟩
  · simp

/-! ## Participants -/

/-- No lane holds another one. -/
theorem tag_descendants_lane (l : Nat) :
    ∀ d ∈ (lane .standard shape process draw l).tree.descendants, d.tag ≠ "lane" := by
  intro d hd
  rw [Element.descendants_eq, children_lane, Element.mem_listDescendants_iff] at hd
  obtain ⟨c, hc, hd⟩ := hd
  rcases List.mem_cons.mp hc with rfl | hc
  · rcases hd with rfl | hd
    · simp [properties, bpmn]
    · have := tag_block d hd
      rintro htag
      simp [htag] at this
  · obtain ⟨t, -, rfl⟩ := List.mem_map.mp hc
    have hleaf : (reference "flowNodeRef" ((Node.task t).id process)).tree.descendants = [] := by
      rw [Element.descendants_eq]
      rfl
    rw [hleaf] at hd
    simp only [List.not_mem_nil, or_false] at hd
    simp [hd, reference, bpmn]

theorem lanes_processElement : Lane.lanes (processElement .standard shape process draw).tree =
    (List.range shape.lanes).map fun l => (lane .standard shape process draw l).tree := by
  have hset : (processElement .standard shape process draw).tree.childrenNamed "laneSet" =
      [(laneSet .standard shape process draw).tree] := by
    have hgateways : ((gateways shape process).map tree).filter (fun c => c.tag == "laneSet") =
        [] := by
      rw [List.filter_eq_nil_iff]
      intro c hc
      rcases tag_gateways shape process c hc with htag | htag <;> simp [htag]
    rw [Element.childrenNamed, children_processElement, List.filter_append, List.filter_append,
      List.filter_append, hgateways, Element.filter_tag_map (tag_sequenceFlow shape process draw),
      Element.filter_tag_map (t := "userTask") (fun _ => rfl)]
    simp [properties, laneSet, bpmn]
  have hlanes : (laneSet .standard shape process draw).tree.children =
      (List.range shape.lanes).map fun l => (lane .standard shape process draw l).tree := by
    rw [laneSet, Markup.children_element, List.map_map]
    · rfl
    · rw [List.forall_mem_map]
      exact fun _ _ => rfl
  rw [Lane.lanes, hset, List.flatMap_singleton, Element.descendantsNamed_eq, hlanes,
    List.flatMap_map, ← List.flatMap_pure_eq_map]
  refine List.flatMap_congr fun l _ => ?_
  rw [Element.withinNamed_of_descendants (tag_descendants_lane shape process draw l)]
  rfl

/-- **The participants are the lanes, in their order.** -/
theorem readAll_processElement :
    Lane.readAll .standard (processElement .standard shape process draw).tree =
      .ok (participants shape process draw) := by
  have hread : (Lane.lanes (processElement .standard shape process draw).tree).mapM
      (Lane.read .standard) =
        .ok ((List.range shape.lanes).map fun l => some (participant shape process draw l)) := by
    rw [lanes_processElement]
    exact Outcome.mapM_map_eq_ok fun l _ => read_lane shape process draw l
  rw [Lane.readAll, hread]
  show Except.ok _ = _
  rw [List.filterMap_map]
  exact congrArg Except.ok (congrFun List.filterMap_eq_map _)

/-! ## Flow elements -/

/-- The gateways, where edges have conditions. -/
def xorGateways : List Gateway :=
  if shape.conditions then (List.range (shape.tasks - 1)).map (xorGateway process) else []

/-- The fallback edges, one for each gateway; all of them lead to the end. -/
def defaultTransitions : List DefaultTransition :=
  if shape.conditions then (List.range (shape.tasks - 1)).map fun t =>
    { gateway := (Node.gateway t).id process
      transition := (Edge.fallback t).id process
      activity := Node.finish.id process }
  else []

/-- The records of the children of a process. -/
def flowElements : List FlowElement :=
  (List.range shape.tasks).map (fun t => .activity (activity shape process draw t)) ++
    (xorGateways shape process).map (fun g => .gateway g g.stub?) ++
      (edges shape).map fun e => .transition (transition shape process draw e)

/-- The tags of children that no classifier knows. -/
def passedTags : List String := ["extensionElements", "laneSet", "endEvent"]

/-- How a child of a generated process is read. -/
def readChild (node : Element) : Except StructureError (Option FlowElement) :=
  FlowGraph.classify .standard .standard (participants shape process draw) node

theorem readChild_of_builtin {node : Element} {tag : String} {c : Classifier} {e : FlowElement}
    (htag : node.tag = tag) (hc : (tag, c) ∈ Registry.builtins)
    (he : c .standard (participants shape process draw) node = .ok e) :
    readChild shape process draw node = .ok (some e) := by
  refine FlowGraph.classify_of_builtin ?_ hc he
  rw [htag, Registry.get?_standard, Registry.builtin?_eq_some_iff]
  exact hc

/-- A child with a tag that no classifier knows is passed over. -/
theorem readChild_passed {node : Element} (htag : node.tag ∈ passedTags) :
    readChild shape process draw node = .ok none := by
  have hnone : ∀ tag ∈ passedTags,
      (Registry.builtin? tag).isNone ∧ tag ∉ FlowGraph.unsupportedGateways := by decide
  obtain ⟨hbuiltin, hgateway⟩ := hnone _ htag
  rw [Option.isNone_iff_eq_none, ← Registry.get?_standard] at hbuiltin
  simp [readChild, FlowGraph.classify, hbuiltin, hgateway]

theorem readChild_userTask {t : Nat} (ht : t < shape.tasks) :
    readChild shape process draw (userTask .standard shape process draw t).tree =
      .ok (some (.activity (activity shape process draw t))) := by
  refine readChild_of_builtin shape process draw (c := .activity Task.readUser) rfl
    (by simp [Registry.builtins, userTask, bpmn]) ?_
  rw [Classifier.activity, readUser_userTask shape process draw ht]
  rfl

theorem readChild_sequenceFlow (e : Edge) :
    readChild shape process draw (sequenceFlow .standard shape process draw e).tree =
      .ok (some (.transition (transition shape process draw e))) := by
  refine readChild_of_builtin shape process draw (c := .transition)
    (tag_sequenceFlow shape process draw e) (by simp [Registry.builtins]) ?_
  rw [Classifier.transition, read_sequenceFlow]
  rfl

/-- Children are read as flow elements; some may be passed over. -/
def ReadAs (cs : List Element) (es : List FlowElement) : Prop :=
  ∃ records, cs.mapM (readChild shape process draw) = .ok records ∧
    records.filterMap (fun e => e) = es

section ReadAs

variable {shape process draw}

theorem ReadAs.append {cs cs' : List Element} {es es' : List FlowElement}
    (h : ReadAs shape process draw cs es) (h' : ReadAs shape process draw cs' es') :
    ReadAs shape process draw (cs ++ cs') (es ++ es') := by
  obtain ⟨records, hread, rfl⟩ := h
  obtain ⟨records', hread', rfl⟩ := h'
  exact ⟨records ++ records', Outcome.mapM_append_eq_ok hread hread', List.filterMap_append⟩

theorem readAs_map {α : Type} {f : α → Element} {g : α → FlowElement} {l : List α}
    (h : ∀ a ∈ l, readChild shape process draw (f a) = .ok (some (g a))) :
    ReadAs shape process draw (l.map f) (l.map g) := by
  refine ⟨l.map fun a => some (g a), Outcome.mapM_map_eq_ok h, ?_⟩
  rw [List.filterMap_map]
  exact congrFun List.filterMap_eq_map l

theorem readAs_passed {cs : List Element} (h : ∀ c ∈ cs, c.tag ∈ passedTags) :
    ReadAs shape process draw cs [] := by
  have hread : (cs.map id).mapM (readChild shape process draw) = .ok (cs.map fun _ => none) :=
    Outcome.mapM_map_eq_ok fun c hc => readChild_passed shape process draw (h c hc)
  rw [List.map_id] at hread
  exact ⟨_, hread, by simp⟩

end ReadAs

/-- The gateways are read as their records; the end is passed over. -/
theorem readAs_gateways : ReadAs shape process draw ((gateways shape process).map tree)
    ((xorGateways shape process).map fun g => .gateway g g.stub?) := by
  rw [gateways, xorGateways]
  split
  · rename_i hconditions
    have hgateway : ∀ t ∈ List.range (shape.tasks - 1),
        readChild shape process draw (gateway shape process t).tree =
          .ok (some (.gateway (xorGateway process t) (xorGateway process t).stub?)) := by
      intro t ht
      refine readChild_of_builtin shape process draw (c := .gateway .xor) rfl
        (by simp [Registry.builtins, gateway, bpmn]) ?_
      rw [Classifier.gateway, read_gateway shape process hconditions (List.mem_range.mp ht)]
      rfl
    have hend : ∀ c ∈ [(Markup.leaf (bpmn "endEvent") [attr "id" (Node.finish.id process)]).tree],
        c.tag ∈ passedTags := by
      simp [bpmn, passedTags]
    rw [List.map_append, List.map_map, List.map_map]
    have hread := (readAs_map hgateway).append (readAs_passed hend)
    rwa [List.append_nil] at hread
  · exact readAs_passed (by simp)

/-- **The children of a process are read as its flow elements.** -/
theorem readAs_children : ReadAs shape process draw
    (processElement .standard shape process draw).tree.children
    (flowElements shape process draw) := by
  rw [children_processElement, flowElements, ← List.nil_append (List.map _ (List.range _))]
  refine (((readAs_passed ?_).append ?_).append ?_).append ?_
  · simp [properties, laneSet, bpmn, passedTags]
  · exact readAs_map fun t ht => readChild_userTask shape process draw (List.mem_range.mp ht)
  · exact readAs_gateways shape process draw
  · exact readAs_map fun e _ => readChild_sequenceFlow shape process draw e

/-! ## Collections -/

theorem filterMap_activity? : (flowElements shape process draw).filterMap FlowElement.activity? =
    (List.range shape.tasks).map (activity shape process draw) := by
  simp [flowElements, List.filterMap_map, Function.comp_def, FlowElement.activity?]

theorem filterMap_gateway? : (flowElements shape process draw).filterMap FlowElement.gateway? =
    xorGateways shape process := by
  simp [flowElements, List.filterMap_map, Function.comp_def, FlowElement.gateway?]

theorem filterMap_transition? :
    (flowElements shape process draw).filterMap FlowElement.transition? =
      (edges shape).map (transition shape process draw) := by
  simp [flowElements, List.filterMap_map, Function.comp_def, FlowElement.transition?]

theorem filterMap_stub? : (flowElements shape process draw).filterMap FlowElement.stub? =
    (xorGateways shape process).filterMap Gateway.stub? := by
  simp [flowElements, List.filterMap_map, Function.comp_def, FlowElement.stub?]

/-- The process that a generated process element is read as. -/
def graph : Process where
  id := "Process_" ++ process.repr
  name := "Generated Process " ++ process.repr
  interface := "Agreement Formation"
  participants := participants shape process draw
  userTasks := (List.range shape.tasks).map (activity shape process draw)
  xorGateways := xorGateways shape process
  transitions := (edges shape).map (transition shape process draw)
  activityMap := FlowGraph.namesOf (flowElements shape process draw)
  defaultTransitions := defaultTransitions shape process

theorem collect_flowElements (p : Process) : FlowGraph.collect p (flowElements shape process draw) =
    { p with
      tasks := []
      userTasks := (List.range shape.tasks).map (activity shape process draw)
      sendTasks := []
      serviceTasks := []
      subProcesses := []
      xorGateways := xorGateways shape process
      andGateways := []
      transitions := (edges shape).map (transition shape process draw)
      activityMap := FlowGraph.namesOf (flowElements shape process draw) } := by
  have hkind : ∀ kind, FlowGraph.activitiesOf kind (flowElements shape process draw) =
      if kind = .userTask then (List.range shape.tasks).map (activity shape process draw)
      else [] := by
    intro kind
    rw [FlowGraph.activitiesOf, filterMap_activity?]
    cases kind <;> simp [activity]
  have htype : ∀ type, FlowGraph.gatewaysOf type (flowElements shape process draw) =
      if type = .xor then xorGateways shape process else [] := by
    intro type
    rw [FlowGraph.gatewaysOf, filterMap_gateway?, xorGateways]
    cases type <;> split <;> simp [xorGateway]
  rw [FlowGraph.collect]
  simp [hkind, htype, filterMap_transition?]

/-! ## Fallback edges -/

/-- An edge of a process is the only one with its identifier. -/
theorem find?_transition {e : Edge} (he : e ∈ edges shape) :
    ((edges shape).map (transition shape process draw)).find? (fun t => t.id == e.id process) =
      some (transition shape process draw e) := by
  have hid : ∀ f, ((transition shape process draw f).id == e.id process) = true ↔ f = e := by
    intro f
    rw [transition, beq_iff_eq, Edge.id_inj]
  rw [List.find?_map, Option.map_eq_some_iff]
  refine ⟨e, ?_, rfl⟩
  cases hfound : (edges shape).find?
      ((fun t => t.id == e.id process) ∘ transition shape process draw) with
  | none => exact absurd ((hid e).mpr rfl) (List.find?_eq_none.mp hfound e he)
  | some f =>
    have hf := List.find?_some hfound
    exact congrArg some ((hid f).mp hf)

/-- **Every fallback edge leads to the end.** -/
theorem resolve_stubs {p : Process}
    (hp : p.transitions = (edges shape).map (transition shape process draw)) :
    ((xorGateways shape process).filterMap Gateway.stub?).mapM (FlowGraph.resolve p) =
      .ok (defaultTransitions shape process) := by
  rw [xorGateways, defaultTransitions]
  split
  · rename_i hconditions
    have hstubs : ((List.range (shape.tasks - 1)).map (xorGateway process)).filterMap
        Gateway.stub? = (List.range (shape.tasks - 1)).map fun t =>
          { gateway := (Node.gateway t).id process, transition := (Edge.fallback t).id process,
            activity := "" } := by
      rw [List.filterMap_map]
      exact congrFun List.filterMap_eq_map _
    rw [hstubs]
    refine Outcome.mapM_map_eq_ok fun t ht => ?_
    have hmem : Edge.fallback t ∈ edges shape :=
      Edge.mem_edges_iff.mpr ⟨List.mem_range.mp ht, by simp [edgesAfter, hconditions, Edge.position]⟩
    have hfound := find?_transition shape process draw hmem
    rw [FlowGraph.resolve, Process.transition?, hp, hfound]
    rfl
  · rfl

/-! ## The process -/

theorem readInterface_processElement :
    Process.readInterface .standard (processElement .standard shape process draw).tree =
      .ok "Agreement Formation" := by
  have hchildren := children_processElement shape process draw
  rw [List.append_assoc, List.append_assoc, List.cons_append] at hchildren
  rw [Process.readInterface, read_plain hchildren (by decide)]
  rfl

/-- **A generated process element is read as its process.** -/
theorem read_processElement :
    Process.read .standard .standard (processElement .standard shape process draw).tree =
      .ok (graph shape process draw) := by
  have hid : (processElement .standard shape process draw).tree.id =
      "Process_" ++ process.repr := by
    simp [Element.id, processElement, Table.lookup_cons_eq]
  have hname : (processElement .standard shape process draw).tree.name =
      "Generated Process " ++ process.repr := by
    simp [Element.name, processElement, Table.lookup_cons_eq]
  obtain ⟨records, hrecords, helements⟩ := readAs_children shape process draw
  refine Process.read_eq_ok_iff.mpr ⟨_, readInterface_processElement shape process draw, _,
    readAll_processElement shape process draw, records, hrecords, ?_⟩
  simp only [helements, filterMap_stub?, collect_flowElements]
  refine ⟨_, resolve_stubs shape process draw rfl, ?_⟩
  rw [hid, hname]
  rfl

end BpmnModel.Generate
