import BpmnModel.Proofs.Compile.Children
import BpmnModel.Proofs.Properties.Rearranged

/-!
# Documents with properties in another order

No reader depends on the order of properties: each one looks up the properties that it knows, or
goes through them in the order of their names.  So two documents that differ in that order only are
compiled alike, whether they are accepted or refused.

## Main definitions

* `Classifier.Steady s classifier` — a classifier that does not depend on the order of properties.

## Main statements

* `Registry.steady_of_get?_aliased` — the built-in classifiers do not.
* `Compiler.compile_rearranged` — documents that differ in that order are compiled alike.
-/

namespace BpmnModel

open Element (Rearranged Reordered)

variable {s : Settings} {node node' root root' : Element}

/-! ## The model -/

/-- The fields of a store stand in the order of their paths, wherever they were declared. -/
theorem DataStore.read_rearranged (h : Rearranged s root root') (storeId : String) :
    DataStore.read s root storeId = DataStore.read s root' storeId := by
  rw [DataStore.read, DataStore.read]
  rcases h.foundAlike_findById? (show "dataStore" ≠ "property" by decide) storeId with
    ⟨hnone, hnone'⟩ | ⟨store, store', hstore, hstore', hrearranged⟩
  · rw [hnone, hnone']
  · simp only [hstore, hstore', Properties.read_rearranged hrearranged]

theorem Collaboration.read_rearranged (h : Rearranged s root root') :
    Collaboration.read s root = Collaboration.read s root' := by
  have hfirst := Rearranged.foundAlike_head?
    (h.forall₂_descendantsNamed (show "collaboration" ≠ "property" by decide))
  simp only [Collaboration.read, Collaboration.details, DataStore.read_rearranged h]
  rcases hfirst with ⟨hnone, hnone'⟩ | ⟨node, node', hnode, hnode', hrearranged⟩
  · rw [hnone, hnone']
  · simp only [hnode, hnode', Properties.read_rearranged hrearranged]
    cases Properties.read s node' with
    | error e => rfl
    | ok o =>
      cases o with
      | none => rfl
      | some p =>
        simp only [bind, Except.bind, pure, Except.pure, hrearranged.id_eq, hrearranged.name_eq]

/-! ## Flow elements -/

/-- A classifier that does not depend on the order of properties. -/
def Classifier.Steady (s : Settings) (classifier : Classifier) : Prop :=
  ∀ participants node node', Rearranged s node node' →
    classifier s participants node = classifier s participants node'

theorem Task.hasLoop_rearranged (h : Rearranged s node node') :
    Task.hasLoop node = Task.hasLoop node' := by
  have htags := h.perm_tags.any_eq (f := fun t => Text.endsWith t "LoopCharacteristics")
  rwa [List.any_map, List.any_map] at htags

theorem Task.behaviorOr_rearranged (h : Rearranged s node node') :
    Task.behaviorOr node = Task.behaviorOr node' := by
  funext p fallback
  rw [Task.behaviorOr, Task.behaviorOr, h.id_eq]

theorem Task.seed_rearranged (h : Rearranged s node node') :
    Task.seed node = Task.seed node' := by
  funext kind p
  rw [Task.seed, Task.seed, h.id_eq, h.name_eq]

theorem Gateway.read_rearranged (h : Rearranged s node node') (type : GatewayType) :
    Gateway.read type node = Gateway.read type node' := by
  have hfallback : fallbackOf type node = fallbackOf type node' := by
    cases type <;> simp [fallbackOf, h.attr?_eq]
  rw [Gateway.read, Gateway.read, h.childTexts_eq (show "incoming" ≠ "property" by decide),
    h.childTexts_eq (show "outgoing" ≠ "property" by decide), h.id_eq, hfallback]

theorem SequenceFlow.read_rearranged (h : Rearranged s node node') :
    SequenceFlow.read s node = SequenceFlow.read s node' := by
  simp only [SequenceFlow.read, SequenceFlow.requiredAttr, h.attr?_eq, h.id_eq,
    Properties.read_rearranged h]

namespace Registry

/-- **The built-in classifiers do not depend on the order of properties.** -/
theorem steady_of_builtin {tag : String} {classifier : Classifier}
    (h : (tag, classifier) ∈ builtins) : classifier.Steady s := by
  intro participants node node' hrearranged
  have hread := Properties.readOrEmpty_rearranged hrearranged
  have hseed := Task.seed_rearranged hrearranged
  have hbehavior := Task.behaviorOr_rearranged hrearranged
  simp only [builtins, List.mem_cons, Prod.mk.injEq, List.not_mem_nil, or_false] at h
  rcases h with ⟨-, rfl⟩ | ⟨-, rfl⟩ | ⟨-, rfl⟩ | ⟨-, rfl⟩ | ⟨-, rfl⟩ | ⟨-, rfl⟩ | ⟨-, rfl⟩ |
    ⟨-, rfl⟩
  · simp only [Classifier.activity, Task.readPlain, hread, hseed, hbehavior]
  · simp only [Classifier.activity, Task.readUser, Task.assignee?, hread, hseed,
      hrearranged.id_eq, Task.hasLoop_rearranged hrearranged]
  · simp only [Classifier.activity, Task.readSend, hread, hseed, hbehavior]
  · simp only [Classifier.activity, Task.readService, hread, hseed, hrearranged.id_eq]
  · simp only [Classifier.activity, Task.readSubProcess, hread, hseed, hrearranged.id_eq]
  · simp only [Classifier.gateway, Gateway.read_rearranged hrearranged]
  · simp only [Classifier.gateway, Gateway.read_rearranged hrearranged]
  · simp only [Classifier.transition, SequenceFlow.read_rearranged hrearranged]

theorem steady_of_get?_aliased {aliases : List (String × String)} {tag : String}
    {classifier : Classifier} (h : (aliased aliases).get? tag = some classifier) :
    classifier.Steady s := by
  rw [get?_aliased] at h
  obtain ⟨builtinTag, -, hc⟩ := Option.bind_eq_some_iff.mp h
  exact steady_of_builtin (builtin?_eq_some_iff.mp hc)

end Registry

/-! ## Processes -/

section Process

variable {r : Registry}
  (hr : ∀ tag classifier, r.get? tag = some classifier → classifier.Steady s)

theorem Lane.readAll_rearranged (h : Rearranged s node node') :
    Lane.readAll s node = Lane.readAll s node' := by
  have hlanes : List.Forall₂ (Rearranged s) (lanes node) (lanes node') :=
    List.rel_flatMap (h.forall₂_childrenNamed (by decide))
      fun _ _ hset => hset.forall₂_descendantsNamed (by decide)
  have hrow : (lanes node).mapM (Lane.read s) = (lanes node').mapM (Lane.read s) := by
    refine Outcome.mapM_eq_of_forall₂ hlanes fun lane _ lane' hlane => ?_
    simp only [Lane.read, Properties.read_rearranged hlane, hlane.id_eq, hlane.name_eq,
      hlane.childTexts_eq (show "flowNodeRef" ≠ "property" by decide)]
  rw [readAll, readAll, hrow]

theorem Process.readInterface_rearranged (h : Rearranged s node node') :
    Process.readInterface s node = Process.readInterface s node' := by
  rw [readInterface, readInterface, Properties.read_rearranged h]

include hr

theorem FlowGraph.classify_rearranged (h : Rearranged s node node')
    (participants : List Participant) :
    classify r s participants node = classify r s participants node' := by
  rw [classify, classify, h.tag_eq, h.id_eq]
  cases hc : r.get? node'.tag with
  | none => rfl
  | some classifier => simp only [hr _ _ hc participants node node' h]

theorem Process.read_rearranged (h : Rearranged s node node') (htag : node.tag ≠ "properties") :
    Process.read r s node = Process.read r s node' := by
  have hrow : ∀ participants, node.children.mapM (FlowGraph.classify r s participants) =
      node'.children.mapM (FlowGraph.classify r s participants) := by
    intro participants
    exact Outcome.mapM_eq_of_forall₂ (h.forall₂_children htag) fun _ _ _ hchild =>
      FlowGraph.classify_rearranged hr hchild participants
  simp only [Process.read, FlowGraph.assemble_eq_collect, readInterface_rearranged h,
    Lane.readAll_rearranged h, h.id_eq, h.name_eq, hrow]

end Process

/-! ## Documents -/

namespace Compiler

theorem readProcesses_rearranged {c : Compiler} (h : Rearranged c.settings root root')
    (hc : ∀ tag classifier, c.registry.get? tag = some classifier → classifier.Steady c.settings) :
    c.readProcesses root = c.readProcesses root' := by
  have hrow := h.forall₂_childrenNamed (show "process" ≠ "property" by decide)
  have htag : ∀ node ∈ root.childrenNamed "process", node.tag ≠ "properties" := by
    intro node hnode
    obtain ⟨-, hprocess⟩ := List.mem_filter.mp hnode
    rw [beq_iff_eq.mp hprocess]
    decide
  rw [readProcesses, readProcesses]
  generalize root.childrenNamed "process" = nodes at hrow htag
  generalize root'.childrenNamed "process" = nodes' at hrow
  cases hrow with
  | nil => rfl
  | cons hfirst hrow =>
    exact Outcome.mapM_eq_of_forall₂ (.cons hfirst hrow) fun node hnode _ hrearranged =>
      Process.read_rearranged hc hrearranged (htag node hnode)

/-- **Documents that differ in the order of properties only are compiled alike**, whether they are
accepted or refused. -/
theorem compile_rearranged (aliases : List (String × String)) (h : Rearranged s root root') :
    (aliased s aliases).compile root = (aliased s aliases).compile root' := by
  rw [aliased_eq]
  have hread : readProcesses ⟨s, .aliased aliases⟩ root =
      readProcesses ⟨s, .aliased aliases⟩ root' :=
    readProcesses_rearranged h fun _ _ => Registry.steady_of_get?_aliased
  rw [compile, compile, readStructure, readStructure, h.tag_eq, Collaboration.read_rearranged h,
    hread]

/-! ## Two wrong types -/

/-- A document whose first store has some properties. -/
def withStore (ps : List (String × String)) : Element where
  tag := "definitions"
  children := [
    { tag := "dataStore", attributes := .ofList [("id", "PROCESS_INSTANCE")]
      children := [.propertyBlock ps] },
    { tag := "process", attributes := .ofList [("id", "P")] }]

/-- Of two wrong types the one of the first path is told, wherever it was declared. -/
theorem compile_rearranged_types :
    let ps := [("zeta", "99"), ("INDATAID_1", "slot"), ("agreement", "7"),
      ("INDATA_slot_dataPath", "p"), ("INDATA_slot_dataStorageId", "q"), ("alpha", "x")]
    ps.reverse ≠ ps ∧
      (aliased {} [("step", "task")]).compile (withStore ps) =
        (aliased {} [("step", "task")]).compile (withStore ps.reverse) ∧
      (aliased {} [("step", "task")]).compile (withStore ps) =
        .error (.structure (.invalidParameterType "PROCESS_INSTANCE" "alpha" "x")) := by
  intro ps
  have horder : Reordered {} ((Element.propertyBlock ps).children.flatMap Element.children)
      ((Element.propertyBlock ps.reverse).children.flatMap Element.children) := {
    perm := by simp [Element.propertyBlock]
    others := rfl
    distinct := by decide +kernel
    idKeys := by decide +kernel }
  have hrearranged : Rearranged {} (withStore ps) (withStore ps.reverse) :=
    .node (.cons (.node (.cons (.node (.cons
      (.block (Rearranged.forall₂_refl _) horder) .nil)) .nil)) (Rearranged.forall₂_refl _))
  exact ⟨by decide, compile_rearranged _ hrearranged, by decide +kernel⟩

end Compiler

end BpmnModel
