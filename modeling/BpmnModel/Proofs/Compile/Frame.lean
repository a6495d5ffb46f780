import BpmnModel.Proofs.Compile.Stages
import BpmnModel.Proofs.Properties.Visible
import BpmnModel.Proofs.Xml.Tree

/-!
# What a compilation depends on

A compiler looks at few parts of a tree: the stores and the collaborations at any depth, and of each
process its attributes, its block, its lane sets and the records of its children.  Trees that agree
on these parts are compiled alike, however else they differ.

## Main definitions

* `Element.documentOf processes` — a document around some processes.
* `Process.SameHead node node'` — two processes with the same attributes, blocks and lane sets.
* `FlowGraph.elementsOf` — the records of a row of children.
* `FlowGraph.finish` — the process that is made of given records.

## Main statements

* `Process.read_congr` — processes with the same head and the same records are read alike.
* `Compiler.compile_congr` — documents whose models and processes are read alike are compiled alike.
* `Compiler.compile_eq_ok_congr` — the same of the documents that are accepted.
-/

namespace BpmnModel

variable {s : Settings} {r r' : Registry} {node node' : Element}

/-- The model of a document depends on its stores and its collaborations only. -/
theorem Collaboration.read_congr {s : Settings} {root root' : Element}
    (hstore : root'.descendantsNamed "dataStore" = root.descendantsNamed "dataStore")
    (hcollaboration : root'.descendantsNamed "collaboration" =
      root.descendantsNamed "collaboration") : read s root' = read s root := by
  simp only [read, DataStore.read, Element.findById?, details, hstore, hcollaboration]

/-! ## One child in the stead of another -/

namespace Element

variable {root c c' : Element} {before after : List Element}

theorem descendantsNamed_exchange {tag : String} (hroot : root.children = before ++ c :: after)
    (h : c'.withinNamed tag = c.withinNamed tag) :
    descendantsNamed { root with children := before ++ c' :: after } tag =
      root.descendantsNamed tag := by
  rw [descendantsNamed_eq, descendantsNamed_eq, hroot]
  simp only [List.flatMap_append, List.flatMap_cons, h]

/-- All children with a tag but one stay what they are. -/
theorem forall₂_exchange {R : Element → Element → Prop} {tag : String}
    (hroot : root.children = before ++ c :: after) (hc : c.tag = tag) (hc' : c'.tag = tag)
    (hrefl : ∀ a, R a a) (h : R c c') :
    List.Forall₂ R (root.childrenNamed tag)
      (childrenNamed { root with children := before ++ c' :: after } tag) := by
  have hsame : ∀ cs : List Element, List.Forall₂ R cs cs :=
    fun cs => List.forall₂_same.mpr fun a _ => hrefl a
  simp only [childrenNamed, hroot, List.filter_append, List.filter_cons, hc, hc', beq_self_eq_true,
    if_true]
  exact List.rel_append (hsame _) (.cons h (hsame _))

end Element

/-! ## Small documents -/

/-- A document with some processes and no more than a document has to have. -/
def Element.documentOf (processes : List Element) : Element where
  tag := "definitions"
  children := [
    { tag := "dataStore", attributes := .ofList [("id", "PROCESS_INSTANCE")]
      children := [.propertyBlock [("agreement", "7")]] },
    { tag := "dataStore", attributes := .ofList [("id", "agreement")] },
    { tag := "collaboration", attributes := .ofList [("id", "C")]
      children := [.propertyBlock [("version", "1.0.0")]] }] ++ processes

/-! ## The head of a process -/

/-- Two elements with the same attributes, the same blocks and the same lane sets. -/
structure Process.SameHead (node node' : Element) : Prop where
  attributes : node.attributes = node'.attributes
  extensions : node.childrenNamed "extensionElements" = node'.childrenNamed "extensionElements"
  laneSets : node.childrenNamed "laneSet" = node'.childrenNamed "laneSet"

namespace Process.SameHead

variable (h : SameHead node node')
include h

theorem id_eq : node.id = node'.id := by
  rw [Element.id, Element.id, Element.attr?, Element.attr?, h.attributes]

theorem name_eq : node.name = node'.name := by
  rw [Element.name, Element.name, Element.attr?, Element.attr?, h.attributes]

theorem block?_eq : Properties.block? node = Properties.block? node' := by
  have hfirst : node.firstChild? "extensionElements" = node'.firstChild? "extensionElements" := by
    rw [Element.firstChild?, Element.firstChild?, ← List.head?_filter, ← List.head?_filter]
    exact congrArg List.head? h.extensions
  rw [Properties.block?, Properties.block?, hfirst]

theorem readInterface_eq : readInterface s node = readInterface s node' := by
  rw [readInterface, readInterface, Properties.read, Properties.read, h.block?_eq, h.id_eq]

theorem readAll_eq : Lane.readAll s node = Lane.readAll s node' := by
  rw [Lane.readAll, Lane.readAll, Lane.lanes, Lane.lanes, h.laneSets]

end Process.SameHead

/-! ## The records of its children -/

namespace FlowGraph

/-- The records of a row of children, without those that are passed over. -/
def elementsOf (r : Registry) (s : Settings) (participants : List Participant)
    (cs : List Element) : Except StructureError (List FlowElement) :=
  (cs.mapM (classify r s participants)).map fun os => os.filterMap fun o => o

theorem elementsOf_append (participants : List Participant) (cs ds : List Element) :
    elementsOf r s participants (cs ++ ds) = do
      let elements ← elementsOf r s participants cs
      let elements' ← elementsOf r s participants ds
      return elements ++ elements' := by
  simp only [elementsOf, List.mapM_append]
  cases cs.mapM (classify r s participants) with
  | error e => rfl
  | ok os =>
    cases ds.mapM (classify r s participants) with
    | error e => rfl
    | ok os' => exact congrArg Except.ok List.filterMap_append

/-- A child that is passed over leaves no record. -/
theorem elementsOf_cons_of_passed {participants : List Participant} {c : Element}
    (h : classify r s participants c = .ok none) (cs : List Element) :
    elementsOf r s participants (c :: cs) = elementsOf r s participants cs := by
  simp only [elementsOf, List.mapM_cons, h]
  cases cs.mapM (classify r s participants) <;> rfl

/-- The record of a child that can be read and is not passed over. -/
def record? (r : Registry) (s : Settings) (participants : List Participant) (node : Element) :
    Option FlowElement :=
  match classify r s participants node with
  | .ok o => o
  | .error _ => none

theorem elementsOf_eq_ok_iff {participants : List Participant} {cs : List Element}
    {elements : List FlowElement} :
    elementsOf r s participants cs = .ok elements ↔
      (∀ c ∈ cs, ∃ o, classify r s participants c = .ok o) ∧
        elements = cs.filterMap (record? r s participants) := by
  have hrow : ∀ os : List (Option FlowElement), cs.mapM (classify r s participants) = .ok os →
      os = cs.map (record? r s participants) := by
    intro os hos
    rw [Outcome.mapM_eq_ok_iff] at hos
    refine List.forall₂_eq_eq_eq ▸ ?_
    rw [List.forall₂_map_right_iff]
    exact hos.flip.imp fun o c ho => by rw [record?, ho]
  rw [elementsOf, ← Outcome.exists_mapM_iff, Outcome.map_eq_ok_iff]
  constructor
  · rintro ⟨os, hos, rfl⟩
    refine ⟨⟨os, hos⟩, ?_⟩
    rw [hrow os hos, List.filterMap_map]
    rfl
  · rintro ⟨⟨os, hos⟩, rfl⟩
    refine ⟨os, hos, ?_⟩
    rw [hrow os hos, List.filterMap_map]
    rfl

/-- The process `p`, which has its participants, with the flow graph of the given records. -/
def finish (p : Process) (elements : List FlowElement) : Except StructureError Process := do
  let defaultTransitions ←
    (elements.filterMap FlowElement.stub?).mapM (resolve (collect p elements))
  return { collect p elements with defaultTransitions }

theorem assemble_eq {id name interface : String} {participants : List Participant} :
    assemble r s { id, name, interface, participants } node =
      elementsOf r s participants node.children >>=
        finish { id, name, interface, participants } := by
  rw [assemble_eq_collect, elementsOf]
  cases node.children.mapM (classify r s participants) <;> rfl

end FlowGraph

namespace Process

/-- **Processes with the same head and the same records are read alike.** -/
theorem read_congr (h : SameHead node node')
    (helements : ∀ participants, FlowGraph.elementsOf r s participants node.children =
      FlowGraph.elementsOf r' s participants node'.children) :
    read r s node = read r' s node' := by
  simp only [read, h.readInterface_eq, h.readAll_eq, h.id_eq, h.name_eq, FlowGraph.assemble_eq,
    helements]

/-- What can be read of two processes with the same head depends on their flow graphs. -/
theorem read_eq_ok_congr {p : Process} (h : SameHead node node')
    (hgraph : ∀ id name interface participants q,
      FlowGraph.assemble r s { id, name, interface, participants } node = .ok q ↔
        FlowGraph.assemble r s { id, name, interface, participants } node' = .ok q) :
    read r s node = .ok p ↔ read r s node' = .ok p := by
  simp only [read, Outcome.bind_eq_ok_iff, h.readInterface_eq, h.readAll_eq, h.id_eq, h.name_eq,
    hgraph]

end Process

/-! ## Documents -/

namespace Compiler

variable {c c' : Compiler} {root root' : Element}

/-- **Documents whose models and processes are read alike are compiled alike**, whether they are
accepted or refused. -/
theorem compile_congr (hsettings : c'.settings = c.settings) (htag : root'.tag = root.tag)
    (hmodel : Collaboration.read c.settings root' = Collaboration.read c.settings root)
    (hrow : List.Forall₂ (fun node node' => Process.read c'.registry c.settings node' =
      Process.read c.registry c.settings node)
        (root.childrenNamed "process") (root'.childrenNamed "process")) :
    c'.compile root' = c.compile root := by
  have hprocesses : c'.readProcesses root' = c.readProcesses root := by
    rw [readProcesses, readProcesses, hsettings]
    have hreads := Outcome.mapM_eq_of_forall₂ hrow fun _ _ _ hread => hread.symm
    generalize root.childrenNamed "process" = nodes at hrow hreads
    generalize root'.childrenNamed "process" = nodes' at hrow hreads
    cases hrow with
    | nil => rfl
    | cons => exact hreads.symm
  have hcheck : c'.checkDocument = c.checkDocument := by
    funext d
    rw [checkDocument, checkDocument, hsettings]
  rw [compile, compile, readStructure, readStructure, htag, hsettings, hmodel, hprocesses, hcheck]

/-- **Documents whose models and processes are read alike are accepted alike**, where two processes
that can not be read may differ in the reason. -/
theorem compile_eq_ok_congr {d : Document} (htag : root'.tag = root.tag)
    (hmodel : Collaboration.read c.settings root' = Collaboration.read c.settings root)
    (hrow : List.Forall₂ (fun node node' => ∀ p, Process.read c.registry c.settings node' = .ok p ↔
      Process.read c.registry c.settings node = .ok p)
        (root.childrenNamed "process") (root'.childrenNamed "process")) :
    c.compile root' = .ok d ↔ c.compile root = .ok d := by
  have hread : ∀ ps : List Process,
      List.Forall₂ (fun node p => Process.read c.registry c.settings node = .ok p)
          (root'.childrenNamed "process") ps ↔
        List.Forall₂ (fun node p => Process.read c.registry c.settings node = .ok p)
          (root.childrenNamed "process") ps := by
    intro ps
    constructor
    · intro h
      exact (Outcome.forall₂_trans hrow h).imp
        fun node p ⟨node', hnode, hp⟩ => (hnode p).mp hp
    · intro h
      exact (Outcome.forall₂_trans hrow.flip h).imp
        fun node' p ⟨node, hnode, hp⟩ => (hnode p).mpr hp
  have hsome : root'.childrenNamed "process" = [] ↔ root.childrenNamed "process" = [] := by
    rw [← List.length_eq_zero_iff, ← List.length_eq_zero_iff, hrow.length_eq]
  rw [compile_eq_ok_iff, compile_eq_ok_iff]
  simp only [ne_eq, htag, hmodel, hsome, hread]

end Compiler

end BpmnModel
