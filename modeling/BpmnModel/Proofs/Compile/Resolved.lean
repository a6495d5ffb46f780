import BpmnModel.Proofs.Compile.Children
import BpmnModel.Proofs.Compile.Frame

/-!
# Aliases are transparent

An alias decides which classifier reads an element and nothing else: no classifier looks at the tag
of its element, and lanes, blocks, stores and collaborations are found by their own tags.  So a
compiler with aliases makes of a document what one without makes of the document in which the
aliases have been replaced.

## Main definitions

* `Registry.standsFor aliases tag` — the tag that a tag stands for.
* `Element.resolved aliases e`, `Element.resolvedProcess aliases e`,
  `Element.resolvedDocument aliases e` — an element, a process and a document with aliases replaced.
* `Element.structuralTags` — the tags by which a compiler finds what no classifier reads.

## Main statements

* `FlowGraph.classify_resolved` — a child is read as what its tag stands for.
* `Compiler.compile_resolved` — aliases are transparent.
-/

namespace BpmnModel

variable {s : Settings} {aliases : List (String × String)} {e node : Element} {tag : String}

/-! ## What tags stand for -/

namespace Registry

/-- The tag that a tag stands for: the built-in tag of the last alias for it, and itself without
one.  An alias for a tag that is not built in does not count. -/
def standsFor (aliases : List (String × String)) (tag : String) : String :=
  ((aliases.filter fun a => (builtin? a.2).isSome).reverse.lookup tag).getD tag

/-- The built-in tag of the last alias for a tag. -/
theorem builtin_of_lookup {builtinTag : String}
    (h : (aliases.filter fun a => (builtin? a.2).isSome).reverse.lookup tag = some builtinTag) :
    (tag, builtinTag) ∈ aliases ∧ (builtin? builtinTag).isSome := by
  have hmem := List.mem_reverse.mp (Table.mem_of_lookup h)
  exact List.mem_filter.mp hmem

/-- A tag with an alias stands for a built-in tag. -/
theorem standsFor_cases (aliases : List (String × String)) (tag : String) :
    standsFor aliases tag = tag ∨
      (∃ a ∈ aliases, a.1 = tag) ∧ (builtin? (standsFor aliases tag)).isSome := by
  rw [standsFor]
  cases h : (aliases.filter fun a => (builtin? a.2).isSome).reverse.lookup tag with
  | none => exact .inl rfl
  | some builtinTag =>
    obtain ⟨hmem, hbuiltin⟩ := builtin_of_lookup h
    exact .inr ⟨⟨_, hmem, rfl⟩, hbuiltin⟩

theorem resolve_eq (aliases : List (String × String)) (tag : String) : resolve aliases tag =
    if (builtin? (standsFor aliases tag)).isSome then some (standsFor aliases tag) else none := by
  rw [resolve, standsFor]
  cases h : (aliases.filter fun a => (builtin? a.2).isSome).reverse.lookup tag with
  | none => rfl
  | some builtinTag =>
    rw [Option.some_or, Option.getD_some, if_pos (builtin_of_lookup h).2]

/-- **A tag is read by the classifier of the tag that it stands for.** -/
theorem get?_standsFor (aliases : List (String × String)) (tag : String) :
    (aliased aliases).get? tag = standard.get? (standsFor aliases tag) := by
  rw [get?_aliased, resolve_eq, get?_standard]
  cases h : builtin? (standsFor aliases tag) with
  | none => rfl
  | some c => exact h

/-- No built-in classifier looks at the tag of its element. -/
theorem classifier_tag {c : Classifier} {builtinTag : String} (h : (builtinTag, c) ∈ builtins)
    (participants : List Participant) (node : Element) (tag : String) :
    c s participants { node with tag := tag } = c s participants node := by
  -- a behavior is equated by its parts, since its two sides are slow to compare as they stand
  have hid : Element.id { node with tag := tag } = node.id := rfl
  have hread : Properties.readOrEmpty s { node with tag := tag } =
      Properties.readOrEmpty s node := rfl
  have hbehavior : ∀ p b, Task.behaviorOr { node with tag := tag } p b =
      Task.behaviorOr node p b := fun p b => by rw [Task.behaviorOr, Task.behaviorOr, hid]
  have hseed : ∀ kind p, Task.seed { node with tag := tag } kind p = Task.seed node kind p :=
    fun _ _ => rfl
  simp only [builtins, List.mem_cons, Prod.mk.injEq, List.not_mem_nil, or_false] at h
  rcases h with ⟨-, rfl⟩ | ⟨-, rfl⟩ | ⟨-, rfl⟩ | ⟨-, rfl⟩ | ⟨-, rfl⟩ | ⟨-, rfl⟩ | ⟨-, rfl⟩ |
    ⟨-, rfl⟩
  · simp only [Classifier.activity, Task.readPlain, hread, hbehavior, hseed]
  · rfl
  · simp only [Classifier.activity, Task.readSend, hread, hbehavior, hseed]
  · rfl
  · rfl
  · rfl
  · rfl
  · rfl

end Registry

/-! ## Aliases replaced -/

namespace Element

/-- The element with the tag that its own stands for. -/
def resolved (aliases : List (String × String)) (e : Element) : Element :=
  { e with tag := Registry.standsFor aliases e.tag }

/-- The process with the aliases of its children replaced. -/
def resolvedProcess (aliases : List (String × String)) (e : Element) : Element :=
  { e with children := e.children.map (resolved aliases) }

/-- The document with the aliases in all of its processes replaced. -/
def resolvedDocument (aliases : List (String × String)) (e : Element) : Element :=
  { e with children := e.children.map fun c =>
      if c.tag = "process" then c.resolvedProcess aliases else c }

/-- The tags by which a compiler finds what no classifier reads. -/
def structuralTags : List String :=
  ["laneSet", "extensionElements", "dataStore", "collaboration"]

theorem resolved_eq_self (h : Registry.standsFor aliases e.tag = e.tag) :
    e.resolved aliases = e := by
  obtain ⟨tag, attributes, text, children⟩ := e
  exact congrArg (fun t => Element.mk t attributes text children) h

section Structural

variable (hfree : ∀ a ∈ aliases, a.1 ∉ structuralTags) (htag : tag ∈ structuralTags)
include hfree htag

/-- What is found by a structural tag keeps it, and nothing else gets one. -/
theorem tag_resolved (e : Element) : (e.resolved aliases).tag = tag ↔ e.tag = tag := by
  have hstructural : ∀ t ∈ structuralTags, (Registry.builtin? t).isSome = false := by decide
  show Registry.standsFor aliases e.tag = tag ↔ e.tag = tag
  rcases Registry.standsFor_cases aliases e.tag with hself | ⟨⟨a, ha, halias⟩, hbuiltin⟩
  · rw [hself]
  · constructor
    · intro h
      rw [h, hstructural tag htag] at hbuiltin
      contradiction
    · intro h
      exact absurd (halias.trans h ▸ htag) (hfree a ha)

theorem resolved_of_tag (h : e.tag = tag) : e.resolved aliases = e :=
  resolved_eq_self (((tag_resolved hfree htag e).mpr h).trans h.symm)

/-- The elements with a structural tag stay what they are. -/
theorem filter_map_resolved (cs : List Element) :
    ((cs.map (resolved aliases)).filter fun c => c.tag == tag) =
      cs.filter fun c => c.tag == tag := by
  induction cs with
  | nil => rfl
  | cons c cs ih =>
    by_cases h : c.tag = tag
    · simp [resolved_of_tag hfree htag h, h, ih]
    · have h' : (c.resolved aliases).tag ≠ tag := fun hresolved =>
        h ((tag_resolved hfree htag c).mp hresolved)
      simp [h, h', ih]

theorem withinNamed_resolved (e : Element) :
    (e.resolved aliases).withinNamed tag = e.withinNamed tag := by
  by_cases h : e.tag = tag
  · rw [resolved_of_tag hfree htag h]
  · have h' : (e.resolved aliases).tag ≠ tag := fun hresolved =>
      h ((tag_resolved hfree htag e).mp hresolved)
    rw [withinNamed_eq, withinNamed_eq, if_neg h, if_neg h', descendantsNamed_eq,
      descendantsNamed_eq]
    rfl

theorem descendantsNamed_resolvedDocument (hprocess : tag ≠ "process") (e : Element) :
    (e.resolvedDocument aliases).descendantsNamed tag = e.descendantsNamed tag := by
  rw [descendantsNamed_eq, descendantsNamed_eq]
  show (e.children.map fun c => if c.tag = "process" then c.resolvedProcess aliases else c).flatMap
    (fun c => c.withinNamed tag) = e.children.flatMap fun c => c.withinNamed tag
  rw [List.flatMap_map]
  refine List.flatMap_congr fun c _ => ?_
  split
  · rename_i hc
    have hc' : (c.resolvedProcess aliases).tag ≠ tag := hc ▸ hprocess.symm
    rw [withinNamed_eq, withinNamed_eq, if_neg hc', if_neg (hc ▸ hprocess.symm),
      descendantsNamed_eq, descendantsNamed_eq, resolvedProcess, List.flatMap_map]
    exact List.flatMap_congr fun d _ => withinNamed_resolved hfree htag d
  · rfl

end Structural

theorem childrenNamed_process (e : Element) :
    (e.resolvedDocument aliases).childrenNamed "process" =
      (e.childrenNamed "process").map (resolvedProcess aliases) := by
  show (e.children.map fun c => if c.tag = "process" then c.resolvedProcess aliases else c).filter
    (fun c => c.tag == "process") = _
  rw [childrenNamed]
  induction e.children with
  | nil => rfl
  | cons c cs ih =>
    by_cases h : c.tag = "process"
    · have hc : (c.resolvedProcess aliases).tag = "process" := h
      simp [h, hc, ih]
    · simp [h, ih]

end Element

/-! ## Processes -/

namespace FlowGraph

/-- What a built-in classifier yields is the record of the child. -/
theorem classify_eq_map {r : Registry} {participants : List Participant} {c : Classifier}
    {builtinTag : String} (hr : r.get? node.tag = some c)
    (hc : (builtinTag, c) ∈ Registry.builtins) :
    classify r s participants node = (c s participants node).map some := by
  cases he : c s participants node with
  | ok element => exact classify_of_builtin hr hc he
  | error cause =>
    simp only [classify, hr, he]
    rfl

/-- **A child is read as what its tag stands for.** -/
theorem classify_resolved (aliases : List (String × String)) (participants : List Participant)
    (node : Element) : classify (.aliased aliases) s participants node =
      classify .standard s participants (node.resolved aliases) := by
  cases h : Registry.builtin? (Registry.standsFor aliases node.tag) with
  | none =>
    have hself : Registry.standsFor aliases node.tag = node.tag := by
      rcases Registry.standsFor_cases aliases node.tag with hself | ⟨-, hbuiltin⟩
      · exact hself
      · rw [h] at hbuiltin
        contradiction
    have hget : (Registry.aliased aliases).get? node.tag = Registry.standard.get? node.tag := by
      rw [Registry.get?_standsFor, hself]
    rw [Element.resolved_eq_self hself, classify, classify, hget]
  | some c =>
    have hmem := Registry.builtin?_eq_some_iff.mp h
    have hstandard : Registry.standard.get? (node.resolved aliases).tag = some c := by
      rw [Registry.get?_standard]
      exact h
    have haliased : (Registry.aliased aliases).get? node.tag = some c := by
      rw [Registry.get?_standsFor, Registry.get?_standard, h]
    rw [classify_eq_map haliased hmem, classify_eq_map hstandard hmem, Element.resolved,
      Registry.classifier_tag hmem]

end FlowGraph

/-- A process is read as what the tags of its children stand for. -/
theorem Process.read_resolved (hfree : ∀ a ∈ aliases, a.1 ∉ Element.structuralTags)
    (node : Element) :
    read .standard s (node.resolvedProcess aliases) = read (.aliased aliases) s node := by
  refine read_congr ?head ?elements
  case head =>
    exact {
      attributes := rfl
      extensions := Element.filter_map_resolved hfree (by decide) node.children
      laneSets := Element.filter_map_resolved hfree (by decide) node.children }
  case elements =>
    intro participants
    have hrow : node.children.mapM (FlowGraph.classify (.aliased aliases) s participants) =
        (node.children.map (Element.resolved aliases)).mapM
          (FlowGraph.classify .standard s participants) :=
      Outcome.mapM_eq_of_forall₂ (List.forall₂_map_right_iff.mpr (List.forall₂_same.mpr
        fun c _ => FlowGraph.classify_resolved aliases participants c)) fun _ _ _ h => h
    rw [FlowGraph.elementsOf, FlowGraph.elementsOf, hrow]
    rfl

/-! ## Documents -/

namespace Compiler

/-- **Aliases are transparent.**  Where no alias is given to a tag by which lanes, properties,
stores or collaborations are found, a compiler with aliases makes of a document what one without
makes of the document in which they have been replaced. -/
theorem compile_resolved (aliases : List (String × String))
    (hfree : ∀ a ∈ aliases, a.1 ∉ Element.structuralTags) (root : Element) :
    (aliased s aliases).compile root = (aliased s []).compile (root.resolvedDocument aliases) := by
  rw [aliased_eq, aliased_eq]
  symm
  refine compile_congr rfl rfl ?model ?row
  case model =>
    exact Collaboration.read_congr
      (Element.descendantsNamed_resolvedDocument hfree (by decide) (by decide) root)
      (Element.descendantsNamed_resolvedDocument hfree (by decide) (by decide) root)
  case row =>
    rw [Element.childrenNamed_process, List.forall₂_map_right_iff, List.forall₂_same]
    exact fun node _ => Process.read_resolved hfree node

/-! ## A dialect -/

/-- Aliases of a dialect: one is given three times, one names an alias, and two are for tags that a
compiler knows. -/
def dialect : List (String × String) :=
  [("vote", "task"), ("ballot", "vote"), ("vote", "userTask"), ("vote", "ballot"),
    ("subProcess", "task"), ("inclusiveGateway", "exclusiveGateway")]

/-- A process in the dialect. -/
def dialectProcess : Element where
  tag := "process"
  attributes := .ofList [("id", "P")]
  children := [
    { tag := "laneSet"
      children := [{ tag := "lane", attributes := .ofList [("id", "L")]
                     children := [.propertyBlock [], { tag := "flowNodeRef", text := "T" }] }] },
    { tag := "vote", attributes := .ofList [("id", "T")] },
    { tag := "ballot", attributes := .ofList [("id", "B")] },
    { tag := "subProcess", attributes := .ofList [("id", "R")] },
    { tag := "inclusiveGateway", attributes := .ofList [("id", "G")]
      children := [{ tag := "incoming", text := "F0" }, { tag := "outgoing", text := "F1" },
        { tag := "outgoing", text := "F2" }] }]

/-- The process in the dialect is that with the tags which the last aliases name, while without
aliases it is refused. -/
theorem compile_resolved_dialect :
    (aliased {} dialect).compile (.documentOf [dialectProcess]) =
        (aliased {} []).compile ((Element.documentOf [dialectProcess]).resolvedDocument dialect) ∧
      (dialectProcess.resolvedProcess dialect).children.map Element.tag =
        ["laneSet", "userTask", "ballot", "task", "exclusiveGateway"] ∧
      (∃ d, (aliased {} dialect).compile (.documentOf [dialectProcess]) = .ok d ∧
        d.processes.map (fun p => (p.activities.map Activity.id, p.xorGateways.map Gateway.id)) =
          [(["R", "T"], ["G"])]) ∧
      (aliased {} []).compile (.documentOf [dialectProcess]) =
        .error (.structure (.missingProcessId "R")) :=
  ⟨compile_resolved dialect (by decide) (.documentOf [dialectProcess]), by decide +kernel,
    Outcome.exists_of_toOption_map (by decide +kernel), by decide +kernel⟩

end Compiler

end BpmnModel
