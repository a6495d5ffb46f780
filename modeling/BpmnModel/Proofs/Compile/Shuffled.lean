import BpmnModel.Proofs.Compile.Children
import BpmnModel.Proofs.Compile.Frame

/-!
# Flow elements of different kinds in another order

The collections of a process are projections of the row of its records, one for each built-in tag,
and what refers from one element to another is looked up when all of them have been read.  So it
does not matter how children of different kinds are shuffled: an edge may stand before or after
the gateway that names it, and a lane set after the tasks that it assigns.  Only the table of
display names is filled from activities of all kinds, which is why activities of different kinds
may have no identifier in common.

## Main definitions

* `Element.KindsApart aliases process` — activities of different kinds have different identifiers.
* `Element.Shuffled aliases e e'` — the children of two elements are the same ones, and those of
  one kind stand in the same order.

## Main statements

* `Element.Shuffled.filterMap_eq` — what is read of children of one kind is the same.
* `FlowGraph.assemble_shuffled` — the flow graph is the same.
* `Compiler.compile_shuffled` — so is the document, when it is accepted.
-/

namespace BpmnModel

open Registry (Yields)

variable {s : Settings} {aliases : List (String × String)} {participants : List Participant}
variable {e e' node root process process' : Element}

/-! ## Children in another order -/

namespace Element

/-- Activities of different kinds have different identifiers. -/
def KindsApart (aliases : List (String × String)) (process : Element) : Prop :=
  ∀ k k' : ActivityKind, ∀ c ∈ process.flowElements aliases k.tag,
    ∀ c' ∈ process.flowElements aliases k'.tag, c.id = c'.id → k = k'

/-- Two elements that differ in the order of their children and in nothing else but, perhaps, their
texts.  The children that stand for one built-in tag, the blocks and the lane sets keep their
order. -/
structure Shuffled (aliases : List (String × String)) (e e' : Element) : Prop where
  tag : e.tag = e'.tag
  attributes : e.attributes = e'.attributes
  perm : e.children.Perm e'.children
  flowElements : ∀ tag, e.flowElements aliases tag = e'.flowElements aliases tag
  laneSets : e.childrenNamed "laneSet" = e'.childrenNamed "laneSet"
  extensions : e.childrenNamed "extensionElements" = e'.childrenNamed "extensionElements"

namespace Shuffled

variable (h : Shuffled aliases e e')
include h

theorem symm : Shuffled aliases e' e where
  tag := h.tag.symm
  attributes := h.attributes.symm
  perm := h.perm.symm
  flowElements tag := (h.flowElements tag).symm
  laneSets := h.laneSets.symm
  extensions := h.extensions.symm

theorem sameHead : Process.SameHead e e' where
  attributes := h.attributes
  extensions := h.extensions
  laneSets := h.laneSets

theorem kindsApart (hkinds : KindsApart aliases e) : KindsApart aliases e' := by
  intro k k' c hc c' hc'
  rw [← h.flowElements] at hc hc'
  exact hkinds k k' c hc c' hc'

/-- **What is read of children of one kind is the same.**  Any two children of which anything is
read stand for one tag. -/
theorem filterMap_eq {β : Type} {f : Element → Option β}
    (hf : ∀ c ∈ e.children, ∀ d ∈ e.children, (f c).isSome → (f d).isSome →
      ∃ tag, Registry.resolve aliases c.tag = some tag ∧
        Registry.resolve aliases d.tag = some tag) :
    e.children.filterMap f = e'.children.filterMap f := by
  by_cases hsome : ∃ c ∈ e.children, (f c).isSome
  · obtain ⟨c, hc, hfc⟩ := hsome
    obtain ⟨tag, htag, -⟩ := hf c hc c hc hfc hfc
    have hone : ∀ cs : List Element, (∀ d ∈ cs, d ∈ e.children) → cs.filterMap f =
        (cs.filter fun d => Registry.resolve aliases d.tag == some tag).filterMap f := by
      intro cs hcs
      rw [List.filterMap_filter]
      refine List.filterMap_congr fun d hd => ?_
      by_cases hfd : (f d).isSome
      · obtain ⟨tag', htag', hd'⟩ := hf c hc d (hcs d hd) hfc hfd
        obtain rfl : tag' = tag := Option.some.inj (htag'.symm.trans htag)
        rw [if_pos (beq_iff_eq.mpr hd')]
      · rw [Option.not_isSome_iff_eq_none.mp hfd, ite_self]
    calc e.children.filterMap f
      _ = (e.flowElements aliases tag).filterMap f := hone _ fun d hd => hd
      _ = (e'.flowElements aliases tag).filterMap f := by rw [h.flowElements]
      _ = e'.children.filterMap f := (hone _ fun d hd => h.perm.mem_iff.mpr hd).symm
  · have hnone : ∀ c ∈ e.children, f c = none := by
      intro c hc
      exact Option.not_isSome_iff_eq_none.mp fun hfc => hsome ⟨c, hc, hfc⟩
    rw [List.filterMap_eq_nil_iff.mpr hnone, List.filterMap_eq_nil_iff.mpr fun c hc =>
      hnone c (h.perm.mem_iff.mpr hc)]

end Shuffled

end Element

/-! ## The records of the children -/

namespace FlowGraph

open Element (Shuffled KindsApart)

/-- A record is that of a child with a built-in tag. -/
theorem yields_of_record? {element : FlowElement}
    (h : record? (.aliased aliases) s participants node = some element) :
    ∃ tag, Registry.resolve aliases node.tag = some tag ∧
      Yields s participants node tag element := by
  rw [record?] at h
  split at h
  · rename_i o ho
    subst h
    cases classified_of_classify ho with
    | read ht hy => exact ⟨_, ht, hy⟩
  · contradiction

/-- The identifier and the name of a child, if it is an activity with the given identifier. -/
def named? (r : Registry) (s : Settings) (participants : List Participant) (id : String)
    (node : Element) : Option (String × String) :=
  (((record? r s participants node).bind FlowElement.activity?).map
    fun a => (a.id, a.name)).filter fun n => n.1 == id

theorem filter_names (r : Registry) (cs : List Element) (id : String) :
    (((cs.filterMap (record? r s participants)).filterMap FlowElement.activity?).map
      fun a => (a.id, a.name)).filter (fun n => n.1 == id) =
        cs.filterMap (named? r s participants id) := by
  rw [List.filterMap_filterMap, List.map_filterMap, List.filter_filterMap]
  rfl

theorem resolve_of_named? {id : String}
    (h : (named? (.aliased aliases) s participants id node).isSome) :
    ∃ kind : ActivityKind, Registry.resolve aliases node.tag = some kind.tag ∧ node.id = id := by
  obtain ⟨n, hn⟩ := Option.isSome_iff_exists.mp h
  obtain ⟨hn, hid⟩ := Option.filter_eq_some_iff.mp hn
  obtain ⟨a, ha, rfl⟩ := Option.map_eq_some_iff.mp hn
  obtain ⟨element, helement, ha⟩ := Option.bind_eq_some_iff.mp ha
  obtain ⟨tag, ht, hy⟩ := yields_of_record? helement
  cases element with
  | activity a' =>
    obtain rfl : a' = a := Option.some.inj ha
    obtain ⟨rfl, hnode⟩ := hy.activity
    exact ⟨a'.kind, ht, hnode ▸ beq_iff_eq.mp hid⟩
  | gateway g stub => contradiction
  | transition t => contradiction

section Collections

variable (h : Shuffled aliases e e')
include h

/-- A projection to records of one tag. -/
theorem filterMap_record? {γ : Type} {part : FlowElement → Option γ} (tag : String)
    (hpart : ∀ node tag' element, Yields s participants node tag' element →
      (part element).isSome → tag' = tag) :
    (e.children.filterMap (record? (.aliased aliases) s participants)).filterMap part =
      (e'.children.filterMap (record? (.aliased aliases) s participants)).filterMap part := by
  have htag : ∀ c, ((record? (.aliased aliases) s participants c).bind part).isSome →
      Registry.resolve aliases c.tag = some tag := by
    intro c hc
    obtain ⟨x, hx⟩ := Option.isSome_iff_exists.mp hc
    obtain ⟨element, helement, hx⟩ := Option.bind_eq_some_iff.mp hx
    obtain ⟨tag', ht, hy⟩ := yields_of_record? helement
    rw [ht, hpart c tag' element hy (by rw [hx, Option.isSome_some])]
  rw [List.filterMap_filterMap, List.filterMap_filterMap]
  exact h.filterMap_eq fun c _ d _ hc hd => ⟨tag, htag c hc, htag d hd⟩

theorem activitiesOf_record? (kind : ActivityKind) :
    activitiesOf kind (e.children.filterMap (record? (.aliased aliases) s participants)) =
      activitiesOf kind (e'.children.filterMap (record? (.aliased aliases) s participants)) := by
  rw [activitiesOf_eq, activitiesOf_eq]
  refine filterMap_record? h kind.tag fun node tag' element hy hsome => ?_
  rw [(FlowElement.activity_of_yields kind hy).1] at hsome
  exact beq_iff_eq.mp hsome

theorem gatewaysOf_record? {type : GatewayType} {tag : String}
    (ht : (type, tag) ∈ FlowElement.gatewayTags) :
    gatewaysOf type (e.children.filterMap (record? (.aliased aliases) s participants)) =
      gatewaysOf type (e'.children.filterMap (record? (.aliased aliases) s participants)) := by
  rw [gatewaysOf_eq, gatewaysOf_eq]
  refine filterMap_record? h tag fun node tag' element hy hsome => ?_
  rw [(FlowElement.gateway_of_yields ht hy).1] at hsome
  exact beq_iff_eq.mp hsome

theorem transitions_record? :
    (e.children.filterMap (record? (.aliased aliases) s participants)).filterMap
        FlowElement.transition? =
      (e'.children.filterMap (record? (.aliased aliases) s participants)).filterMap
        FlowElement.transition? := by
  refine filterMap_record? h "sequenceFlow" fun node tag' element hy hsome => ?_
  rw [(FlowElement.transition_of_yields hy).1] at hsome
  exact beq_iff_eq.mp hsome

theorem stubs_record? :
    (e.children.filterMap (record? (.aliased aliases) s participants)).filterMap
        FlowElement.stub? =
      (e'.children.filterMap (record? (.aliased aliases) s participants)).filterMap
        FlowElement.stub? := by
  refine filterMap_record? h "exclusiveGateway" fun node tag' element hy hsome => ?_
  have hxor : (GatewayType.xor, "exclusiveGateway") ∈ FlowElement.gatewayTags := by decide
  have hgateway : (element.gatewayOf? .xor).isSome := by
    rw [FlowElement.stub?_of_yields hy] at hsome
    exact Option.isSome_of_isSome_bind hsome
  rw [(FlowElement.gateway_of_yields hxor hy).1] at hgateway
  exact beq_iff_eq.mp hgateway

/-- The names of all activities.  The last name of an identifier counts, and all activities that
have it are of one kind. -/
theorem namesOf_record? (hkinds : KindsApart aliases e) :
    namesOf (e.children.filterMap (record? (.aliased aliases) s participants)) =
      namesOf (e'.children.filterMap (record? (.aliased aliases) s participants)) := by
  rw [namesOf, namesOf]
  refine Table.ofList_eq_of_filter fun k => ?_
  rw [filter_names, filter_names]
  refine h.filterMap_eq fun c hc d hd hsome hsome' => ?_
  obtain ⟨kind, ht, hid⟩ := resolve_of_named? hsome
  obtain ⟨kind', ht', hid'⟩ := resolve_of_named? hsome'
  have hsame : kind = kind' :=
    hkinds kind kind' c (List.mem_filter.mpr ⟨hc, beq_iff_eq.mpr ht⟩) d
      (List.mem_filter.mpr ⟨hd, beq_iff_eq.mpr ht'⟩) (hid.trans hid'.symm)
  exact ⟨kind.tag, ht, hsame ▸ ht'⟩

end Collections

/-! ## The flow graph -/

/-- A flow graph that can be assembled of children in one order can be in the other one. -/
theorem assemble_of_shuffled (h : Shuffled aliases e e') (hkinds : KindsApart aliases e)
    {id name interface : String} {q : Process}
    (hq : assemble (.aliased aliases) s { id, name, interface, participants } e = .ok q) :
    assemble (.aliased aliases) s { id, name, interface, participants } e' = .ok q := by
  rw [assemble_eq, Outcome.bind_eq_ok_iff] at hq ⊢
  obtain ⟨elements, helements, hfinish⟩ := hq
  obtain ⟨hread, rfl⟩ := elementsOf_eq_ok_iff.mp helements
  refine ⟨_, elementsOf_eq_ok_iff.mpr ⟨fun c hc => hread c (h.perm.mem_iff.mpr hc), rfl⟩, ?_⟩
  have hxor : (GatewayType.xor, "exclusiveGateway") ∈ FlowElement.gatewayTags := by decide
  have hand : (GatewayType.and, "parallelGateway") ∈ FlowElement.gatewayTags := by decide
  rw [← hfinish]
  simp only [finish, collect, stubs_record? h, activitiesOf_record? h, gatewaysOf_record? h hxor,
    gatewaysOf_record? h hand, transitions_record? h, namesOf_record? h hkinds]

/-- **The flow graph does not depend on how children of different kinds are shuffled.** -/
theorem assemble_shuffled (h : Shuffled aliases e e') (hkinds : KindsApart aliases e)
    {id name interface : String} {q : Process} :
    assemble (.aliased aliases) s { id, name, interface, participants } e' = .ok q ↔
      assemble (.aliased aliases) s { id, name, interface, participants } e = .ok q :=
  ⟨assemble_of_shuffled h.symm (h.kindsApart hkinds), assemble_of_shuffled h hkinds⟩

end FlowGraph

/-! ## Documents -/

namespace Compiler

open Element (Shuffled KindsApart)

variable {before after : List Element}

/-- **It does not matter how flow elements of different kinds are shuffled.**  The documents that
are accepted with the children of a process in one order are accepted with them in the other, and
compiled alike. -/
theorem compile_shuffled (aliases : List (String × String))
    (hroot : root.children = before ++ process :: after) (htag : process.tag = "process")
    (hown : ∀ d ∈ process.descendants, d.tag ≠ "dataStore" ∧ d.tag ≠ "collaboration")
    (hkinds : KindsApart aliases process) (h : Shuffled aliases process process')
    (d : Document) :
    (aliased s aliases).compile { root with children := before ++ process' :: after } = .ok d ↔
      (aliased s aliases).compile root = .ok d := by
  have htag' : process'.tag = "process" := h.tag.symm.trans htag
  have hown' : ∀ d ∈ process'.descendants, d.tag ≠ "dataStore" ∧ d.tag ≠ "collaboration" := by
    intro d hd
    rw [Element.descendants_eq, Element.mem_listDescendants_iff] at hd
    obtain ⟨c, hc, hd⟩ := hd
    refine hown d ?_
    rw [Element.descendants_eq, Element.mem_listDescendants_iff]
    exact ⟨c, h.perm.mem_iff.mpr hc, hd⟩
  have hstore : process'.withinNamed "dataStore" = process.withinNamed "dataStore" := by
    rw [Element.withinNamed_of_descendants fun d hd => (hown d hd).1,
      Element.withinNamed_of_descendants fun d hd => (hown' d hd).1, htag, htag']
    rfl
  have hcollaboration :
      process'.withinNamed "collaboration" = process.withinNamed "collaboration" := by
    rw [Element.withinNamed_of_descendants fun d hd => (hown d hd).2,
      Element.withinNamed_of_descendants fun d hd => (hown' d hd).2, htag, htag']
    rfl
  rw [aliased_eq]
  refine compile_eq_ok_congr rfl ?model ?row
  case model =>
    exact Collaboration.read_congr (Element.descendantsNamed_exchange hroot hstore)
      (Element.descendantsNamed_exchange hroot hcollaboration)
  case row =>
    refine Element.forall₂_exchange hroot htag htag' (fun _ _ => Iff.rfl) fun p => ?_
    exact (Process.read_eq_ok_congr h.sameHead fun _ _ _ _ _ =>
      (FlowGraph.assemble_shuffled h hkinds).symm).symm

/-! ## A ballot -/

/-- The steps of a ballot: a vote, a choice that names a fallback edge, and a recount. -/
def ballotSteps : List Element := [
  { tag := "userTask", attributes := .ofList [("id", "T"), ("name", "Vote")] },
  { tag := "choice", attributes := .ofList [("id", "G"), ("default", "F2")]
    children := [{ tag := "incoming", text := "F0" }, { tag := "outgoing", text := "F1" },
      { tag := "outgoing", text := "F2" }] },
  { tag := "task", attributes := .ofList [("id", "R"), ("name", "Recount")] }]

/-- What refers to the steps of a ballot: the edges that leave the choice, and the lane of the
voter. -/
def ballotLinks : List Element := [
  { tag := "sequenceFlow"
    attributes := .ofList [("id", "F1"), ("sourceRef", "G"), ("targetRef", "R")]
    children := [.propertyBlock [("lhDataStorageId", ""), ("lhDataPath", "agreement"),
      ("operator", "5"), ("rhValue", "x")]] },
  { tag := "sequenceFlow"
    attributes := .ofList [("id", "F2"), ("sourceRef", "G"), ("targetRef", "E")] },
  { tag := "laneSet"
    children := [{ tag := "lane", attributes := .ofList [("id", "L")]
                   children := [.propertyBlock [], { tag := "flowNodeRef", text := "T" }] }] }]

/-- A process with the parts of a ballot in some order. -/
def ballot (parts : List Element) : Element where
  tag := "process"
  attributes := .ofList [("id", "P")]
  children := parts

/-- The steps may stand before what refers to them and after it. -/
theorem shuffled_ballot : Shuffled [("choice", "exclusiveGateway")]
    (ballot (ballotSteps ++ ballotLinks)) (ballot (ballotLinks ++ ballotSteps)) where
  tag := rfl
  attributes := rfl
  perm := List.perm_append_comm
  flowElements tag := by
    by_cases hflow : tag = "sequenceFlow"
    · subst hflow
      rfl
    · have hlinks : (ballotLinks.filter fun c =>
          Registry.resolve [("choice", "exclusiveGateway")] c.tag == some tag) = [] := by
        have hresolve : ∀ c ∈ ballotLinks,
            Registry.resolve [("choice", "exclusiveGateway")] c.tag = some "sequenceFlow" ∨
              Registry.resolve [("choice", "exclusiveGateway")] c.tag = none := by
          decide
        rw [List.filter_eq_nil_iff]
        intro c hc
        rcases hresolve c hc with h | h <;> simp [h, Ne.symm hflow]
      simp only [Element.flowElements, ballot, List.filter_append, hlinks, List.nil_append,
        List.append_nil]
  laneSets := rfl
  extensions := rfl

/-- The voter is found when the lane comes last, and the fallback edge when it comes first. -/
theorem compile_shuffled_ballot :
    ∃ d, (aliased {} [("choice", "exclusiveGateway")]).compile
        (.documentOf [ballot (ballotSteps ++ ballotLinks)]) = .ok d ∧
      (aliased {} [("choice", "exclusiveGateway")]).compile
        (.documentOf [ballot (ballotLinks ++ ballotSteps)]) = .ok d ∧
      d.processes.map (fun p => (p.userTasks.map Activity.assignee, p.defaultTransitions)) =
        [(["L"], [{ gateway := "G", transition := "F2", activity := "E" }])] := by
  obtain ⟨d, hd, hfound⟩ : ∃ d, (aliased {} [("choice", "exclusiveGateway")]).compile
      (.documentOf [ballot (ballotSteps ++ ballotLinks)]) = .ok d ∧
      d.processes.map (fun p => (p.userTasks.map Activity.assignee, p.defaultTransitions)) =
        [(["L"], [{ gateway := "G", transition := "F2", activity := "E" }])] :=
    Outcome.exists_of_toOption_map (by decide +kernel)
  have hkinds : KindsApart [("choice", "exclusiveGateway")]
      (ballot (ballotSteps ++ ballotLinks)) := by
    intro k k'
    cases k <;> cases k' <;> decide +kernel
  have hroot : (Element.documentOf [ballot (ballotSteps ++ ballotLinks)]).children =
      (Element.documentOf []).children ++ ballot (ballotSteps ++ ballotLinks) :: [] := rfl
  refine ⟨d, hd, ?_, hfound⟩
  exact (compile_shuffled [("choice", "exclusiveGateway")] hroot rfl (by decide +kernel) hkinds
    shuffled_ballot d).mpr hd

end Compiler

end BpmnModel
