import BpmnModel.Proofs.Compile.Alias
import BpmnModel.Proofs.Elements.Readable

/-!
# The children of a process

Under a registry of built-in classifiers, a child of a process is known by the built-in tag that
its own tag stands for.  Each collection of a process holds the records of the children with one
such tag, in their order; the others are passed over or refused.

## Main definitions

* `Element.flowElements aliases tag` — the children that stand for a built-in tag.
* `ActivityKind.tag` — the built-in tag of a kind of activity.
* `Process.ReadFrom settings aliases node p` — the gateways and the edges of `p` are those of
  the element.

## Main statements

* `FlowGraph.exists_mapM_classify_iff` — when all children can be read.
* `Process.read_eq_ok_iff` — what a process is read as.
* `Process.exists_read_iff` — when a process can be read.
* `Process.readFrom_of_read` — what it then consists of.
-/

namespace BpmnModel

/-- The children that stand for a built-in tag. -/
def Element.flowElements (process : Element) (aliases : List (String × String)) (tag : String) :
    List Element :=
  process.children.filter fun c => Registry.resolve aliases c.tag == some tag

/-- The built-in tag of a kind of activity. -/
def ActivityKind.tag : ActivityKind → String
  | .task => "task"
  | .userTask => "userTask"
  | .sendTask => "sendTask"
  | .serviceTask => "serviceTask"
  | .subProcess => "subProcess"

theorem ActivityKind.tag_inj {kind kind' : ActivityKind} : kind.tag = kind'.tag ↔ kind = kind' := by
  cases kind <;> cases kind' <;> decide

variable {s : Settings} {aliases : List (String × String)} {participants : List Participant}
variable {process node : Element} {tag : String} {c : Classifier} {e : FlowElement}

namespace Registry

/-! ## What the built-in classifiers yield -/

theorem builtin?_eq_some_iff : builtin? tag = some c ↔ (tag, c) ∈ builtins := by
  refine ⟨Table.mem_of_lookup, fun h => ?_⟩
  rw [← get?_standard]
  simp only [builtins, List.mem_cons, Prod.mk.injEq, List.not_mem_nil, or_false] at h
  rcases h with ⟨rfl, rfl⟩ | ⟨rfl, rfl⟩ | ⟨rfl, rfl⟩ | ⟨rfl, rfl⟩ | ⟨rfl, rfl⟩ | ⟨rfl, rfl⟩ |
    ⟨rfl, rfl⟩ | ⟨rfl, rfl⟩ <;> rfl

/-- What an element with a built-in tag is read as. -/
inductive Yields (s : Settings) (participants : List Participant) (node : Element) :
    String → FlowElement → Prop
  | task {a : Activity} (h : Task.readPlain s node = .ok a) :
    Yields s participants node "task" (.activity a)
  | userTask {a : Activity} (h : Task.readUser s participants node = .ok a) :
    Yields s participants node "userTask" (.activity a)
  | sendTask {a : Activity} (h : Task.readSend s node = .ok a) :
    Yields s participants node "sendTask" (.activity a)
  | serviceTask {a : Activity} (h : Task.readService s node = .ok a) :
    Yields s participants node "serviceTask" (.activity a)
  | subProcess {a : Activity} (h : Task.readSubProcess s node = .ok a) :
    Yields s participants node "subProcess" (.activity a)
  | exclusiveGateway {g : Gateway} (h : Gateway.read .xor node = .ok g) :
    Yields s participants node "exclusiveGateway" (.gateway g g.stub?)
  | parallelGateway {g : Gateway} (h : Gateway.read .and node = .ok g) :
    Yields s participants node "parallelGateway" (.gateway g g.stub?)
  | sequenceFlow {t : Transition} (h : SequenceFlow.read s node = .ok t) :
    Yields s participants node "sequenceFlow" (.transition t)

theorem yields_of_builtin (hc : (tag, c) ∈ builtins) (he : c s participants node = .ok e) :
    Yields s participants node tag e := by
  simp only [builtins, List.mem_cons, Prod.mk.injEq, List.not_mem_nil, or_false] at hc
  rcases hc with ⟨rfl, rfl⟩ | ⟨rfl, rfl⟩ | ⟨rfl, rfl⟩ | ⟨rfl, rfl⟩ | ⟨rfl, rfl⟩ | ⟨rfl, rfl⟩ |
    ⟨rfl, rfl⟩ | ⟨rfl, rfl⟩ <;> obtain ⟨a, ha, rfl⟩ := Outcome.map_eq_ok_iff.mp he
  · exact .task ha
  · exact .userTask ha
  · exact .sendTask ha
  · exact .serviceTask ha
  · exact .subProcess ha
  · exact .exclusiveGateway ha
  · exact .parallelGateway ha
  · exact .sequenceFlow ha

/-- No built-in classifier yields a gateway that a model can not hold. -/
theorem Yields.supported (h : Yields s participants node tag e) (tag' : String) :
    FlowGraph.supported tag' e = .ok e := by
  cases h with
  | exclusiveGateway h =>
    obtain ⟨-, rfl⟩ := Gateway.read_eq_ok_iff.mp h
    rfl
  | parallelGateway h =>
    obtain ⟨-, rfl⟩ := Gateway.read_eq_ok_iff.mp h
    rfl
  | _ => rfl

/-- An activity has the kind of its tag and the identifier of its element. -/
theorem Yields.activity {a : Activity}
    (h : Yields s participants node tag (.activity a)) : tag = a.kind.tag ∧ a.id = node.id := by
  cases h with
  | task h =>
    simp only [Task.readPlain, Outcome.bind_eq_ok_iff, Outcome.pure_eq_ok_iff] at h
    obtain ⟨p, -, behavior, -, rfl⟩ := h
    exact ⟨rfl, rfl⟩
  | userTask h =>
    rw [Task.readUser] at h
    split at h
    · contradiction
    · simp only [Outcome.bind_eq_ok_iff, Outcome.pure_eq_ok_iff] at h
      obtain ⟨p, -, rfl⟩ := h
      exact ⟨rfl, rfl⟩
  | sendTask h =>
    simp only [Task.readSend, Outcome.bind_eq_ok_iff, Outcome.pure_eq_ok_iff] at h
    obtain ⟨p, -, behavior, -, rfl⟩ := h
    exact ⟨rfl, rfl⟩
  | serviceTask h =>
    simp only [Task.readService, Outcome.bind_eq_ok_iff] at h
    obtain ⟨p, -, h⟩ := h
    split at h
    · contradiction
    · rw [← Outcome.pure_eq_ok_iff.mp h]
      exact ⟨rfl, rfl⟩
  | subProcess h =>
    simp only [Task.readSubProcess, Outcome.bind_eq_ok_iff] at h
    obtain ⟨p, -, h⟩ := h
    split at h
    · contradiction
    · rw [← Outcome.pure_eq_ok_iff.mp h]
      exact ⟨rfl, rfl⟩

end Registry

namespace FlowElement

/-! ## The collections and their tags -/

/-- The activity of a kind, if the element is one. -/
def activityOf? (kind : ActivityKind) (e : FlowElement) : Option Activity :=
  e.activity?.filter fun a => a.kind == kind

/-- The gateway of a type, if the element is one. -/
def gatewayOf? (type : GatewayType) (e : FlowElement) : Option Gateway :=
  e.gateway?.filter fun g => g.gatewayType == type

open Registry (Yields)

/-- The gateways that a process holds, by the tags of their elements. -/
def gatewayTags : List (GatewayType × String) :=
  [(.xor, "exclusiveGateway"), (.and, "parallelGateway")]

/-- Activities of a kind are yielded for the tag of the kind only. -/
theorem activity_of_yields (kind : ActivityKind) (h : Yields s participants node tag e) :
    (e.activityOf? kind).isSome = (tag == kind.tag) ∧
      ∀ a, e.activityOf? kind = some a → Yields s participants node kind.tag (.activity a) := by
  cases e with
  | activity a =>
    obtain rfl := h.activity.1
    by_cases hkind : a.kind = kind
    · subst hkind
      simp [activityOf?, activity?, Option.filter, h]
    · simp [activityOf?, activity?, Option.filter, ActivityKind.tag_inj, hkind]
  | gateway g stub =>
    cases h <;> cases kind <;> simp [activityOf?, activity?, ActivityKind.tag]
  | transition t =>
    cases h
    cases kind <;> simp [activityOf?, activity?, ActivityKind.tag]

theorem gateway_of_yields {type : GatewayType} {gatewayTag : String}
    (ht : (type, gatewayTag) ∈ gatewayTags) (h : Yields s participants node tag e) :
    (e.gatewayOf? type).isSome = (tag == gatewayTag) ∧
      ∀ g, e.gatewayOf? type = some g → Gateway.read type node = .ok g := by
  have hsame : ∀ {own : GatewayType} {g : Gateway}, Gateway.read own node = .ok g →
      g.gatewayType = own := by
    intro own g hg
    obtain ⟨-, rfl⟩ := Gateway.read_eq_ok_iff.mp hg
    rfl
  simp only [gatewayTags, List.mem_cons, Prod.mk.injEq, List.not_mem_nil, or_false] at ht
  rcases ht with ⟨rfl, rfl⟩ | ⟨rfl, rfl⟩
  · cases h with
    | exclusiveGateway h => simp [gatewayOf?, gateway?, hsame h, h, Option.filter]
    | parallelGateway h => simp [gatewayOf?, gateway?, hsame h, Option.filter]
    | _ => simp [gatewayOf?, gateway?]
  · cases h with
    | exclusiveGateway h => simp [gatewayOf?, gateway?, hsame h, Option.filter]
    | parallelGateway h => simp [gatewayOf?, gateway?, hsame h, h, Option.filter]
    | _ => simp [gatewayOf?, gateway?]

theorem transition_of_yields (h : Yields s participants node tag e) :
    (e.transition?).isSome = (tag == "sequenceFlow") ∧
      ∀ t, e.transition? = some t → SequenceFlow.read s node = .ok t := by
  cases h with
  | sequenceFlow h => simp [transition?, h]
  | _ => simp [transition?]

/-- Fallback edges leave choosing gateways only. -/
theorem stub?_of_yields (h : Yields s participants node tag e) :
    e.stub? = (e.gatewayOf? .xor).bind Gateway.stub? := by
  cases h with
  | exclusiveGateway h =>
    obtain ⟨-, hg⟩ := Gateway.read_eq_ok_iff.mp h
    simp [stub?, gatewayOf?, gateway?, hg, Option.filter]
  | parallelGateway h =>
    obtain ⟨-, hg⟩ := Gateway.read_eq_ok_iff.mp h
    simp [stub?, gatewayOf?, gateway?, hg, Option.filter, Gateway.stub?, Gateway.fallbackOf]
  | _ => rfl

end FlowElement

namespace FlowGraph

open Registry (Yields)

/-! ## Classification -/

/-- What a child is read as, by the built-in tag that its tag stands for. -/
inductive Classified (s : Settings) (aliases : List (String × String))
    (participants : List Participant) (node : Element) : Option FlowElement → Prop
  | passed (h : Registry.resolve aliases node.tag = none) :
    Classified s aliases participants node none
  | read {tag : String} {e : FlowElement} (h : Registry.resolve aliases node.tag = some tag)
    (he : Yields s participants node tag e) : Classified s aliases participants node (some e)

theorem classified_of_classify {o : Option FlowElement}
    (h : classify (.aliased aliases) s participants node = .ok o) :
    Classified s aliases participants node o := by
  rw [classify, Registry.get?_aliased] at h
  cases ht : Registry.resolve aliases node.tag with
  | none =>
    simp only [ht, Option.bind_none] at h
    split at h
    · simp at h
    · rw [← Except.ok.inj h]
      exact .passed ht
  | some tag =>
    obtain ⟨c, hc⟩ := Option.isSome_iff_exists.mp (Registry.isSome_builtin?_of_resolve ht)
    simp only [ht, Option.bind_some, hc, Outcome.bind_eq_ok_iff, Outcome.pure_eq_ok_iff] at h
    obtain ⟨e, he, e', he', rfl⟩ := h
    have hy := Registry.yields_of_builtin (Registry.builtin?_eq_some_iff.mp hc) he
    rw [hy.supported, Except.ok.injEq] at he'
    subst he'
    exact .read ht hy

/-- A child is read by the built-in classifier that its registry finds for it. -/
theorem classify_of_builtin {r : Registry} (hr : r.get? node.tag = some c)
    (hc : (tag, c) ∈ Registry.builtins) (he : c s participants node = .ok e) :
    classify r s participants node = .ok (some e) := by
  simp only [classify, hr, he]
  show (do
    let e ← supported node.tag e
    return some e) = _
  rw [(Registry.yields_of_builtin hc he).supported]
  rfl

/-- **All children can be read** when those with a built-in tag can be, each by its own
classifier, and no other is a gateway that a model can not hold. -/
theorem exists_mapM_classify_iff :
    (∃ os, process.children.mapM (classify (.aliased aliases) s participants) = .ok os) ↔
      (∀ child ∈ process.children, Registry.resolve aliases child.tag = none →
        child.tag ∉ unsupportedGateways) ∧
      ∀ b ∈ Registry.builtins, ∀ child ∈ process.flowElements aliases b.1,
        ∃ e, b.2 s participants child = .ok e := by
  have hchild : ∀ child : Element,
      (∃ o, classify (.aliased aliases) s participants child = .ok o) ↔
        (Registry.resolve aliases child.tag = none → child.tag ∉ unsupportedGateways) ∧
        ∀ b ∈ Registry.builtins, Registry.resolve aliases child.tag = some b.1 →
          ∃ e, b.2 s participants child = .ok e := by
    intro child
    have hget := Registry.get?_aliased aliases child.tag
    cases ht : Registry.resolve aliases child.tag with
    | none =>
      rw [ht, Option.bind_none] at hget
      rw [classify, hget]
      by_cases hm : child.tag ∈ unsupportedGateways <;> simp [hm, List.contains_eq_mem]
    | some tag =>
      obtain ⟨c, hc⟩ := Option.isSome_iff_exists.mp (Registry.isSome_builtin?_of_resolve ht)
      have hmem := Registry.builtin?_eq_some_iff.mp hc
      rw [ht, Option.bind_some, hc] at hget
      simp only [reduceCtorEq, false_implies, true_and, Option.some.injEq]
      constructor
      · rintro ⟨o, ho⟩ ⟨tag', c'⟩ hb rfl
        obtain rfl : c = c' := by
          rw [Registry.builtin?_eq_some_iff.mpr hb] at hc
          exact (Option.some.inj hc).symm
        rw [classify, hget] at ho
        obtain ⟨e, he, -⟩ := Outcome.bind_eq_ok_iff.mp ho
        exact ⟨e, he⟩
      · intro h
        obtain ⟨e, he⟩ := h (tag, c) hmem rfl
        exact ⟨some e, classify_of_builtin hget hmem he⟩
  simp only [Outcome.exists_mapM_iff, hchild, Element.flowElements, List.mem_filter, beq_iff_eq]
  constructor
  · intro h
    exact ⟨fun child hm => (h child hm).1, fun b hb child hm => (h child hm.1).2 b hb hm.2⟩
  · rintro ⟨h₁, h₂⟩ child hm
    exact ⟨h₁ child hm, fun b hb ht => h₂ b hb child ⟨hm, ht⟩⟩

/-- **A collection holds the records of the children with its tag, in their order.** -/
theorem forall₂_part {γ : Type} {part : FlowElement → Option γ} {R : Element → γ → Prop}
    {os : List (Option FlowElement)}
    (hos : process.children.mapM (classify (.aliased aliases) s participants) = .ok os)
    {tag : String} (hpart : ∀ node tag' e, Yields s participants node tag' e →
      (part e).isSome = (tag' == tag) ∧ ∀ x, part e = some x → R node x) :
    List.Forall₂ R (process.flowElements aliases tag)
      ((os.filterMap fun e => e).filterMap part) := by
  rw [List.filterMap_filterMap]
  refine (Outcome.forall₂_filterMap (Outcome.mapM_eq_ok_iff.mp hos) fun node o ho => ?kind).imp
    ?read
  case kind =>
    cases classified_of_classify ho with
    | passed ht => simp [ht]
    | read ht he => simp [ht, (hpart _ _ _ he).1]
  case read =>
    rintro node x ⟨o, ho, hx⟩
    cases classified_of_classify ho with
    | passed ht => simp at hx
    | read ht he => exact (hpart _ _ _ he).2 x hx

/-! ## Collections -/

theorem activitiesOf_eq (kind : ActivityKind) (elements : List FlowElement) :
    activitiesOf kind elements = elements.filterMap (FlowElement.activityOf? kind) := by
  rw [activitiesOf, List.filter_filterMap]
  rfl

theorem gatewaysOf_eq (type : GatewayType) (elements : List FlowElement) :
    gatewaysOf type elements = elements.filterMap (FlowElement.gatewayOf? type) := by
  rw [gatewaysOf, List.filter_filterMap]
  rfl

section Collections

variable {os : List (Option FlowElement)}
  (hos : process.children.mapM (classify (.aliased aliases) s participants) = .ok os)
include hos

theorem forall₂_activity (kind : ActivityKind) :
    List.Forall₂ (fun c a => Yields s participants c kind.tag (.activity a))
      (process.flowElements aliases kind.tag) (activitiesOf kind (os.filterMap fun e => e)) := by
  rw [activitiesOf_eq]
  exact forall₂_part hos fun _ _ _ => FlowElement.activity_of_yields kind

theorem forall₂_gateway {type : GatewayType} {tag : String}
    (ht : (type, tag) ∈ FlowElement.gatewayTags) :
    List.Forall₂ (fun c g => Gateway.read type c = .ok g) (process.flowElements aliases tag)
      (gatewaysOf type (os.filterMap fun e => e)) := by
  rw [gatewaysOf_eq]
  exact forall₂_part hos fun _ _ _ => FlowElement.gateway_of_yields ht

theorem forall₂_transition : List.Forall₂ (fun c t => SequenceFlow.read s c = .ok t)
    (process.flowElements aliases "sequenceFlow")
    ((os.filterMap fun e => e).filterMap FlowElement.transition?) :=
  forall₂_part hos fun _ _ _ => FlowElement.transition_of_yields

/-- The fallback edges are those of the choosing gateways, in the order of these. -/
theorem stubs_eq : (os.filterMap fun e => e).filterMap FlowElement.stub? =
    (gatewaysOf .xor (os.filterMap fun e => e)).filterMap Gateway.stub? := by
  have hstub : ∀ e ∈ os.filterMap fun e => e,
      e.stub? = (e.gatewayOf? .xor).bind Gateway.stub? := by
    intro e he
    obtain ⟨o, ho, rfl⟩ := List.mem_filterMap.mp he
    obtain ⟨node, -, hnode⟩ := Outcome.exists_of_mem_right (Outcome.mapM_eq_ok_iff.mp hos) ho
    cases classified_of_classify hnode with
    | read ht hy => exact FlowElement.stub?_of_yields hy
  rw [gatewaysOf_eq, List.filterMap_congr hstub, ← List.filterMap_filterMap]

end Collections

/-! ## Fallback edges -/

/-- Each choosing gateway that names a fallback edge names an edge of the process. -/
def DefaultsFound (aliases : List (String × String)) (process : Element) : Prop :=
  ∀ gateway ∈ process.flowElements aliases "exclusiveGateway", ∀ edge,
    gateway.attr? "default" = some edge → edge ≠ "" →
      ∃ flow ∈ process.flowElements aliases "sequenceFlow", flow.id = edge

theorem exists_resolve_iff {p : Process} {stub : DefaultTransition} :
    (∃ d, resolve p stub = .ok d) ↔ ∃ t ∈ p.transitions, t.id = stub.transition := by
  have hsome : (p.transition? stub.transition).isSome ↔
      ∃ t ∈ p.transitions, t.id = stub.transition := by
    simp [Process.transition?]
  rw [← hsome, resolve]
  cases p.transition? stub.transition <;> simp

theorem mem_stubs_iff {gateways : List Gateway} {stub : DefaultTransition}
    (h : List.Forall₂ (fun c g => Gateway.read .xor c = .ok g)
      (process.flowElements aliases "exclusiveGateway") gateways) :
    stub ∈ gateways.filterMap Gateway.stub? ↔
      ∃ gateway ∈ process.flowElements aliases "exclusiveGateway", ∃ edge,
        gateway.attr? "default" = some edge ∧ edge ≠ "" ∧
          stub = { gateway := gateway.id, transition := edge, activity := "" } := by
  have hstub : ∀ c g, Gateway.read .xor c = .ok g → (g.stub? = some stub ↔ ∃ edge,
      c.attr? "default" = some edge ∧ edge ≠ "" ∧
        stub = { gateway := c.id, transition := edge, activity := "" }) := by
    intro c g hg
    obtain ⟨-, rfl⟩ := Gateway.read_eq_ok_iff.mp hg
    simp only [Gateway.stub?, Gateway.fallbackOf, Option.map_eq_some_iff, Option.filter_eq_some_iff,
      bne_iff_ne, and_assoc, eq_comm (a := stub)]
  rw [List.mem_filterMap]
  constructor
  · rintro ⟨g, hg, hs⟩
    obtain ⟨c, hc, hread⟩ := Outcome.exists_of_mem_right h hg
    exact ⟨c, hc, (hstub c g hread).mp hs⟩
  · rintro ⟨c, hc, hedge⟩
    obtain ⟨g, hg, hread⟩ := Outcome.exists_of_mem_left h hc
    exact ⟨g, hg, (hstub c g hread).mpr hedge⟩

/-- **A flow graph can be assembled** when the children can be read and the fallback edges are
found. -/
theorem exists_assemble_iff {id name interface : String} :
    (∃ q, assemble (.aliased aliases) s { id, name, interface, participants } process = .ok q) ↔
      (∃ os, process.children.mapM (classify (.aliased aliases) s participants) = .ok os) ∧
        DefaultsFound aliases process := by
  rw [assemble_eq_collect]
  refine Outcome.exists_bind_iff fun os hos => ?_
  have hflow : ∀ edge, (∃ t ∈ (os.filterMap fun e => e).filterMap FlowElement.transition?,
      t.id = edge) ↔ ∃ flow ∈ process.flowElements aliases "sequenceFlow", flow.id = edge := by
    intro edge
    have hread := forall₂_transition hos
    constructor
    · rintro ⟨t, ht, rfl⟩
      obtain ⟨flow, hflow, h⟩ := Outcome.exists_of_mem_right hread ht
      exact ⟨flow, hflow, (SequenceFlow.readAs_of_read h).id.symm⟩
    · rintro ⟨flow, hflow, rfl⟩
      obtain ⟨t, ht, h⟩ := Outcome.exists_of_mem_left hread hflow
      exact ⟨t, ht, (SequenceFlow.readAs_of_read h).id⟩
  refine Outcome.exists_bind_pure_iff.trans ?_
  rw [Outcome.exists_mapM_iff, stubs_eq hos]
  have hxor : (GatewayType.xor, "exclusiveGateway") ∈ FlowElement.gatewayTags := by decide
  simp only [exists_resolve_iff, mem_stubs_iff (forall₂_gateway hos hxor), collect, hflow,
    DefaultsFound]
  constructor
  · intro h gateway hg edge hattr hne
    exact h _ ⟨gateway, hg, edge, hattr, hne, rfl⟩
  · rintro h _ ⟨gateway, hg, edge, hattr, hne, rfl⟩
    exact h gateway hg edge hattr hne

end FlowGraph

/-! ## Processes -/

namespace Process

/-- **What a process is read as**: the records of its children in its collections, with the fallback
edges among them resolved against the transitions among them. -/
theorem read_eq_ok_iff {r : Registry} {p : Process} : read r s node = .ok p ↔
    ∃ interface, readInterface s node = .ok interface ∧
      ∃ participants, Lane.readAll s node = .ok participants ∧
        ∃ os, node.children.mapM (FlowGraph.classify r s participants) = .ok os ∧
          let elements := os.filterMap fun e => e
          let graph := FlowGraph.collect
            { id := node.id, name := node.name, interface, participants } elements
          ∃ defaultTransitions, (elements.filterMap FlowElement.stub?).mapM
              (FlowGraph.resolve graph) = .ok defaultTransitions ∧
            { graph with defaultTransitions } = p := by
  simp only [read, FlowGraph.assemble_eq_collect, Outcome.bind_eq_ok_iff, Outcome.pure_eq_ok_iff]

/-- The gateways and edges of a process are those of its element, in their order. -/
structure ReadFrom (s : Settings) (aliases : List (String × String)) (node : Element)
    (p : Process) : Prop where
  id : p.id = node.id
  xorGateways : List.Forall₂ (fun c g => Gateway.read .xor c = .ok g)
    (node.flowElements aliases "exclusiveGateway") p.xorGateways
  andGateways : List.Forall₂ (fun c g => Gateway.read .and c = .ok g)
    (node.flowElements aliases "parallelGateway") p.andGateways
  transitions : List.Forall₂ (fun c t => SequenceFlow.read s c = .ok t)
    (node.flowElements aliases "sequenceFlow") p.transitions

theorem readFrom_of_read {p : Process} (h : read (.aliased aliases) s node = .ok p) :
    ReadFrom s aliases node p := by
  obtain ⟨interface, -, participants, -, os, hos, defaults, -, rfl⟩ := read_eq_ok_iff.mp h
  exact {
    id := rfl
    xorGateways := FlowGraph.forall₂_gateway hos (by decide)
    andGateways := FlowGraph.forall₂_gateway hos (by decide)
    transitions := FlowGraph.forall₂_transition hos }

/-- **A process can be read** when its block, its lanes and its children can be, and its
fallback edges are found. -/
theorem exists_read_iff {P : Prop}
    (hP : ∀ participants, Lane.readAll s node = .ok participants →
      ((∃ os, node.children.mapM (FlowGraph.classify (.aliased aliases) s participants) = .ok os) ↔
        P)) :
    (∃ p, read (.aliased aliases) s node = .ok p) ↔
      Properties.Decodable s node ∧ (∀ lane ∈ Lane.lanes node, Properties.Decodable s lane) ∧
        P ∧ FlowGraph.DefaultsFound aliases node := by
  have hinterface : (∃ i, readInterface s node = .ok i) ↔ Properties.Decodable s node := by
    rw [← Properties.exists_read_iff]
    exact Outcome.exists_bind_pure_iff
  rw [← hinterface, ← Lane.exists_readAll_iff]
  refine Outcome.exists_bind_iff fun interface _ => ?_
  refine Outcome.exists_bind_iff fun participants hparticipants => ?_
  rw [FlowGraph.exists_assemble_iff, hP participants hparticipants]

end Process

end BpmnModel
