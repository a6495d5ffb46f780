import BpmnModel.Proofs.Compile.Frame
import BpmnModel.Proofs.Compile.Soundness

/-!
# Fallback edges

A choosing gateway names the edge that is taken when no condition on its other edges holds.  The
compiler finds the edge among all edges of the process and takes over its target.  It does not ask
whether the edge leaves the gateway, so that an accepted document may send an engine from a gateway
along an edge of another node.  What has to hold of the tree for this not to happen is said here.

## Main definitions

* `Process.Leaves p d` — the fallback edge `d` is an edge of its own gateway.
* `Process.OwnFallbacks p` — all fallback edges are.
* `Element.Leaves aliases process gateway edge` — the same, said of the tree.
* `DefaultTransition.NamedBy aliases process gateway d` — `d` is the fallback edge that the gateway
  names.
* `Process.Resolves p g d` — `d` is the fallback edge of the gateway `g` of `p`, with its target.

## Main statements

* `Process.namedBy_of_read` — the fallback edges of a process are those that its gateways name.
* `Compiler.resolves_of_compile` — each gateway that names a fallback edge has one, in their order.
* `Process.leaves_iff` — a fallback edge is an own one when the tree says so of it.
* `Compiler.namedBy_of_compile` — both of an accepted document, edge by edge.
* `Compiler.compile_detour` — a document is accepted in which one is not.
-/

namespace BpmnModel

variable {s : Settings} {aliases : List (String × String)} {root process gateway : Element}
variable {m : Model} {p q : Process} {d : DefaultTransition}

/-! ## Own edges -/

/-- The fallback edge leaves its gateway: the gateway lists it, and it has the ends that the record
tells. -/
def Process.Leaves (p : Process) (d : DefaultTransition) : Prop :=
  (∃ g ∈ p.xorGateways, g.id = d.gateway ∧ d.transition ∈ g.outgoing) ∧
    ∃ t ∈ p.transitions, t.id = d.transition ∧ t.source = d.gateway ∧ t.target = d.activity

/-- Every fallback edge is an edge of its own gateway. -/
def Process.OwnFallbacks (p : Process) : Prop :=
  ∀ d ∈ p.defaultTransitions, p.Leaves d

instance (p : Process) : DecidablePred p.Leaves := fun _ => by
  unfold Process.Leaves
  infer_instance

instance : DecidablePred Process.OwnFallbacks := fun p =>
  inferInstanceAs (Decidable (∀ d ∈ p.defaultTransitions, p.Leaves d))

namespace Element

/-- The choosing gateways that name a fallback edge. -/
def choosing (aliases : List (String × String)) (process : Element) : List Element :=
  (process.flowElements aliases "exclusiveGateway").filter fun gateway =>
    (Gateway.fallbackOf .xor gateway).isSome

/-- The first edge with the given identifier. -/
def edge? (aliases : List (String × String)) (process : Element) (id : String) : Option Element :=
  (process.flowElements aliases "sequenceFlow").find? fun flow => flow.id == id

/-- The edge leaves the gateway: the gateway lists it, and it starts there and leads to where the
first edge with its identifier leads. -/
def Leaves (aliases : List (String × String)) (process gateway : Element) (edge : String) : Prop :=
  (∃ g ∈ process.flowElements aliases "exclusiveGateway",
      g.id = gateway.id ∧ edge ∈ g.childTexts "outgoing") ∧
    ∃ flow ∈ process.flowElements aliases "sequenceFlow",
      flow.id = edge ∧ flow.attr? "sourceRef" = some gateway.id ∧
        flow.attr? "targetRef" =
          (process.edge? aliases edge).bind fun first => first.attr? "targetRef"

end Element

/-! ## The fallback edges of a process -/

/-- The record holds the edge that the gateway names, with the target of the first edge of that
name. -/
structure DefaultTransition.NamedBy (aliases : List (String × String)) (process gateway : Element)
    (d : DefaultTransition) : Prop where
  owner : d.gateway = gateway.id
  transition : Gateway.fallbackOf .xor gateway = some d.transition
  target : (process.edge? aliases d.transition).bind (fun flow => flow.attr? "targetRef") =
    some d.activity

theorem FlowGraph.resolve_eq_ok_iff {stub : DefaultTransition} : resolve p stub = .ok d ↔
    ∃ t, p.transition? stub.transition = some t ∧ { stub with activity := t.target } = d := by
  rw [resolve]
  cases p.transition? stub.transition <;> simp

namespace Process

theorem resolve_of_read (h : read (.aliased aliases) s process = .ok p) :
    (p.xorGateways.filterMap Gateway.stub?).mapM (FlowGraph.resolve p) =
      .ok p.defaultTransitions := by
  obtain ⟨interface, -, participants, -, os, hos, defaults, hdefaults, rfl⟩ := read_eq_ok_iff.mp h
  rw [FlowGraph.stubs_eq hos] at hdefaults
  exact hdefaults

/-! ## One for each gateway -/

/-- The record is that of the gateway: it holds the edge that the gateway names, and the target of
the first transition of that name. -/
structure Resolves (p : Process) (g : Gateway) (d : DefaultTransition) : Prop where
  gateway : d.gateway = g.id
  transition : g.fallback = some d.transition
  activity : ∃ t, FirstWith (fun t => t.id = d.transition) p.transitions t ∧ t.target = d.activity
  known : d.activity ≠ ""

theorem transition?_eq_some_iff {id : String} {t : Transition} : p.transition? id = some t ↔
    FirstWith (fun t => t.id = id) p.transitions t := by
  rw [firstWith_iff_find?, transition?]
  rfl

/-- A fallback edge is resolved for each gateway that names one, and for no other. -/
theorem resolves_of_read (h : read (.aliased aliases) s process = .ok p) :
    List.Forall₂ p.Resolves (p.xorGateways.filter fun g => g.fallback.isSome)
      p.defaultTransitions := by
  have hstubs : List.Forall₂ (fun g stub => ∃ g', g = g' ∧ g'.stub? = some stub)
      (p.xorGateways.filter fun g => g.fallback.isSome) (p.xorGateways.filterMap Gateway.stub?) :=
    Outcome.forall₂_filterMap (List.forall₂_same.mpr fun _ _ => rfl) fun g g' hg =>
      hg ▸ Option.isSome_map
  have hresolved := Outcome.mapM_eq_ok_iff.mp (resolve_of_read h)
  refine (Outcome.forall₂_trans hstubs hresolved).imp ?_
  rintro g d ⟨stub, ⟨g', rfl, hstub⟩, hd⟩
  obtain ⟨edge, hedge, rfl⟩ := Option.map_eq_some_iff.mp hstub
  obtain ⟨t, ht, rfl⟩ := FlowGraph.resolve_eq_ok_iff.mp hd
  have hread := (readFrom_of_read h).transitions
  obtain ⟨flow, -, hflow⟩ := Outcome.exists_of_mem_right hread (List.mem_of_find?_eq_some ht)
  exact {
    gateway := rfl
    transition := hedge
    activity := ⟨t, transition?_eq_some_iff.mp ht, rfl⟩
    known := (SequenceFlow.ends_ne_empty_of_read hflow).2 }

/-- Completing conditions moves no edge. -/
theorem Resolves.complete {g : Gateway} (h : p.Resolves g d) :
    Resolves { p with transitions := p.transitions.map (Transition.complete s m) } g d := by
  obtain ⟨t, ht, htarget⟩ := h.activity
  have hmoved : FirstWith (fun t => t.id = d.transition)
      (p.transitions.map (Transition.complete s m)) (t.complete s m) := ht.map fun _ => Iff.rfl
  exact { h with activity := ⟨t.complete s m, hmoved, htarget⟩ }

/-! ## The edges that the tree names -/

/-- The target of the first transition of a name is that of the first edge of the name. -/
theorem target_of_readFrom (hp : p.ReadFrom s aliases process) {id : String} {t : Transition}
    (ht : p.transition? id = some t) :
    (process.edge? aliases id).bind (fun flow => flow.attr? "targetRef") = some t.target := by
  obtain ⟨flow, hflow, hread⟩ := Outcome.exists_find?_of_forall₂ hp.transitions
    (fun flow t hread => by rw [(SequenceFlow.readAs_of_read hread).id]) ht
  rw [Element.edge?, hflow, Option.bind_some, (SequenceFlow.readAs_of_read hread).target]

/-- **The fallback edges of a process are those that its choosing gateways name**, in the order of
these. -/
theorem namedBy_of_read (h : read (.aliased aliases) s process = .ok p) :
    List.Forall₂ (DefaultTransition.NamedBy aliases process) (process.choosing aliases)
      p.defaultTransitions := by
  have hp := readFrom_of_read h
  have hchoosing : List.Forall₂ (fun gateway g => Gateway.read .xor gateway = .ok g)
      (process.choosing aliases) (p.xorGateways.filter fun g => g.fallback.isSome) := by
    refine List.rel_filter (fun gateway g hread => ?_) hp.xorGateways
    obtain ⟨-, rfl⟩ := Gateway.read_eq_ok_iff.mp hread
    rfl
  refine (Outcome.forall₂_trans hchoosing (resolves_of_read h)).imp ?_
  rintro gateway d ⟨g, hread, hd⟩
  obtain ⟨-, rfl⟩ := Gateway.read_eq_ok_iff.mp hread
  obtain ⟨t, ht, htarget⟩ := hd.activity
  have hfirst := target_of_readFrom hp (transition?_eq_some_iff.mpr ht)
  exact { owner := hd.gateway, transition := hd.transition, target := htarget ▸ hfirst }

/-! ## When they are own edges -/

section Own

variable (hgateways : List.Forall₂ (fun gateway g => Gateway.read .xor gateway = .ok g)
    (process.flowElements aliases "exclusiveGateway") p.xorGateways)
  (htransitions : List.Forall₂ (Transition.SoundFor s m p)
    (process.flowElements aliases "sequenceFlow") p.transitions)

include hgateways in
theorem exists_listing_iff {id edge : String} :
    (∃ g ∈ p.xorGateways, g.id = id ∧ edge ∈ g.outgoing) ↔
      ∃ gateway ∈ process.flowElements aliases "exclusiveGateway",
        gateway.id = id ∧ edge ∈ gateway.childTexts "outgoing" := by
  constructor
  · rintro ⟨g, hg, hid, hedge⟩
    obtain ⟨gateway, hgateway, hread⟩ := Outcome.exists_of_mem_right hgateways hg
    obtain ⟨-, rfl⟩ := Gateway.read_eq_ok_iff.mp hread
    exact ⟨gateway, hgateway, hid, hedge⟩
  · rintro ⟨gateway, hgateway, hid, hedge⟩
    obtain ⟨g, hg, hread⟩ := Outcome.exists_of_mem_left hgateways hgateway
    obtain ⟨-, rfl⟩ := Gateway.read_eq_ok_iff.mp hread
    exact ⟨_, hg, hid, hedge⟩

include htransitions in
theorem exists_joining_iff {id source target : String} :
    (∃ t ∈ p.transitions, t.id = id ∧ t.source = source ∧ t.target = target) ↔
      ∃ flow ∈ process.flowElements aliases "sequenceFlow",
        flow.id = id ∧ flow.attr? "sourceRef" = some source ∧
          flow.attr? "targetRef" = some target := by
  constructor
  · rintro ⟨t, ht, rfl, rfl, rfl⟩
    obtain ⟨flow, hflow, h⟩ := Outcome.exists_of_mem_right htransitions ht
    exact ⟨flow, hflow, h.id.symm, h.source, h.target⟩
  · rintro ⟨flow, hflow, rfl, hsource, htarget⟩
    obtain ⟨t, ht, h⟩ := Outcome.exists_of_mem_left htransitions hflow
    exact ⟨t, ht, h.id, Option.some.inj (h.source.symm.trans hsource),
      Option.some.inj (h.target.symm.trans htarget)⟩

include hgateways htransitions in
/-- **A fallback edge is an own one** in the process when, and only when, it is one in the tree. -/
theorem leaves_iff (h : d.NamedBy aliases process gateway) :
    p.Leaves d ↔ process.Leaves aliases gateway d.transition := by
  rw [Leaves, Element.Leaves, exists_listing_iff hgateways, exists_joining_iff htransitions,
    h.owner, h.target]

end Own

end Process

/-! ## Accepted documents -/

/-- **Each gateway of an accepted document that names a fallback edge has it resolved**, once and in
the order of the gateways, and no other gateway has one. -/
theorem Compiler.resolves_of_compile {document : Document}
    (h : (Compiler.aliased s aliases).compile root = .ok document) :
    ∀ p ∈ document.processes,
      List.Forall₂ p.Resolves (p.xorGateways.filter fun g => g.fallback.isSome)
        p.defaultTransitions := by
  rw [aliased_eq, compile_eq_ok_iff] at h
  obtain ⟨-, -, -, ps, hread, hcheck⟩ := h
  intro q hq
  obtain ⟨p, hp, hpq⟩ := Outcome.exists_of_mem_right hcheck hq
  obtain ⟨process, -, hprocess⟩ := Outcome.exists_of_mem_right hread hp
  obtain ⟨-, rfl⟩ := Process.check_eq_ok_iff.mp hpq
  exact (Process.resolves_of_read hprocess).imp fun _ _ => Process.Resolves.complete

/-- Two gateways have one identifier, and the edges that they name stand before and behind them, one
of them twice.  A gateway that takes all edges has no fallback edge, nor has one that names none. -/
theorem Compiler.resolves_of_compile_twins :
    let gateway (tag id : String) (fallback : List (String × String)) : Element := {
      tag, attributes := .ofList (("id", id) :: fallback)
      children := [{ tag := "incoming", text := "F0" }, { tag := "outgoing", text := "F1" },
        { tag := "outgoing", text := "F2" }] }
    let flow (id target : String) : Element := {
      tag := "sequenceFlow"
      attributes := .ofList [("id", id), ("sourceRef", "G"), ("targetRef", target)] }
    let root : Element := .documentOf [{
      tag := "process", attributes := .ofList [("id", "P")]
      children := [flow "F1" "A", gateway "choice" "G" [("default", "F2")],
        gateway "exclusiveGateway" "H" [("default", "")],
        gateway "parallelGateway" "K" [("default", "F1")],
        gateway "exclusiveGateway" "G" [("default", "F1")], flow "F2" "B", flow "F2" "C"] }]
    ∃ document, (Compiler.aliased {} [("choice", "exclusiveGateway")]).compile root =
        .ok document ∧
      document.processes.flatMap Process.defaultTransitions =
        [⟨"G", "F2", "B"⟩, ⟨"G", "F1", "A"⟩] ∧
      ∀ p ∈ document.processes,
        List.Forall₂ p.Resolves (p.xorGateways.filter fun g => g.fallback.isSome)
          p.defaultTransitions := by
  intro gateway flow root
  obtain ⟨document, hdocument, hdefaults⟩ : ∃ document,
      (Compiler.aliased {} [("choice", "exclusiveGateway")]).compile root = .ok document ∧
        document.processes.flatMap Process.defaultTransitions =
          [⟨"G", "F2", "B"⟩, ⟨"G", "F1", "A"⟩] :=
    Outcome.exists_of_toOption_map (by decide +kernel)
  exact ⟨document, hdocument, hdefaults, Compiler.resolves_of_compile hdocument⟩

/-- **The fallback edges of an accepted document** are those that its choosing gateways name, each
with the target of the first edge of that name, and each of them is an edge of its own gateway when,
and only when, the tree says so of it. -/
theorem Compiler.namedBy_of_compile {document : Document}
    (h : (Compiler.aliased s aliases).compile root = .ok document) :
    List.Forall₂ (fun process p =>
        List.Forall₂ (fun gateway d => d.NamedBy aliases process gateway ∧
            (p.Leaves d ↔ process.Leaves aliases gateway d.transition))
          (process.choosing aliases) p.defaultTransitions)
      (root.childrenNamed "process") document.processes := by
  rw [aliased_eq, compile_eq_ok_iff] at h
  obtain ⟨-, -, -, ps, hread, hcheck⟩ := h
  refine (Outcome.forall₂_trans hread hcheck).imp ?_
  rintro process q ⟨p, hp, hq⟩
  have hfrom := Process.readFrom_of_read hp
  have htransitions := Process.soundFor_of_check hfrom hq
  -- a check completes conditions and keeps everything else of the process
  obtain ⟨-, rfl⟩ := Process.check_eq_ok_iff.mp hq
  refine (Process.namedBy_of_read hp).imp fun gateway d hnamed => ?_
  exact ⟨hnamed, Process.leaves_iff hfrom.xorGateways htransitions hnamed⟩

/-! ## A detour -/

/-- A document in which `F1` and `F2` leave the gateway `G` and `F3` leaves `X`.  Each of the given
gateways lists `F1` and `F2` and falls back to the edge that is named with it. -/
def Element.fallingBack (gateways : List (String × String)) : Element :=
  let flow (id source target : String) : Element := {
    tag := "sequenceFlow"
    attributes := .ofList [("id", id), ("sourceRef", source), ("targetRef", target)] }
  documentOf [
    { tag := "process", attributes := .ofList [("id", "P")]
      children := gateways.map (fun g => {
          tag := "exclusiveGateway", attributes := .ofList [("id", g.1), ("default", g.2)]
          children := [{ tag := "incoming", text := "F0" }, { tag := "outgoing", text := "F1" },
            { tag := "outgoing", text := "F2" }] }) ++
        [flow "F1" "G" "A", flow "F2" "G" "B", flow "F3" "X" "C"] }]

/-- Of two gateways that list an edge and fall back to it, it is an edge of one only. -/
theorem Compiler.namedBy_of_compile_own :
    ∃ document, (Compiler.aliased {} []).compile (.fallingBack [("G", "F2"), ("H", "F2")]) =
        .ok document ∧
      document.processes.map (fun p => p.defaultTransitions.map fun d => (d, decide (p.Leaves d))) =
        [[(⟨"G", "F2", "B"⟩, true), (⟨"H", "F2", "B"⟩, false)]] ∧
      List.Forall₂ (fun process p =>
          List.Forall₂ (fun gateway d => d.NamedBy [] process gateway ∧
              (p.Leaves d ↔ process.Leaves [] gateway d.transition))
            (process.choosing []) p.defaultTransitions)
        ((Element.fallingBack [("G", "F2"), ("H", "F2")]).childrenNamed "process")
        document.processes := by
  have haccepted : ((Compiler.aliased {} []).compile
      (.fallingBack [("G", "F2"), ("H", "F2")])).toOption.map (fun d => d.processes.map fun p =>
        p.defaultTransitions.map fun d => (d, decide (p.Leaves d))) =
      some [[(⟨"G", "F2", "B"⟩, true), (⟨"H", "F2", "B"⟩, false)]] := by
    decide +kernel
  obtain ⟨document, hdocument, hown⟩ := Outcome.exists_of_toOption_map haccepted
  exact ⟨document, hdocument, hown, Compiler.namedBy_of_compile hdocument⟩

/-- **A fallback edge need not be an edge of its own gateway**: a document is accepted that sends an
engine from `G` to `C` along an edge of `X`. -/
theorem Compiler.compile_detour :
    ∃ document, (Compiler.aliased {} []).compile (.fallingBack [("G", "F3")]) = .ok document ∧
      document.processes.flatMap Process.defaultTransitions =
        [{ gateway := "G", transition := "F3", activity := "C" }] ∧
      ¬∀ p ∈ document.processes, p.OwnFallbacks := by
  have haccepted : ((Compiler.aliased {} []).compile (.fallingBack [("G", "F3")])).toOption.map
      (fun d => (d.processes.flatMap Process.defaultTransitions,
        decide (∀ p ∈ d.processes, p.OwnFallbacks))) =
      some ([{ gateway := "G", transition := "F3", activity := "C" }], false) := by
    decide +kernel
  obtain ⟨document, hdocument, h⟩ := Outcome.exists_of_toOption_map haccepted
  obtain ⟨hdefaults, hdetour⟩ := Prod.mk.inj h
  exact ⟨document, hdocument, hdefaults, of_decide_eq_false hdetour⟩

end BpmnModel
