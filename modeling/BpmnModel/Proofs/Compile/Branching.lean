import BpmnModel.Proofs.Compile.Refused
import BpmnModel.Proofs.Compile.Regular

/-!
# Gateways that branch

A gateway with one edge in and one edge out has nothing to decide, and is refused.  What is counted
are the listed identifiers and not the edges, so that a gateway gets through that lists one of its
two edges more than once.  This is the only way to do so.

## Main definitions

* `Gateway.Branches g` — two different edges enter the gateway, or two leave it.
* `Gateway.Stutters g` — one edge enters and one leaves, and one of them is listed more than once.
* `Gateway.Judged node g` — what is known of the gateway of an element.

## Main statements

* `Gateway.Regular.branches_iff` — a gateway that has been read branches unless it stutters.
* `FlowGraph.classify_eq_degenerate_iff` — which gateways with one edge in and one out are refused.
* `Compiler.judged_of_compile` — the gateways of an accepted document.
* `Compiler.compile_stutter` — a document is accepted in which a gateway does not branch.
-/

namespace BpmnModel

variable {s : Settings} {aliases : List (String × String)} {participants : List Participant}
variable {root process node : Element} {type : GatewayType} {tag : String} {g : Gateway}

namespace Gateway

/-! ## Listed edges -/

/-- The list names one edge, however often. -/
def Single (edges : List String) : Prop :=
  ∃ edge n, edges = List.replicate (n + 1) edge

/-- The list names two different edges. -/
def Several (edges : List String) : Prop :=
  ∃ a ∈ edges, ∃ b ∈ edges, a ≠ b

instance : DecidablePred Several := fun edges =>
  inferInstanceAs (Decidable (∃ a ∈ edges, ∃ b ∈ edges, a ≠ b))

/-- A list that names an edge names several, or one only. -/
theorem several_iff_not_single {edges : List String} (h : edges ≠ []) :
    Several edges ↔ ¬Single edges := by
  constructor
  · rintro ⟨a, ha, b, hb, hne⟩ ⟨edge, n, rfl⟩
    exact hne ((List.eq_of_mem_replicate ha).trans (List.eq_of_mem_replicate hb).symm)
  · intro hsingle
    by_contra hseveral
    obtain ⟨edge, edges, rfl⟩ := List.exists_cons_of_ne_nil h
    refine hsingle ⟨edge, edges.length, List.eq_replicate_iff.mpr ⟨rfl, fun b hb => ?_⟩⟩
    by_contra hne
    exact hseveral ⟨b, hb, edge, List.mem_cons_self, hne⟩

theorem Single.ne_nil {edges : List String} (h : Single edges) : edges ≠ [] := by
  obtain ⟨edge, n, rfl⟩ := h
  exact List.cons_ne_nil _ _

/-- Of the lists with one edge only, those that list it once are those of length one. -/
theorem Single.nodup_iff {edges : List String} (h : Single edges) :
    edges.Nodup ↔ edges.length = 1 := by
  obtain ⟨edge, n, rfl⟩ := h
  rw [List.nodup_replicate, List.length_replicate]
  omega

/-! ## Branching -/

/-- Two different edges enter the gateway, or two different edges leave it. -/
def Branches (g : Gateway) : Prop :=
  Several g.incoming ∨ Several g.outgoing

instance : DecidablePred Branches := fun g =>
  inferInstanceAs (Decidable (Several g.incoming ∨ Several g.outgoing))

/-- One edge enters the gateway and one leaves it, and one of the two is listed more than once. -/
def Stutters (g : Gateway) : Prop :=
  (Single g.incoming ∧ Single g.outgoing) ∧ ¬(g.incoming.Nodup ∧ g.outgoing.Nodup)

/-- What is known of the gateway of an element: edges enter and leave it, all of them with names,
and it branches unless it stutters. -/
structure Judged (node : Element) (g : Gateway) : Prop where
  id : g.id = node.id
  incoming : g.incoming = node.childTexts "incoming" ∧ g.incoming ≠ [] ∧ "" ∉ g.incoming
  outgoing : g.outgoing = node.childTexts "outgoing" ∧ g.outgoing ≠ [] ∧ "" ∉ g.outgoing
  branches : g.Branches ↔ ¬g.Stutters

/-- **A gateway that is regular branches unless it stutters**: the count that it has passed tells
one edge from several as long as no edge is listed twice. -/
theorem Regular.branches_iff (h : g.Regular) : g.Branches ↔ ¬g.Stutters := by
  rw [Branches, several_iff_not_single h.incoming.1, several_iff_not_single h.outgoing.1,
    ← not_and_or, Stutters]
  refine not_congr (iff_self_and.mpr ?_)
  rintro ⟨hin, hout⟩
  rw [hin.nodup_iff, hout.nodup_iff]
  exact h.forks

theorem judged_of_read (h : read type node = .ok g) : Judged node g := by
  have hregular := regular_of_read h
  obtain ⟨-, rfl⟩ := read_eq_ok_iff.mp h
  exact {
    id := rfl
    incoming := ⟨rfl, hregular.incoming⟩
    outgoing := ⟨rfl, hregular.outgoing⟩
    branches := hregular.branches_iff }

/-! ## One edge in, one edge out -/

theorem read_eq_degenerate_iff : read type node = .error (.degenerateGateway node.id) ↔
    (node.childTexts "incoming").length = 1 ∧ (node.childTexts "outgoing").length = 1 := by
  rw [read]
  split
  · rename_i hmissing
    simp only [Except.error.injEq, reduceCtorEq, false_iff]
    rintro ⟨hin, hout⟩
    simp only [Bool.or_eq_true, List.isEmpty_iff_length_eq_zero, hin, hout] at hmissing
    omega
  · split <;> simp_all

end Gateway

namespace FlowGraph

/-- A child that stands for a gateway is read as one. -/
theorem classify_gateway (ht : (type, tag) ∈ FlowElement.gatewayTags)
    (h : Registry.resolve aliases node.tag = some tag) :
    classify (.aliased aliases) s participants node =
      (Gateway.read type node).map fun g => some (.gateway g g.stub?) := by
  have hbuiltin : (tag, Classifier.gateway type) ∈ Registry.builtins := by
    simp only [FlowElement.gatewayTags, List.mem_cons, Prod.mk.injEq, List.not_mem_nil,
      or_false] at ht
    rcases ht with ⟨rfl, rfl⟩ | ⟨rfl, rfl⟩ <;> simp [Registry.builtins]
  have hget : (Registry.aliased aliases).get? node.tag = some (Classifier.gateway type) := by
    rw [Registry.get?_aliased, h, Option.bind_some, Registry.builtin?_eq_some_iff.mpr hbuiltin]
  cases hread : Gateway.read type node with
  | error cause =>
    exact classify_eq_error_iff.mpr (.refused hget (by simp [Classifier.gateway, hread, Except.map]))
  | ok g =>
    exact classify_of_builtin hget hbuiltin (by simp [Classifier.gateway, hread, Except.map])

/-- **Of the gateways with one edge in and one edge out** those are refused that list each of the
two once. -/
theorem classify_eq_degenerate_iff (ht : (type, tag) ∈ FlowElement.gatewayTags)
    (h : Registry.resolve aliases node.tag = some tag)
    (hin : Gateway.Single (node.childTexts "incoming"))
    (hout : Gateway.Single (node.childTexts "outgoing")) :
    classify (.aliased aliases) s participants node = .error (.degenerateGateway node.id) ↔
      (node.childTexts "incoming").Nodup ∧ (node.childTexts "outgoing").Nodup := by
  rw [classify_gateway ht h, Outcome.map_eq_error_iff, Gateway.read_eq_degenerate_iff,
    hin.nodup_iff, hout.nodup_iff]

/-- **All others are read**, as gateways that stutter. -/
theorem exists_classify_stutters (ht : (type, tag) ∈ FlowElement.gatewayTags)
    (h : Registry.resolve aliases node.tag = some tag)
    (hin : Gateway.Single (node.childTexts "incoming"))
    (hout : Gateway.Single (node.childTexts "outgoing"))
    (htwice : ¬((node.childTexts "incoming").Nodup ∧ (node.childTexts "outgoing").Nodup)) :
    ∃ g, classify (.aliased aliases) s participants node = .ok (some (.gateway g g.stub?)) ∧
      g.Stutters := by
  have hforks : Gateway.Forks node :=
    ⟨hin.ne_nil, hout.ne_nil, by rwa [← hin.nodup_iff, ← hout.nodup_iff]⟩
  obtain ⟨g, hg⟩ := Gateway.exists_read_iff.mpr hforks
  refine ⟨g, by rw [classify_gateway ht h, hg]; rfl, ?_⟩
  obtain ⟨-, rfl⟩ := Gateway.read_eq_ok_iff.mp hg
  exact ⟨⟨hin, hout⟩, htwice⟩

end FlowGraph

/-! ## Accepted documents -/

/-- The gateways of a process are those of its element, and each of them branches or stutters. -/
structure Process.Judged (aliases : List (String × String)) (process : Element) (p : Process) :
    Prop where
  xorGateways : List.Forall₂ Gateway.Judged (process.flowElements aliases "exclusiveGateway")
    p.xorGateways
  andGateways : List.Forall₂ Gateway.Judged (process.flowElements aliases "parallelGateway")
    p.andGateways

theorem Process.judged_of_read {p : Process} (h : read (.aliased aliases) s process = .ok p) :
    Judged aliases process p := by
  have hp := readFrom_of_read h
  exact {
    xorGateways := hp.xorGateways.imp fun _ _ => Gateway.judged_of_read
    andGateways := hp.andGateways.imp fun _ _ => Gateway.judged_of_read }

/-- **The gateways of an accepted document** have edges in and edges out, and each of them branches
unless it has one edge in and one edge out and lists one of these more than once.  Of all gateways
with one edge in and one edge out, those that list each once are refused for it, and all others are
read. -/
theorem Compiler.judged_of_compile (s : Settings) (aliases : List (String × String))
    (root : Element) :
    (∀ document, (Compiler.aliased s aliases).compile root = .ok document →
      List.Forall₂ (Process.Judged aliases) (root.childrenNamed "process") document.processes) ∧
    ∀ participants node type tag, (type, tag) ∈ FlowElement.gatewayTags →
      Registry.resolve aliases node.tag = some tag →
      Gateway.Single (node.childTexts "incoming") → Gateway.Single (node.childTexts "outgoing") →
        (FlowGraph.classify (.aliased aliases) s participants node =
            .error (.degenerateGateway node.id) ↔
          (node.childTexts "incoming").Nodup ∧ (node.childTexts "outgoing").Nodup) ∧
        (¬((node.childTexts "incoming").Nodup ∧ (node.childTexts "outgoing").Nodup) →
          ∃ g, FlowGraph.classify (.aliased aliases) s participants node =
            .ok (some (.gateway g g.stub?)) ∧ g.Stutters) := by
  constructor
  · intro document h
    rw [aliased_eq, compile_eq_ok_iff] at h
    obtain ⟨-, -, -, ps, hread, hcheck⟩ := h
    refine (Outcome.forall₂_trans hread hcheck).imp ?_
    rintro process q ⟨p, hp, hq⟩
    have hjudged := Process.judged_of_read hp
    -- a check changes transitions only
    obtain ⟨-, rfl⟩ := Process.check_eq_ok_iff.mp hq
    exact { hjudged with }
  · intro participants node type tag ht h hin hout
    exact ⟨FlowGraph.classify_eq_degenerate_iff ht h hin hout,
      FlowGraph.exists_classify_stutters ht h hin hout⟩

/-! ## A junction -/

/-- A gateway that lists the given edges. -/
def Element.junction (tag : String) (incoming outgoing : List String) : Element where
  tag
  attributes := .ofList [("id", "G")]
  children := (incoming.map fun id => { tag := "incoming", text := id }) ++
    outgoing.map fun id => { tag := "outgoing", text := id }

/-- A document with one process that holds the given elements. -/
def Element.ofNodes (nodes : List Element) : Element :=
  documentOf [{ tag := "process", attributes := .ofList [("id", "P")], children := nodes }]

/-- The gateways of all processes. -/
def Document.gateways (d : Document) : List Gateway :=
  d.processes.flatMap fun p => p.xorGateways ++ p.andGateways

/-- A gateway that joins is accepted under an alias, in spite of the edge that it lists twice.  A
gateway with one edge in and one edge out, each listed once, is refused. -/
theorem Compiler.judged_of_compile_join :
    (∃ document, (Compiler.aliased {} [("choice", "exclusiveGateway")]).compile
        (.ofNodes [.junction "choice" ["F0", "F1", "F0"] ["F2"]]) = .ok document ∧
      document.gateways.map (fun g => (g.incoming, decide g.Branches)) =
        [(["F0", "F1", "F0"], true)] ∧
      List.Forall₂ (Process.Judged [("choice", "exclusiveGateway")])
        ((Element.ofNodes [.junction "choice" ["F0", "F1", "F0"] ["F2"]]).childrenNamed "process")
        document.processes) ∧
    FlowGraph.classify (.aliased [("choice", "exclusiveGateway")]) {} []
      (.junction "choice" ["F0"] ["F2"]) = .error (.degenerateGateway "G") := by
  obtain ⟨document, hdocument, hbranches⟩ := Outcome.exists_of_toOption_map
    (show ((Compiler.aliased {} [("choice", "exclusiveGateway")]).compile
        (.ofNodes [.junction "choice" ["F0", "F1", "F0"] ["F2"]])).toOption.map
          (fun d => d.gateways.map fun g => (g.incoming, decide g.Branches)) =
        some [(["F0", "F1", "F0"], true)] from by decide +kernel)
  obtain ⟨haccepted, hrefused⟩ := Compiler.judged_of_compile {} [("choice", "exclusiveGateway")]
    (.ofNodes [.junction "choice" ["F0", "F1", "F0"] ["F2"]])
  refine ⟨⟨document, hdocument, hbranches, haccepted document hdocument⟩, ?_⟩
  have htag : (GatewayType.xor, "exclusiveGateway") ∈ FlowElement.gatewayTags := by decide
  exact (hrefused [] (.junction "choice" ["F0"] ["F2"]) .xor "exclusiveGateway" htag
    (by decide +kernel) ⟨"F0", 0, rfl⟩ ⟨"F2", 0, rfl⟩).1.mpr (by decide +kernel)

/-- **A gateway need not branch**: the same edge, listed twice, counts as two.  Listed once, it is
found that the gateway has nothing to decide. -/
theorem Compiler.compile_stutter :
    (∃ document, (Compiler.aliased {} []).compile
        (.ofNodes [.junction "exclusiveGateway" ["F0", "F0"] ["F1"]]) = .ok document ∧
      document.gateways.map (fun g => (g.incoming, g.outgoing)) = [(["F0", "F0"], ["F1"])] ∧
      ¬∀ g ∈ document.gateways, g.Branches) ∧
    (Compiler.aliased {} []).compile
        (.ofNodes [.junction "exclusiveGateway" ["F0"] ["F1"]]) =
      .error (.structure (.degenerateGateway "G")) := by
  constructor
  · have haccepted : ((Compiler.aliased {} []).compile
        (.ofNodes [.junction "exclusiveGateway" ["F0", "F0"] ["F1"]])).toOption.map
          (fun d => (d.gateways.map fun g => (g.incoming, g.outgoing),
            decide (∀ g ∈ d.gateways, g.Branches))) =
        some ([(["F0", "F0"], ["F1"])], false) := by decide +kernel
    obtain ⟨document, hdocument, h⟩ := Outcome.exists_of_toOption_map haccepted
    obtain ⟨hedges, hbranches⟩ := Prod.mk.inj h
    exact ⟨document, hdocument, hedges, of_decide_eq_false hbranches⟩
  · decide +kernel

end BpmnModel
