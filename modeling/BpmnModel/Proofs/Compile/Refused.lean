import BpmnModel.Proofs.Compile.Collected

/-!
# Why a flow graph is refused

An assembly tells one error.  It comes from the first child that can not be classified, whatever
stands behind it and whichever fallback edges have been met before it.  Only when all children can
be classified are the fallback edges looked at, in the order of their gateways.

## Main definitions

* `FlowGraph.Fails registry settings participants child cause` — the child can not be classified.
* `FlowGraph.recordsOf` — the records of the children that can be classified.
* `FlowGraph.Dangles elements stub` — no transition among the records has the name of the edge.

## Main statements

* `FlowGraph.elementsOf_eq_error_iff` — a row of children is refused for the first that fails.
* `FlowGraph.finish_eq_error_iff` — records are refused for the first fallback edge that dangles.
* `FlowGraph.first_cause_of_assemble` — which error an assembly tells.
-/

namespace BpmnModel

variable {r : Registry} {s : Settings} {participants : List Participant} {cs : List Element}
variable {node : Element} {p : Process} {elements : List FlowElement} {cause : StructureError}

namespace FlowGraph

/-! ## Children that fail -/

/-- Why a child can not be classified: its classifier refuses it, or yields a gateway that a model
can not hold, or it has no classifier and the tag of such a gateway. -/
inductive Fails (r : Registry) (s : Settings) (participants : List Participant) (child : Element) :
    StructureError → Prop
  | refused {classifier : Classifier} {cause : StructureError}
    (hc : r.get? child.tag = some classifier) (h : classifier s participants child = .error cause) :
    Fails r s participants child cause
  | inclusive {g : Gateway} {stub : Option DefaultTransition}
    (h : Reads r s participants child (.gateway g stub)) (hor : g.gatewayType = .or) :
    Fails r s participants child (.unsupportedElement g.id child.tag)
  | unsupported (hc : r.get? child.tag = none) (h : child.tag ∈ unsupportedGateways) :
    Fails r s participants child (.unsupportedElement child.id child.tag)

theorem supported_eq_error_iff {tag : String} {e : FlowElement} : supported tag e = .error cause ↔
    ∃ g stub, e = .gateway g stub ∧ g.gatewayType = .or ∧ cause = .unsupportedElement g.id tag := by
  cases e with
  | gateway g stub => by_cases h : g.gatewayType = .or <;> grind [supported]
  | _ => simp [supported]

theorem classify_eq_error_iff :
    classify r s participants node = .error cause ↔ Fails r s participants node cause := by
  rw [classify]
  constructor
  · intro h
    cases hc : r.get? node.tag with
    | none =>
      simp only [hc] at h
      split at h
      · rename_i hm
        rw [← Except.error.inj h]
        exact .unsupported hc (by simpa using hm)
      · contradiction
    | some classifier =>
      simp only [hc, Outcome.bind_eq_error_iff, supported_eq_error_iff] at h
      rcases h with hrefused | ⟨e, he, ⟨g, stub, rfl, hor, rfl⟩ | ⟨e', -, hpure⟩⟩
      · exact .refused hc hrefused
      · exact .inclusive ⟨classifier, hc, he⟩ hor
      · contradiction
  · intro h
    cases h with
    | refused hc h => simp [hc, h, bind, Except.bind]
    | inclusive h hor =>
      obtain ⟨classifier, hc, he⟩ := h
      simp [hc, he, supported, hor, bind, Except.bind]
    | unsupported hc h => simp [hc, List.contains_eq_mem, h]

theorem exists_classify_iff : (∃ o, classify r s participants node = .ok o) ↔
    ¬∃ cause, Fails r s participants node cause := by
  simp only [← classify_eq_error_iff]
  cases classify r s participants node <;> simp

/-- **A row of children is refused for the first that fails.** -/
theorem elementsOf_eq_error_iff : elementsOf r s participants cs = .error cause ↔
    ∃ child, FirstWith (fun c => ∃ cause, Fails r s participants c cause) cs child ∧
      Fails r s participants child cause := by
  rw [elementsOf, Outcome.map_eq_error_iff, Outcome.mapM_eq_error_iff_first]
  simp only [classify_eq_error_iff]

/-! ## Fallback edges that dangle -/

/-- The records of the children that can be classified, in their order. -/
def recordsOf (r : Registry) (s : Settings) (participants : List Participant) (cs : List Element) :
    List FlowElement :=
  cs.filterMap (record? r s participants)

theorem elementsOf_of_not_fails (h : ∀ c ∈ cs, ∀ cause, ¬Fails r s participants c cause) :
    elementsOf r s participants cs = .ok (recordsOf r s participants cs) := by
  refine elementsOf_eq_ok_iff.mpr ⟨fun c hc => ?_, rfl⟩
  exact exists_classify_iff.mpr fun ⟨cause, hcause⟩ => h c hc cause hcause

/-- No transition among the records has the name of the fallback edge. -/
def Dangles (elements : List FlowElement) (stub : DefaultTransition) : Prop :=
  ∀ t ∈ elements.filterMap FlowElement.transition?, t.id ≠ stub.transition

theorem resolve_eq_error_iff {stub : DefaultTransition} :
    resolve (collect p elements) stub = .error cause ↔
      Dangles elements stub ∧ cause = .danglingDefault stub.gateway stub.transition := by
  have hnone : (collect p elements).transition? stub.transition = none ↔ Dangles elements stub := by
    simp only [Process.transition?, List.find?_eq_none, beq_iff_eq]
    rfl
  rw [resolve, ← hnone]
  cases (collect p elements).transition? stub.transition <;> simp [eq_comm]

/-- **Records are refused for the first fallback edge that dangles**, in the order of the
gateways. -/
theorem finish_eq_error_iff : finish p elements = .error cause ↔
    ∃ stub, FirstWith (Dangles elements) (elements.filterMap FlowElement.stub?) stub ∧
      cause = .danglingDefault stub.gateway stub.transition := by
  have hdangles : (fun stub => ∃ cause, resolve (collect p elements) stub = .error cause) =
      Dangles elements := by
    funext stub
    simp [resolve_eq_error_iff]
  simp only [finish, Outcome.bind_eq_error_iff, pure, Except.pure, reduceCtorEq, and_false,
    exists_false, or_false, Outcome.mapM_eq_error_iff_first, hdangles]
  refine exists_congr fun stub => and_congr_right fun hfirst => ?_
  obtain ⟨-, -, -, hstub, -⟩ := hfirst
  rw [resolve_eq_error_iff, and_iff_right hstub]

/-! ## Assembly -/

section Assembly

variable {id name interface : String}

/-- **The first child that fails decides**, whatever stands behind it. -/
theorem assemble_of_fails {before : List Element} {child : Element}
    (hhead : before ++ [child] <+: node.children)
    (hbefore : ∀ c ∈ before, ∀ cause', ¬Fails r s participants c cause')
    (hfails : Fails r s participants child cause) :
    assemble r s { id, name, interface, participants } node = .error cause := by
  obtain ⟨after, hchildren⟩ := hhead
  have hfirst : FirstWith (fun c => ∃ cause, Fails r s participants c cause) node.children child :=
    ⟨before, after, by simp [← hchildren], ⟨cause, hfails⟩,
      fun c hc ⟨cause', hcause'⟩ => hbefore c hc cause' hcause'⟩
  rw [assemble_eq, elementsOf_eq_error_iff.mpr ⟨child, hfirst, hfails⟩]
  rfl

/-- **When no child fails, the first fallback edge that dangles decides.** -/
theorem assemble_eq_error_iff_of_not_fails
    (h : ∀ child ∈ node.children, ∀ cause, ¬Fails r s participants child cause) :
    assemble r s { id, name, interface, participants } node = .error cause ↔
      ∃ stub, FirstWith (Dangles (recordsOf r s participants node.children))
          ((recordsOf r s participants node.children).filterMap FlowElement.stub?) stub ∧
        cause = .danglingDefault stub.gateway stub.transition := by
  rw [assemble_eq, elementsOf_of_not_fails h]
  exact finish_eq_error_iff

/-- **Which error an assembly tells.**  There is one when a child fails or a fallback edge dangles.
The first child that fails decides, and decides alike for all rows of children that are the same up
to there; the first fallback edge that dangles decides when no child fails. -/
theorem first_cause_of_assemble (r : Registry) (s : Settings) (id name interface : String)
    (participants : List Participant) (node : Element) :
    ((∃ cause, assemble r s { id, name, interface, participants } node = .error cause) ↔
      (∃ child ∈ node.children, ∃ cause, Fails r s participants child cause) ∨
        ∃ stub ∈ (recordsOf r s participants node.children).filterMap FlowElement.stub?,
          Dangles (recordsOf r s participants node.children) stub) ∧
    ((∃ child ∈ node.children, ∃ cause, Fails r s participants child cause) →
      ∃ before child cause, before ++ [child] <+: node.children ∧
        (∀ c ∈ before, ∀ cause', ¬Fails r s participants c cause') ∧
        Fails r s participants child cause ∧
        ∀ node' : Element, before ++ [child] <+: node'.children →
          assemble r s { id, name, interface, participants } node' = .error cause) ∧
    ((∀ child ∈ node.children, ∀ cause, ¬Fails r s participants child cause) → ∀ cause,
      assemble r s { id, name, interface, participants } node = .error cause ↔
        ∃ stub, FirstWith (Dangles (recordsOf r s participants node.children))
            ((recordsOf r s participants node.children).filterMap FlowElement.stub?) stub ∧
          cause = .danglingDefault stub.gateway stub.transition) := by
  have hfirst (hsome : ∃ child ∈ node.children, ∃ cause, Fails r s participants child cause) :
      ∃ before child cause, before ++ [child] <+: node.children ∧
        (∀ c ∈ before, ∀ cause', ¬Fails r s participants c cause') ∧
        Fails r s participants child cause := by
    obtain ⟨child, before, after, hchildren, ⟨cause, hcause⟩, hbefore⟩ :=
      exists_firstWith_iff.mpr hsome
    exact ⟨before, child, cause, ⟨after, by simp [hchildren]⟩,
      fun c hc cause' hfails => hbefore c hc ⟨cause', hfails⟩, hcause⟩
  refine ⟨?told, fun hsome => ?failing, fun hnone cause => assemble_eq_error_iff_of_not_fails hnone⟩
  case failing =>
    obtain ⟨before, child, cause, hhead, hbefore, hfails⟩ := hfirst hsome
    exact ⟨before, child, cause, hhead, hbefore, hfails,
      fun node' hhead' => assemble_of_fails hhead' hbefore hfails⟩
  case told =>
    by_cases hsome : ∃ child ∈ node.children, ∃ cause, Fails r s participants child cause
    · obtain ⟨before, child, cause, hhead, hbefore, hfails⟩ := hfirst hsome
      exact ⟨fun _ => .inl hsome, fun _ => ⟨cause, assemble_of_fails hhead hbefore hfails⟩⟩
    · have hnone : ∀ child ∈ node.children, ∀ cause, ¬Fails r s participants child cause :=
        fun child hchild cause hfails => hsome ⟨child, hchild, cause, hfails⟩
      simp only [assemble_eq_error_iff_of_not_fails hnone, hsome, false_or, ← exists_firstWith_iff]
      constructor
      · rintro ⟨cause, stub, hstub, -⟩
        exact ⟨stub, hstub⟩
      · rintro ⟨stub, hstub⟩
        exact ⟨_, stub, hstub, rfl⟩

end Assembly

/-- A user task of nobody hides the fallback edge that dangles before it and the gateway behind it
that no model can hold. -/
example :
    let gateway : Element := {
      tag := "exclusiveGateway", attributes := .ofList [("id", "G"), ("default", "F9")]
      children := [{ tag := "incoming", text := "F0" }, { tag := "outgoing", text := "F1" },
        { tag := "outgoing", text := "F2" }] }
    let node (others : List Element) : Element := {
      tag := "process", children := gateway :: others }
    let p : Process := { id := "P", name := "", interface := "" }
    assemble .standard {} p (node [{ tag := "userTask", attributes := .ofList [("id", "U")] },
        { tag := "complexGateway", attributes := .ofList [("id", "X")] }]) =
          .error (.noAssignee "U") ∧
      assemble .standard {} p (node []) = .error (.danglingDefault "G" "F9") := by
  decide +kernel

end FlowGraph

end BpmnModel
