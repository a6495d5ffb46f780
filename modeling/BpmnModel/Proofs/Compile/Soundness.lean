import BpmnModel.Proofs.Compile.Children
import BpmnModel.Proofs.Compile.Stages
import BpmnModel.Proofs.Condition.Sound

/-!
# Accepted documents are sound

The engine trusts the conditions of an accepted document.  Each of them leaves a single choosing
gateway, and has the comparator, the storage type and the value that the edge of the tree
declares.

## Main definitions

* `Transition.SoundFor settings m p flow t` — the transition `t` of the edge `flow` is sound.

## Main statements

* `Compiler.soundFor_of_compile` — every transition of an accepted document is sound.
-/

namespace BpmnModel

open Properties (visible? Decodable)

variable {s : Settings} {aliases : List (String × String)} {root process : Element}
variable {m : Model} {p q : Process}

/-- The transition has the name and the ends of the edge, and its condition, if it has one,
compares what the edge declares and is sound. -/
structure Transition.SoundFor (s : Settings) (m : Model) (p : Process) (flow : Element)
    (t : Transition) : Prop where
  id : t.id = flow.id
  source : flow.attr? "sourceRef" = some t.source
  target : flow.attr? "targetRef" = some t.target
  condition : ∀ c, t.condition = some c → ∃ store path operator raw,
    SequenceFlow.Declares s flow store path operator raw ∧
      c.lhDataStorageId = s.normalize store ∧ c.lhDataPath = path ∧
      c.operator = Text.trim operator ∧ c.Sound s m p t.source raw

/-- Completing changes the comparator, the type and the value of a condition only. -/
theorem Condition.declared_complete (c : Condition) :
    (c.complete s m).lhDataStorageId = c.lhDataStorageId ∧
      (c.complete s m).lhDataPath = c.lhDataPath ∧ (c.complete s m).operator = c.operator := by
  rw [complete]
  split
  · exact ⟨rfl, rfl, rfl⟩
  · split <;> exact ⟨rfl, rfl, rfl⟩

/-- A transition in which nothing is wrong is sound once it has been completed. -/
theorem Transition.soundFor_complete {flow : Element} {t : Transition}
    (hread : SequenceFlow.read s flow = .ok t)
    (h : ∀ c, t.condition = some c → c.problems s m p t.source = []) :
    (t.complete s m).SoundFor s m p flow := by
  have hflow := SequenceFlow.readAs_of_read hread
  refine { id := hflow.id, source := hflow.source, target := hflow.target, condition := ?_ }
  intro c hc
  obtain ⟨c', hc', rfl⟩ := Option.map_eq_some_iff.mp hc
  obtain ⟨hstore, hpath, hoperator⟩ := c'.declared_complete (s := s) (m := m)
  obtain ⟨store, path, operator, raw, hdeclares, heq⟩ := hflow.condition c' hc'
  refine ⟨store, path, operator, raw, hdeclares, ?_, ?_, ?_, ?_⟩
  · rw [hstore, heq]
  · rw [hpath, heq]
  · rw [hoperator, heq]
  · exact Condition.sound_complete (by rw [heq]) (by rw [heq]; exact Text.trim_trim operator)
      (h c' hc')

/-- The transitions of a checked process are sound, each for its edge. -/
theorem Process.soundFor_of_check (hp : p.ReadFrom s aliases process) (h : p.check s m = .ok q) :
    List.Forall₂ (Transition.SoundFor s m q) (process.flowElements aliases "sequenceFlow")
      q.transitions := by
  obtain ⟨hnone, rfl⟩ := Process.check_eq_ok_iff.mp h
  rw [Process.violations_eq_nil_iff] at hnone
  have hread : List.Forall₂ (fun flow t => SequenceFlow.read s flow = .ok t ∧
      ∀ c, t.condition = some c → c.problems s m p t.source = [])
      (process.flowElements aliases "sequenceFlow") p.transitions :=
    (((List.forall₂_and_left _ _).mpr ⟨hnone, hp.transitions.flip⟩).imp fun _ _ h => h.symm).flip
  rw [List.forall₂_map_right_iff]
  -- completing keeps the gateways, so that no condition breaks a rule that it kept before
  exact hread.imp fun flow t h => Transition.soundFor_complete h.1 h.2

/-- **The transitions of an accepted document are sound.** -/
theorem Compiler.soundFor_of_compile {d : Document}
    (h : (Compiler.aliased s aliases).compile root = .ok d) :
    List.Forall₂ (fun process p => List.Forall₂ (Transition.SoundFor s d.model p)
        (process.flowElements aliases "sequenceFlow") p.transitions)
      (root.childrenNamed "process") d.processes := by
  rw [aliased_eq, compile_eq_ok_iff] at h
  obtain ⟨-, -, -, ps, hread, hcheck⟩ := h
  refine (Outcome.forall₂_trans hread hcheck).imp ?_
  rintro process q ⟨p, hp, hq⟩
  exact Process.soundFor_of_check (Process.readFrom_of_read hp) hq

/-! ## A negotiation -/

/-- A process whose choice depends on an amount that both stores declare, each with a type of
its own. -/
def Element.negotiation : Element where
  tag := "definitions"
  children := [
    { tag := "dataStore", attributes := .ofList [("id", "PROCESS_INSTANCE")]
      children := [.propertyBlock [("agreement", "7"), ("amount", "12")] ] },
    { tag := "dataStore", attributes := .ofList [("id", "agreement")]
      children := [.propertyBlock [("amount", "2")] ] },
    { tag := "collaboration", attributes := .ofList [("id", "C")]
      children := [.propertyBlock [("version", "1.2.0")] ] },
    { tag := "process", attributes := .ofList [("id", "P")]
      children := [
        { tag := "choice", attributes := .ofList [("id", "G"), ("default", "F2")]
          children := [{ tag := "incoming", text := "F" }, { tag := "outgoing", text := "F1" },
            { tag := "outgoing", text := "F2" }] },
        { tag := "sequenceFlow"
          attributes := .ofList [("id", "F1"), ("sourceRef", "G"), ("targetRef", "T")]
          children := [.propertyBlock [("lhDataStorageId", "agreement"), ("lhDataPath", "amount"),
            ("operator", " 04 "), ("rhValue", "-3 ")] ] },
        { tag := "sequenceFlow"
          attributes := .ofList [("id", "F2"), ("sourceRef", "G"), ("targetRef", "E")] }] }]

/-- The negotiation is accepted under an alias, and its one condition is sound. -/
theorem Compiler.soundFor_of_compile_negotiation :
    ∃ d, (Compiler.aliased {} [("choice", "exclusiveGateway")]).compile .negotiation = .ok d ∧
      (d.processes.flatMap Process.transitions).map (fun t => t.condition.isSome) =
        [true, false] ∧
      List.Forall₂ (fun process p => List.Forall₂ (Transition.SoundFor {} d.model p)
          (process.flowElements [("choice", "exclusiveGateway")] "sequenceFlow") p.transitions)
        (Element.negotiation.childrenNamed "process") d.processes := by
  have haccepted : ∃ d, (Compiler.aliased {} [("choice", "exclusiveGateway")]).compile
      .negotiation = .ok d ∧
        (d.processes.flatMap Process.transitions).map (fun t => t.condition.isSome) =
          [true, false] := by
    have hvalue : ((Compiler.aliased {} [("choice", "exclusiveGateway")]).compile
        .negotiation).toOption.map (fun d =>
          (d.processes.flatMap Process.transitions).map fun t => t.condition.isSome) =
        some [true, false] := by
      decide +kernel
    cases hd : (Compiler.aliased {} [("choice", "exclusiveGateway")]).compile .negotiation with
    | ok d =>
      rw [hd] at hvalue
      exact ⟨d, rfl, Option.some.inj hvalue⟩
    | error e => simp [hd, Except.toOption] at hvalue
  obtain ⟨d, hd, hconditions⟩ := haccepted
  exact ⟨d, hd, hconditions, Compiler.soundFor_of_compile hd⟩

end BpmnModel
