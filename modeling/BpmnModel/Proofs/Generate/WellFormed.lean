import BpmnModel.Generate.Document
import BpmnModel.Proofs.Generate.Names
import BpmnModel.Proofs.Xml.RoundTrip

/-!
# Generated documents can be read

All that a generated document is made of is well-formed markup: the names in its tags are
constants, and its texts are identifiers.  Its text is therefore read as the tree that it was
printed from.

## Main statements

* `Generate.wellFormed_root` — the root element is well formed.
* `Generate.read_document` — reading the text of a generated document gives its tree.
-/

namespace BpmnModel.Generate

open Markup (WellFormed AllWellFormed tagWellFormed allWellFormed_iff)

/-! ## Pieces -/

/-- An element without a text is well formed when its tag and its content are. -/
theorem wellFormed_element {name : Markup.Name} {attributes : List Markup.Attribute}
    {content : List Markup} (htag : tagWellFormed name attributes = true)
    (hcontent : ∀ m ∈ content, WellFormed m) :
    WellFormed (.element name attributes "" content) := by
  rw [WellFormed, allWellFormed_iff]
  exact ⟨htag, rfl, hcontent⟩

theorem wellFormed_leaf {name : Markup.Name} {attributes : List Markup.Attribute}
    (htag : tagWellFormed name attributes = true) : WellFormed (.leaf name attributes) := by
  rwa [WellFormed]

/-- Texts are identifiers, and so they are trimmed. -/
theorem wellFormed_reference {base text : String}
    (htag : tagWellFormed (bpmn base) [] = true) (htext : Text.IsId text) :
    WellFormed (reference base text) := by
  rw [reference, WellFormed, allWellFormed_iff]
  exact ⟨htag, htext.trim, by simp⟩

theorem wellFormed_properties (ps : List (String × String)) : WellFormed (properties ps) := by
  refine wellFormed_element (by decide) fun m hm => ?_
  rw [List.mem_singleton.mp hm]
  refine wellFormed_element (by decide) fun m hm => ?_
  obtain ⟨p, -, rfl⟩ := List.mem_map.mp hm
  exact wellFormed_leaf rfl

/-! ## Processes -/

section Process

variable (s : Settings) (shape : Shape) (process : Nat) (draw : Nat → TaskDraw shape.lanes)

theorem wellFormed_lane (l : Nat) : WellFormed (lane s shape process draw l) := by
  refine wellFormed_element rfl ?_
  rw [List.forall_mem_cons, List.forall_mem_map]
  exact ⟨wellFormed_properties _,
    fun t _ => wellFormed_reference (by decide) (Node.isId_id process (.task t))⟩

theorem wellFormed_laneSet : WellFormed (laneSet s shape process draw) := by
  refine wellFormed_element rfl ?_
  rw [List.forall_mem_map]
  exact fun l _ => wellFormed_lane s shape process draw l

theorem wellFormed_edgeReferences (n : Node) :
    ∀ m ∈ edgeReferences shape process n, WellFormed m := by
  rw [edgeReferences, List.forall_mem_append, List.forall_mem_map, List.forall_mem_map]
  exact ⟨fun e _ => wellFormed_reference (by decide) (Edge.isId_id process e),
    fun e _ => wellFormed_reference (by decide) (Edge.isId_id process e)⟩

theorem wellFormed_userTask (t : Nat) : WellFormed (userTask s shape process draw t) := by
  refine wellFormed_element rfl ?_
  rw [List.forall_mem_append]
  refine ⟨?_, wellFormed_edgeReferences shape process (.task t)⟩
  cases (draw t).mapped with
  | true => simpa using wellFormed_properties _
  | false => simp

theorem wellFormed_gateways : ∀ m ∈ gateways shape process, WellFormed m := by
  rw [gateways]
  split
  · rw [List.forall_mem_append, List.forall_mem_map]
    refine ⟨fun t _ => ?_, ?_⟩
    · exact wellFormed_element rfl (wellFormed_edgeReferences shape process (.gateway t))
    · intro m hm
      rw [List.mem_singleton.mp hm]
      exact wellFormed_leaf rfl
  · simp

theorem wellFormed_sequenceFlow (e : Edge) :
    WellFormed (sequenceFlow s shape process draw e) := by
  cases e with
  | guarded t =>
    refine wellFormed_element rfl fun m hm => ?_
    rw [List.mem_singleton.mp hm]
    exact wellFormed_properties _
  | _ => exact wellFormed_leaf rfl

theorem wellFormed_processElement : WellFormed (processElement s shape process draw) := by
  refine wellFormed_element rfl ?_
  simp only [List.forall_mem_append, List.forall_mem_map, List.forall_mem_cons]
  exact ⟨⟨⟨⟨wellFormed_properties _, wellFormed_laneSet s shape process draw, by simp⟩,
    fun t _ => wellFormed_userTask s shape process draw t⟩, wellFormed_gateways shape process⟩,
    fun e _ => wellFormed_sequenceFlow s shape process draw e⟩

end Process

/-! ## Documents -/

theorem wellFormed_collaboration (processes : Nat) : WellFormed (collaboration processes) := by
  refine wellFormed_element rfl ?_
  rw [List.forall_mem_cons, List.forall_mem_map]
  exact ⟨wellFormed_properties _, fun i _ => wellFormed_leaf rfl⟩

/-- A store holds nothing but its block. -/
theorem wellFormed_store {attributes : List Markup.Attribute} {ps : List (String × String)}
    (htag : tagWellFormed (bpmn "dataStore") attributes = true) :
    WellFormed (.element (bpmn "dataStore") attributes "" [properties ps]) := by
  refine wellFormed_element htag fun m hm => ?_
  rw [List.mem_singleton.mp hm]
  exact wellFormed_properties ps

variable (shape : Shape) (draws : Draws shape.lanes)

/-- **The root element is well formed**, whatever is drawn. -/
theorem wellFormed_root : WellFormed (root shape draws) := by
  refine wellFormed_element (by decide) ?_
  simp only [List.forall_mem_append, List.forall_mem_cons, List.forall_mem_map]
  exact ⟨⟨wellFormed_store rfl, wellFormed_store rfl, wellFormed_collaboration shape.processes,
    by simp⟩, fun i _ => wellFormed_processElement .standard shape i (draws i)⟩

/-- **The text of a generated document is read as its tree.** -/
theorem read_document {e : Element} (he : Markup.element? (root shape draws) = some e) :
    Xml.read (document shape draws) = .ok e := by
  have hmark : '?' ∉ "xml version=\"1.0\" encoding=\"UTF-8\"".toList := by decide
  refine Xml.read_document ?_ ?_
  · rw [allWellFormed_iff]
    simp only [List.forall_mem_cons, List.not_mem_nil, false_implies, implies_true, and_true]
    refine ⟨?_, Markup.wellFormed_lineBreak 0,
      Markup.wellFormed_indent 0 _ (wellFormed_root shape draws), Markup.wellFormed_lineBreak 0⟩
    rw [WellFormed]
    exact ⟨fun h => hmark (h.subset List.mem_cons_self), by decide⟩
  · rw [Markup.elements, Markup.elements_lineBreak, Markup.elements, Markup.elements_lineBreak,
      Markup.element?_indent, he, Markup.elements]
    rfl

end BpmnModel.Generate
