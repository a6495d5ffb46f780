import BpmnModel.Generate.Document
import BpmnModel.Proofs.Properties.Encoded
import BpmnModel.Proofs.Xml.Tree

/-!
# Generated properties

A generated element bears its properties in a block that stands in front of all else.  What is
read from such a block is what it was made of.

## Main definitions

* `Generate.propertyList ps` — the inner element of a block.

## Main statements

* `Generate.read_plain` — properties that declare no mappings are read as they are.
* `Generate.read_encoded` — properties that encode mappings are read as these.
* `Generate.read_absent` — an element without a block has no properties.
-/

namespace BpmnModel.Generate

open Markup (tree)

/-! ## Attributes and references -/

@[simp] theorem pair?_attr (name value : String) :
    (attr name value).pair? = some (name, value) := rfl

/-- A row of references under one tag shows their texts. -/
theorem textsNamed_references {α : Type} {id : α → String} (h : ∀ a, id a ≠ "")
    (base tag : String) (l : List α) :
    Element.textsNamed tag (l.map fun a => (reference base (id a)).tree) =
      if base = tag then l.map id else [] := by
  rw [Element.textsNamed, Element.filter_tag_map (t := base) (fun _ => rfl)]
  split
  · rw [List.map_map]
    refine List.filter_eq_self.mpr ?_
    rw [List.forall_mem_map]
    exact fun a _ => by simpa [reference] using h a
  · rfl

/-! ## Properties -/

/-- The inner element of a block of properties. -/
def propertyList (ps : List (String × String)) : Markup :=
  .element (camunda "properties") [] "" (ps.map property)

theorem children_properties (ps : List (String × String)) :
    (properties ps).tree.children = [(propertyList ps).tree] := rfl

theorem children_propertyList (ps : List (String × String)) :
    (propertyList ps).tree.children = ps.map fun p => (property p).tree := by
  rw [propertyList, Markup.children_element, List.map_map]
  · rfl
  · rw [List.forall_mem_map]
    exact fun _ _ => rfl

/-- A block shows the properties that it was made of. -/
theorem entries_propertyList (ps : List (String × String)) :
    Properties.entries (propertyList ps).tree = ps := by
  have hentry : ∀ p : String × String,
      ((property p).tree.attr? "name").map (fun name =>
        (name, ((property p).tree.attr? "value").getD "")) = some p := by
    intro p
    simp [property, Table.lookup_cons_eq]
  rw [Properties.entries, Element.childrenNamed, children_propertyList,
    Element.filter_tag_map (t := "property") (fun _ => rfl), if_pos rfl, List.filterMap_map]
  exact (List.filterMap_congr fun p _ => hentry p).trans List.filterMap_some

/-- What a block consists of. -/
theorem tag_block {ps : List (String × String)} : ∀ d ∈ (properties ps).tree.descendants,
    d.tag ∈ ["properties", "property"] := by
  intro d hd
  rw [Element.descendants_eq, children_properties, Element.mem_listDescendants_iff] at hd
  obtain ⟨c, hc, hd⟩ := hd
  obtain rfl := List.mem_singleton.mp hc
  rw [Element.descendants_eq, children_propertyList, Element.mem_listDescendants_iff] at hd
  rcases hd with rfl | ⟨c, hc, hd⟩
  · simp [propertyList, camunda]
  · obtain ⟨p, -, rfl⟩ := List.mem_map.mp hc
    have hleaf : (property p).tree.descendants = [] := by
      rw [Element.descendants_eq]
      simp [property]
    rw [hleaf] at hd
    simp only [List.not_mem_nil, or_false] at hd
    simp [hd, property, camunda]

variable {e : Element} {ps : List (String × String)} {cs : List Element}

theorem block?_of_children (h : e.children = (properties ps).tree :: cs) :
    Properties.block? e = some (propertyList ps).tree := by
  rw [Properties.block?, Element.firstChild?, h]
  rfl

/-- An element without a block has no properties. -/
theorem read_absent (s : Settings) (h : ∀ c ∈ e.children, c.tag ≠ "extensionElements") :
    Properties.read s e = .ok none := by
  have hnone : e.firstChild? "extensionElements" = none := by
    rw [Element.firstChild?, List.find?_eq_none]
    simpa using h
  rw [Properties.read, Properties.block?, hnone]
  rfl

/-- Properties that declare no mappings are read as they are. -/
theorem read_plain {s : Settings} (h : e.children = (properties ps).tree :: cs)
    (hplain : ∀ p ∈ ps, DataMapping.isMappingKey s p.1 = false) :
    Properties.read s e = .ok (some { values := Table.ofList ps }) := by
  have hmappings : Properties.mappingEntries s (propertyList ps).tree = [] := by
    rw [Properties.mappingEntries, entries_propertyList, List.filter_eq_nil_iff]
    simpa using hplain
  have hvalues : Properties.plainEntries s (propertyList ps).tree = ps := by
    rw [Properties.plainEntries, entries_propertyList, List.filter_eq_self]
    simpa using hplain
  simp only [Properties.read, block?_of_children h, Properties.ofBlock, hmappings, hvalues]

/-- Properties that encode faithful mappings are read as these. -/
theorem read_encoded {s : Settings} {ms : List DataMapping}
    (h : e.children = (properties (DataMapping.encode s ms)).tree :: cs)
    (hs : DataMapping.Apart s) (hms : DataMapping.Faithful s ms) (hne : ms ≠ []) :
    Properties.read s e =
      .ok (some { mappings := some (ms.map (DataMapping.normalized s)) }) := by
  have hmappings : Properties.mappingEntries s (propertyList (DataMapping.encode s ms)).tree =
      DataMapping.encode s ms := by
    rw [Properties.mappingEntries, entries_propertyList, List.filter_eq_self]
    exact fun e he => DataMapping.isMappingKey_of_mem_encode he
  have hvalues : Properties.plainEntries s (propertyList (DataMapping.encode s ms)).tree = [] := by
    rw [Properties.plainEntries, entries_propertyList, List.filter_eq_nil_iff]
    intro e he
    simp [DataMapping.isMappingKey_of_mem_encode he]
  have hblock : Properties.ofBlock s (propertyList (DataMapping.encode s ms)).tree =
      .ok { mappings := some (ms.map (DataMapping.normalized s)) } := by
    simp only [Properties.ofBlock, hmappings, hvalues]
    split
    · rename_i hnone
      cases ms with
      | nil => exact absurd rfl hne
      | cons m ms => simp [DataMapping.encode_cons, DataMapping.entries] at hnone
    · rw [DataMapping.decode_encode hs hms]
      rfl
  simp only [Properties.read, block?_of_children h, hblock]

end BpmnModel.Generate
