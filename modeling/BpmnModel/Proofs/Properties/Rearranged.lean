import Mathlib.Data.List.Forall2
import BpmnModel.Properties.Basic
import BpmnModel.Proofs.Properties.Visible
import BpmnModel.Proofs.Table
import BpmnModel.Proofs.Xml.Tree

/-!
# Properties in another order

A table does not remember in which order its pairs were entered, and the companions of a mapping are
looked up; only the properties that name a slot are told apart by their place.  So the properties of
a block may be rearranged, as long as their names are distinct and those that name a slot stay in
their order.

## Main definitions

* `Element.Reordered s cs ds` — the children of a block, its flat properties in another order.
* `Element.Rearranged s e e'` — two trees that differ only in the order of flat properties.

## Main statements

* `Element.Rearranged.forall₂_childrenNamed`, `Element.Rearranged.forall₂_descendantsNamed` — all
  other elements are found at the same places.
* `Properties.read_rearranged` — what the block of an element says is the same.
-/

namespace BpmnModel

namespace DataMapping

/-- Whether a name begins like that of a property that names a slot. -/
def isIdKey (s : Settings) (key : String) : Bool :=
  Text.startsWith key (idKeyStart s .input) || Text.startsWith key (idKeyStart s .output)

theorem isSome_directionOf? (s : Settings) (key : String) :
    (directionOf? s key).isSome = isIdKey s key := by
  rw [directionOf?, isIdKey]
  cases Text.startsWith key (idKeyStart s .input) <;>
    cases Text.startsWith key (idKeyStart s .output) <;> rfl

end DataMapping

namespace Element

/-! ## Trees that differ in the order of properties -/

/-- A property without children. -/
def isFlatProperty (e : Element) : Bool :=
  e.tag == "property" && e.children.isEmpty

/-- The names of the properties in a row of elements. -/
def propertyNames (cs : List Element) : List String :=
  (cs.filter fun c => c.tag == "property").filterMap fun p => p.attr? "name"

/-- The children of a block of properties, its flat properties in another order.  Names are
distinct, and the properties that name slots stay in their order. -/
structure Reordered (s : Settings) (cs ds : List Element) : Prop where
  perm : cs.Perm ds
  others : (cs.filter fun c => !c.isFlatProperty) = ds.filter fun d => !d.isFlatProperty
  distinct : (propertyNames cs).Nodup
  idKeys : (propertyNames cs).filter (DataMapping.isIdKey s) =
    (propertyNames ds).filter (DataMapping.isIdKey s)

/-- Two trees that differ only in the order of flat properties, at any depth. -/
inductive Rearranged (s : Settings) : Element → Element → Prop
  | node {tag : String} {attributes : Table String} {text : String} {cs ds : List Element}
      (h : List.Forall₂ (Rearranged s) cs ds) :
      Rearranged s ⟨tag, attributes, text, cs⟩ ⟨tag, attributes, text, ds⟩
  | block {attributes : Table String} {text : String} {cs ds es : List Element}
      (h : List.Forall₂ (Rearranged s) cs ds) (order : Reordered s ds es) :
      Rearranged s ⟨"properties", attributes, text, cs⟩ ⟨"properties", attributes, text, es⟩

variable {s : Settings} {e e' : Element} {cs ds : List Element} {tag : String}

/-! ## Rows in another order -/

namespace Reordered

/-- Elements that are no properties stay in their order. -/
theorem filter_tag_eq (h : Reordered s cs ds) (htag : tag ≠ "property") :
    (cs.filter fun c => c.tag == tag) = ds.filter fun d => d.tag == tag := by
  have hothers : ∀ l : List Element, (l.filter fun c => !c.isFlatProperty).filter
      (fun c => c.tag == tag) = l.filter fun c => c.tag == tag := by
    intro l
    rw [List.filter_filter]
    refine List.filter_congr fun c _ => ?_
    by_cases hc : c.tag = tag
    · simp [isFlatProperty, hc, htag]
    · simp [hc]
  rw [← hothers cs, ← hothers ds, h.others]

/-- There is nothing below a flat property. -/
theorem flatMap_withinNamed_eq (h : Reordered s cs ds) (htag : tag ≠ "property") :
    (cs.flatMap fun c => c.withinNamed tag) = ds.flatMap fun d => d.withinNamed tag := by
  have hflat : ∀ c : Element, (!c.isFlatProperty) = false → c.withinNamed tag = [] := by
    intro c hc
    obtain ⟨hproperty, hchildren⟩ : c.tag = "property" ∧ c.children = [] := by
      simpa [isFlatProperty] using hc
    rw [withinNamed_of_descendants (by simp [descendants_eq, hchildren]), hproperty,
      if_neg htag.symm]
  rw [← flatMap_filter (p := fun c => !c.isFlatProperty) fun c _ => hflat c, h.others,
    flatMap_filter fun c _ => hflat c]

end Reordered

/-! ## What is found at the same place -/

namespace Rearranged

theorem tag_eq (h : Rearranged s e e') : e.tag = e'.tag := by
  cases h <;> rfl

theorem attr?_eq (h : Rearranged s e e') : e.attr? = e'.attr? := by
  cases h <;> rfl

theorem text_eq (h : Rearranged s e e') : e.text = e'.text := by
  cases h <;> rfl

theorem id_eq (h : Rearranged s e e') : e.id = e'.id := by
  rw [id, id, h.attr?_eq]

theorem name_eq (h : Rearranged s e e') : e.name = e'.name := by
  rw [name, name, h.attr?_eq]

mutual

/-- Nothing has to be rearranged. -/
theorem refl : (e : Element) → Rearranged s e e
  | ⟨_, _, _, cs⟩ => .node (forall₂_refl cs)

theorem forall₂_refl : (cs : List Element) → List.Forall₂ (Rearranged s) cs cs
  | [] => .nil
  | c :: cs => .cons (refl c) (forall₂_refl cs)

end

/-- Only blocks of properties are rearranged. -/
theorem forall₂_children (h : Rearranged s e e') (htag : e.tag ≠ "properties") :
    List.Forall₂ (Rearranged s) e.children e'.children := by
  cases h with
  | node h => exact h
  | block h order => exact absurd rfl htag

/-- The children have the same tags, up to their order. -/
theorem perm_tags (h : Rearranged s e e') :
    (e.children.map Element.tag).Perm (e'.children.map Element.tag) := by
  have hrow : ∀ {cs ds : List Element}, List.Forall₂ (Rearranged s) cs ds →
      cs.map Element.tag = ds.map Element.tag := by
    intro cs ds h
    exact List.forall₂_eq_eq_eq ▸ List.rel_map (fun _ _ hcd => tag_eq hcd) h
  cases h with
  | node h => exact .of_eq (hrow h)
  | block h order => exact hrow h ▸ order.perm.map Element.tag

theorem forall₂_filter_tag (h : List.Forall₂ (Rearranged s) cs ds) (tag : String) :
    List.Forall₂ (Rearranged s) (cs.filter fun c => c.tag == tag)
      (ds.filter fun d => d.tag == tag) :=
  List.rel_filter (fun _ _ hcd => by simp [hcd.tag_eq]) h

/-- Children that are no properties stay at their places. -/
theorem forall₂_childrenNamed (h : Rearranged s e e') (htag : tag ≠ "property") :
    List.Forall₂ (Rearranged s) (e.childrenNamed tag) (e'.childrenNamed tag) := by
  cases h with
  | node h => exact forall₂_filter_tag h tag
  | block h order =>
    rw [childrenNamed, childrenNamed, ← order.filter_tag_eq htag]
    exact forall₂_filter_tag h tag

mutual

/-- **Elements below that are no properties stay at their places.** -/
theorem forall₂_descendantsNamed {e e' : Element} (h : Rearranged s e e')
    (htag : tag ≠ "property") :
    List.Forall₂ (Rearranged s) (e.descendantsNamed tag) (e'.descendantsNamed tag) := by
  rw [descendantsNamed_eq, descendantsNamed_eq]
  match h with
  | .node h => exact forall₂_flatMap_withinNamed h htag
  | .block h order =>
    rw [← order.flatMap_withinNamed_eq htag]
    exact forall₂_flatMap_withinNamed h htag

theorem forall₂_flatMap_withinNamed {cs ds : List Element} (h : List.Forall₂ (Rearranged s) cs ds)
    (htag : tag ≠ "property") : List.Forall₂ (Rearranged s)
      (cs.flatMap fun c => c.withinNamed tag) (ds.flatMap fun d => d.withinNamed tag) := by
  match h with
  | .nil => exact .nil
  | .cons hcd h =>
    rw [List.flatMap_cons, List.flatMap_cons]
    refine List.rel_append ?_ (forall₂_flatMap_withinNamed h htag)
    rw [withinNamed_eq, withinNamed_eq, hcd.tag_eq]
    split
    · exact .cons hcd (forall₂_descendantsNamed hcd htag)
    · exact forall₂_descendantsNamed hcd htag

end

/-! ## The first of a kind -/

/-- Two searches that find nothing, or two elements that differ in the order of properties only. -/
def FoundAlike (s : Settings) (o o' : Option Element) : Prop :=
  (o = none ∧ o' = none) ∨ ∃ e e', o = some e ∧ o' = some e' ∧ Rearranged s e e'

theorem foundAlike_head? (h : List.Forall₂ (Rearranged s) cs ds) :
    FoundAlike s cs.head? ds.head? := by
  cases h with
  | nil => exact .inl ⟨rfl, rfl⟩
  | cons hcd _ => exact .inr ⟨_, _, rfl, rfl, hcd⟩

/-- The first child with a tag, unless it is a property. -/
theorem foundAlike_firstChild? (h : Rearranged s e e') (htag : tag ≠ "property") :
    FoundAlike s (e.firstChild? tag) (e'.firstChild? tag) := by
  rw [firstChild?, firstChild?, ← List.head?_filter, ← List.head?_filter]
  exact foundAlike_head? (h.forall₂_childrenNamed htag)

/-- The element with an identifier, unless it is a property. -/
theorem foundAlike_findById? (h : Rearranged s e e') (htag : tag ≠ "property") (id : String) :
    FoundAlike s (e.findById? tag id) (e'.findById? tag id) := by
  rw [findById?, findById?, ← List.head?_filter, ← List.head?_filter]
  exact foundAlike_head? (List.rel_filter (fun _ _ hcd => by simp [hcd.id_eq])
    (h.forall₂_descendantsNamed htag))

/-- The texts of the children with a tag, unless these are properties. -/
theorem childTexts_eq (h : Rearranged s e e') (htag : tag ≠ "property") :
    e.childTexts tag = e'.childTexts tag := by
  have htexts : List.Forall₂ (· = ·) ((e.childrenNamed tag).map text)
      ((e'.childrenNamed tag).map text) :=
    List.rel_map (fun _ _ hcd => hcd.text_eq) (h.forall₂_childrenNamed htag)
  rw [List.forall₂_eq_eq_eq] at htexts
  rw [childTexts, childTexts, htexts]

end Rearranged

end Element

/-! ## Reading a block -/

namespace Properties

open Element (Reordered Rearranged propertyNames)

variable {s : Settings} {node node' block block' : Element}

theorem keys_entries (block : Element) :
    (entries block).map Prod.fst = propertyNames block.children := by
  rw [entries, propertyNames, Element.childrenNamed, List.map_filterMap]
  refine List.filterMap_congr fun p _ => ?_
  cases p.attr? "name" <;> rfl

/-- Entries in the order of their properties. -/
theorem entries_eq_of_forall₂ (h : List.Forall₂ (Rearranged s) block.children block'.children) :
    entries block = entries block' := by
  have hrow : List.Forall₂ (· = ·) (entries block) (entries block') :=
    List.rel_filterMap (fun p p' hp => by
      rw [hp.attr?_eq]
      cases p'.attr? "name" with
      | none => exact .none
      | some name => exact .some rfl) (Rearranged.forall₂_filter_tag h "property")
  exact List.forall₂_eq_eq_eq ▸ hrow

theorem entries_perm (h : Reordered s block.children block'.children) :
    (entries block).Perm (entries block') :=
  (h.perm.filter _).filterMap _

/-- The entries that name a slot are told apart by their keys, whose order is known. -/
theorem idEntries_mappingEntries_eq (h : Reordered s block.children block'.children) :
    DataMapping.idEntries s (mappingEntries s block) =
      DataMapping.idEntries s (mappingEntries s block') := by
  have hslots : ∀ l : List (String × String),
      DataMapping.idEntries s (l.filter fun e => DataMapping.isMappingKey s e.1) =
        DataMapping.idEntries s (l.filter fun e => DataMapping.isIdKey s e.1) := by
    intro l
    simp only [DataMapping.idEntries, List.filterMap_filter]
    refine List.filterMap_congr fun e _ => ?_
    cases hd : DataMapping.directionOf? s e.1 with
    | none => simp
    | some d =>
      rw [if_pos (DataMapping.isMappingKey_of_directionOf? hd), if_pos]
      rw [← DataMapping.isSome_directionOf?, hd, Option.isSome_some]
  have hkeys : ∀ b : Element, ((entries b).filter fun e => DataMapping.isIdKey s e.1).map Prod.fst =
      (propertyNames b.children).filter (DataMapping.isIdKey s) := by
    intro b
    rw [← keys_entries, List.filter_map]
    rfl
  have hsame : ((entries block).filter fun e => DataMapping.isIdKey s e.1) =
      (entries block').filter fun e => DataMapping.isIdKey s e.1 := by
    refine Table.eq_of_perm_of_keys ((entries_perm h).filter _) ?_ ?_
    · rw [hkeys]
      exact h.distinct.filter _
    · rw [hkeys, hkeys, h.idKeys]
  rw [mappingEntries, mappingEntries, hslots, hslots, hsame]

/-- **What a block says does not depend on the order of its properties.** -/
theorem ofBlock_reordered (h : Reordered s block.children block'.children) :
    ofBlock s block = ofBlock s block' := by
  have hdistinct : ∀ q : String × String → Bool,
      (((entries block).filter q).map Prod.fst).Nodup := by
    intro q
    exact ((keys_entries block).symm ▸ h.distinct).sublist (List.filter_sublist.map _)
  have hplain : Table.ofList (plainEntries s block) = Table.ofList (plainEntries s block') :=
    Table.ofList_perm ((entries_perm h).filter _) (hdistinct _)
  have hmapping : (mappingEntries s block).Perm (mappingEntries s block') :=
    (entries_perm h).filter _
  have hdecode : DataMapping.decode s (mappingEntries s block) =
      DataMapping.decode s (mappingEntries s block') := by
    rw [DataMapping.decode, DataMapping.decode, Table.ofList_perm hmapping (hdistinct _),
      idEntries_mappingEntries_eq h]
  simp only [ofBlock, hplain]
  split
  · rename_i hnone
    rw [hnone] at hmapping
    rw [hmapping.nil_eq.symm]
  · rename_i hsome
    split
    · rename_i hnone
      rw [hnone] at hmapping
      exact absurd hmapping.eq_nil hsome
    · rw [hdecode]

/-- A block says what its entries say. -/
theorem ofBlock_congr (h : entries block = entries block') :
    ofBlock s block = ofBlock s block' := by
  simp only [ofBlock, mappingEntries, plainEntries, h]

theorem ofBlock_rearranged (h : Rearranged s block block') :
    ofBlock s block = ofBlock s block' := by
  cases h with
  | node h => exact ofBlock_congr (entries_eq_of_forall₂ h)
  | @block attributes text cs ds es h order =>
    let between : Element := ⟨"properties", attributes, text, ds⟩
    calc ofBlock s ⟨"properties", attributes, text, cs⟩
      _ = ofBlock s between := ofBlock_congr (entries_eq_of_forall₂ h)
      _ = ofBlock s ⟨"properties", attributes, text, es⟩ := ofBlock_reordered order

/-- The blocks of two such elements, if they have any. -/
theorem foundAlike_block? (h : Rearranged s node node') :
    Rearranged.FoundAlike s (block? node) (block? node') := by
  have hextension := h.foundAlike_firstChild? (show "extensionElements" ≠ "property" by decide)
  rw [block?, block?]
  rcases hextension with ⟨hnone, hnone'⟩ | ⟨e, e', he, he', hee'⟩
  · exact .inl ⟨by rw [hnone]; rfl, by rw [hnone']; rfl⟩
  · rw [he, he']
    exact hee'.foundAlike_firstChild? (by decide)

/-- **What the block of an element says does not depend on the order of properties.** -/
theorem read_rearranged (h : Rearranged s node node') : read s node = read s node' := by
  rw [read, read, h.id_eq]
  rcases foundAlike_block? h with ⟨hnone, hnone'⟩ | ⟨block, block', hb, hb', hblock⟩
  · rw [hnone, hnone']
  · simp only [hb, hb', ofBlock_rearranged hblock]

theorem readOrEmpty_rearranged (h : Rearranged s node node') :
    readOrEmpty s node = readOrEmpty s node' := by
  rw [readOrEmpty, readOrEmpty, read_rearranged h]

end Properties

end BpmnModel
