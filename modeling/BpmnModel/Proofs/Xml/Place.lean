import Mathlib.Data.List.Infix
import BpmnModel.Proofs.Xml.Tree

/-!
# Places

An element of a tree stands at a place, the indices of the children through which it is reached
from the root.  The order of the places, compared index by index, is the order in which the tags
open: an element stands before all that is below it, and that before its next sibling.

## Main definitions

* `Element.at? e place` — the element at a place.
* `Element.placed e` — the elements of a tree with their places.
* `Element.placedBelow e outer tag` — those with a tag below the children with another one.

## Main statements

* `Element.mem_placed_iff`, `Element.pairwise_placed` — every place stands once, in order.
* `Element.map_snd_placed` — the elements are those of the tree in the order of their tags.
* `Element.mem_placedBelow_iff` and the lemmas named alike for `placedBelow`.
-/

namespace BpmnModel.Element

variable {e d : Element} {place : List Nat} {outer tag : String}

/-- The element at a place; each index leads down to a child. -/
def at? : Element → List Nat → Option Element
  | e, [] => some e
  | e, i :: place => e.children[i]?.bind fun c => c.at? place

@[simp] theorem at?_nil (e : Element) : e.at? [] = some e := by
  rw [at?]

theorem at?_cons_eq_some_iff {i : Nat} : e.at? (i :: place) = some d ↔
    ∃ c, e.children[i]? = some c ∧ c.at? place = some d := by
  rw [at?, Option.bind_eq_some_iff]

/-- A place and an element, seen from the parent of the child with an index. -/
def under (i : Nat) (row : List Nat × Element) : List Nat × Element :=
  (i :: row.1, row.2)

mutual

/-- The elements of a tree with their places, its root included. -/
def placed : Element → List (List Nat × Element)
  | ⟨tag, attributes, text, children⟩ =>
    ([], ⟨tag, attributes, text, children⟩) :: listPlaced 0 children

/-- The elements of some trees, the children from an index on. -/
def listPlaced : Nat → List Element → List (List Nat × Element)
  | _, [] => []
  | i, c :: cs => (placed c).map (under i) ++ listPlaced (i + 1) cs

end

theorem listPlaced_eq (i : Nat) (cs : List Element) :
    listPlaced i cs = (cs.zipIdx i).flatMap fun c => c.1.placed.map (under c.2) := by
  induction cs generalizing i with
  | nil => rw [listPlaced, List.zipIdx_nil, List.flatMap_nil]
  | cons c cs ih => rw [listPlaced, ih, List.zipIdx_cons, List.flatMap_cons]

theorem placed_eq (e : Element) : e.placed =
    ([], e) :: e.children.zipIdx.flatMap fun c => c.1.placed.map (under c.2) := by
  obtain ⟨t, a, x, cs⟩ := e
  rw [placed, listPlaced_eq]

mutual

/-- What holds of an element when it holds of its children holds of all elements. -/
theorem forall_of_children {P : Element → Prop} (h : ∀ e, (∀ c ∈ e.children, P c) → P e) :
    (e : Element) → P e
  | ⟨_, _, _, children⟩ => h _ (forall_mem_of_children h children)

theorem forall_mem_of_children {P : Element → Prop} (h : ∀ e, (∀ c ∈ e.children, P c) → P e) :
    (cs : List Element) → ∀ c ∈ cs, P c
  | [] => by simp
  | c :: cs => List.forall_mem_cons.mpr ⟨forall_of_children h c, forall_mem_of_children h cs⟩

end

/-! ## Every place stands once -/

/-- **The places of a tree** are those where an element stands. -/
theorem mem_placed_iff : (place, d) ∈ e.placed ↔ e.at? place = some d := by
  -- a place below the root begins with the index of a child, and goes on as a place in that child
  induction e using forall_of_children generalizing place with
  | h e ih =>
    have hindex : ∀ c i, (c, i) ∈ e.children.zipIdx ↔ e.children[i]? = some c :=
      fun _ _ => List.mem_zipIdx_iff_getElem?
    cases place with
    | nil =>
      rw [placed_eq]
      simp [under, eq_comm]
    | cons i rest =>
      rw [placed_eq, at?_cons_eq_some_iff]
      simp only [List.mem_cons, List.mem_flatMap, List.mem_map, Prod.exists, under, Prod.mk.injEq,
        List.cons.injEq, reduceCtorEq, false_and, false_or, hindex]
      constructor
      · rintro ⟨c, _, hc, _, _, hmem, ⟨rfl, rfl⟩, rfl⟩
        exact ⟨c, hc, (ih c (List.mem_of_getElem? hc)).mp hmem⟩
      · rintro ⟨c, hc, hd⟩
        exact ⟨c, i, hc, rest, d, (ih c (List.mem_of_getElem? hc)).mpr hd, ⟨rfl, rfl⟩, rfl⟩

/-- The places below some children are in order when the children are, and the places below each. -/
theorem pairwise_flatMap_under {cs : List (Element × Nat)}
    {f : Element → List (List Nat × Element)} (hcs : cs.Pairwise fun a b => a.2 < b.2)
    (hf : ∀ c ∈ cs, (f c.1).Pairwise fun a b => a.1 < b.1) :
    (cs.flatMap fun c => (f c.1).map (under c.2)).Pairwise fun a b => a.1 < b.1 := by
  rw [List.pairwise_flatMap]
  constructor
  · intro c hc
    rw [List.pairwise_map]
    exact (hf c hc).imp fun hlt => List.cons_lt_cons_iff.mpr (.inr ⟨rfl, hlt⟩)
  · refine hcs.imp fun {a b} hlt => ?_
    simp only [List.forall_mem_map]
    exact fun _ _ _ _ => List.cons_lt_cons_iff.mpr (.inl hlt)

/-- The children stand in the order of their indices. -/
theorem pairwise_zipIdx (cs : List Element) : cs.zipIdx.Pairwise fun a b => a.2 < b.2 := by
  rw [← List.pairwise_map (f := Prod.snd), List.zipIdx_map_snd]
  exact List.pairwise_lt_range'

/-- **The places of a tree are in order**, so that none stands twice. -/
theorem pairwise_placed (e : Element) : e.placed.Pairwise fun a b => a.1 < b.1 := by
  induction e using forall_of_children with
  | h e ih =>
    rw [placed_eq, List.pairwise_cons]
    constructor
    · intro row hrow
      obtain ⟨c, -, hmem⟩ := List.mem_flatMap.mp hrow
      obtain ⟨row', -, rfl⟩ := List.mem_map.mp hmem
      exact List.nil_lt_cons _ _
    · refine pairwise_flatMap_under (pairwise_zipIdx e.children) fun c hc => ?_
      exact ih c.1 (List.mem_of_getElem? (List.mem_zipIdx_iff_getElem?.mp hc))

/-- **The elements of a tree** stand at their places in the order in which their tags open. -/
theorem map_snd_placed (e : Element) : e.placed.map Prod.snd = e :: e.descendants := by
  induction e using forall_of_children with
  | h e ih =>
    have hunder : ∀ i, Prod.snd ∘ under i = Prod.snd := fun _ => rfl
    have hrow : ∀ c ∈ e.children.zipIdx,
        (c.1.placed.map (under c.2)).map Prod.snd = c.1 :: c.1.descendants := by
      intro c hc
      rw [List.map_map, hunder, ih c.1 (List.mem_of_getElem? (List.mem_zipIdx_iff_getElem?.mp hc))]
    have hlist : ∀ cs : List Element,
        listDescendants cs = cs.flatMap fun c => c :: c.descendants := by
      intro cs
      induction cs with
      | nil => simp
      | cons c cs ih => rw [listDescendants, ih, List.flatMap_cons, List.cons_append]
    rw [placed_eq, List.map_cons, List.map_flatMap, List.flatMap_congr hrow, descendants_eq, hlist,
      ← List.zipIdx_map_fst 0 e.children, List.flatMap_map]
    simp

/-- What stands above an element stands before it. -/
theorem lt_of_prefix {above : List Nat} (h : above <+: place) (hne : above ≠ place) :
    above < place := by
  obtain ⟨rest, rfl⟩ := h
  induction above with
  | nil =>
    cases rest with
    | nil => exact absurd rfl hne
    | cons i rest => exact List.nil_lt_cons i rest
  | cons i above ih =>
    refine List.cons_lt_cons_iff.mpr (.inr ⟨rfl, ih ?_⟩)
    simpa using hne

/-! ## Below some children -/

/-- The elements with a tag below the children with another one, with their places. -/
def placedBelow (e : Element) (outer tag : String) : List (List Nat × Element) :=
  (e.children.zipIdx.filter fun c => c.1.tag == outer).flatMap fun c =>
    (c.1.placed.filter fun row => row.2.tag == tag).map (under c.2)

theorem mem_placedBelow_iff : (place, d) ∈ e.placedBelow outer tag ↔
    (e.at? place = some d ∧ d.tag = tag) ∧
      ∃ i rest c, place = i :: rest ∧ e.children[i]? = some c ∧ c.tag = outer := by
  have hindex : ∀ c i, (c, i) ∈ e.children.zipIdx ↔ e.children[i]? = some c :=
    fun _ _ => List.mem_zipIdx_iff_getElem?
  simp only [placedBelow, List.mem_flatMap, List.mem_filter, List.mem_map, Prod.exists, under,
    Prod.mk.injEq, hindex, mem_placed_iff, beq_iff_eq]
  constructor
  · rintro ⟨c, i, ⟨hc, houter⟩, rest, _, ⟨hd, htag⟩, rfl, rfl⟩
    exact ⟨⟨at?_cons_eq_some_iff.mpr ⟨c, hc, hd⟩, htag⟩, i, rest, c, rfl, hc, houter⟩
  · rintro ⟨⟨hd, htag⟩, i, rest, c, rfl, hc, houter⟩
    obtain ⟨c', hc', hd⟩ := at?_cons_eq_some_iff.mp hd
    obtain rfl : c = c' := Option.some.inj (hc.symm.trans hc')
    exact ⟨c, i, ⟨hc, houter⟩, rest, d, ⟨hd, htag⟩, rfl, rfl⟩

theorem pairwise_placedBelow (e : Element) (outer tag : String) :
    (e.placedBelow outer tag).Pairwise fun a b => a.1 < b.1 :=
  pairwise_flatMap_under (f := fun c => c.placed.filter fun row => row.2.tag == tag)
    ((pairwise_zipIdx e.children).filter _) fun c _ => (pairwise_placed c.1).filter _

/-- The elements with a tag below children that do not have it themselves. -/
theorem map_snd_placedBelow (e : Element) (h : outer ≠ tag) :
    (e.placedBelow outer tag).map Prod.snd =
      (e.childrenNamed outer).flatMap fun c => c.descendantsNamed tag := by
  have hrow : ∀ c ∈ e.children.zipIdx.filter fun c => c.1.tag == outer,
      ((c.1.placed.filter fun row => row.2.tag == tag).map (under c.2)).map Prod.snd =
        c.1.descendantsNamed tag := by
    intro c hc
    have houter : c.1.tag = outer := by simpa using (List.mem_filter.mp hc).2
    have htag : c.1.tag ≠ tag := houter ▸ h
    calc ((c.1.placed.filter fun row => row.2.tag == tag).map (under c.2)).map Prod.snd
        = (c.1.placed.filter fun row => row.2.tag == tag).map Prod.snd := List.map_map
      _ = (c.1.placed.map Prod.snd).filter fun d => d.tag == tag := by
        rw [List.filter_map]
        rfl
      _ = c.1.withinNamed tag := by rw [map_snd_placed, withinNamed]
      _ = c.1.descendantsNamed tag := by rw [withinNamed_eq, if_neg htag]
  have hchildren : (e.children.zipIdx.filter fun c => c.1.tag == outer).map Prod.fst =
      e.childrenNamed outer := by
    rw [childrenNamed, ← List.zipIdx_map_fst 0 e.children, List.filter_map]
    simp [Function.comp_def]
  rw [placedBelow, List.map_flatMap, List.flatMap_congr hrow, ← hchildren, List.flatMap_map]

end BpmnModel.Element
