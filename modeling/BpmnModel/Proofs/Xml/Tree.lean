import BpmnModel.Proofs.Xml.Tags

/-!
# Trees

Readers look at a tree through the attributes of an element, its children with a tag and the
elements below it.  What they see is said here of rows of elements, and of the markup that elements
are printed from.

## Main definitions

* `Markup.tree m` — the element that a piece of markup stands for.
* `Element.textsNamed tag cs` — the texts of the elements with a tag in a row.
* `Element.withinNamed e tag` — the elements with a tag in a tree.

## Main statements

* `Markup.attr?_element`, `Markup.attr?_leaf` — the attributes of an element.
* `Element.filter_tag_map` — the elements with a tag, in a row of elements with one tag.
* `Element.descendantsNamed_eq` — the elements below are found child by child.
-/

namespace BpmnModel

/-! ## Rows of elements -/

namespace Element

variable {α : Type} {f : α → Element} {tag t : String}

/-- The elements with a tag in a row of elements that all have one tag. -/
theorem filter_tag_map (h : ∀ a, (f a).tag = t) (l : List α) :
    ((l.map f).filter fun e => e.tag == tag) = if t = tag then l.map f else [] := by
  split
  · rename_i htag
    rw [List.filter_eq_self, List.forall_mem_map]
    exact fun a _ => by rw [h, htag, beq_self_eq_true]
  · rename_i htag
    rw [List.filter_eq_nil_iff, List.forall_mem_map]
    exact fun a _ => by simp [h, htag]

/-- The texts of the elements with a tag in a row; elements without text are passed over. -/
def textsNamed (tag : String) (cs : List Element) : List String :=
  ((cs.filter fun c => c.tag == tag).map text).filter fun t => t != ""

theorem childTexts_eq (e : Element) (tag : String) :
    e.childTexts tag = textsNamed tag e.children := rfl

theorem textsNamed_append (tag : String) (cs ds : List Element) :
    textsNamed tag (cs ++ ds) = textsNamed tag cs ++ textsNamed tag ds := by
  simp [textsNamed]

theorem textsNamed_cons_of_ne {c : Element} (h : c.tag ≠ tag) (cs : List Element) :
    textsNamed tag (c :: cs) = textsNamed tag cs := by
  simp [textsNamed, h]

theorem mem_childTexts_iff {e : Element} : t ∈ e.childTexts tag ↔
    t ≠ "" ∧ ∃ c ∈ e.children, c.tag = tag ∧ c.text = t := by
  rw [childTexts, List.mem_filter, List.mem_map, and_comm]
  simp [childrenNamed, and_assoc]

/-- Elements that add nothing may be left out. -/
theorem flatMap_filter {β : Type} {p : Element → Bool} {f : Element → List β} {cs : List Element}
    (h : ∀ c ∈ cs, p c = false → f c = []) : (cs.filter p).flatMap f = cs.flatMap f := by
  induction cs with
  | nil => rfl
  | cons c cs ih =>
    obtain ⟨hc, hcs⟩ := List.forall_mem_cons.mp h
    cases hp : p c with
    | true => simp [hp, ih hcs]
    | false => simp [hp, hc hp, ih hcs]

theorem mem_listDescendants_iff {d : Element} {cs : List Element} :
    d ∈ listDescendants cs ↔ ∃ c ∈ cs, d = c ∨ d ∈ c.descendants := by
  induction cs with
  | nil => simp
  | cons c cs ih => simp [listDescendants, ih, or_assoc]

/-- The elements with a tag in a tree, its root included. -/
def withinNamed (e : Element) (tag : String) : List Element :=
  (e :: e.descendants).filter fun d => d.tag == tag

theorem withinNamed_eq (e : Element) (tag : String) : e.withinNamed tag =
    if e.tag = tag then e :: e.descendantsNamed tag else e.descendantsNamed tag := by
  rw [withinNamed, List.filter_cons, descendantsNamed]
  by_cases htag : e.tag = tag <;> simp [htag]

/-- The elements below with a tag are found child by child. -/
theorem descendantsNamed_eq (e : Element) (tag : String) : e.descendantsNamed tag =
    e.children.flatMap fun c => c.withinNamed tag := by
  have hlist : ∀ cs : List Element, (listDescendants cs).filter (fun d => d.tag == tag) =
      cs.flatMap fun c => c.withinNamed tag := by
    intro cs
    induction cs with
    | nil => simp
    | cons c cs ih => rw [listDescendants, ← List.cons_append, List.filter_append, ih,
        List.flatMap_cons, withinNamed]
  rw [descendantsNamed, descendants_eq, hlist]

/-- An element with a tag above no other one with it. -/
theorem withinNamed_of_descendants {c : Element} (h : ∀ d ∈ c.descendants, d.tag ≠ tag) :
    c.withinNamed tag = if c.tag = tag then [c] else [] := by
  have hnone : c.descendantsNamed tag = [] := by
    rw [descendantsNamed, List.filter_eq_nil_iff]
    simpa using h
  rw [withinNamed_eq, hnone]

end Element

/-! ## Markup -/

namespace Markup

/-- The element that a piece of markup stands for, where it stands for one. -/
def tree (m : Markup) : Element :=
  (element? m).getD default

/-- Whether a piece of markup stands for an element. -/
def isElement (m : Markup) : Bool :=
  (element? m).isSome

theorem element?_eq_some_tree {m : Markup} (h : m.isElement = true) : element? m = some m.tree := by
  obtain ⟨e, he⟩ := Option.isSome_iff_exists.mp h
  rw [tree, he, Option.getD_some]

theorem elements_eq_map {ms : List Markup} (h : ∀ m ∈ ms, m.isElement = true) :
    elements ms = ms.map tree := by
  rw [elements_eq, ← List.filterMap_eq_map]
  exact List.filterMap_congr fun m hm => element?_eq_some_tree (h m hm)

section Parts

variable (name : Name) (attributes : List Attribute) (text : String) (content : List Markup)

@[simp] theorem isElement_element : (element name attributes text content).isElement = true := rfl

@[simp] theorem isElement_leaf : (leaf name attributes).isElement = true := rfl

@[simp] theorem tag_element : (element name attributes text content).tree.tag = name.base := rfl

@[simp] theorem tag_leaf : (leaf name attributes).tree.tag = name.base := rfl

@[simp] theorem text_element : (element name attributes text content).tree.text = text := rfl

theorem children_element (h : ∀ m ∈ content, m.isElement = true) :
    (element name attributes text content).tree.children = content.map tree :=
  elements_eq_map h

@[simp] theorem children_leaf : (leaf name attributes).tree.children = [] := rfl

@[simp] theorem attr?_element (key : String) :
    (element name attributes text content).tree.attr? key =
      (attributes.filterMap Attribute.pair?).reverse.lookup key :=
  Table.get?_ofList _ key

@[simp] theorem attr?_leaf (key : String) : (leaf name attributes).tree.attr? key =
    (attributes.filterMap Attribute.pair?).reverse.lookup key :=
  Table.get?_ofList _ key

end Parts

end Markup

end BpmnModel
