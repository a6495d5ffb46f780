import BpmnModel.Table

/-!
# Elements

A document is a tree of elements.  Tags and attribute names are local names: the reader
has already taken namespace prefixes away, so `bpmn:userTask` and `userTask` are one tag
here.

## Main definitions

* `Element` — tag, attributes, text and children.
* `Element.childrenNamed`, `Element.firstChild?`, `Element.childTexts` — looking one level
  down.
* `Element.descendants` — all elements below, in the order in which their tags open.
-/

namespace BpmnModel

/-- An element of a document. -/
structure Element where
  /-- The local name. -/
  tag : String
  /-- The attributes by local name. -/
  attributes : Table String := .empty
  /-- The text of the element itself, that of its children not included. -/
  text : String := ""
  /-- The child elements in order. -/
  children : List Element := []

namespace Element

instance : Inhabited Element := ⟨⟨"", .empty, "", []⟩⟩

/-- The value of an attribute. -/
def attr? (e : Element) (name : String) : Option String :=
  e.attributes.get? name

/-- The `id` attribute, or the empty text. -/
def id (e : Element) : String :=
  (e.attr? "id").getD ""

/-- The `name` attribute, or the empty text. -/
def name (e : Element) : String :=
  (e.attr? "name").getD ""

/-! ## One level down -/

/-- The children with a tag. -/
def childrenNamed (e : Element) (tag : String) : List Element :=
  e.children.filter fun c => c.tag == tag

/-- The first child with a tag. -/
def firstChild? (e : Element) (tag : String) : Option Element :=
  e.children.find? fun c => c.tag == tag

/-- The texts of the children with a tag; children without text are passed over. -/
def childTexts (e : Element) (tag : String) : List String :=
  ((e.childrenNamed tag).map text).filter fun t => t != ""

/-! ## All levels down -/

mutual

/-- All elements below, in the order in which their tags open. -/
def descendants : Element → List Element
  | ⟨_, _, _, children⟩ => listDescendants children

/-- The elements of a list, each followed by all elements below it. -/
def listDescendants : List Element → List Element
  | [] => []
  | c :: cs => c :: (descendants c ++ listDescendants cs)

end

/-- The elements below that have a tag. -/
def descendantsNamed (e : Element) (tag : String) : List Element :=
  e.descendants.filter fun d => d.tag == tag

/-- The first element below with a tag and an identifier. -/
def findById? (e : Element) (tag id : String) : Option Element :=
  (e.descendantsNamed tag).find? fun d => d.id == id

theorem descendants_eq (e : Element) : e.descendants = listDescendants e.children := by
  obtain ⟨t, a, x, c⟩ := e
  rw [descendants]

@[simp] theorem listDescendants_nil : listDescendants [] = [] := by
  rw [listDescendants]

@[simp] theorem listDescendants_append (as bs : List Element) :
    listDescendants (as ++ bs) = listDescendants as ++ listDescendants bs := by
  induction as with
  | nil => simp
  | cons a as ih => simp [listDescendants, ih]

theorem childTexts_ne_empty {e : Element} {tag t : String} (h : t ∈ e.childTexts tag) :
    t ≠ "" := by
  simpa using (List.mem_filter.mp h).2

end Element

end BpmnModel
