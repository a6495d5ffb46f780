import BpmnModel.Xml.Element

/-!
# The written form of elements

An element can be written in many ways: with a namespace prefix or without, with
declarations, comments, instructions and blanks that carry no meaning, closed by itself or
by an end tag.  A piece of markup makes these choices, so that printing it is a function,
and stands for the element that remains when they are forgotten.

## Main definitions

* `Markup` — an element with the choices of its written form, or a piece without meaning.
* `Markup.print m` — the characters of a piece of markup.
* `Markup.element? m` — the element that it stands for.
* `Markup.indent depth m` — the same element with one line for each tag.
-/

namespace BpmnModel

/-- A name with an optional namespace prefix. -/
structure Markup.Name where
  /-- The prefix. -/
  space : Option String := none
  /-- The name without the prefix. -/
  base : String
deriving DecidableEq, Repr

/-- An attribute of a tag, or the declaration of a namespace. -/
inductive Markup.Attribute where
  | plain (name : Markup.Name) (value : String)
  /-- Declares a prefix, or the namespace of names without one. -/
  | declaration (space : Option String) (value : String)
deriving DecidableEq, Repr

/-- A piece of markup. -/
inductive Markup where
  | blank (characters : List Char)
  | comment (text : String)
  | instruction (text : String)
  /-- An element without content that is closed by itself. -/
  | leaf (name : Markup.Name) (attributes : List Markup.Attribute)
  /-- An element with an end tag; its text stands before all else. -/
  | element (name : Markup.Name) (attributes : List Markup.Attribute) (text : String)
      (content : List Markup)

namespace Markup

instance : Inhabited Markup := ⟨.blank []⟩

/-! ## Characters -/

/-- The reference that a character with a meaning in markup is written as. -/
def escapeChar (c : Char) : List Char :=
  if c = '&' then ['&', 'a', 'm', 'p', ';']
  else if c = '<' then ['&', 'l', 't', ';']
  else if c = '>' then ['&', 'g', 't', ';']
  else if c = '"' then ['&', 'q', 'u', 'o', 't', ';']
  else if c = '\'' then ['&', 'a', 'p', 'o', 's', ';']
  else [c]

/-- The written form of a value or of a text. -/
def escape (s : String) : List Char :=
  s.toList.flatMap escapeChar

/-! ## Tags -/

/-- The characters of a name. -/
def Name.print (n : Name) : List Char :=
  match n.space with
  | some space => space.toList ++ ':' :: n.base.toList
  | none => n.base.toList

/-- The name under which an attribute is written. -/
def Attribute.name : Attribute → List Char
  | .plain name _ => name.print
  | .declaration (some space) _ => "xmlns:".toList ++ space.toList
  | .declaration none _ => "xmlns".toList

/-- The value of an attribute. -/
def Attribute.value : Attribute → String
  | .plain _ value => value
  | .declaration _ value => value

/-- The characters of an attribute, with the blank in front of it. -/
def Attribute.print (a : Attribute) : List Char :=
  ' ' :: (a.name ++ '=' :: '"' :: (escape a.value ++ ['"']))

/-- What stands between the brackets of a start tag. -/
def tagContent (name : Name) (attributes : List Attribute) : List Char :=
  name.print ++ attributes.flatMap Attribute.print

/-! ## Printing -/

mutual

/-- The characters of a piece of markup. -/
def print : Markup → List Char
  | .blank cs => cs
  | .comment text => "<!--".toList ++ text.toList ++ "-->".toList
  | .instruction text => "<?".toList ++ text.toList ++ "?>".toList
  | .leaf name attributes => '<' :: (tagContent name attributes ++ " />".toList)
  | .element name attributes text content =>
    '<' :: (tagContent name attributes ++ '>' :: (escape text ++ printAll content ++
      '<' :: '/' :: (name.print ++ ['>'])))

/-- The characters of pieces of markup in a row. -/
def printAll : List Markup → List Char
  | [] => []
  | m :: ms => print m ++ printAll ms

end

/-- The text of a document that is made of pieces in a row. -/
def document (pieces : List Markup) : String :=
  String.ofList (printAll pieces)

/-! ## Meaning -/

/-- The attributes by local name; declarations are left out. -/
def attributeTable (attributes : List Attribute) : Table String :=
  Table.ofList <| attributes.filterMap fun a =>
    match a with
    | .plain name value => some (name.base, value)
    | .declaration _ _ => none

mutual

/-- The element that a piece of markup stands for. -/
def element? : Markup → Option Element
  | .leaf name attributes => some { tag := name.base, attributes := attributeTable attributes }
  | .element name attributes text content => some {
      tag := name.base
      attributes := attributeTable attributes
      text := text
      children := elements content }
  | .blank _ => none
  | .comment _ => none
  | .instruction _ => none

/-- The elements among pieces of markup. -/
def elements : List Markup → List Element
  | [] => []
  | m :: ms => (element? m).toList ++ elements ms

end

theorem elements_eq (ms : List Markup) : elements ms = ms.filterMap element? := by
  induction ms with
  | nil => rw [elements, List.filterMap_nil]
  | cons m ms ih =>
    rw [elements, ih, List.filterMap_cons]
    cases element? m <;> rfl

/-! ## Layout -/

/-- A new line, two blanks for each level. -/
def lineBreak (depth : Nat) : Markup :=
  .blank ('\n' :: List.replicate (2 * depth) ' ')

mutual

/-- An element at a depth, with each tag of its content on a line of its own; an element
with a text stays on one line. -/
def indent (depth : Nat) : Markup → Markup
  | .element name attributes text content =>
    if text = "" then
      .element name attributes "" (indentAll (depth + 1) content ++ [lineBreak depth])
    else .element name attributes text content
  | .blank cs => .blank cs
  | .comment text => .comment text
  | .instruction text => .instruction text
  | .leaf name attributes => .leaf name attributes

/-- Pieces at a depth, each on a line of its own. -/
def indentAll (depth : Nat) : List Markup → List Markup
  | [] => []
  | m :: ms => lineBreak depth :: indent depth m :: indentAll depth ms

end

theorem elements_append (ms ns : List Markup) :
    elements (ms ++ ns) = elements ms ++ elements ns := by
  simp [elements_eq]

theorem elements_lineBreak (depth : Nat) (ms : List Markup) :
    elements (lineBreak depth :: ms) = elements ms := by
  rw [elements, lineBreak, element?]
  rfl

mutual

/-- **Layout has no meaning.** -/
theorem element?_indent (depth : Nat) (m : Markup) : element? (indent depth m) = element? m := by
  cases m with
  | element name attributes text content =>
    rw [indent]
    split
    · rename_i h
      have hb : elements [lineBreak depth] = [] := by
        rw [elements_lineBreak, elements]
      rw [element?, element?, elements_append, elements_indentAll, hb, List.append_nil, h]
    · rfl
  | _ => rw [indent]

theorem elements_indentAll (depth : Nat) (ms : List Markup) :
    elements (indentAll depth ms) = elements ms := by
  cases ms with
  | nil => rw [indentAll]
  | cons m ms =>
    rw [indentAll, elements_lineBreak, elements, elements, element?_indent, elements_indentAll]

end

end Markup

end BpmnModel
