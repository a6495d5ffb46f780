import BpmnModel.Text.Blank
import BpmnModel.Xml.Element
import BpmnModel.Xml.Error

/-!
# Trees under construction

While a document is read, the elements whose end has not come yet wait on a stack, the
innermost one on top.  An element that ends becomes the last child of the one below it, or
the root when there is none.  The children of an open element are kept in reverse, since
they come one by one; its end puts them in order.

## Main definitions

* `Progress` — the open elements and the root.
* `Progress.attach`, `Progress.addText`, `Progress.openElement`, `Progress.closeElement` —
  the four things that can happen.
* `Progress.finish` — the tree, once everything is closed.
* `Progress.openTags` — the tags of the open elements.
-/

namespace BpmnModel.Xml

/-- What has been read of a tree. -/
structure Progress where
  /-- The open elements, the innermost one first, each with its last child first. -/
  pending : List Element := []
  /-- The element that was closed with none open around it. -/
  root : Option Element := none

namespace Progress

/-- A finished element becomes the last child of the innermost open one, or the root.  A
second root is told at the beginning of the document. -/
def attach (p : Progress) (e : Element) : Except XmlError Progress :=
  match p.pending, p.root with
  | parent :: outer, _ =>
    .ok { p with pending := { parent with children := e :: parent.children } :: outer }
  | [], none => .ok { p with root := some e }
  | [], some _ => .error (.malformed 0 ("second root element '" ++ e.tag ++ "'"))

/-- A piece of text loses its outer blanks and is added to the innermost open element;
outside of all elements it is dropped. -/
def addText (p : Progress) (piece : List Char) : Progress :=
  match p.pending with
  | [] => p
  | e :: outer =>
    { p with pending :=
        { e with text := e.text ++ String.ofList (Text.trimBlanks piece) } :: outer }

/-- A start tag opens an element. -/
def openElement (p : Progress) (e : Element) : Progress :=
  { p with pending := e :: p.pending }

/-- An end tag closes the innermost open element, whose tag it has to bear. -/
def closeElement (p : Progress) (tag : String) : Except XmlError Progress :=
  match p.pending with
  | [] => .error (.mismatchedTag "" tag)
  | e :: outer =>
    if e.tag = tag then
      { p with pending := outer }.attach { e with children := e.children.reverse }
    else .error (.mismatchedTag e.tag tag)

/-- The tree, when no element is open. -/
def finish (p : Progress) : Except XmlError Element :=
  match p.pending, p.root with
  | e :: _, _ => .error (.unclosed e.tag)
  | [], none => .error .emptyDocument
  | [], some e => .ok e

/-! ## The open tags -/

/-- The tags of the open elements, the innermost one first. -/
def openTags (p : Progress) : List String :=
  p.pending.map Element.tag

end Progress

end BpmnModel.Xml
