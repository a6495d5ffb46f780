/-!
# Faults of a document

What a reader of documents reports.  A fault of form carries its place and the text that
the scanner gave it; the others name an element.
-/

namespace BpmnModel

/-- Why a text is no document. -/
inductive XmlError where
  /-- The text is malformed at a byte offset. -/
  | malformed (position : Nat) (message : String)
  /-- An attribute of an element can not be read. -/
  | attribute (element message : String)
  /-- An end tag does not belong to the element that is open. -/
  | mismatchedTag (expected found : String)
  /-- An element is open at the end. -/
  | unclosed (tag : String)
  /-- There is no element at all. -/
  | emptyDocument
deriving DecidableEq, Repr

/-- The text shown for a fault. -/
def XmlError.message : XmlError → String
  | .malformed position message => "Malformed XML at byte " ++ position.repr ++ ": " ++ message
  | .attribute element message => "Invalid attribute on element '" ++ element ++ "': " ++ message
  | .mismatchedTag expected found => "Closing tag '" ++ found ++
      "' does not match open element '" ++ expected ++ "'"
  | .unclosed tag => "Element '" ++ tag ++ "' was never closed"
  | .emptyDocument => "Document contains no root element"

end BpmnModel
