import BpmnModel.Xml.Attribute
import BpmnModel.Xml.Progress
import BpmnModel.Xml.Token

/-!
# Reading a document

The tokens of a document drive a tree under construction.  End tags are compared with the
names of the open tags as written, prefixes included; the tree itself only knows local
names.

## Main definitions

* `Xml.Reading` — the written names of the open tags, and the tree under construction.
* `Xml.Reading.advance` — what one token does.
* `Xml.read` — the tree of a document.
-/

namespace BpmnModel.Xml

/-! ## Elements from tags -/

/-- The name in a tag, as written. -/
def tagName (content : List Char) : List Char :=
  content.takeWhile fun c => !Text.isSpace c

/-- The element that a start tag announces, without content. -/
def elementOfTag (content : List Char) : Except XmlError Element :=
  let tag := localName (tagName content)
  let attributes := content.dropWhile fun c => !Text.isSpace c
  match readAttributes (Text.byteSize content) [] attributes with
  | .ok entries => .ok { tag, attributes := Table.ofList entries }
  | .error fault => .error (.attribute tag fault.message)

/-! ## One token -/

/-- What has been read of a document. -/
structure Reading where
  /-- The names of the open tags as written, the innermost one first. -/
  names : List (List Char) := []
  /-- The tree under construction. -/
  progress : Progress := {}

/-- The end tag of an element whose tag has the given name. -/
def endTag (name : List Char) : String :=
  "</" ++ String.ofList name ++ ">"

namespace Reading

/-- Takes the name of an end tag, which begins at `start`, off the names of the open
tags. -/
def dropName (whole : List Char) (r : Reading) (start name : List Char) :
    Except XmlError (List (List Char)) :=
  match r.names with
  | [] => .error (.malformed (Text.offset whole start) ("ill-formed document: close tag `" ++
      endTag name ++ "` does not match any open tag"))
  | expected :: outer =>
    if expected = name then .ok outer
    else .error (.malformed (Text.offset whole start) ("ill-formed document: expected `" ++
      endTag expected ++ "`, but `" ++ endTag name ++ "` was found"))

/-- What one token of the document `whole` does to what has been read. -/
def advance (whole : List Char) (r : Reading) (l : Lexeme) : Except XmlError Reading :=
  match l.token with
  | .text raw =>
    match expand raw with
    | .ok piece => .ok { r with progress := r.progress.addText piece }
    | .error fault => .error (.malformed (Text.offset whole l.rest) fault.message)
  | .characters content => .ok { r with progress := r.progress.addText content }
  | .start content => do
    let e ← elementOfTag content
    return { names := tagName content :: r.names, progress := r.progress.openElement e }
  | .empty content => do
    let e ← elementOfTag content
    let progress ← r.progress.attach e
    return { r with progress }
  | .close name => do
    let names ← dropName whole r l.start name
    let progress ← r.progress.closeElement (localName name)
    return { names, progress }
  | .ignored => .ok r

end Reading

/-! ## All tokens -/

/-- Reads what remains of the document `whole`. -/
def readFrom (whole : List Char) (r : Reading) (cs : List Char) : Except XmlError Reading :=
  match h : nextLexeme cs with
  | .error fault => .error (.malformed (Text.offset whole fault.remaining) fault.cause.message)
  | .ok none => .ok r
  | .ok (some l) =>
    have : l.rest.length < cs.length := length_lt_of_nextLexeme h
    match r.advance whole l with
    | .error e => .error e
    | .ok r => readFrom whole r l.rest
termination_by cs.length

/-- A text without the byte order mark that may stand in front. -/
def withoutMark : List Char → List Char
  | '\uFEFF' :: cs => cs
  | cs => cs

/-- The tree of a document. -/
def read (text : String) : Except XmlError Element := do
  let whole := withoutMark text.toList
  let r ← readFrom whole {} whole
  r.progress.finish

/-! ## Reading on -/

theorem readFrom_done {whole cs : List Char} {r : Reading} (h : nextLexeme cs = .ok none) :
    readFrom whole r cs = .ok r := by
  rw [readFrom]
  split <;> simp_all

theorem readFrom_step {whole cs : List Char} {r r' : Reading} {l : Lexeme}
    (h : nextLexeme cs = .ok (some l)) (hr : r.advance whole l = .ok r') :
    readFrom whole r cs = readFrom whole r' l.rest := by
  rw [readFrom]
  split <;> simp_all

theorem readFrom_stop {whole cs : List Char} {r : Reading} {l : Lexeme} {e : XmlError}
    (h : nextLexeme cs = .ok (some l)) (hr : r.advance whole l = .error e) :
    readFrom whole r cs = .error e := by
  rw [readFrom]
  split <;> simp_all

end BpmnModel.Xml
