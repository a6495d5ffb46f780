import BpmnModel.Compile.Compiler

/-!
# Sessions

A session keeps the model and the processes of its last load.  A load forgets both before it
does anything else, and enters both when the whole document has been compiled, so that a load
that fails leaves nothing behind.  Compiling by the way neither needs nor changes what is kept.

## Main definitions

* `Session` — a compiler with the parts of the document that it keeps.
* `Session.document` — the document made of the parts.
* `Session.loadText`, `Session.loadTree` — replace what is kept.
-/

namespace BpmnModel

/-- A compiler and the two parts of the document of its last load. -/
structure Session where
  /-- What documents are compiled with. -/
  compiler : Compiler
  /-- The model of the last load, if that succeeded. -/
  model? : Option Model := none
  /-- The processes of the last load; none if that failed. -/
  processes : List Process := []

namespace Session

/-- A session before its first load. -/
def start (compiler : Compiler) : Session := { compiler }

/-- The kept document; there is one when a model is kept. -/
def document (s : Session) : Option Document :=
  s.model?.map fun model => { model, processes := s.processes }

/-- The session with nothing kept. -/
def reset (s : Session) : Session := { s with model? := none, processes := [] }

/-- Loads the document of a tree. -/
def loadTree (s : Session) (root : Element) : Except Error Unit × Session :=
  let s := s.reset
  match s.compiler.compile root with
  | .error e => (.error e, s)
  | .ok d => (.ok (), { s with model? := some d.model, processes := d.processes })

/-- Loads the document of a text. -/
def loadText (s : Session) (text : String) : Except Error Unit × Session :=
  let s := s.reset
  match Xml.read text with
  | .error e => (.error (.xml e), s)
  | .ok root => s.loadTree root

/-- Nothing of a session but its compiler outlives a reset. -/
theorem reset_eq (s : Session) : s.reset = start s.compiler := rfl

end Session

end BpmnModel
