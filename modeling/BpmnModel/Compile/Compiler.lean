import BpmnModel.Compile.FlowGraph
import BpmnModel.Condition.Check
import BpmnModel.Elements.Collaboration
import BpmnModel.Error
import BpmnModel.Xml.Reading

/-!
# Compilation

A compiler turns the tree of a document into a model and its processes.  It reads the model
first, then the structure of all processes, and only then checks conditions, so that a
structural error in any process is told before a violation in an earlier one.

## Main definitions

* `Compiler` — settings and classifiers.
* `Compiler.compile` — the document of a tree.
* `Compiler.compileText` — the document of a text.
-/

namespace BpmnModel

/-- What a document is compiled with. -/
structure Compiler where
  /-- Reserved names and type mappings. -/
  settings : Settings := {}
  /-- The classifiers of flow elements. -/
  registry : Registry := .standard

namespace Compiler

instance : Inhabited Compiler := ⟨{}⟩

/-- Lets `tag` stand for a built-in tag. -/
def withAlias (c : Compiler) (tag builtinTag : String) : Compiler :=
  { c with registry := c.registry.withAlias tag builtinTag }

/-- Lets a classifier read the elements with the given tag. -/
def withClassifier (c : Compiler) (tag : String) (classifier : Classifier) : Compiler :=
  { c with registry := c.registry.withClassifier tag classifier }

/-- The processes of a document, of which there has to be one. -/
def readProcesses (c : Compiler) (root : Element) : Except StructureError (List Process) :=
  match root.childrenNamed "process" with
  | [] => .error .noProcesses
  | nodes => nodes.mapM (Process.read c.registry c.settings)

/-- The model and the processes of a document, conditions not checked. -/
def readStructure (c : Compiler) (root : Element) : Except StructureError Document :=
  if root.tag = "definitions" then do
    let model ← Collaboration.read c.settings root
    let processes ← c.readProcesses root
    return { model, processes }
  else .error (.unexpectedRoot root.tag)

/-- The document with the conditions of all processes checked. -/
def checkDocument (c : Compiler) (d : Document) : Except ValidationError Document := do
  let processes ← d.processes.mapM (Process.check c.settings d.model)
  return { d with processes }

/-- The document of a tree. -/
def compile (c : Compiler) (root : Element) : Except Error Document := do
  let d ← (c.readStructure root).mapError .structure
  (c.checkDocument d).mapError .validation

/-- The document of a text. -/
def compileText (c : Compiler) (text : String) : Except Error Document := do
  let root ← (Xml.read text).mapError .xml
  c.compile root

end Compiler

end BpmnModel
