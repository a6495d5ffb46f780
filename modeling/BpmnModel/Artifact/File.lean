import BpmnModel.Artifact.Document
import BpmnModel.Files.Basic

/-!
# Artifacts in files

## Main definitions

* `Document.save files d path` — writes the bytes of a document.
* `Document.load files path` — the document of a file.
-/

namespace BpmnModel

/-- A fault of a file, as a fault of the artifact in it. -/
def ArtifactError.ofFault (path : String) (fault : FileFault) : ArtifactError :=
  .io path fault.message

namespace Document

variable {m : Type → Type} [Monad m]

/-- Writes the bytes of a document to a file. -/
def save (files : Files m) (d : Document) (path : String) : m (Except ArtifactError Unit) := do
  return (← files.write path d.toBytes).mapError (ArtifactError.ofFault path)

/-- The document in a file. -/
def load (files : Files m) (path : String) : m (Except ArtifactError Document) := do
  match ← files.read path with
  | .ok bytes => return ofBytes bytes
  | .error fault => return .error (.ofFault path fault)

end Document

end BpmnModel
