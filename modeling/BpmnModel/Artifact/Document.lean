import BpmnModel.Artifact.Error
import BpmnModel.Artifact.Record

/-!
# Artifacts

The binary form of a compiled document.  Loading ignores bytes after the document.

## Main definitions

* `Document.toBytes d` — the bytes of a document.
* `Document.ofBytes bytes` — the document of some bytes.
-/

namespace BpmnModel.Document

/-- The bytes of a document. -/
def toBytes (d : Document) : List UInt8 :=
  Artifact.document.encode d

/-- The document at the front of some bytes. -/
def ofBytes (bytes : List UInt8) : Except ArtifactError Document :=
  match Artifact.document.decode bytes with
  | some (d, _) => .ok d
  | none => .error (.decode "no document in the bytes")

/-- A document reads back from its bytes, whatever follows them. -/
theorem ofBytes_toBytes_append {d : Document} (h : Artifact.document.ReadsBack d)
    (rest : List UInt8) : ofBytes (d.toBytes ++ rest) = .ok d := by
  rw [ofBytes, toBytes, h rest]

end BpmnModel.Document
