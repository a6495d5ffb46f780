/-!
# Faults of artifacts

What can go wrong while a compiled document is saved or loaded.
-/

namespace BpmnModel

/-- Why an artifact could not be saved or loaded. -/
inductive ArtifactError where
  /-- The file could not be used. -/
  | io (path message : String)
  /-- The document has no binary form. -/
  | encode (message : String)
  /-- The bytes are no document. -/
  | decode (message : String)
deriving DecidableEq, Repr

/-- The text shown for a fault of an artifact. -/
def ArtifactError.message : ArtifactError → String
  | .io path message => "Artifact I/O failed for '" ++ path ++ "': " ++ message
  | .encode message => "Artifact encoding failed: " ++ message
  | .decode message => "Artifact decoding failed: " ++ message

end BpmnModel
