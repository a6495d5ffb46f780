import BpmnModel.Artifact.Error
import BpmnModel.Error.Structure
import BpmnModel.Error.Violation
import BpmnModel.Settings
import BpmnModel.Xml.Error

/-!
# Errors

Everything that can go wrong, in one type.  An error is either the fault of the document or
that of the surroundings, which its status tells.
-/

namespace BpmnModel

/-- Anything that can go wrong. -/
inductive Error where
  | xml (cause : XmlError)
  | structure (cause : StructureError)
  | validation (cause : ValidationError)
  | artifact (cause : ArtifactError)
  | settings (cause : SettingsError)
deriving DecidableEq, Repr

namespace Error

/-- The text shown for an error. -/
def message : Error → String
  | .xml e => e.message
  | .structure e => e.message
  | .validation e => e.message
  | .artifact e => e.message
  | .settings e => e.message

/-- 400 when the document is at fault, 500 otherwise. -/
def status : Error → Nat
  | .xml _ => 400
  | .structure _ => 400
  | .validation _ => 400
  | .artifact _ => 500
  | .settings _ => 500

/-- The violations that an error gathers. -/
def violations : Error → List Violation
  | .validation e => e.violations
  | _ => []

end Error

end BpmnModel
