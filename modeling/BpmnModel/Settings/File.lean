import BpmnModel.Files.Basic
import BpmnModel.Settings.Reader

/-!
# Settings in files

## Main definitions

* `Settings.load files path` — the settings of a file.
-/

namespace BpmnModel.Settings

/-- The settings in a file. -/
def load {m : Type → Type} [Monad m] (files : Files m) (path : String) :
    m (Except SettingsError Settings) := do
  match ← files.readText path with
  | .ok text => return ofText text
  | .error fault => return .error (.io path fault.cause.text)

end BpmnModel.Settings
