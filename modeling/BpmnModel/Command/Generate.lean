import BpmnModel.Command.Arguments
import BpmnModel.Command.Report
import BpmnModel.Files.Basic
import BpmnModel.Generate.Document
import BpmnModel.Text.Numeral

/-!
# The generate command

Writes a generated document of a given shape to a file.

## Main definitions

* `GenerateOptions` — what the command line asks for.
* `GenerateOptions.ofWords` — reads the command line.
* `GenerateOptions.run` — the command, given what chance decides.
-/

namespace BpmnModel

/-- What a command line asks the generator for. -/
structure GenerateOptions where
  /-- The file to which the document is written. -/
  outputPath : String := "generated.bpmn"
  /-- The shape of the document. -/
  shape : Shape := {}
deriving DecidableEq, Repr, Inhabited

namespace GenerateOptions

/-! ## The command line -/

/-- The options of the command. -/
def specs : List OptionSpec :=
  [{ long := "output", short := some 'o' },
    { long := "processes" },
    { long := "tasks" },
    { long := "lanes" },
    { long := "conditions", takesValue := false }]

/-- How the command is called. -/
def usage : String :=
  "generate [--output FILE] [--processes N] [--tasks N] [--lanes N] [--conditions]"

/-- The count that an option gives, or the given one without the option. -/
def countOr (a : Arguments) (long : String) (standard : Nat) : Option Nat :=
  match a.value? long with
  | none => some standard
  | some raw => (Text.word64? raw).map UInt64.toNat

/-- Reads the command line, which holds options only. -/
def ofWords (words : List String) : Option GenerateOptions := do
  let a ← Arguments.parse specs words
  let processes ← countOr a "processes" 1
  let tasks ← countOr a "tasks" 5
  let lanes ← countOr a "lanes" 2
  if a.words.isEmpty then
    return {
      outputPath := (a.value? "output").getD "generated.bpmn"
      shape := { processes, tasks, lanes, conditions := a.has "conditions" } }
  else none

/-! ## The command -/

variable {m : Type → Type} [Monad m]

/-- The line that announces the work. -/
def announcement (s : Shape) : String :=
  "Generating " ++ s.processes.repr ++ " process(es) with " ++ s.tasks.repr ++
    " task(s) and " ++ s.lanes.repr ++ " lane(s) each...\n"

/-- Writes the document of the shape. -/
def write (files : Files m) (o : GenerateOptions) (draws : Draws o.shape.lanes) : m Report := do
  let text := Generate.document o.shape draws
  match ← files.write o.outputPath (Codec.utf8 text) with
  | .ok () => return {
      output := announcement o.shape ++ "Successfully generated and saved document to '" ++
        o.outputPath ++ "'\n" }
  | .error f => return {
      exitCode := 1
      output := announcement o.shape
      errors := "Error: " ++ f.cause.detail ++ "\n" }

/-- Checks the shape and writes the document.  What chance decides is given for every number
of lanes, of which there has to be one. -/
def run (files : Files m) (draws : (lanes : Nat) → 0 < lanes → Draws lanes)
    (o : GenerateOptions) : m Report :=
  if o.shape.tasks < 2 ∧ o.shape.conditions = true then
    return .failed 1 "Error: --conditions needs at least 2 tasks per process\n"
  else if h : 0 < o.shape.lanes then o.write files (draws o.shape.lanes h)
  else return .failed 1 "Error: --lanes must be at least 1\n"

/-- The command with the words of its command line. -/
def runWords (files : Files m) (draws : (lanes : Nat) → 0 < lanes → Draws lanes)
    (words : List String) : m Report :=
  match ofWords words with
  | none => return .misused usage
  | some o => o.run files draws

end GenerateOptions

end BpmnModel
