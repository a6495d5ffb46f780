import BpmnModel.Artifact.File
import BpmnModel.Command.Arguments
import BpmnModel.Command.Report
import BpmnModel.Json.Document
import BpmnModel.Session
import BpmnModel.Settings.File

/-!
# The compile command

Reads a document and prints what was compiled, and saves it on request.  The exit code is 1
when the surroundings are at fault and 2 when the document is.

## Main definitions

* `CompileOptions` — what the command line asks for.
* `CompileOptions.ofWords` — reads the command line.
* `CompileOptions.run` — the command.
-/

namespace BpmnModel

/-- How a document is printed. -/
inductive OutputFormat where
  | summary
  | json
deriving DecidableEq, Repr, Inhabited

/-- The format with a name. -/
def OutputFormat.ofName? : String → Option OutputFormat
  | "summary" => some .summary
  | "json" => some .json
  | _ => none

/-- A document in a format. -/
def OutputFormat.render (f : OutputFormat) (d : Document) : String :=
  match f with
  | .summary => d.summary
  | .json => d.json

/-- What a command line asks the compiler for. -/
structure CompileOptions where
  /-- The file of the document. -/
  documentPath : String
  /-- The file of the settings; without one the standard settings hold. -/
  settingsPath : Option String := none
  /-- How the document is printed. -/
  format : OutputFormat := .summary
  /-- The file to which the artifact is saved. -/
  artifactPath : Option String := none
deriving DecidableEq, Repr, Inhabited

namespace CompileOptions

/-! ## The command line -/

/-- The options of the command.  The switch `verbose` is taken for the sake of callers; the
report says all there is to say without it. -/
def specs : List OptionSpec :=
  [{ long := "config", short := some 'c' },
    { long := "format", short := some 'f' },
    { long := "artifact", short := some 'a' },
    { long := "verbose", short := some 'v', takesValue := false }]

/-- How the command is called. -/
def usage : String :=
  "compile [--config FILE] [--format summary|json] [--artifact FILE] [--verbose] DOCUMENT"

/-- The format that was asked for. -/
def formatOf (a : Arguments) : Option OutputFormat :=
  match a.value? "format" with
  | none => some .summary
  | some name => OutputFormat.ofName? name

/-- Reads the command line, which names one document. -/
def ofWords (words : List String) : Option CompileOptions := do
  let a ← Arguments.parse specs words
  let format ← formatOf a
  match a.words with
  | [documentPath] => return {
      documentPath
      settingsPath := a.value? "config"
      format
      artifactPath := a.value? "artifact" }
  | _ => none

/-! ## The steps -/

variable {m : Type → Type} [Monad m]

/-- A failure for which no document is needed. -/
def fault (exitCode : Nat) (message : String) : Report :=
  .failed exitCode ("\nError: " ++ message ++ "\n")

/-- The report of a failed compilation, with one line for each violation. -/
def refusal (e : Error) : Report :=
  .failed (if e.status = 400 then 2 else 1) <|
    "\nError [" ++ e.status.repr ++ "]: " ++ e.message ++ "\n" ++
      String.join (e.violations.map fun v => "  - " ++ v.text ++ "\n")

/-- The text of the document. -/
def readDocument (files : Files m) (o : CompileOptions) : m (Except Report String) := do
  return (← files.readText o.documentPath).mapError fun f =>
    fault 1 ("Failed to read document '" ++ o.documentPath ++ "': " ++ f.cause.text)

/-- The settings to compile with. -/
def readSettings (files : Files m) (o : CompileOptions) : m (Except Report Settings) := do
  match o.settingsPath with
  | none => return .ok .standard
  | some path =>
    return (← Settings.load files path).mapError fun e =>
      fault 1 ("Failed to load configuration: " ++ e.message)

/-- The report of a session that keeps no document after a load. -/
def noDocument : Report := fault 1 "Parser returned no model"

/-- The document of a text: its tree is read first, and then loaded in a session of its own. -/
def compileText (s : Settings) (text : String) : Except Report Document := do
  let root ← (Xml.read text).mapError fun e => fault 2 ("Failed to read XML: " ++ e.message)
  let (outcome, session) := (Session.start { settings := s }).loadTree root
  outcome.mapError refusal
  match session.document with
  | some d => return d
  | none => throw noDocument

/-- Saves the artifact of a document, if that was asked for.  The document is printed in any
case. -/
def saveArtifact (files : Files m) (o : CompileOptions) (d : Document) : m Report := do
  let output := o.format.render d ++ "\n"
  match o.artifactPath with
  | none => return { output }
  | some path =>
    match ← d.save files path with
    | .ok () => return { output, errors := "Wrote artifact to '" ++ path ++ "'\n" }
    | .error e =>
      return { fault 1 ("Failed to write artifact: " ++ e.message) with output }

/-! ## The command -/

/-- Reads the document, then the settings, compiles, prints and saves. -/
def run (files : Files m) (o : CompileOptions) : m Report := do
  match ← readDocument files o with
  | .error report => return report
  | .ok text =>
    match ← readSettings files o with
    | .error report => return report
    | .ok s =>
      match compileText s text with
      | .error report => return report
      | .ok d => saveArtifact files o d

/-- The command with the words of its command line. -/
def runWords (files : Files m) (words : List String) : m Report :=
  match ofWords words with
  | none => return .misused usage
  | some o => o.run files

end CompileOptions

end BpmnModel
