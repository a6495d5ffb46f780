import BpmnModel.Command.Compile
import BpmnModel.Command.Generate

/-!
# The program

The two commands on the files of the system.
-/

namespace BpmnModel

/-- A fault of the system, in the terms of the library. -/
def SystemFault.ofError : IO.Error → SystemFault
  | .noFileOrDirectory _ _ _ => .notFound
  | .inappropriateType _ code details => .ofCode code.toNat details
  | .resourceExhausted _ code details => .ofCode code.toNat details
  | .permissionDenied _ code details => .ofCode code.toNat details
  | .invalidArgument _ code details => .ofCode code.toNat details
  | .illegalOperation code details => .ofCode code.toNat details
  | .hardwareFault code details => .ofCode code.toNat details
  | .unsupportedOperation code details => .ofCode code.toNat details
  | .otherError code details => .ofCode code.toNat details
  | e => .system 0 "Other" e.toString

/-- Runs a step on a file. -/
def attempt {α : Type} (step : FileStep) (act : IO α) : ExceptT FileFault IO α := do
  match ← act.toBaseIO with
  | .ok a => return a
  | .error e => throw ⟨step, .ofError e⟩

/-- The files of the system. -/
def systemFiles : Files IO where
  read path := ExceptT.run do
    let handle ← attempt .opening (IO.FS.Handle.mk path .read)
    let bytes ← attempt .reading handle.readBinToEnd
    return bytes.data.toList
  write path bytes := ExceptT.run do
    let handle ← attempt .creating (IO.FS.Handle.mk path .write)
    attempt .writing do
      handle.write ⟨bytes.toArray⟩
      handle.flush

/-- The command that the first word names. -/
def runCommand : List String → IO Report
  | "compile" :: words => CompileOptions.runWords systemFiles words
  | "generate" :: words => do
    let seed ← IO.rand 0 (UInt64.size - 1)
    GenerateOptions.runWords systemFiles (fun _ h => .ofSeed (UInt64.ofNat seed) h) words
  | _ => return .misused (CompileOptions.usage ++ "\n       " ++ GenerateOptions.usage)

end BpmnModel

/-- Runs a command and tells its report. -/
def main (words : List String) : IO UInt32 := do
  let report ← BpmnModel.runCommand words
  IO.print report.output
  IO.eprint report.errors
  return UInt32.ofNat report.exitCode
