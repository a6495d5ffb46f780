import BpmnModel.Codec.Sequence

/-!
# Files

Settings, documents and artifacts live in files.  What is done with files is written
against two operations, so that a command is one definition, whether it runs on the files
of a system or on a disk that is a value.

## Main definitions

* `Files m` — reading and writing whole files within a monad `m`.
* `Files.readText` — the text of a file.
* `SystemFault`, `FileFault` — why that may fail, and in which step.
-/

namespace BpmnModel

/-- Why a system refuses an operation on a file. -/
inductive SystemFault where
  /-- A fault with its number, the name of its kind, and its text. -/
  | system (code : Nat) (kind message : String)
  /-- The bytes of the file are no text. -/
  | notText
deriving DecidableEq, Repr

namespace SystemFault

/-- There is no such file. -/
def notFound : SystemFault := .system 2 "NotFound" "No such file or directory"

/-- What should be a directory is a file. -/
def notDirectory : SystemFault := .system 20 "NotADirectory" "Not a directory"

/-- What should be a file is a directory. -/
def isDirectory : SystemFault := .system 21 "IsADirectory" "Is a directory"

/-- The device takes no more bytes. -/
def noSpace : SystemFault := .system 28 "StorageFull" "No space left on device"

/-- A name or a path has too many bytes. -/
def nameTooLong : SystemFault := .system 36 "InvalidFilename" "File name too long"

/-- The user may not do that. -/
def permissionDenied : SystemFault := .system 13 "PermissionDenied" "Permission denied"

/-- The files of the device can not be changed. -/
def readOnly : SystemFault := .system 30 "ReadOnlyFilesystem" "Read-only file system"

/-- The faults that have a kind of their own. -/
def known : List SystemFault :=
  [notFound, permissionDenied, notDirectory, isDirectory, noSpace, readOnly, nameTooLong]

/-- The number of a fault; zero for a fault that the system did not number. -/
def code : SystemFault → Nat
  | .system code _ _ => code
  | .notText => 0

/-- The fault with a number; a fault without a kind of its own has the given text. -/
def ofCode (code : Nat) (message : String) : SystemFault :=
  (known.find? fun f => f.code == code).getD (.system code "Uncategorized" message)

/-- The text shown for a fault. -/
def text : SystemFault → String
  | .system code _ message => message ++ " (os error " ++ code.repr ++ ")"
  | .notText => "stream did not contain valid UTF-8"

/-- A fault with all its parts. -/
def detail : SystemFault → String
  | .system code kind message => "Os \x7b code: " ++ code.repr ++ ", kind: " ++ kind ++
      ", message: \"" ++ message ++ "\" \x7d"
  | .notText => "Error \x7b kind: InvalidData, message: \"stream did not contain valid " ++
      "UTF-8\" \x7d"

end SystemFault

/-- The steps of reading or writing a file. -/
inductive FileStep where
  | creating
  | writing
  | opening
  | reading
deriving DecidableEq, Repr

/-- What could not be done, as a verb. -/
def FileStep.verb : FileStep → String
  | .creating => "create"
  | .writing => "write"
  | .opening => "open"
  | .reading => "read"

/-- A step that failed, and why. -/
structure FileFault where
  /-- The step. -/
  step : FileStep
  /-- Why it failed. -/
  cause : SystemFault
deriving DecidableEq, Repr

/-- The text shown for a step that failed. -/
def FileFault.message (f : FileFault) : String :=
  "could not " ++ f.step.verb ++ " file: " ++ f.cause.text

/-- Reading and writing whole files. -/
structure Files (m : Type → Type) where
  /-- The bytes of the file at a path. -/
  read : String → m (Except FileFault (List UInt8))
  /-- Puts bytes into the file at a path, in the stead of what it held. -/
  write : String → List UInt8 → m (Except FileFault Unit)

/-- The text of the file at a path. -/
def Files.readText {m : Type → Type} [Monad m] (files : Files m) (path : String) :
    m (Except FileFault String) := do
  match ← files.read path with
  | .error fault => return .error fault
  | .ok bytes =>
    match Codec.ofUtf8? bytes with
    | some text => return .ok text
    | none => return .error ⟨.reading, .notText⟩

end BpmnModel
