import BpmnModel.Files.Basic
import BpmnModel.Files.Path

/-!
# A disk as a value

A disk holds files and devices in directories.  It answers the two operations on files as a
system does, and is otherwise an ordinary value, so that what a command does to it can be
computed.

A path is followed step by step.  All steps but the last one have to lead to directories;
what the last one leads to is left to the operation, since writing may create it.

## Main definitions

* `Disk` — what is where, and the working directory.
* `Disk.locate` — what a path leads to.
* `Disk.read`, `Disk.write` — the two operations.
* `Disk.files` — the operations as state changes.

## Main statements

* `Disk.read_of_write` — what was written can be read.
-/

namespace BpmnModel

/-- Where something is on a disk: the names on the way from the root. -/
abbrev Place := List String

/-- What is at a place. -/
inductive DiskNode where
  | directory
  | file (bytes : List UInt8)
  /-- A device holds nothing; it takes any bytes, or none. -/
  | device (takes : Bool)
deriving DecidableEq, Repr

/-- Files and devices in directories. -/
structure Disk where
  /-- What is at each place. -/
  node? : Place → Option DiskNode
  /-- The directory in which relative paths begin. -/
  working : Place := []

namespace Disk

/-- The disk with nothing but what is listed. -/
def ofList (working : Place) (nodes : List (Place × DiskNode)) : Disk where
  node? place := nodes.lookup place
  working := working

/-- The disk with the node at the place, in the stead of what was there. -/
def put (d : Disk) (place : Place) (node : DiskNode) : Disk :=
  { d with node? := fun q => if q = place then some node else d.node? q }

@[simp] theorem node?_put (d : Disk) (place q : Place) (node : DiskNode) :
    (d.put place node).node? q = if q = place then some node else d.node? q := rfl

@[simp] theorem working_put (d : Disk) (place : Place) (node : DiskNode) :
    (d.put place node).working = d.working := rfl

/-! ## Following a path -/

/-- What has the name in the directory `here`. -/
def look (d : Disk) (here : Place) (name : String) : Except SystemFault (Option DiskNode) :=
  if Path.nameLimit < name.utf8ByteSize then .error .nameTooLong
  else .ok (d.node? (here ++ [name]))

/-- The directory to which a step leads from the directory `here`; there is nothing around
the root. -/
def enter (d : Disk) (here : Place) : PathStep → Except SystemFault Place
  | .stay => .ok here
  | .up => .ok here.dropLast
  | .down name =>
    match d.look here name with
    | .error cause => .error cause
    | .ok none => .error .notFound
    | .ok (some .directory) => .ok (here ++ [name])
    | .ok (some _) => .error .notDirectory

/-- Where the last step of a path leads. -/
inductive Target where
  /-- To a directory, since the step is not a name. -/
  | directory
  /-- To what has the name in the directory `here`, if there is such a thing; `closed` says
  that it should be a directory. -/
  | named (here : Place) (name : String) (closed : Bool)
deriving DecidableEq, Repr

/-- Follows the steps of a path up to the last one. -/
def follow (d : Disk) (p : Path) : Except SystemFault Place :=
  p.steps.dropLast.foldlM d.enter (if p.absolute then [] else d.working)

/-- Where a path leads. -/
def locate (d : Disk) (text : String) : Except SystemFault Target :=
  if text = "" then .error .notFound
  else if Path.textLimit ≤ text.utf8ByteSize then .error .nameTooLong
  else
    let p := Path.ofText text
    match d.follow p with
    | .error cause => .error cause
    | .ok here =>
      match p.steps.getLast? with
      | some (.down name) => .ok (.named here name p.closed)
      | _ => .ok .directory

/-! ## The two operations -/

/-- The bytes that a node gives; a directory can be opened, but not read. -/
def bytesOf (closed : Bool) : Option DiskNode → Except FileFault (List UInt8)
  | none => .error ⟨.opening, .notFound⟩
  | some .directory => .error ⟨.reading, .isDirectory⟩
  | some (.file bytes) => if closed then .error ⟨.opening, .notDirectory⟩ else .ok bytes
  | some (.device _) => if closed then .error ⟨.opening, .notDirectory⟩ else .ok []

/-- The bytes of the file at a path. -/
def read (d : Disk) (path : String) : Except FileFault (List UInt8) :=
  match d.locate path with
  | .error cause => .error ⟨.opening, cause⟩
  | .ok .directory => .error ⟨.reading, .isDirectory⟩
  | .ok (.named here name closed) =>
    match d.look here name with
    | .error cause => .error ⟨.opening, cause⟩
    | .ok node => bytesOf closed node

/-- The disk with the bytes at a place where the given node was. -/
def writeAt (d : Disk) (place : Place) (bytes : List UInt8) :
    Option DiskNode → Except FileFault Disk
  | some .directory => .error ⟨.creating, .isDirectory⟩
  | some (.device takes) =>
    if takes || bytes.isEmpty then .ok d else .error ⟨.writing, .noSpace⟩
  | some (.file _) => .ok (d.put place (.file bytes))
  | none => .ok (d.put place (.file bytes))

/-- The disk with the bytes in the file at a path.  Where a slash stands behind the name,
a file can neither be nor be created. -/
def write (d : Disk) (path : String) (bytes : List UInt8) : Except FileFault Disk :=
  match d.locate path with
  | .error cause => .error ⟨.creating, cause⟩
  | .ok .directory => .error ⟨.creating, .isDirectory⟩
  | .ok (.named here name closed) =>
    if closed then .error ⟨.creating, .isDirectory⟩
    else match d.look here name with
      | .error cause => .error ⟨.creating, cause⟩
      | .ok node => d.writeAt (here ++ [name]) bytes node

/-- The two operations, as changes of a disk; a failing one changes nothing. -/
def files : Files (StateM Disk) where
  read path := do return (← get).read path
  write path bytes := do
    match (← get).write path bytes with
    | .error fault => return .error fault
    | .ok d =>
      set d
      return .ok ()

/-- Reading leaves the disk as it was. -/
theorem run_read (d : Disk) (path : String) : (files.read path).run d = (d.read path, d) := rfl

theorem run_write (d : Disk) (path : String) (bytes : List UInt8) :
    (files.write path bytes).run d =
      match d.write path bytes with
      | .error fault => (.error fault, d)
      | .ok d' => (.ok (), d') := by
  show (match d.write path bytes with
    | .error fault => pure (.error fault)
    | .ok d' => do
      set d'
      return .ok () : StateM Disk (Except FileFault Unit)).run d = _
  cases d.write path bytes <;> rfl

/-- The path leads to a device. -/
def IsDevice (d : Disk) (path : String) : Prop :=
  ∃ here name takes, d.locate path = .ok (.named here name false) ∧
    d.look here name = .ok (some (.device takes))

/-! ## What is written can be read -/

/-- A step into a directory does not depend on what is at a place where no directory is. -/
theorem enter_put {d : Disk} {here next place : Place} {s : PathStep} {node : DiskNode}
    (hplace : d.node? place ≠ some .directory) (h : d.enter here s = .ok next) :
    (d.put place node).enter here s = .ok next := by
  cases s with
  | stay => exact h
  | up => exact h
  | down name =>
    unfold enter look at h ⊢
    by_cases hlimit : Path.nameLimit < name.utf8ByteSize
    · simp [hlimit] at h
    · by_cases hq : here ++ [name] = place
      · simp only [hlimit, if_false, hq] at h
        split at h <;> simp_all
      · simpa only [hlimit, if_false, node?_put, hq] using h

/-- Nor does the way along a path. -/
theorem foldlM_enter_put {d : Disk} {here next place : Place} {steps : List PathStep}
    {node : DiskNode} (hplace : d.node? place ≠ some .directory)
    (h : steps.foldlM d.enter here = .ok next) :
    steps.foldlM (d.put place node).enter here = .ok next := by
  induction steps generalizing here with
  | nil => exact h
  | cons s steps ih =>
    rw [List.foldlM_cons] at h ⊢
    cases hs : d.enter here s with
    | error cause => simp [hs, bind, Except.bind] at h
    | ok q =>
      rw [enter_put hplace hs]
      rw [hs] at h
      exact ih h

/-- A path still leads where it led before a file was written. -/
theorem locate_put {d : Disk} {place : Place} {text : String} {t : Target} {node : DiskNode}
    (hplace : d.node? place ≠ some .directory) (h : d.locate text = .ok t) :
    (d.put place node).locate text = .ok t := by
  unfold locate at h ⊢
  split at h
  · simp at h
  · split at h
    · simp at h
    · rename_i hempty hlimit
      rw [if_neg hempty, if_neg hlimit]
      cases hf : d.follow (Path.ofText text) with
      | error cause => simp [hf] at h
      | ok here =>
        have hf' : (d.put place node).follow (Path.ofText text) = .ok here :=
          foldlM_enter_put hplace hf
        simpa only [hf, hf'] using h

/-- **What was written can be read**, except that a device holds nothing and stays as it
was. -/
theorem read_of_write {d d' : Disk} {path : String} {bytes : List UInt8}
    (h : d.write path bytes = .ok d') :
    d'.read path = .ok bytes ∨ d' = d ∧ d.IsDevice path := by
  unfold write at h
  split at h
  · simp at h
  · simp at h
  · rename_i here name closed hlocate
    cases closed with
    | true => simp at h
    | false =>
      simp only [Bool.false_eq_true, if_false] at h
      split at h
      · simp at h
      · rename_i node hlook
        have hnode : d.node? (here ++ [name]) = node := by
          unfold look at hlook
          split at hlook
          · simp at hlook
          · exact Except.ok.inj hlook
        have hread : d.node? (here ++ [name]) ≠ some .directory →
            (d.put (here ++ [name]) (.file bytes)).read path = .ok bytes := by
          intro hplace
          have hlook' : (d.put (here ++ [name]) (.file bytes)).look here name =
              .ok (some (.file bytes)) := by
            unfold look at hlook ⊢
            split at hlook
            · simp at hlook
            · rename_i hlimit
              simp [hlimit]
          simp [read, locate_put hplace hlocate, hlook', bytesOf]
        cases node with
        | none =>
          obtain rfl := Except.ok.inj h
          exact .inl (hread (by simp [hnode]))
        | some node =>
          cases node with
          | directory => simp [writeAt] at h
          | file old =>
            obtain rfl := Except.ok.inj h
            exact .inl (hread (by simp [hnode]))
          | device takes =>
            rw [writeAt] at h
            split at h
            · exact .inr ⟨(Except.ok.inj h).symm, here, name, takes, hlocate, hlook⟩
            · simp at h

end Disk

end BpmnModel
