import BpmnModel.Model.Kinds

/-!
# What a generated document leaves to chance

A generated document has a given shape: so many processes, tasks and lanes.  Chance decides
three things for each task: the lane that it belongs to, whether it declares data mappings,
and the condition of the edge to the next task.  The draws are part of the input, so that a
generated document is a function of its shape and its draws.

## Main definitions

* `Shape` — the counts.
* `SampleField` — a field with values for conditions on it.
* `Guard` — a field, a value and an operator.
* `TaskDraw lanes`, `Draws lanes` — what chance decides.
* `Draws.ofSeed seed` — draws for a run.
-/

namespace BpmnModel

/-- The counts of a generated document. -/
structure Shape where
  /-- The number of processes. -/
  processes : Nat := 1
  /-- The number of tasks of each process. -/
  tasks : Nat := 5
  /-- The number of lanes of each process. -/
  lanes : Nat := 2
  /-- Whether consecutive tasks are joined through gateways with conditions. -/
  conditions : Bool := false
deriving DecidableEq, Repr, Inhabited

/-! ## Conditions -/

/-- The fields that a generated document declares besides the agreement. -/
inductive SampleField where
  | approved
  | amount
  | quantity
  | buyer
deriving DecidableEq, Repr, Inhabited

namespace SampleField

/-- All fields, in the order of their declaration. -/
def all : List SampleField := [.approved, .amount, .quantity, .buyer]

/-- The path of a field. -/
def path : SampleField → String
  | .approved => "approved"
  | .amount => "amount"
  | .quantity => "quantity"
  | .buyer => "buyer"

/-- The type of a field. -/
def type : SampleField → ParameterType
  | .approved => .boolean
  | .amount => .number
  | .quantity => .positiveNumber
  | .buyer => .userOrganization

/-- The values that a field is compared with. -/
def values : SampleField → List String
  | .approved => ["true", "false"]
  | .amount => ["-50", "100", "2500"]
  | .quantity => ["1", "10", "42"]
  | .buyer => ["0xA11CE", "0xB0B"]

theorem values_length_pos (f : SampleField) : 0 < f.values.length := by
  cases f <;> decide

/-- The field with a number, counted round and round. -/
def ofNumber (n : Nat) : SampleField :=
  match n % 4 with
  | 0 => .approved
  | 1 => .amount
  | 2 => .quantity
  | _ => .buyer

end SampleField

/-- The condition of an edge: a field, one of its values, and an operator. -/
structure Guard where
  /-- The compared field. -/
  field : SampleField
  /-- The place of the value among those of the field. -/
  choice : Fin field.values.length
  /-- The operator. -/
  operator : Operator
deriving DecidableEq, Repr

namespace Guard

/-- The value that the field is compared with. -/
def value (g : Guard) : String :=
  g.field.values[g.choice]

/-- The condition with the given numbers, each counted round and round. -/
def ofNumbers (field choice operator : Nat) : Guard :=
  let f := SampleField.ofNumber field
  { field := f
    choice := ⟨choice % f.values.length, Nat.mod_lt _ f.values_length_pos⟩
    operator := (Closed.ofIndex? (operator % (Closed.all (α := Operator)).length)).getD .eq }

instance : Inhabited Guard := ⟨ofNumbers 0 0 0⟩

end Guard

/-! ## Draws -/

/-- What chance decides for one task. -/
structure TaskDraw (lanes : Nat) where
  /-- The lane that the task belongs to. -/
  lane : Fin lanes
  /-- Whether the task declares data mappings. -/
  mapped : Bool
  /-- The condition of the edge to the next task, where edges have conditions. -/
  guard : Guard
deriving DecidableEq, Repr

/-- The draws of a document, by process and task. -/
abbrev Draws (lanes : Nat) := Nat → Nat → TaskDraw lanes

/-- The draw with the given number of a lane, counted round and round. -/
def TaskDraw.ofNumbers {lanes : Nat} (h : 0 < lanes) (lane : Nat) (mapped : Bool)
    (guard : Guard) : TaskDraw lanes :=
  { lane := ⟨lane % lanes, Nat.mod_lt _ h⟩, mapped, guard }

/-- Draws that follow from a seed. -/
def Draws.ofSeed (seed : UInt64) {lanes : Nat} (h : 0 < lanes) : Draws lanes := fun process task =>
  let number (purpose : Nat) : Nat :=
    (mixHash (mixHash seed (hash process)) (mixHash (hash task) (hash purpose))).toNat
  .ofNumbers h (number 0) (number 1 % 2 == 0) (.ofNumbers (number 2) (number 3) (number 4))

end BpmnModel
