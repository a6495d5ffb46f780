import BpmnModel.Model.Flow
import BpmnModel.Text.Blank
import BpmnModel.Text.Numeral

/-!
# Values of conditions

The right-hand side of a condition is declared as text and read for the storage type of the
field that it is compared with.  Numbers and keywords may stand between blanks; a text is
kept as it is.

## Main definitions

* `ValueFault` — why a text is no value of a type.
* `ConditionValue.ofText raw type` — the value that `raw` denotes.
-/

namespace BpmnModel

/-- What a text fails to be. -/
inductive ValueFault where
  | notBoolean (raw : String)
  | notInteger (raw : String)
  | notUnsigned (raw : String)
deriving DecidableEq, Repr

/-- The text that describes why a value can not be read. -/
def ValueFault.message : ValueFault → String
  | .notBoolean raw => "'" ++ raw ++ "' is not a boolean keyword"
  | .notInteger raw => "'" ++ raw ++ "' is not an integer"
  | .notUnsigned raw => "'" ++ raw ++ "' is not an unsigned integer"

namespace ConditionValue

/-- The truth value that a keyword stands for, in any case of its letters. -/
def keyword? (s : String) : Option Bool :=
  if Text.sameLetters s "true" then some true
  else if Text.sameLetters s "false" then some false
  else none

/-- The value that `raw` denotes for a storage type. -/
def ofText (raw : String) : DataType → Except ValueFault ConditionValue
  | .bool => match keyword? (Text.trim raw) with
    | some b => .ok (.bool b)
    | none => .error (.notBoolean raw)
  | .int256 => match Text.int64? (Text.trim raw) with
    | some n => .ok (.int n)
    | none => .error (.notInteger raw)
  | .uint256 => match Text.word64? (Text.trim raw) with
    | some n => .ok (.uint n)
    | none => .error (.notUnsigned raw)
  | .string => .ok (.text raw)
  | .address => .ok (.text raw)
  | .bytes32 => .ok (.text raw)

end ConditionValue

end BpmnModel
