import BpmnModel.Condition.Check
import BpmnModel.Proofs.Text.Blank

/-!
# The texts of violations

What is wrong with a condition is told as a text.  The text quotes what breaks the rule, which is a
path, a value, an operator or the source of an edge, and its words are those of one rule, so that a
reader learns from it which rule is broken and by what.

## Main definitions

* `ValueFault.Says cause text`, `ConditionProblem.Says problem text` — the text of a broken rule.

## Main statements

* `ConditionProblem.says_iff` — a check tells each problem in its text.
* `ConditionProblem.Says.unique` — a text tells of one problem.
-/

namespace BpmnModel

/-! ## The texts -/

/-- The text that tells what a value fails to be.  It quotes the value. -/
inductive ValueFault.Says : ValueFault → String → Prop
  | notBoolean (raw : String) : Says (.notBoolean raw) ("'" ++ raw ++ "' is not a boolean keyword")
  | notInteger (raw : String) : Says (.notInteger raw) ("'" ++ raw ++ "' is not an integer")
  | notUnsigned (raw : String) :
    Says (.notUnsigned raw) ("'" ++ raw ++ "' is not an unsigned integer")

/-- The text that tells which rule is broken.  It quotes the path, the value, the operator or the
source that breaks it. -/
inductive ConditionProblem.Says : ConditionProblem → String → Prop
  | unknownPath (path : String) :
    Says (.unknownPath path) ("condition references unknown data path '" ++ path ++ "'")
  | unmappedType (type : ParameterType) (path : String) :
    Says (.unmappedType type path)
      ("no data type is mapped for parameter type " ++ type.name ++ " of '" ++ path ++ "'")
  | value {cause : ValueFault} {text : String} (h : cause.Says text) : Says (.value cause) text
  | operator (text : String) :
    Says (.operator text) ("invalid operator '" ++ text ++ "', expected a code between 0 and 5")
  | source (id : String) :
    Says (.source id) ("conditions are only allowed on transitions leaving a single XOR " ++
      "gateway, but source '" ++ id ++ "' is not one")

theorem ValueFault.says_iff {cause : ValueFault} {text : String} :
    cause.Says text ↔ text = cause.message := by
  constructor
  · intro h
    cases h <;> rfl
  · rintro rfl
    cases cause with
    | notBoolean raw => exact .notBoolean raw
    | notInteger raw => exact .notInteger raw
    | notUnsigned raw => exact .notUnsigned raw

/-- The last code is written out. -/
theorem ConditionProblem.message_operator (text : String) : (operator text).message =
    "invalid operator '" ++ text ++ "', expected a code between 0 and 5" := by
  have hback : "', expected a code between 0 and " ++
      ((Closed.all (α := Operator)).length - 1).repr = "', expected a code between 0 and 5" := by
    decide
  rw [← hback, ← String.append_assoc]
  rfl

/-- **A check tells each problem in its text.** -/
theorem ConditionProblem.says_iff {problem : ConditionProblem} {text : String} :
    problem.Says text ↔ text = problem.message := by
  constructor
  · intro h
    cases h with
    | value h => exact ValueFault.says_iff.mp h
    | operator text => exact (message_operator text).symm
    | _ => rfl
  · rintro rfl
    cases problem with
    | unknownPath path => exact .unknownPath path
    | unmappedType type path => exact .unmappedType type path
    | value cause => exact .value (ValueFault.says_iff.mpr rfl)
    | operator text => exact message_operator text ▸ .operator text
    | source id => exact .source id

/-! ## One text for one problem -/

/-- A text about a value begins with the quote in front of it. -/
theorem ValueFault.Says.head? {cause : ValueFault} {text : String} (h : cause.Says text) :
    text.toList.head? = some '\'' := by
  cases h <;> simp

/-- The texts about values differ in the words behind the value. -/
theorem ValueFault.eq_of_says {a b : ValueFault} {text text' : String} (ha : a.Says text)
    (hb : b.Says text') (h : text = text') : a = b := by
  have hback := congrArg (fun text => text.toList.reverse) h
  cases ha <;> cases hb
  case notBoolean.notBoolean raw raw' => simpa using h
  case notInteger.notInteger raw raw' => simpa using h
  case notUnsigned.notUnsigned raw raw' => simpa using h
  all_goals simp at hback

/-- No blank stands in the name of a type, so that the name ends where the next word begins. -/
theorem ParameterType.eq_of_name_append {a b : ParameterType} {cs ds : List Char}
    (h : a.name.toList ++ ' ' :: cs = b.name.toList ++ ' ' :: ds) : a = b ∧ cs = ds := by
  have hname : ∀ type : ParameterType, ∀ c ∈ type.name.toList, (c != ' ') = true := by
    intro type
    rw [← List.all_eq_true]
    cases type <;> decide +kernel
  have htake := congrArg (List.takeWhile (· != ' ')) h
  rw [Text.takeWhile_append_cons (hname a) rfl, Text.takeWhile_append_cons (hname b) rfl] at htake
  obtain rfl := Closed.symbol_injective a b (String.toList_injective htake)
  exact ⟨rfl, (List.cons.inj (List.append_cancel_left h)).2⟩

/-- The character that the text of a problem begins with. -/
def ConditionProblem.firstChar : ConditionProblem → Char
  | .unknownPath _ => 'c'
  | .unmappedType _ _ => 'n'
  | .value _ => '\''
  | .operator _ => 'i'
  | .source _ => 'c'

theorem ConditionProblem.Says.head? {problem : ConditionProblem} {text : String}
    (h : problem.Says text) : text.toList.head? = some problem.firstChar := by
  cases h with
  | value h => exact h.head?
  | _ => simp [firstChar]

/-- The texts of two rules begin with different words. -/
theorem ConditionProblem.eq_of_says {a b : ConditionProblem} {text text' : String}
    (ha : a.Says text) (hb : b.Says text') (h : text = text') : a = b := by
  have hchars := congrArg String.toList h
  have hfirst : a.firstChar = b.firstChar := by
    rw [← Option.some_inj, ← ha.head?, ← hb.head?, h]
  cases ha <;> cases hb
  case unknownPath.unknownPath path path' => simpa using h
  case unmappedType.unmappedType type path type' path' =>
    have hrest : type.name.toList ++ ' ' :: ("of '".toList ++ (path.toList ++ ['\''])) =
        type'.name.toList ++ ' ' :: ("of '".toList ++ (path'.toList ++ ['\''])) := by
      simpa using hchars
    obtain ⟨rfl, hpath⟩ := ParameterType.eq_of_name_append hrest
    have : path.toList = path'.toList := by simpa using hpath
    rw [String.toList_injective this]
  case value.value ha _ hb => rw [ValueFault.eq_of_says ha hb h]
  case operator.operator text text' => simpa using h
  case source.source id id' => simpa using h
  case unknownPath.source path id => simp at hchars
  case source.unknownPath id path => simp at hchars
  all_goals simp [firstChar] at hfirst

/-- **A text tells of one problem.** -/
theorem ConditionProblem.Says.unique {a b : ConditionProblem} {text : String} (ha : a.Says text)
    (hb : b.Says text) : a = b :=
  eq_of_says ha hb rfl

end BpmnModel
