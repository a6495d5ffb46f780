/-!
# Violations

A process whose structure is sound can still break rules of meaning.  These are gathered
over the whole process and told together.
-/

namespace BpmnModel

/-- A rule of meaning that a transition breaks. -/
structure Violation where
  /-- The transition. -/
  transitionId : String
  /-- What is wrong with it. -/
  message : String
deriving DecidableEq, Repr, Inhabited

/-- The text shown for a violation. -/
def Violation.text (v : Violation) : String :=
  "transition '" ++ v.transitionId ++ "': " ++ v.message

/-- A process that breaks rules of meaning. -/
structure ValidationError where
  /-- The process. -/
  processId : String
  /-- What its transitions break, in their order. -/
  violations : List Violation
deriving DecidableEq, Repr, Inhabited

/-- The text shown for a process that breaks rules of meaning. -/
def ValidationError.message (e : ValidationError) : String :=
  "Process '" ++ e.processId ++ "' failed validation: " ++
    "; ".intercalate (e.violations.map Violation.text)

end BpmnModel
