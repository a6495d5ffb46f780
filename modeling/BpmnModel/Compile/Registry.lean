import BpmnModel.Elements.Gateway
import BpmnModel.Elements.SequenceFlow
import BpmnModel.Elements.Task

/-!
# Classifiers and their registry

A flow element is turned into a record by a classifier, a function of the element and of
the participants of its process.  A registry finds the classifier by the tag.  Eight tags
are built in; a caller may let further tags stand for these, or bring classifiers of his
own.

## Main definitions

* `FlowElement` — what a classifier yields.
* `Classifier` — a classifier.
* `Registry.builtin?` — the built-in classifiers by tag.
* `Registry.withAlias`, `Registry.withClassifier` — a registry with one more entry.
-/

namespace BpmnModel

/-- What an element of a flow graph stands for. -/
inductive FlowElement where
  | activity (activity : Activity)
  /-- A gateway, with its fallback edge whose target is not known yet. -/
  | gateway (gateway : Gateway) (stub : Option DefaultTransition)
  | transition (transition : Transition)
deriving DecidableEq, Inhabited

namespace FlowElement

/-- The activity, if the element is one. -/
def activity? : FlowElement → Option Activity
  | .activity a => some a
  | _ => none

/-- The gateway, if the element is one. -/
def gateway? : FlowElement → Option Gateway
  | .gateway g _ => some g
  | _ => none

/-- The fallback edge, if the element is a gateway with one. -/
def stub? : FlowElement → Option DefaultTransition
  | .gateway _ stub => stub
  | _ => none

/-- The transition, if the element is one. -/
def transition? : FlowElement → Option Transition
  | .transition t => some t
  | _ => none

end FlowElement

/-- Turns an element into a record, with the settings and the participants of its process
at hand. -/
abbrev Classifier :=
  Settings → List Participant → Element → Except StructureError FlowElement

namespace Classifier

/-- A classifier of activities. -/
def activity (read : Settings → List Participant → Element → Except StructureError Activity) :
    Classifier :=
  fun s participants node => (read s participants node).map .activity

/-- A classifier of gateways of one type. -/
def gateway (type : GatewayType) : Classifier :=
  fun _ _ node => (Gateway.read type node).map fun g => .gateway g g.stub?

/-- The classifier of sequence flows. -/
def transition : Classifier :=
  fun s _ node => (SequenceFlow.read s node).map .transition

end Classifier

/-- The classifiers by tag. -/
abbrev Registry := Table Classifier

namespace Registry

/-- The built-in classifiers with their tags. -/
def builtins : List (String × Classifier) :=
  [("task", .activity fun s _ => Task.readPlain s),
    ("userTask", .activity Task.readUser),
    ("sendTask", .activity fun s _ => Task.readSend s),
    ("serviceTask", .activity fun s _ => Task.readService s),
    ("subProcess", .activity fun s _ => Task.readSubProcess s),
    ("exclusiveGateway", .gateway .xor),
    ("parallelGateway", .gateway .and),
    ("sequenceFlow", .transition)]

/-- The built-in classifier of a tag. -/
def builtin? (tag : String) : Option Classifier :=
  builtins.lookup tag

/-- The registry that knows the built-in classifiers only. -/
def standard : Registry :=
  Table.ofList builtins

/-- Lets `tag` stand for a built-in tag; a tag that is not built in changes nothing. -/
def withAlias (r : Registry) (tag builtinTag : String) : Registry :=
  match builtin? builtinTag with
  | some c => r.insert tag c
  | none => r

/-- Lets a classifier read the elements with the given tag. -/
def withClassifier (r : Registry) (tag : String) (c : Classifier) : Registry :=
  r.insert tag c

end Registry

end BpmnModel
