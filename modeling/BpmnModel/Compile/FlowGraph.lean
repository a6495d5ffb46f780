import BpmnModel.Compile.Registry
import BpmnModel.Elements.Lane

/-!
# Flow graphs

The children of a process are classified one by one, in the order of the document, and each
record is entered into the collection of its kind; children without a classifier are passed
over, except for the gateways that no model can hold.  Fallback edges are set aside on the way
and resolved last, since an edge may stand after the gateway that names it.  The collections
of the process are then projections of the list of all records.

## Main definitions

* `FlowGraph.classify` — the record of one child.
* `FlowGraph.Pass`, `FlowGraph.Pass.step` — the pass over the children, one at a time.
* `FlowGraph.resolve` — a fallback edge with its target.
* `FlowGraph.assemble` — the process with its flow graph.
* `FlowGraph.collect` — what a pass makes of a list of records.
* `Process.read` — the process of an element.

## Main statements

* `FlowGraph.Pass.run_collected` — what a pass over the children comes to.
* `FlowGraph.assemble_eq_collect` — what an assembly comes to.
-/

namespace BpmnModel

namespace FlowGraph

/-- The tags of gateways that a model can not hold. -/
def unsupportedGateways : List String :=
  ["inclusiveGateway", "eventBasedGateway", "complexGateway"]

/-! ## Classification -/

/-- Refuses gateways of a type that a process has no collection for. -/
def supported (tag : String) : FlowElement → Except StructureError FlowElement
  | .gateway g stub =>
    if g.gatewayType = .or then .error (.unsupportedElement g.id tag)
    else .ok (.gateway g stub)
  | e => .ok e

/-- The record of a child of a process; nothing for a child without a classifier. -/
def classify (r : Registry) (s : Settings) (participants : List Participant)
    (node : Element) : Except StructureError (Option FlowElement) :=
  match r.get? node.tag with
  | none =>
    if unsupportedGateways.contains node.tag then
      .error (.unsupportedElement node.id node.tag)
    else .ok none
  | some classifier => do
    let e ← classifier s participants node
    let e ← supported node.tag e
    return some e

/-! ## The pass over the children -/

/-- A pass over the children of a process. -/
structure Pass where
  /-- The process with the records that the pass has met in its collections. -/
  process : Process
  /-- The fallback edges that the pass has met, their targets still unknown. -/
  stubs : List DefaultTransition := []

namespace Pass

/-- Enters a record into the collection of its kind. -/
def enter (pass : Pass) : FlowElement → Pass
  | .activity a => { pass with process := pass.process.addActivity a }
  | .gateway g stub =>
    { process := pass.process.addGateway g, stubs := pass.stubs ++ stub.toList }
  | .transition t => { pass with process := pass.process.addTransition t }

/-- Goes over one child. -/
def step (r : Registry) (s : Settings) (pass : Pass) (node : Element) :
    Except StructureError Pass := do
  match ← classify r s pass.process.participants node with
  | none => return pass
  | some e => return pass.enter e

end Pass

/-! ## Fallback edges -/

/-- A fallback edge with the target of the first transition that it names. -/
def resolve (p : Process) (stub : DefaultTransition) :
    Except StructureError DefaultTransition :=
  match p.transition? stub.transition with
  | some t => .ok { stub with activity := t.target }
  | none => .error (.danglingDefault stub.gateway stub.transition)

/-- The process with one more fallback edge. -/
def addDefault (p : Process) (stub : DefaultTransition) : Except StructureError Process := do
  let d ← resolve p stub
  return { p with defaultTransitions := p.defaultTransitions ++ [d] }

/-! ## Assembly -/

/-- The process `p`, which has its participants, with the flow graph of its element. -/
def assemble (r : Registry) (s : Settings) (p : Process) (node : Element) :
    Except StructureError Process := do
  let pass ← node.children.foldlM (Pass.step r s) { process := p }
  pass.stubs.foldlM addDefault pass.process

/-! ## Collections -/

/-- The activities of one kind. -/
def activitiesOf (kind : ActivityKind) (elements : List FlowElement) : List Activity :=
  (elements.filterMap FlowElement.activity?).filter fun a => a.kind == kind

/-- The gateways of one type. -/
def gatewaysOf (type : GatewayType) (elements : List FlowElement) : List Gateway :=
  (elements.filterMap FlowElement.gateway?).filter fun g => g.gatewayType == type

/-- The display names of all activities by identifier, later ones first. -/
def namesOf (elements : List FlowElement) : Table String :=
  Table.ofList ((elements.filterMap FlowElement.activity?).map fun a => (a.id, a.name))

/-- The process with the records in its collections. -/
def collect (p : Process) (elements : List FlowElement) : Process :=
  { p with
    tasks := activitiesOf .task elements
    userTasks := activitiesOf .userTask elements
    sendTasks := activitiesOf .sendTask elements
    serviceTasks := activitiesOf .serviceTask elements
    subProcesses := activitiesOf .subProcess elements
    xorGateways := gatewaysOf .xor elements
    andGateways := gatewaysOf .and elements
    transitions := elements.filterMap FlowElement.transition?
    activityMap := namesOf elements }

end FlowGraph

namespace Process

/-- The interface that the properties of a process declare. -/
def readInterface (s : Settings) (node : Element) : Except StructureError String := do
  let properties ← Properties.read s node
  return (properties.bind fun p => p.get? s.interfaceProperty).getD ""

/-- The process of an element: its interface, then its participants, then its flow graph. -/
def read (r : Registry) (s : Settings) (node : Element) : Except StructureError Process := do
  let interface ← readInterface s node
  let participants ← Lane.readAll s node
  FlowGraph.assemble r s { id := node.id, name := node.name, interface, participants } node

end Process

/-! ## What an assembly comes to -/

namespace FlowGraph

variable {r : Registry} {s : Settings} {p : Process} {node : Element} {e : FlowElement}

/-- A collection of the records of one kind grows at its end. -/
theorem filter_filterMap_concat {α : Type} (part : FlowElement → Option α) (keep : α → Bool)
    (elements : List FlowElement) (e : FlowElement) :
    ((elements ++ [e]).filterMap part).filter keep =
      (elements.filterMap part).filter keep ++ ((part e).filter keep).toList := by
  cases h : part e with
  | none => simp [h]
  | some x => cases hk : keep x <;> simp [h, hk, Option.filter]

theorem namesOf_concat_activity (elements : List FlowElement) (a : Activity) :
    namesOf (elements ++ [.activity a]) = (namesOf elements).insert a.id a.name := by
  simp [namesOf, FlowElement.activity?, Table.ofList_concat]

theorem namesOf_concat_of_none (elements : List FlowElement) (h : e.activity? = none) :
    namesOf (elements ++ [e]) = namesOf elements := by
  simp [namesOf, h]

namespace Pass

/-- A pass that has met the given records. -/
def collected (p : Process) (elements : List FlowElement) : Pass where
  process := collect p elements
  stubs := elements.filterMap FlowElement.stub?

/-- **Entering a record extends the collections by it.** -/
theorem enter_collected (elements : List FlowElement) (e : FlowElement) :
    (collected p elements).enter e = collected p (elements ++ [e]) := by
  simp only [collected, collect, activitiesOf, gatewaysOf, filter_filterMap_concat]
  cases e with
  | activity a =>
    simp only [enter, Process.addActivity, namesOf_concat_activity]
    cases hk : a.kind <;> simp [FlowElement.activity?, FlowElement.gateway?,
      FlowElement.transition?, FlowElement.stub?, Option.filter, hk]
  | gateway g stub =>
    have hnames := namesOf_concat_of_none (e := .gateway g stub) elements rfl
    simp only [enter, Process.addGateway, hnames]
    cases ht : g.gatewayType <;> cases stub <;> simp [FlowElement.activity?, FlowElement.gateway?,
      FlowElement.transition?, FlowElement.stub?, Option.filter, ht]
  | transition t =>
    have hnames := namesOf_concat_of_none (e := .transition t) elements rfl
    simp only [enter, Process.addTransition, hnames]
    simp [FlowElement.activity?, FlowElement.gateway?, FlowElement.transition?, FlowElement.stub?]

theorem step_collected (elements : List FlowElement) : step r s (collected p elements) node =
    (classify r s p.participants node).map fun o => collected p (elements ++ o.toList) := by
  show (classify r s p.participants node >>= _) = _
  cases classify r s p.participants node with
  | error cause => rfl
  | ok o =>
    cases o with
    | none => exact congrArg (fun es => Except.ok (collected p es)) elements.append_nil.symm
    | some e => exact congrArg Except.ok (enter_collected elements e)

/-- **What a pass over a row of children comes to**, whatever it has met before. -/
theorem run_collected (elements : List FlowElement) (cs : List Element) :
    cs.foldlM (step r s) (collected p elements) =
      (cs.mapM (classify r s p.participants)).map fun os =>
        collected p (elements ++ os.filterMap fun o => o) := by
  induction cs generalizing elements with
  | nil => simp [pure, Except.pure, Except.map]
  | cons c cs ih =>
    rw [List.foldlM_cons, List.mapM_cons, step_collected]
    cases classify r s p.participants c with
    | error cause => rfl
    | ok o =>
      show cs.foldlM (step r s) (collected p (elements ++ o.toList)) = _
      rw [ih]
      cases cs.mapM (classify r s p.participants) with
      | error cause => rfl
      | ok os => cases o <;> simp [bind, Except.bind, pure, Except.pure, Except.map]

end Pass

/-- **Fallback edges are resolved one by one**, each against the transitions of the process. -/
theorem foldlM_addDefault (stubs : List DefaultTransition) : stubs.foldlM addDefault p =
    (stubs.mapM (resolve p)).map fun ds =>
      { p with defaultTransitions := p.defaultTransitions ++ ds } := by
  induction stubs generalizing p with
  | nil => simp [pure, Except.pure, Except.map]
  | cons stub stubs ih =>
    rw [List.foldlM_cons, List.mapM_cons, addDefault]
    cases resolve p stub with
    | error cause => rfl
    | ok d =>
      have hsame : resolve { p with defaultTransitions := p.defaultTransitions ++ [d] } =
          resolve p := rfl
      show stubs.foldlM addDefault
        { p with defaultTransitions := p.defaultTransitions ++ [d] } = _
      rw [ih, hsame]
      cases stubs.mapM (resolve p) with
      | error cause => rfl
      | ok ds => simp [bind, Except.bind, pure, Except.pure, Except.map]

/-- **What an assembly comes to** for a process that has its participants and nothing else. -/
theorem assemble_eq_collect {id name interface : String} {participants : List Participant} :
    assemble r s { id, name, interface, participants } node = (do
      let records ← node.children.mapM (classify r s participants)
      let elements := records.filterMap fun e => e
      let graph := collect { id, name, interface, participants } elements
      let defaultTransitions ← (elements.filterMap FlowElement.stub?).mapM (resolve graph)
      return { graph with defaultTransitions }) := by
  have hstart : ({ process := { id, name, interface, participants } } : Pass) =
      .collected { id, name, interface, participants } [] := rfl
  rw [assemble, hstart, Pass.run_collected]
  cases node.children.mapM (classify r s participants) with
  | error cause => rfl
  | ok os =>
    show (Pass.collected _ (os.filterMap fun o => o)).stubs.foldlM addDefault
      (Pass.collected _ (os.filterMap fun o => o)).process = _
    rw [foldlM_addDefault]
    rfl

end FlowGraph

end BpmnModel
