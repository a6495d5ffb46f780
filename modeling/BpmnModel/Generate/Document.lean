import BpmnModel.Generate.Flow
import BpmnModel.Properties.Mapping
import BpmnModel.Xml.Markup

/-!
# Generated documents

A generated document declares the two reserved stores, a collaboration with one participant
for each process, and the processes.  It is well formed for the standard settings, whatever
is drawn.

## Main definitions

* `Generate.root shape draws` — the root element, without layout.
* `Generate.document shape draws` — the text of the document.
-/

namespace BpmnModel.Generate

/-! ## Pieces -/

/-- A name of the notation itself. -/
def bpmn (base : String) : Markup.Name := ⟨some "bpmn", base⟩

/-- A name of the extension that holds properties. -/
def camunda (base : String) : Markup.Name := ⟨some "camunda", base⟩

/-- An attribute without a prefix. -/
def attr (name value : String) : Markup.Attribute := .plain { base := name } value

/-- A property. -/
def property (p : String × String) : Markup :=
  .leaf (camunda "property") [attr "name" p.1, attr "value" p.2]

/-- The block of some properties. -/
def properties (ps : List (String × String)) : Markup :=
  .element (bpmn "extensionElements") [] "" [
    .element (camunda "properties") [] "" (ps.map property)]

/-- An element that holds nothing but a text. -/
def reference (base text : String) : Markup :=
  .element (bpmn base) [] text []

/-! ## Stores and the collaboration -/

/-- The code of a type, as it is written. -/
def typeCode (t : ParameterType) : String :=
  (Coded.code t).repr

/-- The process instance's own store. -/
def instanceStore (s : Settings) : Markup :=
  .element (bpmn "dataStore")
    [attr "id" s.processInstanceStore, attr "name" "Process Instance"] "" [
    properties ((s.agreementField, typeCode .contractAddress) ::
      SampleField.all.map fun f => (f.path, typeCode f.type))]

/-- The store of the agreement. -/
def agreementStore (s : Settings) : Markup :=
  .element (bpmn "dataStore") [attr "id" s.agreementStore, attr "name" "Agreement"] "" [
    properties [("effectiveDate", typeCode .date)]]

/-- The collaboration, with a participant for each process. -/
def collaboration (processes : Nat) : Markup :=
  .element (bpmn "collaboration")
    [attr "id" "Collaboration_generated", attr "name" "Generated Model"] "" (
    properties [("version", "1.0.0"), ("private", "false")] ::
      (List.range processes).map fun i =>
        .leaf (bpmn "participant")
          [attr "id" ("Participant_" ++ i.repr), attr "processRef" ("Process_" ++ i.repr)])

/-! ## Processes -/

section Process

variable (s : Settings) (shape : Shape) (process : Nat)
  (draw : Nat → TaskDraw shape.lanes)

/-- The tasks of a lane, along the row. -/
def tasksOf (lane : Nat) : List Nat :=
  (List.range shape.tasks).filter fun t => (draw t).lane.val = lane

/-- A lane. -/
def lane (lane : Nat) : Markup :=
  .element (bpmn "lane")
    [attr "id" ("Lane_" ++ process.repr ++ "_" ++ lane.repr),
      attr "name" ("Signatory " ++ lane.repr)] "" (
    properties [("dataPath", "buyer"), ("dataStorageId", s.processInstanceStore)] ::
      (tasksOf shape draw lane).map fun t => reference "flowNodeRef" ((Node.task t).id process))

/-- The lanes. -/
def laneSet : Markup :=
  .element (bpmn "laneSet") [attr "id" ("LaneSet_" ++ process.repr)] ""
    ((List.range shape.lanes).map (lane s shape process draw))

/-- The data mappings of a task that declares them. -/
def mappings (task : Nat) : List DataMapping :=
  [{ id := "in" ++ task.repr, direction := .input, dataPath := "amount",
     dataStorageId := s.processInstanceStore },
   { id := "out" ++ task.repr, direction := .output, dataPath := "approved",
     dataStorageId := "" }]

/-- The references to the edges at a node. -/
def edgeReferences (n : Node) : List Markup :=
  (entering shape n).map (fun e => reference "incoming" (e.id process)) ++
    (leaving shape n).map fun e => reference "outgoing" (e.id process)

/-- A task. -/
def userTask (task : Nat) : Markup :=
  .element (bpmn "userTask")
    [attr "id" ((Node.task task).id process), attr "name" ("Review step " ++ task.repr)] "" (
    (if (draw task).mapped then [properties (DataMapping.encode s (mappings s task))] else []) ++
      edgeReferences shape process (.task task))

/-- A gateway. -/
def gateway (task : Nat) : Markup :=
  .element (bpmn "exclusiveGateway")
    [attr "id" ((Node.gateway task).id process),
      attr "default" ((Edge.fallback task).id process)] ""
    (edgeReferences shape process (.gateway task))

/-- The gateways and the end, where edges have conditions. -/
def gateways : List Markup :=
  if shape.conditions then
    (List.range (shape.tasks - 1)).map (gateway shape process) ++
      [.leaf (bpmn "endEvent") [attr "id" (Node.finish.id process)]]
  else []

/-- The properties of a condition. -/
def conditionProperties (g : Guard) : List (String × String) :=
  [("lhDataStorageId", s.processInstanceStore), ("lhDataPath", g.field.path),
    ("operator", (Coded.code g.operator).repr), ("rhValue", g.value)]

/-- The attributes of an edge. -/
def edgeAttributes (e : Edge) : List Markup.Attribute :=
  [attr "id" (e.id process), attr "sourceRef" (e.source.id process),
    attr "targetRef" (e.target.id process)]

/-- An edge. -/
def sequenceFlow (e : Edge) : Markup :=
  match e with
  | .guarded t => .element (bpmn "sequenceFlow") (edgeAttributes process e) ""
      [properties (conditionProperties s (draw t).guard)]
  | _ => .leaf (bpmn "sequenceFlow") (edgeAttributes process e)

/-- A process. -/
def processElement : Markup :=
  .element (bpmn "process")
    [attr "id" ("Process_" ++ process.repr), attr "name" ("Generated Process " ++ process.repr),
      attr "isExecutable" "true"] "" (
    [properties [("processInterface", "Agreement Formation")], laneSet s shape process draw] ++
      (List.range shape.tasks).map (userTask s shape process draw) ++
      gateways shape process ++
      (edges shape).map (sequenceFlow s shape process draw))

end Process

/-! ## The document -/

/-- The root element, without layout. -/
def root (shape : Shape) (draws : Draws shape.lanes) : Markup :=
  .element (bpmn "definitions")
    [.declaration (some "bpmn") "http://www.omg.org/spec/BPMN/20100524/MODEL",
      .declaration (some "camunda") "http://camunda.org/schema/1.0/bpmn",
      attr "id" "Definitions_generated"] "" (
    [instanceStore .standard, agreementStore .standard, collaboration shape.processes] ++
      (List.range shape.processes).map fun i =>
        processElement .standard shape i (draws i))

/-- The text of the document. -/
def document (shape : Shape) (draws : Draws shape.lanes) : String :=
  Markup.document [
    .instruction "xml version=\"1.0\" encoding=\"UTF-8\"",
    Markup.lineBreak 0,
    (root shape draws).indent 0,
    Markup.lineBreak 0]

end BpmnModel.Generate
