import BpmnModel.Proofs.Compile.Frame
import BpmnModel.Proofs.Compile.Soundness
import BpmnModel.Proofs.Properties.Reread

/-!
# Regular records

An engine dispatches on the records of an accepted document without looking at the tree again, and
so trusts that each record is one that its collection can hold.  Every built-in classifier yields
such records, under whatever tag it is found; a process that collects them keeps them, and so does
the check that completes its conditions.

## Main definitions

* `ActivityKind.fixed` — the fields that a kind of activity leaves no choice in.
* `Activity.Regular`, `Gateway.Regular`, `Transition.Regular` — the records that a collection holds.
* `Process.Regular settings p` — all collections of a process hold such records.

## Main statements

* `FlowElement.regular_of_yields` — what the built-in classifiers yield.
* `Compiler.regular_of_compile` — the processes of an accepted document.
-/

namespace BpmnModel

variable {s : Settings} {aliases : List (String × String)} {participants : List Participant}
variable {node root : Element} {m : Model} {p q : Process}

/-! ## Regular records -/

/-- The fields of an activity that its kind alone decides. -/
structure FixedFields where
  /-- What activities of the kind are. -/
  activityType : ActivityType
  /-- Who carries them out. -/
  taskType : TaskType
  /-- How they interact with their application, unless an element may choose. -/
  behavior? : Option TaskBehavior

/-- The fixed fields of a kind. -/
def ActivityKind.fixed : ActivityKind → FixedFields
  | .task => ⟨.task, .unassigned, none⟩
  | .userTask => ⟨.task, .user, some .sendReceive⟩
  | .sendTask => ⟨.task, .event, none⟩
  | .serviceTask => ⟨.task, .service, some .send⟩
  | .subProcess => ⟨.subprocess, .unassigned, some .send⟩

/-- The activity has the fixed fields of its kind and what its kind requires, and nothing that its
kind has no use for.  Its mappings name no reserved store. -/
structure Activity.Regular (s : Settings) (a : Activity) : Prop where
  activityType : a.activityType = a.kind.fixed.activityType
  taskType : a.taskType = a.kind.fixed.taskType
  behavior : ∀ b, a.kind.fixed.behavior? = some b → a.behavior = b
  application : a.kind = .serviceTask → a.application ≠ ""
  subProcessDefinitionId : a.kind = .subProcess → a.subProcessDefinitionId ≠ ""
  assignee : a.kind ≠ .userTask → a.assignee = ""
  multiInstance : a.kind ≠ .userTask → a.multiInstance = false
  stores : ∀ ms, a.dataMappings = some ms →
    ∀ mapping ∈ ms, mapping.dataStorageId ≠ s.processInstanceStore

/-- Named edges enter and leave the gateway, and not one of each.  Only a choosing gateway has a
fallback edge, and that has a name. -/
structure Gateway.Regular (g : Gateway) : Prop where
  incoming : g.incoming ≠ [] ∧ "" ∉ g.incoming
  outgoing : g.outgoing ≠ [] ∧ "" ∉ g.outgoing
  forks : ¬(g.incoming.length = 1 ∧ g.outgoing.length = 1)
  fallback : ∀ edge, g.fallback = some edge → g.gatewayType = .xor ∧ edge ≠ ""

/-- Both ends of the transition are named, and its condition names no reserved store. -/
structure Transition.Regular (s : Settings) (t : Transition) : Prop where
  source : t.source ≠ ""
  target : t.target ≠ ""
  lhStore : ∀ c, t.condition = some c → c.lhDataStorageId ≠ s.processInstanceStore
  rhStore : ∀ c, t.condition = some c → c.rhDataStorageId ≠ some s.processInstanceStore

/-- The record is regular, whatever it is. -/
inductive FlowElement.Regular (s : Settings) : FlowElement → Prop
  | activity {a : Activity} (h : a.Regular s) : Regular s (.activity a)
  | gateway {g : Gateway} {stub : Option DefaultTransition} (h : g.Regular) :
    Regular s (.gateway g stub)
  | transition {t : Transition} (h : t.Regular s) : Regular s (.transition t)

/-- Each collection of the process holds regular records of its own kind. -/
structure Process.Regular (s : Settings) (p : Process) : Prop where
  activities : ∀ kind, ∀ a ∈ p.activitiesOf kind, a.kind = kind ∧ a.Regular s
  xorGateways : ∀ g ∈ p.xorGateways, g.gatewayType = .xor ∧ g.Regular
  andGateways : ∀ g ∈ p.andGateways, g.gatewayType = .and ∧ g.Regular
  transitions : ∀ t ∈ p.transitions, t.Regular s

/-! ## What the readers yield -/

/-- The mappings of an element name no reserved store. -/
theorem Properties.stores_of_readOrEmpty {properties : Properties}
    (hs : s.processInstanceStore ≠ "") (h : readOrEmpty s node = .ok properties)
    {ms : List DataMapping} (hms : properties.mappings = some ms) :
    ∀ mapping ∈ ms, mapping.dataStorageId ≠ s.processInstanceStore := by
  intro mapping hmapping
  simp only [readOrEmpty, Outcome.bind_eq_ok_iff, Outcome.pure_eq_ok_iff] at h
  obtain ⟨o, ho, rfl⟩ := h
  rcases read_eq_ok_iff.mp ho with ⟨-, rfl⟩ | ⟨block, properties, -, hp, rfl⟩
  · simp at hms
  · obtain ⟨raw, -, hstore⟩ :=
      (DataMapping.decodedFrom_of_decode (decode_of_ofBlock hp hms) hmapping).dataStorageId
    rw [hstore]
    exact s.normalize_ne hs raw

namespace Task

variable {a : Activity}

theorem regular_of_readPlain (hs : s.processInstanceStore ≠ "") (h : readPlain s node = .ok a) :
    a.Regular s := by
  simp only [readPlain, Outcome.bind_eq_ok_iff, Outcome.pure_eq_ok_iff] at h
  obtain ⟨properties, hp, behavior, -, rfl⟩ := h
  exact {
    activityType := rfl
    taskType := rfl
    behavior := by simp [seed, ActivityKind.fixed]
    application := by simp [seed]
    subProcessDefinitionId := by simp [seed]
    assignee := fun _ => rfl
    multiInstance := fun _ => rfl
    stores := fun _ => Properties.stores_of_readOrEmpty hs hp }

theorem regular_of_readUser (hs : s.processInstanceStore ≠ "")
    (h : readUser s participants node = .ok a) : a.Regular s := by
  rw [readUser] at h
  split at h
  · simp at h
  · simp only [Outcome.bind_eq_ok_iff, Outcome.pure_eq_ok_iff] at h
    obtain ⟨properties, hp, rfl⟩ := h
    exact {
      activityType := rfl
      taskType := rfl
      behavior := by simp [seed, ActivityKind.fixed]
      application := by simp [seed]
      subProcessDefinitionId := by simp [seed]
      assignee := by simp [seed]
      multiInstance := by simp [seed]
      stores := fun _ => Properties.stores_of_readOrEmpty hs hp }

theorem regular_of_readSend (hs : s.processInstanceStore ≠ "") (h : readSend s node = .ok a) :
    a.Regular s := by
  simp only [readSend, Outcome.bind_eq_ok_iff, Outcome.pure_eq_ok_iff] at h
  obtain ⟨properties, hp, behavior, -, rfl⟩ := h
  exact {
    activityType := rfl
    taskType := rfl
    behavior := by simp [seed, ActivityKind.fixed]
    application := by simp [seed]
    subProcessDefinitionId := by simp [seed]
    assignee := fun _ => rfl
    multiInstance := fun _ => rfl
    stores := fun _ => Properties.stores_of_readOrEmpty hs hp }

/-- A property that is not empty is overlaid on the seed as it is. -/
theorem getD_of_nonEmpty? {properties : Properties} {key v : String}
    (h : properties.nonEmpty? key = some v) : (properties.get? key).getD "" ≠ "" := by
  obtain ⟨hv, hne⟩ := Option.filter_eq_some_iff.mp h
  simpa [hv] using hne

theorem regular_of_readService (hs : s.processInstanceStore ≠ "")
    (h : readService s node = .ok a) : a.Regular s := by
  simp only [readService, Outcome.bind_eq_ok_iff] at h
  obtain ⟨properties, hp, h⟩ := h
  split at h
  · simp at h
  · rename_i v hv
    obtain rfl := Outcome.pure_eq_ok_iff.mp h
    exact {
      activityType := rfl
      taskType := rfl
      behavior := by simp [seed, ActivityKind.fixed]
      application := fun _ => getD_of_nonEmpty? hv
      subProcessDefinitionId := by simp [seed]
      assignee := fun _ => rfl
      multiInstance := fun _ => rfl
      stores := fun _ => Properties.stores_of_readOrEmpty hs hp }

theorem regular_of_readSubProcess (hs : s.processInstanceStore ≠ "")
    (h : readSubProcess s node = .ok a) : a.Regular s := by
  simp only [readSubProcess, Outcome.bind_eq_ok_iff] at h
  obtain ⟨properties, hp, h⟩ := h
  split at h
  · simp at h
  · rename_i v hv
    obtain rfl := Outcome.pure_eq_ok_iff.mp h
    exact {
      activityType := rfl
      taskType := rfl
      behavior := by simp [seed, ActivityKind.fixed]
      application := by simp [seed]
      subProcessDefinitionId := fun _ => getD_of_nonEmpty? hv
      assignee := fun _ => rfl
      multiInstance := fun _ => rfl
      stores := fun _ => Properties.stores_of_readOrEmpty hs hp }

end Task

theorem Gateway.regular_of_read {type : GatewayType} {g : Gateway} (h : read type node = .ok g) :
    g.Regular := by
  obtain ⟨⟨hin, hout, hforks⟩, rfl⟩ := read_eq_ok_iff.mp h
  refine {
    incoming := ⟨hin, fun hmem => Element.childTexts_ne_empty hmem rfl⟩
    outgoing := ⟨hout, fun hmem => Element.childTexts_ne_empty hmem rfl⟩
    forks := hforks
    fallback := ?_ }
  intro edge hedge
  cases type with
  | xor => exact ⟨rfl, by simpa using (Option.filter_eq_some_iff.mp hedge).2⟩
  | or => simp [fallbackOf] at hedge
  | and => simp [fallbackOf] at hedge

theorem SequenceFlow.regular_of_read {t : Transition} (hs : s.processInstanceStore ≠ "")
    (h : read s node = .ok t) : t.Regular s := by
  have hflow := readAs_of_read h
  obtain ⟨hsource, htarget⟩ := ends_ne_empty_of_read h
  refine { source := hsource, target := htarget, lhStore := ?_, rhStore := ?_ }
  · intro c hc
    obtain ⟨store, -, -, -, -, rfl⟩ := hflow.condition c hc
    exact s.normalize_ne hs store
  · intro c hc
    obtain ⟨-, -, -, -, -, rfl⟩ := hflow.condition c hc
    intro hstore
    obtain ⟨store, -, hstore⟩ := Option.map_eq_some_iff.mp hstore
    exact s.normalize_ne hs store hstore

/-! ## What the classifiers yield -/

/-- **Every built-in classifier yields regular records.** -/
theorem FlowElement.regular_of_yields {tag : String} {e : FlowElement}
    (hs : s.processInstanceStore ≠ "") (h : Registry.Yields s participants node tag e) :
    e.Regular s := by
  cases h with
  | task h => exact .activity (Task.regular_of_readPlain hs h)
  | userTask h => exact .activity (Task.regular_of_readUser hs h)
  | sendTask h => exact .activity (Task.regular_of_readSend hs h)
  | serviceTask h => exact .activity (Task.regular_of_readService hs h)
  | subProcess h => exact .activity (Task.regular_of_readSubProcess hs h)
  | exclusiveGateway h => exact .gateway (Gateway.regular_of_read h)
  | parallelGateway h => exact .gateway (Gateway.regular_of_read h)
  | sequenceFlow h => exact .transition (SequenceFlow.regular_of_read hs h)

/-! ## Collecting -/

namespace FlowGraph

variable {elements : List FlowElement}

theorem regular_of_mem_activitiesOf (h : ∀ e ∈ elements, e.Regular s) {kind : ActivityKind}
    {a : Activity} (ha : a ∈ activitiesOf kind elements) : a.kind = kind ∧ a.Regular s := by
  obtain ⟨hmem, hkind⟩ := List.mem_filter.mp ha
  obtain ⟨e, he, hactivity⟩ := List.mem_filterMap.mp hmem
  refine ⟨by simpa using hkind, ?_⟩
  cases h e he with
  | activity h => exact Option.some.inj hactivity ▸ h
  | _ => simp [FlowElement.activity?] at hactivity

theorem regular_of_mem_gatewaysOf (h : ∀ e ∈ elements, e.Regular s) {type : GatewayType}
    {g : Gateway} (hg : g ∈ gatewaysOf type elements) : g.gatewayType = type ∧ g.Regular := by
  obtain ⟨hmem, htype⟩ := List.mem_filter.mp hg
  obtain ⟨e, he, hgateway⟩ := List.mem_filterMap.mp hmem
  refine ⟨by simpa using htype, ?_⟩
  cases h e he with
  | gateway h => exact Option.some.inj hgateway ▸ h
  | _ => simp [FlowElement.gateway?] at hgateway

/-- **A process that collects regular records is regular.** -/
theorem regular_collect (p : Process) (h : ∀ e ∈ elements, e.Regular s) :
    (collect p elements).Regular s where
  activities kind := by
    cases kind <;> exact fun a ha => regular_of_mem_activitiesOf h ha
  xorGateways _ hg := regular_of_mem_gatewaysOf h hg
  andGateways _ hg := regular_of_mem_gatewaysOf h hg
  transitions t ht := by
    obtain ⟨e, he, htransition⟩ := List.mem_filterMap.mp ht
    cases h e he with
    | transition h => exact Option.some.inj htransition ▸ h
    | _ => simp [FlowElement.transition?] at htransition

end FlowGraph

namespace Process

theorem regular_of_read (hs : s.processInstanceStore ≠ "")
    (h : read (.aliased aliases) s node = .ok p) : p.Regular s := by
  obtain ⟨interface, -, participants, -, os, hos, defaults, -, rfl⟩ := read_eq_ok_iff.mp h
  have hregular : ∀ e ∈ os.filterMap fun e => e, e.Regular s := by
    intro e he
    obtain ⟨o, ho, rfl⟩ := List.mem_filterMap.mp he
    obtain ⟨child, -, hchild⟩ := Outcome.exists_of_mem_right (Outcome.mapM_eq_ok_iff.mp hos) ho
    cases FlowGraph.classified_of_classify hchild with
    | read _ hyields => exact FlowElement.regular_of_yields hs hyields
  -- the fallback edges are resolved beside the collections
  have hcollect := FlowGraph.regular_collect
    { id := node.id, name := node.name, interface, participants } hregular
  exact { hcollect with }

end Process

/-! ## Checking -/

/-- Completing keeps the stores of a condition. -/
theorem Condition.stores_complete (c : Condition) :
    (c.complete s m).lhDataStorageId = c.lhDataStorageId ∧
      (c.complete s m).rhDataStorageId = c.rhDataStorageId := by
  rw [complete]
  split
  · exact ⟨rfl, rfl⟩
  · split <;> exact ⟨rfl, rfl⟩

theorem Transition.regular_complete {t : Transition} (h : t.Regular s) :
    (t.complete s m).Regular s where
  source := h.source
  target := h.target
  lhStore c hc := by
    obtain ⟨c', hc', rfl⟩ := Option.map_eq_some_iff.mp hc
    rw [c'.stores_complete.1]
    exact h.lhStore c' hc'
  rhStore c hc := by
    obtain ⟨c', hc', rfl⟩ := Option.map_eq_some_iff.mp hc
    rw [c'.stores_complete.2]
    exact h.rhStore c' hc'

theorem Process.regular_of_check (hp : p.Regular s) (h : p.check s m = .ok q) : q.Regular s := by
  obtain ⟨-, rfl⟩ := check_eq_ok_iff.mp h
  refine { hp with transitions := fun t ht => ?_ }
  obtain ⟨t', ht', rfl⟩ := List.mem_map.mp ht
  exact Transition.regular_complete (hp.transitions t' ht')

/-- **The processes of an accepted document are regular.**  The reserved store needs a name, since
normalizing puts the empty text in its stead. -/
theorem Compiler.regular_of_compile {d : Document} (hs : s.processInstanceStore ≠ "")
    (h : (Compiler.aliased s aliases).compile root = .ok d) : ∀ p ∈ d.processes, p.Regular s := by
  rw [aliased_eq, compile_eq_ok_iff] at h
  obtain ⟨-, -, -, ps, hread, hcheck⟩ := h
  intro q hq
  obtain ⟨p, hp, hpq⟩ := Outcome.exists_of_mem_right hcheck hq
  obtain ⟨process, -, hprocess⟩ := Outcome.exists_of_mem_right hread hp
  exact Process.regular_of_check (Process.regular_of_read hs hprocess) hpq

/-! ## An order -/

/-- The handling of an order, with a step of each kind.  The approval fills a field of the reserved
store, and the edge that leaves the choice compares two of its fields. -/
def Element.order : Element :=
  let edges (incoming outgoing : List String) : List Element :=
    (incoming.map fun id => { tag := "incoming", text := id }) ++
      outgoing.map fun id => { tag := "outgoing", text := id }
  documentOf [
    { tag := "process", attributes := .ofList [("id", "P")]
      children := [
        { tag := "laneSet"
          children := [{ tag := "lane", attributes := .ofList [("id", "L")]
                         children := [.propertyBlock [],
                           { tag := "flowNodeRef", text := "U" }] }] },
        { tag := "task", attributes := .ofList [("id", "T")]
          children := [.propertyBlock [("behavior", "2")]] },
        { tag := "userTask", attributes := .ofList [("id", "U")]
          children := [{ tag := "multiInstanceLoopCharacteristics" },
            .propertyBlock [("OUTDATAID_1", "approval"),
              ("OUTDATA_approval_dataPath", "agreement"),
              ("OUTDATA_approval_dataStorageId", "PROCESS_INSTANCE")]] },
        { tag := "sendTask", attributes := .ofList [("id", "M")] },
        { tag := "serviceTask", attributes := .ofList [("id", "S")]
          children := [.propertyBlock [("application", "ledger")]] },
        { tag := "subProcess", attributes := .ofList [("id", "D")]
          children := [.propertyBlock [("processId", "delivery")]] },
        { tag := "choice", attributes := .ofList [("id", "G"), ("default", "F2")]
          children := edges ["F0"] ["F1", "F2"] },
        { tag := "parallelGateway", attributes := .ofList [("id", "H"), ("default", "F2")]
          children := edges ["F2", "F3"] ["F4"] },
        { tag := "sequenceFlow"
          attributes := .ofList [("id", "F1"), ("sourceRef", "G"), ("targetRef", "T")]
          children := [.propertyBlock [("lhDataStorageId", "PROCESS_INSTANCE"),
            ("lhDataPath", "agreement"), ("operator", "0"), ("rhValue", "x"),
            ("rhDataStorageId", "PROCESS_INSTANCE"), ("rhDataPath", "agreement")]] },
        { tag := "sequenceFlow"
          attributes := .ofList [("id", "F2"), ("sourceRef", "G"), ("targetRef", "H")] }] }]

/-- The order is accepted under an alias.  Every collection of its process holds something, and the
reserved store is named nowhere. -/
theorem Compiler.regular_of_compile_order :
    ∃ d, (Compiler.aliased {} [("choice", "exclusiveGateway")]).compile .order = .ok d ∧
      d.processes.map (fun p =>
        (p.activities.map Activity.id, (p.xorGateways ++ p.andGateways).map Gateway.fallback,
          p.transitions.map fun t => t.condition.bind Condition.rhDataStorageId)) =
        [(["T", "U", "M", "S", "D"], [some "F2", none], [some "", none])] ∧
      ∀ p ∈ d.processes, p.Regular {} := by
  obtain ⟨d, hd, hfound⟩ :
      ∃ d, (Compiler.aliased {} [("choice", "exclusiveGateway")]).compile .order = .ok d ∧
        d.processes.map (fun p =>
          (p.activities.map Activity.id, (p.xorGateways ++ p.andGateways).map Gateway.fallback,
            p.transitions.map fun t => t.condition.bind Condition.rhDataStorageId)) =
          [(["T", "U", "M", "S", "D"], [some "F2", none], [some "", none])] :=
    Outcome.exists_of_toOption_map (by decide +kernel)
  exact ⟨d, hd, hfound, Compiler.regular_of_compile (by decide) hd⟩

end BpmnModel
