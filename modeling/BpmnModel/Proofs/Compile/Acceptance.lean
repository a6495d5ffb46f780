import BpmnModel.Proofs.Compile.Children
import BpmnModel.Proofs.Compile.Stages
import BpmnModel.Proofs.Condition.Sound
import BpmnModel.Proofs.Elements.Stores

/-!
# Which documents are accepted

A document is accepted when its tree keeps a set of rules.  Each rule looks at one part of the
tree; none of them depends on the order in which the compiler checks them, nor on what it has
read before.

## Main definitions

* `Compiler.ConditionRules`, `Compiler.ChildRules`, `Compiler.ProcessRules` — the rules of one
  condition, of the children of a process and of a process.
* `Compiler.Rules settings aliases root` — the rules of a document.

## Main statements

* `Compiler.exists_compile_iff` — the documents that keep the rules are those accepted.
-/

namespace BpmnModel.Compiler

open Properties (visible? Decodable)

/-! ## The rules -/

section Rules

variable (s : Settings) (aliases : List (String × String)) (root process : Element)

/-- One exclusive gateway of the process and no parallel one has the identifier. -/
def LeavesXor (id : String) : Prop :=
  ((process.flowElements aliases "exclusiveGateway").filter fun g => g.id == id).length = 1 ∧
    ∀ g ∈ process.flowElements aliases "parallelGateway", g.id ≠ id

/-- A condition compares a declared field with a value of its type, by the code of an operator,
on an edge that leaves a choosing gateway. -/
structure ConditionRules (source store path operator value : String) : Prop where
  value : ∃ t d v, DataStore.comparedType? s root store path = some t ∧ s.MapsFirst t d ∧
    ConditionValue.Denotes value d v
  operator : ∃ op : Operator, Coded.Denotes operator op
  source : LeavesXor aliases process source

/-- The children of a process keep the rules of the built-in tags that they stand for. -/
structure ChildRules : Prop where
  supported : ∀ child ∈ process.children, Registry.resolve aliases child.tag = none →
    child.tag ∉ FlowGraph.unsupportedGateways
  tasks : ∀ tag ∈ ["task", "sendTask"], ∀ node ∈ process.flowElements aliases tag,
    Decodable s node ∧ Task.NamesBehavior s node
  userTasks : ∀ node ∈ process.flowElements aliases "userTask",
    (∃ lane ∈ Lane.lanes process, (Properties.block? lane).isSome ∧
      node.id ∈ lane.childTexts "flowNodeRef") ∧ Decodable s node
  serviceTasks : ∀ node ∈ process.flowElements aliases "serviceTask",
    Decodable s node ∧ Task.Names s node "application"
  subProcesses : ∀ node ∈ process.flowElements aliases "subProcess",
    Decodable s node ∧ Task.Names s node "processId"
  gateways : ∀ tag ∈ ["exclusiveGateway", "parallelGateway"],
    ∀ node ∈ process.flowElements aliases tag, Gateway.Forks node
  flows : ∀ node ∈ process.flowElements aliases "sequenceFlow",
    SequenceFlow.Joins node ∧ Decodable s node ∧ SequenceFlow.Whole s node

/-- A process keeps the rules of its block, its lanes, its children, its fallback edges and its
conditions. -/
structure ProcessRules : Prop where
  block : Decodable s process
  lanes : ∀ lane ∈ Lane.lanes process, Decodable s lane
  children : ChildRules s aliases process
  defaults : FlowGraph.DefaultsFound aliases process
  conditions : ∀ flow ∈ process.flowElements aliases "sequenceFlow",
    ∀ source store path operator value, flow.attr? "sourceRef" = some source →
      SequenceFlow.Declares s flow store path operator value →
        ConditionRules s aliases root process source store path operator value

/-- The rules of a document. -/
structure Rules : Prop where
  tag : root.tag = "definitions"
  model : Collaboration.Readable s root
  nonempty : root.childrenNamed "process" ≠ []
  processes : ∀ process ∈ root.childrenNamed "process", ProcessRules s aliases root process

end Rules

variable {s : Settings} {aliases : List (String × String)} {root process : Element}

/-! ## Structure -/

/-- The children of a process can be read when they keep their rules. -/
theorem exists_children_iff {participants : List Participant}
    (h : Lane.readAll s process = .ok participants) :
    (∃ os, process.children.mapM (FlowGraph.classify (.aliased aliases) s participants) = .ok os) ↔
      ChildRules s aliases process := by
  have activity : ∀ {f : Settings → List Participant → Element → Except StructureError Activity}
      {node : Element}, (∃ e, Classifier.activity f s participants node = .ok e) ↔
        ∃ a, f s participants node = .ok a := Outcome.exists_map_iff
  have gateway : ∀ {type : GatewayType} {node : Element},
      (∃ e, Classifier.gateway type s participants node = .ok e) ↔ Gateway.Forks node :=
    Outcome.exists_map_iff.trans Gateway.exists_read_iff
  have transition : ∀ {node : Element},
      (∃ e, Classifier.transition s participants node = .ok e) ↔
        SequenceFlow.Joins node ∧ Decodable s node ∧ SequenceFlow.Whole s node :=
    Outcome.exists_map_iff.trans SequenceFlow.exists_read_iff
  rw [FlowGraph.exists_mapM_classify_iff]
  simp only [Registry.builtins, List.forall_mem_cons, List.not_mem_nil, false_implies,
    implies_true, and_true, activity, gateway, transition, Task.exists_readPlain_iff,
    Task.exists_readUser_iff, Lane.performed_iff h, Task.exists_readSend_iff,
    Task.exists_readService_iff, Task.exists_readSubProcess_iff]
  constructor
  · rintro ⟨hsupported, htask, huser, hsend, hservice, hsub, hxor, hand, hflow⟩
    exact {
      supported := hsupported
      tasks := by simpa using ⟨htask, hsend⟩
      userTasks := huser
      serviceTasks := hservice
      subProcesses := hsub
      gateways := by simpa using ⟨hxor, hand⟩
      flows := hflow }
  · intro h
    exact ⟨h.supported, h.tasks "task" (by simp), h.userTasks, h.tasks "sendTask" (by simp),
      h.serviceTasks, h.subProcesses, h.gateways "exclusiveGateway" (by simp),
      h.gateways "parallelGateway" (by simp), h.flows⟩

/-- The structure of a process can be read when it keeps all rules but those of conditions. -/
theorem exists_readProcess_iff : (∃ p, Process.read (.aliased aliases) s process = .ok p) ↔
    Decodable s process ∧ (∀ lane ∈ Lane.lanes process, Decodable s lane) ∧
      ChildRules s aliases process ∧ FlowGraph.DefaultsFound aliases process :=
  Process.exists_read_iff fun _ => exists_children_iff

/-! ## Conditions -/

theorem singleXor_iff {p : Process} (hp : p.ReadFrom s aliases process) (id : String) :
    p.SingleXor id ↔ LeavesXor aliases process id := by
  have same : ∀ {type : GatewayType} {node : Element} {g : Gateway},
      Gateway.read type node = .ok g → g.id = node.id := by
    intro type node g hg
    obtain ⟨-, rfl⟩ := Gateway.read_eq_ok_iff.mp hg
    rfl
  have hxor : (p.xorGateways.filter fun g => g.id == id).length =
      ((process.flowElements aliases "exclusiveGateway").filter fun g => g.id == id).length :=
    (List.rel_filter (fun node g hg => by
      show (node.id == id) = true ↔ (g.id == id) = true
      rw [same hg]) hp.xorGateways).length_eq.symm
  have hand : (∀ g ∈ p.andGateways, g.id ≠ id) ↔
      ∀ node ∈ process.flowElements aliases "parallelGateway", node.id ≠ id := by
    constructor
    · intro h node hnode
      obtain ⟨g, hg, hread⟩ := Outcome.exists_of_mem_left hp.andGateways hnode
      exact same hread ▸ h g hg
    · intro h g hg
      obtain ⟨node, hnode, hread⟩ := Outcome.exists_of_mem_right hp.andGateways hg
      exact same hread ▸ h node hnode
  rw [Process.SingleXor, LeavesXor, hxor, hand]

section Conditions

variable {m : Model} {p : Process} (hm : Collaboration.read s root = .ok m)
  (hp : p.ReadFrom s aliases process)
include hm hp

/-- Nothing is wrong with a condition, as an edge declares it, when it keeps its rules. -/
theorem problems_eq_nil_iff_rules {c : Condition} {source store path operator value : String}
    (hstore : c.lhDataStorageId = s.normalize store) (hpath : c.lhDataPath = path)
    (hoperator : c.operator = Text.trim operator) (hvalue : c.rhValue = .raw value) :
    c.problems s m p source = [] ↔
      ConditionRules s aliases root process source store path operator value := by
  rw [Condition.problems_eq_nil_iff, hstore, hpath, hoperator, hvalue]
  simp only [singleXor_iff hp, Coded.denotes_trim,
    ConditionValue.resolve_raw_iff, Settings.dataTypeFor?_eq_some_iff]
  constructor
  · rintro ⟨f, d, hfield, htype, ⟨v, hv⟩, hop, hsource⟩
    refine ⟨⟨f.parameterType, d, v, ?_, htype, hv⟩, hop, hsource⟩
    rw [← Collaboration.comparedType?_eq hm, hfield, Option.map_some]
  · rintro ⟨⟨t, d, v, hcompared, htype, hv⟩, hop, hsource⟩
    rw [← Collaboration.comparedType?_eq hm, Option.map_eq_some_iff] at hcompared
    obtain ⟨f, hfield, rfl⟩ := hcompared
    exact ⟨f, d, hfield, htype, ⟨v, hv⟩, hop, hsource⟩

theorem condition_iff {flow : Element} {t : Transition} (h : SequenceFlow.read s flow = .ok t) :
    (∀ c, t.condition = some c → c.problems s m p t.source = []) ↔
      ∀ source store path operator value, flow.attr? "sourceRef" = some source →
        SequenceFlow.Declares s flow store path operator value →
          ConditionRules s aliases root process source store path operator value := by
  have hread := SequenceFlow.readAs_of_read h
  constructor
  · intro hnone source store path operator value hsource hdeclares
    obtain ⟨c, hc⟩ := Option.isSome_iff_exists.mp (hread.declared _ _ _ _ hdeclares)
    obtain ⟨store', path', operator', value', hdeclares', rfl⟩ := hread.condition c hc
    obtain rfl : t.source = source := Option.some.inj (hread.source.symm.trans hsource)
    obtain rfl : store' = store := Option.some.inj (hdeclares'.store.symm.trans hdeclares.store)
    obtain rfl : path' = path := Option.some.inj (hdeclares'.path.symm.trans hdeclares.path)
    obtain rfl : operator' = operator :=
      Option.some.inj (hdeclares'.operator.symm.trans hdeclares.operator)
    obtain rfl : value' = value := Option.some.inj (hdeclares'.value.symm.trans hdeclares.value)
    exact (problems_eq_nil_iff_rules hm hp rfl rfl rfl rfl).mp (hnone _ hc)
  · intro hrules c hc
    obtain ⟨store, path, operator, value, hdeclares, rfl⟩ := hread.condition c hc
    exact (problems_eq_nil_iff_rules hm hp rfl rfl rfl rfl).mpr
      (hrules _ _ _ _ _ hread.source hdeclares)

/-- No rule of meaning is broken when all declared conditions keep theirs. -/
theorem violations_eq_nil_iff_rules : p.violations s m = [] ↔
    ∀ flow ∈ process.flowElements aliases "sequenceFlow",
      ∀ source store path operator value, flow.attr? "sourceRef" = some source →
        SequenceFlow.Declares s flow store path operator value →
          ConditionRules s aliases root process source store path operator value := by
  rw [Process.violations_eq_nil_iff]
  constructor
  · intro h flow hflow
    obtain ⟨t, ht, hread⟩ := Outcome.exists_of_mem_left hp.transitions hflow
    exact (condition_iff hm hp hread).mp (h t ht)
  · intro h t ht
    obtain ⟨flow, hflow, hread⟩ := Outcome.exists_of_mem_right hp.transitions ht
    exact (condition_iff hm hp hread).mpr (h flow hflow)

end Conditions

/-! ## Documents -/

/-- Once the model is known, a process is read and checked when it keeps its rules. -/
theorem exists_checked_iff {m : Model} (hm : Collaboration.read s root = .ok m) :
    (∃ p, Process.read (.aliased aliases) s process = .ok p ∧ ∃ q, p.check s m = .ok q) ↔
      ProcessRules s aliases root process := by
  have hcheck : ∀ p : Process, (∃ q, p.check s m = .ok q) ↔ p.violations s m = [] := by
    intro p
    simp only [Process.check_eq_ok_iff, exists_and_left, exists_eq, and_true]
  simp only [hcheck]
  constructor
  · rintro ⟨p, hread, hviolations⟩
    obtain ⟨hblock, hlanes, hchildren, hdefaults⟩ := exists_readProcess_iff.mp ⟨p, hread⟩
    exact {
      block := hblock
      lanes := hlanes
      children := hchildren
      defaults := hdefaults
      conditions :=
        (violations_eq_nil_iff_rules hm (Process.readFrom_of_read hread)).mp hviolations }
  · intro h
    obtain ⟨p, hread⟩ :=
      exists_readProcess_iff.mpr ⟨h.block, h.lanes, h.children, h.defaults⟩
    exact ⟨p, hread,
      (violations_eq_nil_iff_rules hm (Process.readFrom_of_read hread)).mpr h.conditions⟩

/-- **A document is accepted when, and only when, its tree keeps the rules**, whatever aliases
the compiler was told. -/
theorem exists_compile_iff (s : Settings) (aliases : List (String × String)) (root : Element) :
    (∃ d, (Compiler.aliased s aliases).compile root = .ok d) ↔ Rules s aliases root := by
  simp only [aliased_eq, compile_eq_ok_iff]
  constructor
  · rintro ⟨d, htag, hsome, hmodel, ps, hread, hcheck⟩
    refine { tag := htag, model := Collaboration.exists_read_iff.mp ⟨_, hmodel⟩,
             nonempty := hsome, processes := ?_ }
    intro process hprocess
    obtain ⟨p, hp, hread⟩ := Outcome.exists_of_mem_left hread hprocess
    obtain ⟨q, -, hq⟩ := Outcome.exists_of_mem_left hcheck hp
    exact (exists_checked_iff hmodel).mp ⟨p, hread, q, hq⟩
  · intro h
    obtain ⟨m, hm⟩ := Collaboration.exists_read_iff.mpr h.model
    have hall := fun process hprocess => (exists_checked_iff hm).mpr (h.processes process hprocess)
    obtain ⟨ps, hread⟩ := Outcome.exists_mapM_iff.mpr fun process hprocess =>
      (hall process hprocess).imp fun _ h => h.1
    rw [Outcome.mapM_eq_ok_iff] at hread
    have hchecked : ∀ p ∈ ps, ∃ q, p.check s m = .ok q := by
      intro p hp
      obtain ⟨process, hprocess, hread⟩ := Outcome.exists_of_mem_right hread hp
      obtain ⟨p', hread', hq⟩ := hall process hprocess
      rw [hread] at hread'
      exact Except.ok.inj hread' ▸ hq
    obtain ⟨qs, hcheck⟩ := Outcome.exists_mapM_iff.mpr hchecked
    exact ⟨{ model := m, processes := qs }, h.tag, h.nonempty, hm, ps, hread,
      Outcome.mapM_eq_ok_iff.mp hcheck⟩

end BpmnModel.Compiler
