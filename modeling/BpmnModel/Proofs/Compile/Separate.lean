import BpmnModel.Proofs.Compile.Frame
import BpmnModel.Proofs.Properties.Visible

/-!
# Processes are compiled on their own

The outcome for a document is put together from the outcomes for the documents that have one of
its processes each.  Nothing that is found in a process reaches another one; only the order of the
two passes shows, since the structure of every process is read before any condition is checked.

## Main definitions

* `Element.withProcess root i` — the document with its `i`-th process only.
* `Compiler.compileProcess c m node` — what becomes of one process, the model being known.
* `Compiler.Separate c root` — how the outcomes for the single processes make up the whole one.

## Main statements

* `Compiler.compile_withProcess` — the outcome for a single process.
* `Compiler.separate_of_own` — the processes of a document are compiled on their own.
-/

namespace BpmnModel

/-! ## Documents with one process -/

namespace Element

/-- The children less all processes but the `i`-th. -/
def keepProcess : Nat → List Element → List Element
  | _, [] => []
  | i, c :: cs =>
    if c.tag = "process" then
      match i with
      | 0 => c :: cs.filter fun d => d.tag != "process"
      | i + 1 => keepProcess i cs
    else c :: keepProcess i cs

/-- The document with its `i`-th process only. -/
def withProcess (root : Element) (i : Nat) : Element :=
  { root with children := keepProcess i root.children }

/-- The number of processes. -/
def processCount (root : Element) : Nat :=
  (root.childrenNamed "process").length

variable {root : Element} {cs : List Element} {i : Nat} {tag : String}

theorem filter_keepProcess (i : Nat) (cs : List Element) :
    ((keepProcess i cs).filter fun c => c.tag == "process") =
      ((cs.filter fun c => c.tag == "process")[i]?).toList := by
  induction cs generalizing i with
  | nil => simp [keepProcess]
  | cons c cs ih =>
    by_cases hc : c.tag = "process"
    · cases i with
      | zero => simp [keepProcess, hc]
      | succ i => simp [keepProcess, hc, ih]
    · simp [keepProcess, hc, ih]

/-- What no process adds to is the same when processes are left out. -/
theorem flatMap_keepProcess {β : Type} {f : Element → List β}
    (h : ∀ c ∈ cs, c.tag = "process" → f c = []) (i : Nat) :
    (keepProcess i cs).flatMap f = cs.flatMap f := by
  induction cs generalizing i with
  | nil => simp [keepProcess]
  | cons c cs ih =>
    obtain ⟨hc, hcs⟩ := List.forall_mem_cons.mp h
    by_cases htag : c.tag = "process"
    · cases i with
      | zero =>
        have hothers : (cs.filter fun d => d.tag != "process").flatMap f = cs.flatMap f :=
          flatMap_filter fun d hd hp => hcs d hd (by simpa using hp)
        simp [keepProcess, htag, hothers]
      | succ i => simp [keepProcess, htag, hc htag, ih hcs]
    · simp [keepProcess, htag, ih hcs]

theorem childrenNamed_withProcess (root : Element) (i : Nat) :
    (root.withProcess i).childrenNamed "process" = ((root.childrenNamed "process")[i]?).toList :=
  filter_keepProcess i root.children

/-- An element that stands in no process is found when processes are left out. -/
theorem descendantsNamed_withProcess (htag : tag ≠ "process")
    (h : ∀ p ∈ root.childrenNamed "process", ∀ d ∈ p.descendants, d.tag ≠ tag) (i : Nat) :
    (root.withProcess i).descendantsNamed tag = root.descendantsNamed tag := by
  rw [descendantsNamed_eq, descendantsNamed_eq]
  refine flatMap_keepProcess (fun c hc hprocess => ?_) i
  have hmem : c ∈ root.childrenNamed "process" :=
    List.mem_filter.mpr ⟨hc, beq_iff_eq.mpr hprocess⟩
  rw [withinNamed_of_descendants (h c hmem), if_neg (hprocess ▸ htag.symm)]

end Element

namespace Compiler

variable {c : Compiler} {root : Element} {m : Model} {i : Nat}

/-! ## One process -/

/-- What becomes of one process, the model being known. -/
def compileProcess (c : Compiler) (m : Model) (node : Element) : Except Error Process := do
  let p ← (Process.read c.registry c.settings node).mapError .structure
  (p.check c.settings m).mapError .validation

theorem compileProcess_of_error {node : Element} {cause : StructureError}
    (h : Process.read c.registry c.settings node = .error cause) :
    c.compileProcess m node = .error (.structure cause) := by
  rw [compileProcess, h]
  rfl

theorem compileProcess_of_read {node : Element} {p : Process}
    (h : Process.read c.registry c.settings node = .ok p) :
    c.compileProcess m node = (p.check c.settings m).mapError .validation := by
  rw [compileProcess, h]
  rfl

/-- The document with one process. -/
def single (m : Model) (p : Process) : Document :=
  { model := m, processes := [p] }

section Own

variable (hown : ∀ p ∈ root.childrenNamed "process", ∀ d ∈ p.descendants,
  d.tag ≠ "dataStore" ∧ d.tag ≠ "collaboration")
include hown

theorem read_withProcess (i : Nat) :
    Collaboration.read c.settings (root.withProcess i) = Collaboration.read c.settings root :=
  Collaboration.read_congr
    (Element.descendantsNamed_withProcess (by decide) (fun p hp d hd => (hown p hp d hd).1) i)
    (Element.descendantsNamed_withProcess (by decide) (fun p hp d hd => (hown p hp d hd).2) i)

/-- **The outcome for a single process.** -/
theorem compile_withProcess (htag : root.tag = "definitions")
    (hm : Collaboration.read c.settings root = .ok m) {node : Element}
    (hnode : (root.childrenNamed "process")[i]? = some node) :
    c.compile (root.withProcess i) = (c.compileProcess m node).map (single m) := by
  have hprocesses : (root.withProcess i).childrenNamed "process" = [node] := by
    rw [Element.childrenNamed_withProcess, hnode, Option.toList_some]
  have htag' : (root.withProcess i).tag = "definitions" := htag
  rw [compile, readStructure, if_pos htag', read_withProcess hown, hm, readProcesses, hprocesses]
  cases hread : Process.read c.registry c.settings node with
  | error e =>
    rw [compileProcess_of_error hread]
    simp [hread, Except.map, Except.mapError, bind, Except.bind]
  | ok p =>
    rw [compileProcess_of_read hread]
    cases hcheck : p.check c.settings m <;>
      simp [hread, hcheck, Except.map, Except.mapError, bind, Except.bind, checkDocument, single,
        pure, Except.pure]

end Own

/-! ## All processes -/

/-- Where the model can not be read, all trees with the same stores and collaborations are refused
for the same reason. -/
theorem exists_cause_of_no_model (hnone : ∀ m, root.tag = "definitions" →
    Collaboration.read c.settings root ≠ .ok m) :
    ∃ cause, ∀ root' : Element, root'.tag = root.tag →
      Collaboration.read c.settings root' = Collaboration.read c.settings root →
        c.compile root' = .error (.structure cause) := by
  simp only [compile_eq_structure_iff, readStructure]
  by_cases htag : root.tag = "definitions"
  · cases hread : Collaboration.read c.settings root with
    | ok m => exact absurd hread (hnone m htag)
    | error cause =>
      refine ⟨cause, fun root' htag' hread' => ?_⟩
      rw [if_pos (htag'.trans htag), hread']
      rfl
  · refine ⟨.unexpectedRoot root.tag, fun root' htag' _ => ?_⟩
    rw [if_neg (htag' ▸ htag), htag']

section Known

variable (hm : Collaboration.read c.settings root = .ok m)
include hm

theorem forall₂_of_compile {d : Document} (h : c.compile root = .ok d) :
    d.model = m ∧ List.Forall₂ (fun node q => c.compileProcess m node = .ok q)
      (root.childrenNamed "process") d.processes := by
  obtain ⟨-, -, hm', ps, hread, hcheck⟩ := compile_eq_ok_iff.mp h
  obtain rfl : d.model = m := Except.ok.inj (hm'.symm.trans hm)
  refine ⟨rfl, (Outcome.forall₂_trans hread hcheck).imp ?_⟩
  rintro node q ⟨p, hp, hq⟩
  rw [compileProcess_of_read hp, hq]
  rfl

/-- Violations are those of the first process that has any, when the structure of every process
could be read. -/
theorem exists_of_validation {cause : ValidationError}
    (h : c.compile root = .error (.validation cause)) :
    ∃ ps, List.Forall₂ (fun node p => Process.read c.registry c.settings node = .ok p)
        (root.childrenNamed "process") ps ∧
      ∃ (i : Nat) (p : Process), ps[i]? = some p ∧ p.check c.settings m = .error cause ∧
        ∀ j < i, ∀ b, ps[j]? = some b → ∃ q, b.check c.settings m = .ok q := by
  obtain ⟨d, hd, hcheck⟩ := compile_eq_validation_iff.mp h
  obtain ⟨-, hm', hprocesses⟩ := readStructure_eq_ok_iff.mp hd
  obtain rfl : d.model = m := Except.ok.inj (hm'.symm.trans hm)
  refine ⟨d.processes, (readProcesses_eq_ok_iff.mp hprocesses).2, ?_⟩
  simpa [checkDocument, Outcome.bind_eq_error_iff, pure, Except.pure,
    Outcome.mapM_eq_error_iff] using hcheck

/-- A structural error is that of the first process whose structure can not be read. -/
theorem exists_of_structure (htag : root.tag = "definitions")
    (hsome : root.childrenNamed "process" ≠ []) {cause : StructureError}
    (h : c.compile root = .error (.structure cause)) :
    ∃ (i : Nat) (node : Element), (root.childrenNamed "process")[i]? = some node ∧
      Process.read c.registry c.settings node = .error cause ∧
      ∀ j < i, ∀ b, (root.childrenNamed "process")[j]? = some b →
        ∃ p, Process.read c.registry c.settings b = .ok p := by
  rw [compile_eq_structure_iff, readStructure, if_pos htag, hm] at h
  have hrow : (root.childrenNamed "process").mapM (Process.read c.registry c.settings) =
      .error cause := by
    simpa [Outcome.bind_eq_error_iff, readProcesses, pure, Except.pure, hsome] using h
  exact Outcome.mapM_eq_error_iff.mp hrow

end Known

/-! ## The whole document -/

/-- The document consists of the documents for its single processes: there is one model, and the
processes stand in a row. -/
def Joins (c : Compiler) (root : Element) (d : Document) : Prop :=
  ∃ ds : List Document,
    (List.range root.processCount).map (fun i => c.compile (root.withProcess i)) = ds.map .ok ∧
      (∀ d' ∈ ds, d'.model = d.model) ∧ d.processes = ds.flatMap Document.processes

/-- The structural error is that of the first process that has one. -/
def StructuralFirst (c : Compiler) (root : Element) (cause : StructureError) : Prop :=
  ∃ i < root.processCount, c.compile (root.withProcess i) = .error (.structure cause) ∧
    ∀ j < i, ∀ cause', c.compile (root.withProcess j) ≠ .error (.structure cause')

/-- No process has a structural error, and the violations are those of the first process that has
any: all of them and no others. -/
def ViolatingFirst (c : Compiler) (root : Element) (cause : ValidationError) : Prop :=
  (∀ j < root.processCount, ∀ cause',
    c.compile (root.withProcess j) ≠ .error (.structure cause')) ∧
  ∃ i < root.processCount, c.compile (root.withProcess i) = .error (.validation cause) ∧
    (∀ j < i, ∃ d, c.compile (root.withProcess j) = .ok d) ∧
    ∃ m node p, Collaboration.read c.settings root = .ok m ∧
      (root.childrenNamed "process")[i]? = some node ∧
      Process.read c.registry c.settings node = .ok p ∧
      cause = { processId := p.id, violations := p.violations c.settings m }

/-- How the outcomes for the single processes of a document make up that for the document. -/
structure Separate (c : Compiler) (root : Element) : Prop where
  accepted : (∃ d, c.compile root = .ok d) ↔
    ∀ i < root.processCount, ∃ d, c.compile (root.withProcess i) = .ok d
  documents : ∀ d, c.compile root = .ok d → c.Joins root d
  refused : ∀ e, c.compile root = .error e →
    (∃ cause, e = .structure cause ∧ c.StructuralFirst root cause) ∨
      ∃ cause, e = .validation cause ∧ c.ViolatingFirst root cause

section Own

variable (hown : ∀ p ∈ root.childrenNamed "process", ∀ d ∈ p.descendants,
  d.tag ≠ "dataStore" ∧ d.tag ≠ "collaboration")
include hown

/-- Without a model all processes are refused like the document. -/
theorem separate_of_no_model (hsome : root.childrenNamed "process" ≠ [])
    (hnone : ∀ m, root.tag = "definitions" → Collaboration.read c.settings root ≠ .ok m) :
    c.Separate root := by
  obtain ⟨cause, hall⟩ := exists_cause_of_no_model hnone
  have hroot : c.compile root = .error (.structure cause) := hall root rfl rfl
  have hsingle : ∀ i, c.compile (root.withProcess i) = .error (.structure cause) :=
    fun i => hall (root.withProcess i) rfl (read_withProcess hown i)
  have hpos : 0 < root.processCount := List.length_pos_of_ne_nil hsome
  exact {
    accepted := by
      simp only [hroot, hsingle, reduceCtorEq, exists_false, false_iff]
      exact fun h => h 0 hpos
    documents := by simp [hroot]
    refused := by
      intro e he
      obtain rfl : e = .structure cause := Except.error.inj (he.symm.trans hroot)
      exact .inl ⟨cause, rfl, 0, hpos, hsingle 0, by simp⟩ }

variable (htag : root.tag = "definitions") (hm : Collaboration.read c.settings root = .ok m)
include htag hm

/-- A process that has been read is refused for its violations only. -/
theorem compile_ne_structure_of_read {node : Element} {p : Process}
    (hnode : (root.childrenNamed "process")[i]? = some node)
    (hp : Process.read c.registry c.settings node = .ok p) (cause : StructureError) :
    c.compile (root.withProcess i) ≠ .error (.structure cause) := by
  rw [compile_withProcess hown htag hm hnode, compileProcess_of_read hp]
  cases p.check c.settings m <;> simp [Except.mapError, Except.map]

theorem structuralFirst_of_compile (hsome : root.childrenNamed "process" ≠ [])
    {cause : StructureError} (h : c.compile root = .error (.structure cause)) :
    c.StructuralFirst root cause := by
  obtain ⟨i, node, hnode, hcause, hbefore⟩ := exists_of_structure hm htag hsome h
  obtain ⟨hi, -⟩ := List.getElem?_eq_some_iff.mp hnode
  refine ⟨i, hi, ?_, fun j hj => ?_⟩
  · rw [compile_withProcess hown htag hm hnode, compileProcess_of_error hcause]
    rfl
  · have hnode' := List.getElem?_eq_getElem (Nat.lt_trans hj hi)
    obtain ⟨p, hp⟩ := hbefore j hj _ hnode'
    exact compile_ne_structure_of_read hown htag hm hnode' hp

theorem violatingFirst_of_compile {cause : ValidationError}
    (h : c.compile root = .error (.validation cause)) : c.ViolatingFirst root cause := by
  obtain ⟨ps, hread, i, p, hp, hcause, hbefore⟩ := exists_of_validation hm h
  -- the process at a place is read from the element at that place
  have hplace : ∀ {j : Nat}, j < root.processCount → ∃ node q,
      (root.childrenNamed "process")[j]? = some node ∧ ps[j]? = some q ∧
        Process.read c.registry c.settings node = .ok q := by
    intro j hj
    have hj' : j < ps.length := hread.length_eq ▸ hj
    obtain ⟨node, hnode, hq⟩ :=
      Outcome.exists_getElem?_of_forall₂ hread (List.getElem?_eq_getElem hj')
    exact ⟨node, _, hnode, List.getElem?_eq_getElem hj', hq⟩
  obtain ⟨node, hnode, hnodep⟩ := Outcome.exists_getElem?_of_forall₂ hread hp
  obtain ⟨hi, -⟩ := List.getElem?_eq_some_iff.mp hnode
  refine ⟨fun j hj => ?_, i, hi, ?_, fun j hj => ?_, m, node, p, hm, hnode, hnodep, ?_⟩
  · obtain ⟨node', q, hnode', -, hq⟩ := hplace hj
    exact compile_ne_structure_of_read hown htag hm hnode' hq
  · rw [compile_withProcess hown htag hm hnode, compileProcess_of_read hnodep, hcause]
    rfl
  · obtain ⟨node', q, hnode', hq, hread'⟩ := hplace (Nat.lt_trans hj hi)
    obtain ⟨q', hq'⟩ := hbefore j hj q hq
    rw [compile_withProcess hown htag hm hnode', compileProcess_of_read hread', hq']
    exact ⟨_, rfl⟩
  · exact Process.eq_of_check_eq_error hcause

theorem joins_of_compile {d : Document} (h : c.compile root = .ok d) : c.Joins root d := by
  obtain ⟨hmodel, hrow⟩ := forall₂_of_compile hm h
  refine ⟨d.processes.map (single m), ?_, ?_, ?_⟩
  · refine List.ext_getElem (by simp [Element.processCount, hrow.length_eq]) fun i hi hi' => ?_
    rw [List.length_map, List.length_map] at hi'
    obtain ⟨node, hnode, hq⟩ :=
      Outcome.exists_getElem?_of_forall₂ hrow (List.getElem?_eq_getElem hi')
    simp only [List.getElem_map, List.getElem_range]
    rw [compile_withProcess hown htag hm hnode, hq]
    rfl
  · simp [single, hmodel]
  · simp [List.flatMap_map, single]

end Own

/-- **The processes of a document are compiled on their own**, where none of them contains a store
or a collaboration. -/
theorem separate_of_own (hsome : root.childrenNamed "process" ≠ [])
    (hown : ∀ p ∈ root.childrenNamed "process", ∀ d ∈ p.descendants,
      d.tag ≠ "dataStore" ∧ d.tag ≠ "collaboration") : c.Separate root := by
  by_cases hmodel : ∃ m, root.tag = "definitions" ∧ Collaboration.read c.settings root = .ok m
  · obtain ⟨m, htag, hm⟩ := hmodel
    have hrefused : ∀ e, c.compile root = .error e →
        (∃ cause, e = .structure cause ∧ c.StructuralFirst root cause) ∨
          ∃ cause, e = .validation cause ∧ c.ViolatingFirst root cause := by
      intro e he
      rcases cause_of_compile he with ⟨cause, rfl⟩ | ⟨cause, rfl⟩
      · exact .inl ⟨cause, rfl, structuralFirst_of_compile hown htag hm hsome he⟩
      · exact .inr ⟨cause, rfl, violatingFirst_of_compile hown htag hm he⟩
    refine ⟨⟨?_, ?_⟩, fun d => joins_of_compile hown htag hm, hrefused⟩
    · rintro ⟨d, hd⟩ i hi
      obtain ⟨ds, hruns, -⟩ := joins_of_compile hown htag hm hd
      have hmem : c.compile (root.withProcess i) ∈ ds.map Except.ok := by
        rw [← hruns]
        exact List.mem_map.mpr ⟨i, List.mem_range.mpr hi, rfl⟩
      obtain ⟨d', -, hd'⟩ := List.mem_map.mp hmem
      exact ⟨d', hd'.symm⟩
    · intro hall
      cases hroot : c.compile root with
      | ok d => exact ⟨d, rfl⟩
      | error e =>
        -- a refused document has a process that is refused
        obtain ⟨i, hi, e', he'⟩ : ∃ i < root.processCount, ∃ e',
            c.compile (root.withProcess i) = .error e' := by
          rcases hrefused e hroot with ⟨cause, -, i, hi, hcause, -⟩ | ⟨cause, -, -, i, hi, hcause, -⟩
          · exact ⟨i, hi, _, hcause⟩
          · exact ⟨i, hi, _, hcause⟩
        obtain ⟨d, hd⟩ := hall i hi
        rw [hd] at he'
        contradiction
  · exact separate_of_no_model hown hsome fun m htag hm => hmodel ⟨m, htag, hm⟩

/-! ## Three processes -/

/-- Three processes: in the first a condition stands on an edge that leaves no gateway, in the
second a gateway has no edges, and nothing is wrong with the third. -/
def rivals : Element where
  tag := "definitions"
  children := [
    { tag := "dataStore", attributes := .ofList [("id", "PROCESS_INSTANCE")]
      children := [.propertyBlock [("agreement", "7")]] },
    { tag := "process", attributes := .ofList [("id", "P0")]
      children := [{
        tag := "sequenceFlow"
        attributes := .ofList [("id", "F"), ("sourceRef", "A"), ("targetRef", "B")]
        children := [.propertyBlock [("lhDataStorageId", ""), ("lhDataPath", "agreement"),
          ("operator", "0"), ("rhValue", "x")]] }] },
    { tag := "dataStore", attributes := .ofList [("id", "agreement")] },
    { tag := "process", attributes := .ofList [("id", "P1")]
      children := [{ tag := "exclusiveGateway", attributes := .ofList [("id", "G")] }] },
    { tag := "collaboration", attributes := .ofList [("id", "C")]
      children := [.propertyBlock [("version", "1.0.0")]] },
    { tag := "process", attributes := .ofList [("id", "P2")] }]

/-- Of three processes the second one decides, since its error is one of structure; without it the
violation of the first would be told. -/
theorem separate_of_own_rivals : Compiler.Separate {} rivals ∧
    Compiler.compile {} rivals = .error (.structure (.gatewayMissingEdges "G")) ∧
    (Compiler.compile {} (rivals.withProcess 0)).mapError Error.violations =
      .error [⟨"F", "conditions are only allowed on transitions leaving a single XOR gateway, " ++
        "but source 'A' is not one"⟩] ∧
    Compiler.compile {} (rivals.withProcess 1) = .error (.structure (.gatewayMissingEdges "G")) ∧
    ∃ d, Compiler.compile {} (rivals.withProcess 2) = .ok d := by
  have hlast : ((Compiler.compile {} (rivals.withProcess 2)).toOption).isSome = true := by
    decide +kernel
  refine ⟨separate_of_own (by decide) (by decide), by decide +kernel, by decide +kernel,
    by decide +kernel, ?_⟩
  cases hd : Compiler.compile {} (rivals.withProcess 2) with
  | ok d => exact ⟨d, rfl⟩
  | error e => simp [hd, Except.toOption] at hlast

end Compiler

end BpmnModel
