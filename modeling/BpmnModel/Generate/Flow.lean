import BpmnModel.Generate.Draw

/-!
# The edges of a generated process

The tasks of a process stand in a row.  Without conditions an edge leads from each task to
the next one.  With conditions a gateway stands between them: one edge enters it, a
conditional one leads on, and a fallback edge leads to the end of the process.

## Main definitions

* `Generate.Node`, `Generate.Edge` — the nodes and edges of a process.
* `Generate.edges shape` — all edges of a process.
* `Generate.entering`, `Generate.leaving` — the edges at a node.

## Main statements

* `entering_eq`, `leaving_eq` — the edges at a node are those that name it.
-/

namespace BpmnModel.Generate

/-- A node of a generated process; tasks and gateways are numbered along the row. -/
inductive Node where
  | task (position : Nat)
  | gateway (position : Nat)
  | finish
deriving DecidableEq, Repr

/-- The identifier of a node of the process with number `process`. -/
def Node.id (process : Nat) : Node → String
  | .task t => "Task_" ++ process.repr ++ "_" ++ t.repr
  | .gateway t => "Gateway_" ++ process.repr ++ "_" ++ t.repr
  | .finish => "End_" ++ process.repr

/-- An edge of a generated process, by the task after which it stands. -/
inductive Edge where
  /-- From a task to the next one. -/
  | direct (position : Nat)
  /-- From a task to the gateway behind it. -/
  | entry (position : Nat)
  /-- From a gateway to the next task, under a condition. -/
  | guarded (position : Nat)
  /-- From a gateway to the end. -/
  | fallback (position : Nat)
deriving DecidableEq, Repr

namespace Edge

/-- The node that an edge leaves. -/
def source : Edge → Node
  | .direct t => .task t
  | .entry t => .task t
  | .guarded t => .gateway t
  | .fallback t => .gateway t

/-- The node that an edge enters. -/
def target : Edge → Node
  | .direct t => .task (t + 1)
  | .entry t => .gateway t
  | .guarded t => .task (t + 1)
  | .fallback _ => .finish

/-- The identifier of an edge of the process with number `process`. -/
def id (process : Nat) : Edge → String
  | .direct t => "Flow_" ++ process.repr ++ "_" ++ t.repr
  | .entry t => "Flow_" ++ process.repr ++ "_" ++ t.repr ++ "_in"
  | .guarded t => "Flow_" ++ process.repr ++ "_" ++ t.repr ++ "_cond"
  | .fallback t => "Flow_" ++ process.repr ++ "_" ++ t.repr ++ "_default"

end Edge

/-- The edges behind a task. -/
def edgesAfter (conditions : Bool) (position : Nat) : List Edge :=
  if conditions then [.entry position, .guarded position, .fallback position]
  else [.direct position]

/-- The edges of a process, along the row. -/
def edges (s : Shape) : List Edge :=
  (List.range (s.tasks - 1)).flatMap (edgesAfter s.conditions)

/-- The edges that enter a node. -/
def entering (s : Shape) : Node → List Edge
  | .task 0 => []
  | .task (t + 1) =>
    if t < s.tasks - 1 then [if s.conditions then .guarded t else .direct t] else []
  | .gateway t => if t < s.tasks - 1 ∧ s.conditions then [.entry t] else []
  | .finish => if s.conditions then (List.range (s.tasks - 1)).map .fallback else []

/-- The edges that leave a node. -/
def leaving (s : Shape) : Node → List Edge
  | .task t => if t < s.tasks - 1 then [if s.conditions then .entry t else .direct t] else []
  | .gateway t => if t < s.tasks - 1 ∧ s.conditions then [.guarded t, .fallback t] else []
  | .finish => []

/-! ## Edges and nodes -/

theorem length_edges (s : Shape) :
    (edges s).length = if s.conditions then 3 * (s.tasks - 1) else s.tasks - 1 := by
  have h : ∀ n, ((List.range n).flatMap (edgesAfter s.conditions)).length =
      if s.conditions then 3 * n else n := by
    intro n
    induction n with
    | zero => simp
    | succ n ih =>
      rw [List.range_succ, List.flatMap_append, List.length_append, ih]
      cases s.conditions
      · simp [edgesAfter]
      · simp [edgesAfter]
        omega
  exact h _

/-- Edges of which there are some behind one task only. -/
private theorem filter_row {c : Bool} {p : Edge → Bool} (t : Nat) (found : List Edge)
    (h : ∀ n, (edgesAfter c n).filter p = if n = t then found else []) (n : Nat) :
    ((List.range n).flatMap (edgesAfter c)).filter p = if t < n then found else [] := by
  induction n with
  | zero => simp
  | succ n ih =>
    rw [List.range_succ, List.flatMap_append, List.filter_append, ih, List.flatMap_singleton, h]
    by_cases hlt : t < n
    · simp [hlt, Nat.lt_succ_of_lt hlt, (Nat.ne_of_lt hlt).symm]
    · by_cases heq : n = t
      · simp [heq]
      · simp [hlt, heq, show ¬ t < n + 1 by omega]

/-- Edges of which there are none. -/
private theorem filter_row_nil {c : Bool} {p : Edge → Bool}
    (h : ∀ n, (edgesAfter c n).filter p = []) (n : Nat) :
    ((List.range n).flatMap (edgesAfter c)).filter p = [] := by
  simpa using filter_row n [] (fun m => by simp [h]) n

/-- Edges of which there is one behind each task. -/
private theorem filter_row_map {c : Bool} {p : Edge → Bool} {f : Nat → Edge}
    (h : ∀ n, (edgesAfter c n).filter p = [f n]) (n : Nat) :
    ((List.range n).flatMap (edgesAfter c)).filter p = (List.range n).map f := by
  induction n with
  | zero => rfl
  | succ n ih =>
    rw [List.range_succ, List.flatMap_append, List.filter_append, ih, List.flatMap_singleton, h,
      List.map_append, List.map_singleton]

/-- **The edges that enter a node are those with the node as their target.** -/
theorem entering_eq (s : Shape) (n : Node) :
    entering s n = (edges s).filter fun e => e.target = n := by
  symm
  rw [edges]
  cases n with
  | task t =>
    cases t with
    | zero =>
      refine filter_row_nil (fun n => ?_) _
      cases s.conditions <;> simp [edgesAfter, Edge.target]
    | succ t =>
      refine filter_row t [if s.conditions then .guarded t else .direct t] (fun n => ?_) _
      by_cases h : n = t <;> cases s.conditions <;> simp [edgesAfter, Edge.target, h]
  | gateway t =>
    rw [entering, filter_row t (if s.conditions then [.entry t] else []) fun n => by
      by_cases h : n = t <;> cases s.conditions <;> simp [edgesAfter, Edge.target, h]]
    cases s.conditions <;> simp
  | finish =>
    rw [entering]
    split
    · rename_i hc
      rw [hc]
      exact filter_row_map (fun n => by simp [edgesAfter, Edge.target]) _
    · rename_i hc
      rw [Bool.not_eq_true] at hc
      rw [hc]
      exact filter_row_nil (fun n => by simp [edgesAfter, Edge.target]) _

/-- **The edges that leave a node are those with the node as their source.** -/
theorem leaving_eq (s : Shape) (n : Node) :
    leaving s n = (edges s).filter fun e => e.source = n := by
  symm
  rw [edges]
  cases n with
  | task t =>
    refine filter_row t [if s.conditions then .entry t else .direct t] (fun n => ?_) _
    by_cases h : n = t <;> cases s.conditions <;> simp [edgesAfter, Edge.source, h]
  | gateway t =>
    rw [leaving, filter_row t (if s.conditions then [.guarded t, .fallback t] else []) fun n => by
      by_cases h : n = t <;> cases s.conditions <;> simp [edgesAfter, Edge.source, h]]
    cases s.conditions <;> simp
  | finish =>
    refine filter_row_nil (fun n => ?_) _
    cases s.conditions <;> simp [edgesAfter, Edge.source]

end BpmnModel.Generate
