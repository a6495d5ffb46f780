import BpmnModel.Proofs.Compile.Soundness
import BpmnModel.Session

/-!
# What a session shows

A session that has been asked for many things, some of which failed, answers like one that has just
been started, and shows the document of its last load with both of its parts, or nothing at all.
The reason is that a load begins by forgetting: whatever came before it does not count.

## Main definitions

* `Session.Call`, `Session.Reply` — what can be asked of a session, and what is answered.
* `Session.run` — a sequence of calls.
* `Session.ShowsLast compiler calls session` — the session shows what the last load came to.

## Main statements

* `Session.replies_run`, `Session.session_run` — what a sequence of calls answers, and what it
  leaves behind.
* `Session.run_start` — both, for a session that has been started.
-/

namespace BpmnModel.Session

/-! ## Calls -/

/-- What can be asked of a session. -/
inductive Call where
  | loadText (text : String)
  | loadTree (root : Element)
  | compile (root : Element)

/-- What is answered.  A load only tells whether it succeeded. -/
inductive Reply where
  | loaded (outcome : Except Error Unit)
  | compiled (outcome : Except Error Document)

/-- Whether a call replaces what is kept. -/
def Call.isLoad : Call → Bool
  | .loadText _ => true
  | .loadTree _ => true
  | .compile _ => false

/-- The tree of a call; that of a text has to be read. -/
def Call.tree : Call → Except XmlError Element
  | .loadText text => Xml.read text
  | .loadTree root => .ok root
  | .compile root => .ok root

/-- One call: the answer, and the session after it. -/
def call (s : Session) : Call → Reply × Session
  | .loadText text => (s.loadText text).map .loaded id
  | .loadTree root => (s.loadTree root).map .loaded id
  | .compile root => (.compiled (s.compiler.compile root), s)

/-- A sequence of calls: the answers, and the session after the last one. -/
def run (s : Session) : List Call → List Reply × Session
  | [] => ([], s)
  | x :: calls =>
    let (reply, s) := s.call x
    let (replies, s) := s.run calls
    (reply :: replies, s)

/-- The last call that replaces what is kept. -/
def lastLoad? (calls : List Call) : Option Call :=
  (calls.filter Call.isLoad).getLast?

/-! ## What is shown -/

/-- The document and both of its parts. -/
structure Shows (s : Session) (d : Document) : Prop where
  document : s.document = some d
  model : s.model? = some d.model
  processes : s.processes = d.processes

/-- No document and no part of one. -/
structure ShowsNothing (s : Session) : Prop where
  document : s.document = none
  model : s.model? = none
  processes : s.processes = []

/-- After the calls, the session shows what the last load came to. -/
structure ShowsLast (c : Compiler) (calls : List Call) (s : Session) : Prop where
  loaded : ∀ x, lastLoad? calls = some x → ((start c).call x).1 = .loaded (.ok ()) →
    ∃ root d, x.tree = .ok root ∧ c.compile root = .ok d ∧ s.Shows d
  refused : ∀ x e, lastLoad? calls = some x → ((start c).call x).1 = .loaded (.error e) →
    s.ShowsNothing
  unloaded : lastLoad? calls = none → s.ShowsNothing

/-- A session that keeps the parts of a document. -/
def holding (c : Compiler) (d : Document) : Session where
  compiler := c
  model? := some d.model
  processes := d.processes

theorem shows_holding (c : Compiler) (d : Document) : (holding c d).Shows d where
  document := rfl
  model := rfl
  processes := rfl

theorem showsNothing_start (c : Compiler) : (start c).ShowsNothing where
  document := rfl
  model := rfl
  processes := rfl

variable {s : Session} {c : Compiler} {x : Call} {root : Element}

/-! ## One call -/

theorem loadTree_of_ok {d : Document} (h : s.compiler.compile root = .ok d) :
    s.loadTree root = (.ok (), holding s.compiler d) := by
  simp only [loadTree, reset_eq, start, h, holding]

theorem loadTree_of_error {e : Error} (h : s.compiler.compile root = .error e) :
    s.loadTree root = (.error e, start s.compiler) := by
  simp only [loadTree, reset_eq, start, h]

theorem loadText_of_ok {text : String} (h : Xml.read text = .ok root) :
    s.loadText text = s.loadTree root := by
  simp only [loadText, h]
  rfl

theorem loadText_of_error {text : String} {fault : XmlError} (h : Xml.read text = .error fault) :
    s.loadText text = (.error (.xml fault), start s.compiler) := by
  simp only [loadText, reset_eq, h]

/-- **A load ends in one of two ways**: with the document of its tree, or with nothing. -/
theorem call_of_isLoad (hx : x.isLoad = true) :
    (∃ root d, x.tree = .ok root ∧ s.compiler.compile root = .ok d ∧
      s.call x = (.loaded (.ok ()), holding s.compiler d)) ∨
    ∃ e, s.call x = (.loaded (.error e), start s.compiler) := by
  have compiled : ∀ root, x.tree = .ok root → s.call x = (s.loadTree root).map .loaded id →
      (∃ root d, x.tree = .ok root ∧ s.compiler.compile root = .ok d ∧
        s.call x = (.loaded (.ok ()), holding s.compiler d)) ∨
      ∃ e, s.call x = (.loaded (.error e), start s.compiler) := by
    intro root htree hcall
    rw [hcall]
    cases hd : s.compiler.compile root with
    | ok d => exact .inl ⟨root, d, htree, hd, by rw [loadTree_of_ok hd]; rfl⟩
    | error e => exact .inr ⟨e, by rw [loadTree_of_error hd]; rfl⟩
  cases x with
  | loadText text =>
    cases hread : Xml.read text with
    | ok root => exact compiled root hread (by rw [call, loadText_of_ok hread])
    | error fault => exact .inr ⟨.xml fault, by rw [call, loadText_of_error hread]; rfl⟩
  | loadTree root => exact compiled root rfl rfl
  | compile root => simp [Call.isLoad] at hx

/-- **A call answers as it would in a session that has just been started.** -/
theorem reply_call (s : Session) (x : Call) : (s.call x).1 = ((start s.compiler).call x).1 := by
  cases x <;> rfl

/-- A load leaves behind what it would leave there. -/
theorem session_call_of_isLoad (hx : x.isLoad = true) :
    (s.call x).2 = ((start s.compiler).call x).2 := by
  cases x with
  | loadText text => rfl
  | loadTree root => rfl
  | compile root => simp [Call.isLoad] at hx

/-- Any other call leaves the session as it was. -/
theorem session_call_of_not_isLoad (hx : x.isLoad = false) : (s.call x).2 = s := by
  cases x with
  | loadText text => simp [Call.isLoad] at hx
  | loadTree root => simp [Call.isLoad] at hx
  | compile root => rfl

/-- No call changes the compiler. -/
theorem compiler_call (s : Session) (x : Call) : (s.call x).2.compiler = s.compiler := by
  cases hx : x.isLoad with
  | false => rw [session_call_of_not_isLoad hx]
  | true =>
    rcases call_of_isLoad (s := s) hx with ⟨root, d, -, -, h⟩ | ⟨e, h⟩
    · rw [h, holding]
    · rw [h, start]

/-! ## A sequence of calls -/

theorem lastLoad?_cons (x : Call) (calls : List Call) : lastLoad? (x :: calls) =
    (lastLoad? calls).or (if x.isLoad then some x else none) := by
  rw [lastLoad?, List.filter_cons]
  split
  · rw [List.getLast?_cons, lastLoad?]
    cases (calls.filter Call.isLoad).getLast? <;> rfl
  · rw [lastLoad?, Option.or_none]

/-- The calls do not hear of one another. -/
theorem replies_run (s : Session) (calls : List Call) :
    (s.run calls).1 = calls.map fun x => ((start s.compiler).call x).1 := by
  induction calls generalizing s with
  | nil => rfl
  | cons x calls ih =>
    have hrest := ih (s.call x).2
    rw [compiler_call] at hrest
    rw [run, List.map_cons, ← reply_call, ← hrest]

/-- **Only the last load leaves anything behind.** -/
theorem session_run (s : Session) (calls : List Call) : (s.run calls).2 =
    (lastLoad? calls).elim s fun x => ((start s.compiler).call x).2 := by
  induction calls generalizing s with
  | nil => rfl
  | cons x calls ih =>
    have hrest := ih (s.call x).2
    rw [compiler_call] at hrest
    rw [run, lastLoad?_cons]
    refine hrest.trans ?_
    -- without a later load, what is left behind depends on whether the first call is one
    cases lastLoad? calls with
    | some y => rfl
    | none =>
      cases hx : x.isLoad with
      | true => exact session_call_of_isLoad hx
      | false => exact session_call_of_not_isLoad hx

theorem isLoad_of_lastLoad? {calls : List Call} (h : lastLoad? calls = some x) :
    x.isLoad = true :=
  (List.mem_filter.mp (List.mem_of_getLast? h)).2

theorem showsLast_run (c : Compiler) (calls : List Call) :
    ShowsLast c calls ((start c).run calls).2 := by
  have hsession : ((start c).run calls).2 =
      (lastLoad? calls).elim (start c) fun x => ((start c).call x).2 := session_run (start c) calls
  refine { loaded := ?_, refused := ?_, unloaded := ?_ }
  · intro x hx hreply
    rw [hsession, hx, Option.elim_some]
    rcases call_of_isLoad (s := start c) (isLoad_of_lastLoad? hx) with
      ⟨root, d, htree, hd, h⟩ | ⟨e, h⟩
    · exact ⟨root, d, htree, hd, h ▸ shows_holding c d⟩
    · simp [h] at hreply
  · intro x e hx hreply
    rw [hsession, hx, Option.elim_some]
    rcases call_of_isLoad (s := start c) (isLoad_of_lastLoad? hx) with ⟨root, d, -, -, h⟩ | ⟨e', h⟩
    · simp [h] at hreply
    · exact h ▸ showsNothing_start c
  · intro hnone
    rw [hsession, hnone]
    exact showsNothing_start c

/-- **A session that has been asked for anything answers each time as if it had just been started,
and shows what its last load came to.**  The calls that only compile could be left out. -/
theorem run_start (c : Compiler) (calls : List Call) :
    ((start c).run calls).1 = calls.map (fun x => ((start c).call x).1) ∧
      ShowsLast c calls ((start c).run calls).2 ∧
      ((start c).run calls).2 = ((start c).run (calls.filter Call.isLoad)).2 := by
  refine ⟨replies_run (start c) calls, showsLast_run c calls, ?_⟩
  rw [session_run, session_run, lastLoad?, lastLoad?, List.filter_filter]
  simp only [Bool.and_self]

/-- The negotiation is shown after an empty text has been refused, and no more after one is refused
later. -/
theorem run_start_negotiation :
    ∃ c d, c.compile .negotiation = .ok d ∧
      ((start c).run [.loadText "", .loadTree .negotiation, .compile .negotiation]).2.Shows d ∧
      ((start c).run [.loadTree .negotiation, .loadText ""]).2.ShowsNothing := by
  have haccepted : ((Compiler.aliased {} [("choice", "exclusiveGateway")]).compile
      .negotiation).toOption.map (fun _ => ()) = some () := by
    decide +kernel
  obtain ⟨d, hd, -⟩ := Outcome.exists_of_toOption_map haccepted
  have hempty : Xml.read "" = .error .emptyDocument := by
    cbv
  refine ⟨_, d, hd, ?_, ?_⟩
  · have hlast := (run_start (Compiler.aliased {} [("choice", "exclusiveGateway")])
      [.loadText "", .loadTree .negotiation, .compile .negotiation]).2.1
    obtain ⟨root, d', htree, hd', hshows⟩ := hlast.loaded (.loadTree .negotiation) rfl
      (by rw [call, loadTree_of_ok hd]; rfl)
    obtain rfl := Except.ok.inj htree
    obtain rfl := Except.ok.inj (hd.symm.trans hd')
    exact hshows
  · have hlast := (run_start (Compiler.aliased {} [("choice", "exclusiveGateway")])
      [.loadTree .negotiation, .loadText ""]).2.1
    exact hlast.refused (.loadText "") (.xml .emptyDocument) rfl
      (by rw [call, loadText_of_error hempty]; rfl)

end BpmnModel.Session
