import BpmnModel.Proofs.Compile.Frame

/-!
# Elements that are not known

A document may hold elements that mean nothing to the compiler: extensions of other tools, diagrams,
annotations.  Such an element has no influence, whatever stands in it, since a compiler looks for
stores and collaborations at any depth but for everything else at its own place only.

## Main definitions

* `Registry.Unknown r tag` — children of a process with the tag are passed over.
* `Element.Storeless x` — no store and no collaboration stands in the element.
* `Element.Inserted r x root root'` — `root'` is `root` with the unknown element `x` somewhere.

## Main statements

* `Process.read_insert` — an unknown child of a process has no influence on it.
* `Compiler.compile_inserted` — an unknown element has no influence on the outcome.
-/

namespace BpmnModel

variable {r : Registry} {s : Settings} {e x process root root' : Element}
variable {first last before after : List Element} {tag : String}

/-- Children of a process with the tag are passed over: no classifier reads them, they are no
gateways, and neither lanes nor properties are looked for in them. -/
structure Registry.Unknown (r : Registry) (tag : String) : Prop where
  unread : r.get? tag = none
  supported : tag ∉ FlowGraph.unsupportedGateways
  laneSet : tag ≠ "laneSet"
  extensions : tag ≠ "extensionElements"

namespace Element

/-- The element neither is nor contains a store or a collaboration. -/
def Storeless (x : Element) : Prop :=
  ∀ d ∈ x :: x.descendants, d.tag ≠ "dataStore" ∧ d.tag ≠ "collaboration"

instance (x : Element) : Decidable x.Storeless :=
  inferInstanceAs (Decidable (∀ d ∈ x :: x.descendants, d.tag ≠ "dataStore" ∧
    d.tag ≠ "collaboration"))

/-- A document with one more element that is not known, beside its processes or within one of
them. -/
inductive Inserted (r : Registry) (x : Element) : Element → Element → Prop
  | beside {root : Element} {before after : List Element}
    (hroot : root.children = before ++ after) (hx : x.tag ≠ "process") :
    Inserted r x root { root with children := before ++ x :: after }
  | within {root process : Element} {before after first last : List Element}
    (hroot : root.children = before ++ process :: after) (htag : process.tag = "process")
    (hprocess : process.children = first ++ last) (hx : r.Unknown x.tag) :
    Inserted r x root
      { root with children := before ++ { process with children := first ++ x :: last } :: after }

/-! ## One more child -/

theorem childrenNamed_insert (he : e.children = first ++ last) (hx : x.tag ≠ tag) :
    childrenNamed { e with children := first ++ x :: last } tag = e.childrenNamed tag := by
  simp only [childrenNamed, he, List.filter_append, List.filter_cons, beq_eq_false_iff_ne.mpr hx,
    Bool.false_eq_true, if_false]

theorem descendantsNamed_insert (he : e.children = first ++ last) (hx : x.withinNamed tag = []) :
    descendantsNamed { e with children := first ++ x :: last } tag = e.descendantsNamed tag := by
  rw [descendantsNamed_eq, descendantsNamed_eq, he]
  simp only [List.flatMap_append, List.flatMap_cons, hx, List.nil_append]

theorem withinNamed_insert (he : e.children = first ++ last) (hx : x.withinNamed tag = [])
    (htag : e.tag ≠ tag) :
    withinNamed { e with children := first ++ x :: last } tag = e.withinNamed tag := by
  rw [withinNamed_eq, withinNamed_eq, if_neg htag, if_neg htag, descendantsNamed_insert he hx]

namespace Storeless

variable (h : x.Storeless)
include h

theorem withinNamed_dataStore : x.withinNamed "dataStore" = [] := by
  rw [withinNamed, List.filter_eq_nil_iff]
  intro d hd
  simpa using (h d hd).1

theorem withinNamed_collaboration : x.withinNamed "collaboration" = [] := by
  rw [withinNamed, List.filter_eq_nil_iff]
  intro d hd
  simpa using (h d hd).2

end Storeless

end Element

/-! ## Processes -/

theorem FlowGraph.classify_unknown (hx : r.Unknown x.tag) (participants : List Participant) :
    classify r s participants x = .ok none := by
  have hsupported : unsupportedGateways.contains x.tag = false := by
    simpa [List.contains_eq_mem] using hx.supported
  rw [classify, hx.unread]
  simp only [hsupported, Bool.false_eq_true, if_false]

/-- **An unknown child has no influence on a process.** -/
theorem Process.read_insert (hprocess : process.children = first ++ last)
    (hx : r.Unknown x.tag) :
    read r s { process with children := first ++ x :: last } = read r s process := by
  refine read_congr ?head ?elements
  case head =>
    exact {
      attributes := rfl
      extensions := Element.childrenNamed_insert hprocess hx.extensions
      laneSets := Element.childrenNamed_insert hprocess hx.laneSet }
  case elements =>
    intro participants
    rw [hprocess, FlowGraph.elementsOf_append, FlowGraph.elementsOf_append,
      FlowGraph.elementsOf_cons_of_passed (FlowGraph.classify_unknown hx participants)]

/-! ## Documents -/

namespace Compiler

variable {c : Compiler}

open Element (Inserted Storeless)

/-- **An element that is not known has no influence on the outcome**, be it a document or an
error. -/
theorem compile_inserted (h : Inserted c.registry x root root') (hx : x.Storeless) :
    c.compile root' = c.compile root := by
  cases h with
  | beside hroot htag =>
    refine compile_congr rfl rfl ?model ?row
    case model =>
      exact Collaboration.read_congr
        (Element.descendantsNamed_insert hroot hx.withinNamed_dataStore)
        (Element.descendantsNamed_insert hroot hx.withinNamed_collaboration)
    case row =>
      rw [Element.childrenNamed_insert hroot htag]
      exact List.forall₂_same.mpr fun _ _ => rfl
  | within hroot htag hprocess hunknown =>
    refine compile_congr rfl rfl ?model ?row
    case model =>
      refine Collaboration.read_congr (Element.descendantsNamed_exchange hroot ?store)
        (Element.descendantsNamed_exchange hroot ?collaboration)
      case store =>
        exact Element.withinNamed_insert hprocess hx.withinNamed_dataStore (htag ▸ by decide)
      case collaboration =>
        exact Element.withinNamed_insert hprocess hx.withinNamed_collaboration (htag ▸ by decide)
    case row =>
      exact Element.forall₂_exchange hroot htag htag (fun _ => rfl)
        (Process.read_insert hprocess hunknown)

/-! ## A lookalike -/

/-- An annotation in which stand a process, a lane and an edge without ends. -/
def lookalike : Element where
  tag := "annotation"
  children := [
    { tag := "process", children := [{ tag := "inclusiveGateway" }] },
    { tag := "laneSet"
      children := [{ tag := "lane", children := [.propertyBlock [("INDATAID", "")]] }] },
    { tag := "sequenceFlow" }]

/-- A process with a vote, whose lane stands after it. -/
def vote (between : List Element) : Element where
  tag := "process"
  attributes := .ofList [("id", "P")]
  children := { tag := "userTask", attributes := .ofList [("id", "T")] } :: (between ++ [
    { tag := "laneSet"
      children := [{ tag := "lane", attributes := .ofList [("id", "L")]
                     children := [.propertyBlock [], { tag := "flowNodeRef", text := "T" }] }] }])

/-- What looks like a process, a lane and an edge changes nothing inside an annotation, while the
edge alone would be refused. -/
theorem compile_inserted_lookalike :
    compile {} (.documentOf [vote [lookalike]]) = compile {} (.documentOf [vote []]) ∧
      (∃ d, compile {} (.documentOf [vote []]) = .ok d ∧
        d.processes.map (fun p => p.userTasks.map Activity.assignee) = [["L"]]) ∧
      compile {} (.documentOf [vote [{ tag := "sequenceFlow" }]]) =
        .error (.structure (.missingAttribute "" "sourceRef")) := by
  have hunknown : Registry.standard.Unknown lookalike.tag := {
    unread := rfl
    supported := by decide
    laneSet := by decide
    extensions := by decide }
  have hroot : (Element.documentOf [vote []]).children =
      (Element.documentOf []).children ++ vote [] :: [] := rfl
  have hprocess : (vote []).children =
      { tag := "userTask", attributes := .ofList [("id", "T")] } :: [] ++
        (vote []).children.tail := rfl
  have hinserted : Inserted Registry.standard lookalike (.documentOf [vote []])
      (.documentOf [vote [lookalike]]) := .within hroot rfl hprocess hunknown
  exact ⟨compile_inserted hinserted (by decide +kernel),
    Outcome.exists_of_toOption_map (by decide +kernel), by decide +kernel⟩

end Compiler

end BpmnModel
