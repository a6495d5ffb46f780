import BpmnModel.Proofs.Condition.Sound
import BpmnModel.Proofs.Outcome

/-!
# Completed processes

A check that has nothing to tell fills in what the conditions of a process stand for and leaves
everything else alone.  What it has filled in stays as it is when the process is checked again: a
value that has been read is no text any more, and the comparator and the type follow from parts of a
condition that no check changes.

## Main definitions

* `Condition.CompletedAs c c'` — `c'` is `c` with its comparator, its type and its value filled in.
* `Transition.CompletedAs t t'`, `Process.CompletedAs p q` — the same of the conditions in them,
  with all other parts kept.

## Main statements

* `Condition.complete_complete` — completing a condition again changes nothing.
* `Process.check_again` — a checked process is the completed one, and passes a second check
  unchanged.
-/

namespace BpmnModel

variable {s : Settings} {m : Model} {p q : Process} {c : Condition} {source : String}

/-! ## Values -/

namespace ConditionValue

variable {value v : ConditionValue} {d : DataType}

/-- A value that has been read is no text any more. -/
theorem raw?_of_resolve (h : value.resolve d = .ok v) : v.raw? = none := by
  cases value with
  | raw raw =>
    have hdenotes := resolve_raw_iff.mp h
    cases hdenotes <;> rfl
  | _ =>
    rw [← Except.ok.inj h]
    rfl

/-- A value that has been read before is kept, whatever the type. -/
theorem resolve_of_raw? (h : v.raw? = none) : v.resolve d = .ok v := by
  cases v with
  | raw raw => simp [raw?] at h
  | _ => rfl

/-- A value is read once. -/
theorem resolve_of_resolve (h : value.resolve d = .ok v) : v.resolve d = .ok v :=
  resolve_of_raw? (raw?_of_resolve h)

end ConditionValue

/-! ## Conditions -/

namespace Condition

/-- The condition with its comparator, its type and its value filled in.  The value is no text any
more, and a value that was none before is kept. -/
structure CompletedAs (c c' : Condition) : Prop where
  others : c' = { c with
    comparator := c'.comparator, dataType := c'.dataType, rhValue := c'.rhValue }
  value : c'.rhValue.raw? = none
  kept : c.rhValue.raw? = none → c'.rhValue = c.rhValue

section

variable (h : c.problems s m p source = [])
include h

/-- Completing a condition in which nothing is wrong fills in three of its parts. -/
theorem completedAs_complete : c.CompletedAs (c.complete s m) := by
  obtain ⟨f, d, hfield, htype, ⟨v, hv⟩, ⟨op, hop⟩, -⟩ := problems_eq_nil_iff.mp h
  rw [complete_eq hfield htype hv hop]
  refine { others := rfl, value := ConditionValue.raw?_of_resolve hv, kept := fun hread => ?_ }
  have hkept := ConditionValue.resolve_of_raw? (d := d) hread
  exact Except.ok.inj (hv.symm.trans hkept)

/-- **Completing a condition again changes nothing.** -/
theorem complete_complete : (c.complete s m).complete s m = c.complete s m := by
  obtain ⟨f, d, hfield, htype, ⟨v, hv⟩, ⟨op, hop⟩, -⟩ := problems_eq_nil_iff.mp h
  rw [complete_eq hfield htype hv hop]
  exact complete_eq hfield htype (ConditionValue.resolve_of_resolve hv) hop

/-- Nothing is wrong with a condition that has been completed. -/
theorem problems_complete : (c.complete s m).problems s m p source = [] := by
  obtain ⟨f, d, hfield, htype, ⟨v, hv⟩, ⟨op, hop⟩, hsource⟩ := problems_eq_nil_iff.mp h
  have hread : ∃ v', v.resolve d = .ok v' := ⟨v, ConditionValue.resolve_of_resolve hv⟩
  rw [complete_eq hfield htype hv hop]
  exact problems_eq_nil_iff.mpr ⟨f, d, hfield, htype, hread, ⟨op, hop⟩, hsource⟩

end

end Condition

/-! ## Transitions -/

namespace Transition

/-- The transition with its condition filled in, if it has one. -/
structure CompletedAs (t t' : Transition) : Prop where
  others : t' = { t with condition := t'.condition }
  present : t'.condition.isSome = t.condition.isSome
  condition : ∀ c c', t.condition = some c → t'.condition = some c' → c.CompletedAs c'

section

variable {t : Transition}
  (h : ∀ c, t.condition = some c → c.problems s m p t.source = [])
include h

theorem completedAs_complete : t.CompletedAs (t.complete s m) where
  others := rfl
  present := Option.isSome_map
  condition := by
    intro c c' hc hc'
    obtain rfl : c.complete s m = c' := by simpa [complete, hc] using hc'
    exact Condition.completedAs_complete (h c hc)

theorem complete_complete : (t.complete s m).complete s m = t.complete s m := by
  obtain ⟨id, source, target, condition⟩ := t
  cases condition with
  | none => rfl
  | some c =>
    have hc := Condition.complete_complete (h c rfl)
    simp only [complete, Option.map_some, hc]

theorem problems_complete : ∀ c, (t.complete s m).condition = some c →
    c.problems s m p t.source = [] := by
  intro c' hc'
  obtain ⟨c, hc, rfl⟩ := Option.map_eq_some_iff.mp hc'
  exact Condition.problems_complete (h c hc)

end

end Transition

/-! ## Processes -/

namespace Process

/-- The process with its conditions filled in. -/
structure CompletedAs (p q : Process) : Prop where
  others : q = { p with transitions := q.transitions }
  transitions : List.Forall₂ Transition.CompletedAs p.transitions q.transitions

/-- **A checked process is the completed one, and passes a second check unchanged.**  Its conditions
may have been in any state before, those of a checked process included. -/
theorem check_again (h : p.check s m = .ok q) : q.check s m = .ok q ∧ p.CompletedAs q := by
  obtain ⟨hnone, rfl⟩ := check_eq_ok_iff.mp h
  rw [violations_eq_nil_iff] at hnone
  constructor
  · have hsame : (p.transitions.map (Transition.complete s m)).map (Transition.complete s m) =
        p.transitions.map (Transition.complete s m) := by
      rw [List.map_map]
      exact List.map_congr_left fun t ht => Transition.complete_complete (hnone t ht)
    refine check_eq_ok_iff.mpr ⟨violations_eq_nil_iff.mpr ?_, ?_⟩
    · intro t' ht'
      obtain ⟨t, ht, rfl⟩ := List.mem_map.mp ht'
      -- a check changes no gateway, so that a condition is held against the same ones
      exact Transition.problems_complete (hnone t ht)
    · rw [hsame]
  · refine { others := rfl, transitions := ?_ }
    rw [List.forall₂_map_right_iff, List.forall₂_same]
    exact fun t ht => Transition.completedAs_complete (hnone t ht)

/-- Of three edges the first has a text to be read, and the second a value of another type and a
comparator that its operator does not stand for: the value stays, the comparator does not. -/
theorem check_again_mixed :
    let condition (operator : String) (comparator : Option Operator) (rhValue : ConditionValue) :
        Condition := {
      lhDataStorageId := "", lhDataPath := "amount", operator, comparator, rhValue
      rhDataStorageId := none, rhDataPath := none, dataType := none }
    let m : Model := {
      id := "C", name := "", version := ⟨1, 0, 0⟩, isPrivate := false
      dataStoreFields := [⟨"PROCESS_INSTANCE", "amount", .number⟩] }
    let p : Process := {
      id := "P", name := "", interface := ""
      xorGateways := [⟨"G", .xor, ["F0"], ["F1", "F2", "F3"], some "F3"⟩]
      transitions := [⟨"F1", "G", "A", some (condition "03" none (.raw " +7 "))⟩,
        ⟨"F2", "G", "B", some (condition "1" (some .eq) (.text "x"))⟩, ⟨"F3", "G", "C", none⟩] }
    ∃ q, p.check {} m = .ok q ∧
      q.transitions.map (fun t => t.condition.map fun c => (c.comparator, c.rhValue)) =
        [some (some .lte, .int 7), some (some .lt, .text "x"), none] ∧
      q.check {} m = .ok q ∧ p.CompletedAs q := by
  intro condition m p
  obtain ⟨q, hq, hfilled⟩ : ∃ q, p.check {} m = .ok q ∧
      q.transitions.map (fun t => t.condition.map fun c => (c.comparator, c.rhValue)) =
        [some (some .lte, .int 7), some (some .lt, .text "x"), none] :=
    Outcome.exists_of_toOption_map (by decide +kernel)
  exact ⟨q, hq, hfilled, check_again hq⟩

end Process

end BpmnModel
