/-!
# The order of texts

Keys are listed in the order of their code points, which is also the order of their UTF-8
bytes: the first differing character decides, and a proper beginning stands before the
whole.

## Main definitions

* `Text.precedes s t` — `s` stands before `t`.

## Main statements

The order is a strict total order: `precedes_irrefl`, `precedes_trans`,
`eq_of_not_precedes`.
-/

namespace BpmnModel.Text

/-- Whether `s` stands before `t` in the order of code points. -/
def precedes (s t : String) : Bool :=
  decide (s < t)

/-- The order of texts is that of their lists of characters. -/
theorem precedes_iff_toList {s t : String} : precedes s t = true ↔ s.toList < t.toList :=
  decide_eq_true_iff

@[simp] theorem precedes_irrefl (s : String) : precedes s s = false :=
  decide_eq_false (String.lt_irrefl s)

theorem precedes_trans {s t u : String} (h₁ : precedes s t = true)
    (h₂ : precedes t u = true) : precedes s u = true :=
  decide_eq_true (String.lt_trans (of_decide_eq_true h₁) (of_decide_eq_true h₂))

/-- Two texts of which neither stands before the other are the same. -/
theorem eq_of_not_precedes {s t : String} (h₁ : precedes s t = false)
    (h₂ : precedes t s = false) : s = t :=
  String.le_antisymm (String.not_lt.mp (of_decide_eq_false h₂))
    (String.not_lt.mp (of_decide_eq_false h₁))

theorem ne_of_precedes {s t : String} (h : precedes s t = true) : s ≠ t := by
  rintro rfl
  simp at h

theorem precedes_asymm {s t : String} (h : precedes s t = true) : precedes t s = false := by
  cases h' : precedes t s with
  | false => rfl
  | true => simpa using precedes_trans h h'

end BpmnModel.Text
