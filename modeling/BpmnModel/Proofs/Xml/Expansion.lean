import BpmnModel.Proofs.Outcome
import BpmnModel.Proofs.Xml.Escape

/-!
# What a text with references stands for

The expansion of a text keeps account of places, since its faults are told with them.  Where it
succeeds, the places do not matter: runs without an ampersand stand for themselves, and each
reference stands for its character.

## Main definitions

* `Xml.Expands raw cs` — the raw text `raw` stands for `cs`.

## Main statements

* `Xml.expand_eq_ok_iff` — what an expansion that succeeds yields.
* `Xml.Expands.pad` — characters around a text that are no ampersands stand for themselves.
-/

namespace BpmnModel.Xml

variable {raw cs as bs name : List Char} {c : Char} {size start : Nat}

/-- The raw text stands for the characters. -/
inductive Expands : List Char → List Char → Prop
  | plain {raw : List Char} (h : '&' ∉ raw) : Expands raw raw
  | reference {plain name rest more : List Char} {c : Char} (hplain : '&' ∉ plain)
    (hname : ∀ d ∈ name, d ≠ '&' ∧ d ≠ ';') (hc : ∀ start, resolve start name = .ok c)
    (hrest : Expands rest more) : Expands (plain ++ '&' :: (name ++ ';' :: rest)) (plain ++ c :: more)

/-- What a name stands for does not depend on its place. -/
theorem resolve_eq_ok (h : resolve start name = .ok c) (start' : Nat) :
    resolve start' name = .ok c := by
  unfold resolve at h ⊢
  split
  · exact h
  · simp only at h ⊢
    cases hlookup : namedEntities.lookup (String.ofList name) with
    | none => simp [hlookup] at h
    | some d => simpa [hlookup] using h

theorem expandFrom_of_expands (h : Expands raw cs) (size start : Nat) :
    expandFrom size start raw = .ok cs := by
  induction h generalizing start with
  | plain h => exact expandFrom_of_plain h
  | reference hplain hname hc _ ih => exact expandFrom_reference hplain hname hc ih

theorem expands_of_expandFrom (h : expandFrom size start raw = .ok cs) : Expands raw cs := by
  revert h
  fun_induction expandFrom size start raw generalizing cs
  case case1 start raw plain hnone =>
    rintro ⟨⟩
    have hall : ∀ d ∈ raw, (d != '&') = true := List.dropWhile_eq_nil_iff.mp hnone
    have hplain : plain = raw := List.takeWhile_eq_self_iff.mpr hall
    rw [hplain]
    exact .plain fun hmem => by simpa using hall '&' hmem
  case case2 start raw plain head body hbody ampersand name rest hrest _ ih =>
    intro h
    obtain ⟨c, hc, h⟩ := Outcome.bind_eq_ok_iff.mp h
    obtain ⟨more, hmore, h⟩ := Outcome.bind_eq_ok_iff.mp h
    obtain rfl := Outcome.pure_eq_ok_iff.mp h
    obtain ⟨hraw, hhead⟩ := Text.eq_append_of_dropWhile hbody
    obtain ⟨htail, -⟩ := Text.eq_append_of_dropWhile hrest
    obtain rfl : head = '&' := by simpa using hhead
    have hshape : raw = plain ++ '&' :: (name ++ ';' :: rest) :=
      hraw.trans (congrArg (fun tail => plain ++ '&' :: tail) htail)
    rw [hshape]
    refine .reference (fun hmem => ?_) (fun d hd => ?_) (resolve_eq_ok hc) (ih hmore)
    · simpa using List.mem_takeWhile_imp hmem
    · simpa using List.mem_takeWhile_imp hd
  case case3 => simp

/-- **What an expansion that succeeds yields.** -/
theorem expand_eq_ok_iff : expand raw = .ok cs ↔ Expands raw cs :=
  ⟨expands_of_expandFrom, fun h => expandFrom_of_expands h _ _⟩

/-- **Characters around a text that are no ampersands stand for themselves.** -/
theorem Expands.pad (h : Expands raw cs) (has : '&' ∉ as) (hbs : '&' ∉ bs) :
    Expands (as ++ (raw ++ bs)) (as ++ (cs ++ bs)) := by
  induction h generalizing as with
  | plain h => exact .plain (by simp [has, h, hbs])
  | @reference plain name rest more c hplain hname hc _ ih =>
    have hnone : '&' ∉ ([] : List Char) := List.not_mem_nil
    have hmore : Expands (rest ++ bs) (more ++ bs) := ih hnone
    have hfirst : '&' ∉ as ++ plain := by simp [has, hplain]
    simpa using Expands.reference hfirst hname hc hmore

end BpmnModel.Xml
