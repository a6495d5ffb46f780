import Mathlib.Data.List.Forall2
import Mathlib.Data.List.Induction

/-!
# The first and the last of a row

Where several members of a row have a property, a reader goes by the first or by the last of them.

## Main definitions

* `FirstWith P as a` — `a` is the first member of `as` with `P`.
* `LastWith P as a` — `a` is the last member of `as` with `P`.

## Main statements

* `firstWith_iff_find?` — the first member is the one that a search finds.
* `firstWith_iff_least` — in an ordered row it is the least one.
* `exists_firstWith_iff`, `exists_lastWith_iff` — there is a first and a last member with a property
  when there is any.
-/

namespace BpmnModel

variable {α : Type} {P : α → Prop} {as : List α} {a b : α}

/-! ## The first -/

/-- The first of a row for which something holds. -/
def FirstWith {α : Type} (P : α → Prop) (as : List α) (a : α) : Prop :=
  ∃ before after, as = before ++ a :: after ∧ P a ∧ ∀ b ∈ before, ¬P b

theorem firstWith_iff_find? {α : Type} {P : α → Prop} [DecidablePred P] {as : List α} {a : α} :
    FirstWith P as a ↔ as.find? (fun b => decide (P b)) = some a := by
  simp only [FirstWith, List.find?_eq_some_iff_append, decide_eq_true_eq, Bool.not_eq_true',
    decide_eq_false_iff_not]
  constructor
  · rintro ⟨before, after, happ, ha, hbefore⟩
    exact ⟨ha, before, after, happ, hbefore⟩
  · rintro ⟨ha, before, after, happ, hbefore⟩
    exact ⟨before, after, happ, ha, hbefore⟩

theorem exists_firstWith_iff : (∃ a, FirstWith P as a) ↔ ∃ a ∈ as, P a := by
  classical
  simp only [firstWith_iff_find?, ← Option.isSome_iff_exists, List.find?_isSome, decide_eq_true_eq]

/-- In an ordered row the first member with a property is the least one. -/
theorem firstWith_iff_least {R : α → α → Prop} (has : as.Pairwise R)
    (hR : ∀ a b, R a b → ¬R b a) :
    FirstWith P as a ↔ a ∈ as ∧ P a ∧ ∀ b ∈ as, P b → b = a ∨ R a b := by
  constructor
  · rintro ⟨before, after, rfl, ha, hbefore⟩
    refine ⟨by simp, ha, fun b hb hPb => ?_⟩
    rcases List.mem_append.mp hb with hb | hb
    · exact absurd hPb (hbefore b hb)
    · rcases List.mem_cons.mp hb with rfl | hb
      · exact .inl rfl
      · exact .inr (List.rel_of_pairwise_cons (List.pairwise_append.mp has).2.1 hb)
  · rintro ⟨hmem, ha, hleast⟩
    obtain ⟨before, after, rfl⟩ := List.append_of_mem hmem
    refine ⟨before, after, rfl, ha, fun b hb hPb => ?_⟩
    have hba : R b a := (List.pairwise_append.mp has).2.2 b hb a List.mem_cons_self
    rcases hleast b (List.mem_append_left _ hb) hPb with rfl | hab
    · exact hR b b hba hba
    · exact hR a b hab hba

theorem firstWith_cons_iff : FirstWith P (a :: as) b ↔ P a ∧ a = b ∨ ¬P a ∧ FirstWith P as b := by
  constructor
  · rintro ⟨before, after, happ, hb, hbefore⟩
    cases before with
    | nil =>
      obtain ⟨rfl, rfl⟩ := List.cons.inj happ
      exact .inl ⟨hb, rfl⟩
    | cons c before =>
      obtain ⟨rfl, rfl⟩ := List.cons.inj happ
      obtain ⟨ha, hbefore⟩ := List.forall_mem_cons.mp hbefore
      exact .inr ⟨ha, before, after, rfl, hb, hbefore⟩
  · rintro (⟨ha, rfl⟩ | ⟨ha, before, after, rfl, hb, hbefore⟩)
    · exact ⟨[], as, rfl, ha, by simp⟩
    · exact ⟨a :: before, after, rfl, hb, List.forall_mem_cons.mpr ⟨ha, hbefore⟩⟩

/-- Two rows that agree member by member on what is asked have their first members at one place. -/
theorem FirstWith.of_forall₂ {β : Type} {Q : β → Prop} {R : α → β → Prop} {bs : List β} {b : β}
    (h : List.Forall₂ R as bs) (hR : ∀ a b, R a b → (P a ↔ Q b)) (hb : FirstWith Q bs b) :
    ∃ a, FirstWith P as a ∧ R a b := by
  induction h with
  | nil =>
    obtain ⟨before, after, happ, -⟩ := hb
    simp at happ
  | @cons a c as bs hac _ ih =>
    rcases firstWith_cons_iff.mp hb with ⟨hc, rfl⟩ | ⟨hc, hb⟩
    · exact ⟨a, firstWith_cons_iff.mpr (.inl ⟨(hR a c hac).mpr hc, rfl⟩), hac⟩
    · obtain ⟨a', ha', hR'⟩ := ih hb
      exact ⟨a', firstWith_cons_iff.mpr (.inr ⟨fun ha => hc ((hR a c hac).mp ha), ha'⟩), hR'⟩

/-- A row keeps its first member when its members are changed without touching what is asked. -/
theorem FirstWith.map {β : Type} {Q : β → Prop} {f : α → β} (hf : ∀ a, Q (f a) ↔ P a)
    (h : FirstWith P as a) : FirstWith Q (as.map f) (f a) := by
  obtain ⟨before, after, rfl, ha, hbefore⟩ := h
  refine ⟨before.map f, after.map f, by simp, (hf a).mpr ha, fun b hb => ?_⟩
  obtain ⟨c, hc, rfl⟩ := List.mem_map.mp hb
  exact fun hQ => hbefore c hc ((hf c).mp hQ)

/-! ## The last -/

/-- The last of a row for which something holds. -/
def LastWith {α : Type} (P : α → Prop) (as : List α) (a : α) : Prop :=
  ∃ before after, as = before ++ a :: after ∧ P a ∧ ∀ b ∈ after, ¬P b

theorem lastWith_concat_iff : LastWith P (as ++ [a]) b ↔
    P a ∧ a = b ∨ ¬P a ∧ LastWith P as b := by
  constructor
  · rintro ⟨before, after, happ, hb, hafter⟩
    rcases List.eq_nil_or_concat after with rfl | ⟨after, c, rfl⟩
    · obtain ⟨-, rfl⟩ := List.append_inj' happ rfl |>.imp_right List.singleton_inj.mp
      exact .inl ⟨hb, rfl⟩
    · rw [List.concat_eq_append, ← List.cons_append, ← List.append_assoc] at happ
      obtain ⟨rfl, hlast⟩ := List.append_inj' happ rfl
      obtain rfl := List.singleton_inj.mp hlast
      rw [List.concat_eq_append, List.forall_mem_append] at hafter
      exact .inr ⟨hafter.2 a List.mem_cons_self, before, after, rfl, hb, hafter.1⟩
  · rintro (⟨ha, rfl⟩ | ⟨ha, before, after, rfl, hb, hafter⟩)
    · exact ⟨as, [], rfl, ha, by simp⟩
    · refine ⟨before, after ++ [a], by simp, hb, ?_⟩
      rw [List.forall_mem_append]
      exact ⟨hafter, by simpa using ha⟩

theorem exists_lastWith_iff : (∃ b, LastWith P as b) ↔ ∃ b ∈ as, P b := by
  induction as using List.reverseRecOn with
  | nil => simp [LastWith]
  | append_singleton as a ih =>
    simp only [lastWith_concat_iff, exists_or, exists_and_left, ih, List.mem_append,
      List.mem_singleton]
    by_cases ha : P a
    · simp [ha]
    · simp [ha, or_and_right, exists_or]

end BpmnModel
