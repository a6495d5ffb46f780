import Mathlib.Data.List.Forall2
import BpmnModel.Proofs.Row

/-!
# Steps that may fail

A reader of a document is a chain of steps, each of which may fail.  The lemmas here say what
has happened when a chain has succeeded, so that no proof has to open one.

## Main statements

* `Outcome.bind_eq_ok_iff` — a chain succeeds when each step does.
* `Outcome.mapM_eq_ok_iff` — a row of steps succeeds when each of them does, one result for
  each.
* `Outcome.mapM_eq_error_iff` — a row of steps fails with its first step that fails.
* `Outcome.mapM_eq_of_forall₂` — rows of steps that come to the same one by one.
* `Outcome.forall₂_filterMap` — results that are of one kind stand in the order of what they
  were read from.
-/

namespace BpmnModel.Outcome

variable {α β γ ε ε' : Type}

/-! ## Chains -/

theorem bind_eq_ok_iff {x : Except ε α} {f : α → Except ε β} {b : β} :
    (x >>= f) = .ok b ↔ ∃ a, x = .ok a ∧ f a = .ok b := by
  cases x with
  | error e => simp [bind, Except.bind]
  | ok a => simp [bind, Except.bind]

/-- A chain fails when its first step does or, after that, what is left of it. -/
theorem bind_eq_error_iff {x : Except ε α} {f : α → Except ε β} {e : ε} :
    (x >>= f) = .error e ↔ x = .error e ∨ ∃ a, x = .ok a ∧ f a = .error e := by
  cases x with
  | error e' => simp [bind, Except.bind]
  | ok a => simp [bind, Except.bind]

theorem pure_eq_ok_iff {a b : α} : (pure a : Except ε α) = .ok b ↔ a = b := by
  simp [pure, Except.pure]

/-- A chain can succeed when its first step can and, after that, what is left of it. -/
theorem exists_bind_iff {x : Except ε α} {f : α → Except ε β} {P : Prop}
    (h : ∀ a, x = .ok a → ((∃ b, f a = .ok b) ↔ P)) :
    (∃ b, (x >>= f) = .ok b) ↔ (∃ a, x = .ok a) ∧ P := by
  simp only [bind_eq_ok_iff]
  constructor
  · rintro ⟨b, a, ha, hb⟩
    exact ⟨⟨a, ha⟩, (h a ha).mp ⟨b, hb⟩⟩
  · rintro ⟨⟨a, ha⟩, hP⟩
    obtain ⟨b, hb⟩ := (h a ha).mpr hP
    exact ⟨b, a, ha, hb⟩

theorem exists_bind_pure_iff {x : Except ε α} {f : α → β} :
    (∃ b, (x >>= fun a => pure (f a)) = .ok b) ↔ ∃ a, x = .ok a := by
  simp only [bind_eq_ok_iff, pure_eq_ok_iff]
  constructor
  · rintro ⟨b, a, ha, -⟩
    exact ⟨a, ha⟩
  · rintro ⟨a, ha⟩
    exact ⟨f a, a, ha, rfl⟩

theorem map_eq_ok_iff {x : Except ε α} {f : α → β} {b : β} :
    x.map f = .ok b ↔ ∃ a, x = .ok a ∧ f a = b := by
  cases x with
  | error e => simp [Except.map]
  | ok a => simp [Except.map]

theorem exists_map_iff {x : Except ε α} {f : α → β} :
    (∃ b, x.map f = .ok b) ↔ ∃ a, x = .ok a := by
  cases x with
  | error e => simp [Except.map]
  | ok a => simp [Except.map]

theorem map_eq_error_iff {x : Except ε α} {f : α → β} {e : ε} :
    x.map f = .error e ↔ x = .error e := by
  cases x with
  | error e' => simp [Except.map]
  | ok a => simp [Except.map]

theorem mapError_eq_ok_iff {x : Except ε α} {f : ε → ε'} {a : α} :
    x.mapError f = .ok a ↔ x = .ok a := by
  cases x with
  | error e => simp [Except.mapError]
  | ok a => simp [Except.mapError]

theorem mapError_eq_error_iff {x : Except ε α} {f : ε → ε'} {e' : ε'} :
    x.mapError f = .error e' ↔ ∃ e, x = .error e ∧ f e = e' := by
  cases x with
  | error e => simp [Except.mapError]
  | ok a => simp [Except.mapError]

/-- What is known of the result of a step says that the step succeeds. -/
theorem exists_of_toOption_map {x : Except ε α} {f : α → β} {b : β}
    (h : x.toOption.map f = some b) : ∃ a, x = .ok a ∧ f a = b := by
  cases x with
  | error e => simp [Except.toOption] at h
  | ok a => exact ⟨a, rfl, Option.some.inj h⟩

/-! ## Rows -/

theorem mapM_eq_ok_iff {f : α → Except ε β} {as : List α} {bs : List β} :
    as.mapM f = .ok bs ↔ List.Forall₂ (fun a b => f a = .ok b) as bs := by
  induction as generalizing bs with
  | nil => rw [List.mapM_nil, pure_eq_ok_iff, List.forall₂_nil_left_iff, eq_comm]
  | cons a as ih =>
    simp only [List.mapM_cons, bind_eq_ok_iff, pure_eq_ok_iff, List.forall₂_cons_left_iff, ih]
    constructor
    · rintro ⟨b, hb, bs', hbs, rfl⟩
      exact ⟨b, bs', hb, hbs, rfl⟩
    · rintro ⟨b, bs', hb, hbs, rfl⟩
      exact ⟨b, hb, bs', hbs, rfl⟩

/-- **A row of steps fails with its first step that fails.** -/
theorem mapM_eq_error_iff {f : α → Except ε β} {as : List α} {e : ε} :
    as.mapM f = .error e ↔ ∃ (i : Nat) (a : α), as[i]? = some a ∧ f a = .error e ∧
      ∀ j < i, ∀ b, as[j]? = some b → ∃ v, f b = .ok v := by
  induction as with
  | nil => simp [pure, Except.pure]
  | cons a as ih =>
    simp only [List.mapM_cons, bind_eq_error_iff, pure, Except.pure, reduceCtorEq, and_false,
      exists_false, or_false, ih]
    constructor
    · rintro (ha | ⟨v, hv, i, a', hi, ha', hbefore⟩)
      · exact ⟨0, a, rfl, ha, by simp⟩
      · refine ⟨i + 1, a', hi, ha', fun j hj b hb => ?_⟩
        cases j with
        | zero => exact ⟨v, Option.some.inj hb ▸ hv⟩
        | succ j => exact hbefore j (by omega) b hb
    · rintro ⟨i, a', hi, ha', hbefore⟩
      cases i with
      | zero => exact .inl (Option.some.inj hi ▸ ha')
      | succ i =>
        obtain ⟨v, hv⟩ := hbefore 0 (by omega) a rfl
        exact .inr ⟨v, hv, i, a', hi, ha', fun j hj b hb => hbefore (j + 1) (by omega) b hb⟩

/-- The first step that fails, by what stands before it in the row. -/
theorem mapM_eq_error_iff_first {f : α → Except ε β} {as : List α} {e : ε} :
    as.mapM f = .error e ↔ ∃ a, FirstWith (fun a => ∃ e, f a = .error e) as a ∧ f a = .error e := by
  have hfails : ∀ a, (∃ v, f a = .ok v) ↔ ¬∃ e, f a = .error e := by
    intro a
    cases f a <;> simp
  rw [mapM_eq_error_iff]
  constructor
  · rintro ⟨i, a, hi, ha, hbefore⟩
    obtain ⟨hlt, rfl⟩ := List.getElem?_eq_some_iff.mp hi
    refine ⟨_, ⟨as.take i, as.drop (i + 1), ?_, ⟨e, ha⟩, fun b hb => ?_⟩, ha⟩
    · rw [← List.drop_eq_getElem_cons hlt, List.take_append_drop]
    · obtain ⟨j, hj, rfl⟩ := List.mem_take_iff_getElem.mp hb
      exact (hfails _).mp (hbefore j (by omega) _ (List.getElem?_eq_getElem (by omega)))
  · rintro ⟨a, ⟨before, after, rfl, -, hbefore⟩, ha⟩
    refine ⟨before.length, a, by simp, ha, fun j hj b hb => (hfails b).mpr (hbefore b ?_)⟩
    rw [List.getElem?_append_left hj] at hb
    exact List.mem_of_getElem? hb

theorem exists_mapM_iff {f : α → Except ε β} {as : List α} :
    (∃ bs, as.mapM f = .ok bs) ↔ ∀ a ∈ as, ∃ b, f a = .ok b := by
  simp only [mapM_eq_ok_iff]
  induction as with
  | nil => simp
  | cons a as ih =>
    simp only [List.forall₂_cons_left_iff, List.forall_mem_cons, ← ih]
    constructor
    · rintro ⟨_, b, bs, hb, hbs, rfl⟩
      exact ⟨⟨b, hb⟩, bs, hbs⟩
    · rintro ⟨⟨b, hb⟩, bs, hbs⟩
      exact ⟨_, b, bs, hb, hbs, rfl⟩

theorem mapM_map_eq_ok {f : β → Except ε γ} {g : α → β} {k : α → γ} {as : List α}
    (h : ∀ a ∈ as, f (g a) = .ok (k a)) : (as.map g).mapM f = .ok (as.map k) := by
  rw [mapM_eq_ok_iff, List.forall₂_map_left_iff, List.forall₂_map_right_iff, List.forall₂_same]
  exact h

theorem mapM_append_eq_ok {f : α → Except ε β} {as as' : List α} {bs bs' : List β}
    (h : as.mapM f = .ok bs) (h' : as'.mapM f = .ok bs') :
    (as ++ as').mapM f = .ok (bs ++ bs') := by
  rw [mapM_eq_ok_iff] at h h' ⊢
  exact List.rel_append h h'

variable {R : α → β → Prop} {as : List α} {bs : List β}

theorem exists_of_mem_right (h : List.Forall₂ R as bs) {b : β} (hb : b ∈ bs) :
    ∃ a ∈ as, R a b := by
  induction h with
  | nil => simp at hb
  | cons hr _ ih =>
    rcases List.mem_cons.mp hb with rfl | hb
    · exact ⟨_, List.mem_cons_self, hr⟩
    · obtain ⟨a, ha, hab⟩ := ih hb
      exact ⟨a, List.mem_cons_of_mem _ ha, hab⟩

theorem exists_of_mem_left (h : List.Forall₂ R as bs) {a : α} (ha : a ∈ as) :
    ∃ b ∈ bs, R a b :=
  exists_of_mem_right (List.Forall₂.flip h) ha

/-- Results stand at the places of what they were read from. -/
theorem exists_getElem?_of_forall₂ (h : List.Forall₂ R as bs) {i : Nat} {b : β}
    (hb : bs[i]? = some b) : ∃ a, as[i]? = some a ∧ R a b := by
  induction h generalizing i with
  | nil => simp at hb
  | @cons a' b' _ _ hr _ ih =>
    cases i with
    | zero => exact ⟨a', rfl, Option.some.inj hb ▸ hr⟩
    | succ i => exact ih hb

/-- What comes first among the results was read from what comes first among what they were read
from. -/
theorem exists_find?_of_forall₂ (h : List.Forall₂ R as bs) {p : α → Bool} {q : β → Bool}
    (hpq : ∀ a b, R a b → q b = p a) {b : β} (hb : bs.find? q = some b) :
    ∃ a, as.find? p = some a ∧ R a b := by
  have hfirst : FirstWith (fun b => q b = true) bs b := firstWith_iff_find?.mpr (by simpa using hb)
  obtain ⟨a, ha, hr⟩ := hfirst.of_forall₂ h fun a b hr => by rw [hpq a b hr]
  exact ⟨a, by simpa using firstWith_iff_find?.mp ha, hr⟩

/-- **Results of one kind stand in the order of what they were read from.**  The kind of a
result, which `part` picks out, is known beforehand, as `kind` tells. -/
theorem forall₂_filterMap (h : List.Forall₂ R as bs) {kind : α → Bool} {part : β → Option γ}
    (hkind : ∀ a b, R a b → (part b).isSome = kind a) :
    List.Forall₂ (fun a c => ∃ b, R a b ∧ part b = some c) (as.filter kind)
      (bs.filterMap part) := by
  induction h with
  | nil => exact .nil
  | @cons a b as bs hr _ ih =>
    have hk := hkind a b hr
    rw [List.filter_cons, List.filterMap_cons]
    cases hp : part b with
    | none =>
      rw [hp] at hk
      simpa [← hk] using ih
    | some c =>
      rw [hp] at hk
      simpa [← hk] using ⟨⟨b, hr, hp⟩, ih⟩

/-- Steps that come to the same, row by row. -/
theorem mapM_eq_of_forall₂ {f : α → Except ε γ} {g : β → Except ε γ}
    (h : List.Forall₂ R as bs) (hfg : ∀ a ∈ as, ∀ b, R a b → f a = g b) :
    as.mapM f = bs.mapM g := by
  induction h with
  | nil => rfl
  | cons hr _ ih =>
    obtain ⟨ha, has⟩ := List.forall_mem_cons.mp hfg
    rw [List.mapM_cons, List.mapM_cons, ha _ hr, ih has]

/-- What two rows of steps do one after the other. -/
theorem forall₂_trans {S : β → γ → Prop} {cs : List γ} (h : List.Forall₂ R as bs)
    (h' : List.Forall₂ S bs cs) : List.Forall₂ (fun a c => ∃ b, R a b ∧ S b c) as cs := by
  induction h generalizing cs with
  | nil =>
    rw [List.forall₂_nil_left_iff.mp h']
    exact .nil
  | cons hr _ ih =>
    obtain ⟨c, cs, hs, hss, rfl⟩ := List.forall₂_cons_left_iff.mp h'
    exact .cons ⟨_, hr, hs⟩ (ih hss)

end BpmnModel.Outcome
