import Mathlib.Data.List.Nodup
import BpmnModel.Proofs.Row
import BpmnModel.Table

/-!
# Pairs with distinct keys

Where each key stands once, it does not matter in which order pairs are entered into a table.

## Main statements

* `Table.lookup_eq_some_iff_of_nodup` — what is looked up among pairs with distinct keys.
* `Table.ofList_perm` — the order of such pairs does not matter.
* `Table.ofList_eq_of_filter` — nor does the order of pairs with different keys in any row.
* `Table.eq_of_perm_of_keys` — such pairs are determined by the order of their keys.
* `Table.ofList_of_perm_entries` — a table is made of its own entries in any order.
* `Table.get?_ofList_map_eq_some_iff` — of several values for one key the last one is entered.
-/

namespace BpmnModel.Table

variable {α : Type} {l l' : List (String × α)} {k : String} {v : α}

theorem lookup_eq_some_iff_of_nodup (h : (l.map Prod.fst).Nodup) :
    l.lookup k = some v ↔ (k, v) ∈ l := by
  refine ⟨mem_of_lookup, fun hm => ?_⟩
  induction l with
  | nil => simp at hm
  | cons e l ih =>
    obtain ⟨he, hl⟩ := List.nodup_cons.mp h
    rw [lookup_cons_eq]
    rcases List.mem_cons.mp hm with rfl | hm
    · simp
    · have hne : k ≠ e.1 := by
        rintro rfl
        exact he (List.mem_map.mpr ⟨(e.1, v), hm, rfl⟩)
      rw [if_neg hne, ih hl hm]

/-- Pairs with distinct keys in another order assign the same. -/
theorem lookup_perm (h : l.Perm l') (hl : (l.map Prod.fst).Nodup) (k : String) :
    l.lookup k = l'.lookup k := by
  have hl' : (l'.map Prod.fst).Nodup := (h.map Prod.fst).nodup_iff.mp hl
  refine Option.ext fun v => ?_
  rw [lookup_eq_some_iff_of_nodup hl, lookup_eq_some_iff_of_nodup hl', h.mem_iff]

/-- Where each key stands once, it does not matter from which end it is looked for. -/
theorem lookup_reverse_of_nodup (h : (l.map Prod.fst).Nodup) (k : String) :
    l.reverse.lookup k = l.lookup k :=
  (lookup_perm (List.reverse_perm l).symm h k).symm

theorem get?_ofList_of_nodup (h : (l.map Prod.fst).Nodup) (k : String) :
    (ofList l).get? k = l.lookup k := by
  rw [get?_ofList, lookup_reverse_of_nodup h]

/-- **The order in which pairs with distinct keys are entered does not matter.** -/
theorem ofList_perm (h : l.Perm l') (hl : (l.map Prod.fst).Nodup) : ofList l = ofList l' := by
  have hl' : (l'.map Prod.fst).Nodup := (h.map Prod.fst).nodup_iff.mp hl
  refine ext_get? fun k => ?_
  rw [get?_ofList_of_nodup hl, get?_ofList_of_nodup hl', lookup_perm h hl]

/-- Pairs with distinct keys are determined by the order of the keys. -/
theorem eq_of_perm_of_keys (h : l.Perm l') (hl : (l.map Prod.fst).Nodup)
    (hkeys : l.map Prod.fst = l'.map Prod.fst) : l = l' := by
  induction l generalizing l' with
  | nil => exact h.nil_eq
  | cons e l ih =>
    obtain ⟨e', l', rfl⟩ : ∃ e' t, l' = e' :: t :=
      List.exists_cons_of_ne_nil fun hnil => by simp [hnil] at hkeys
    obtain ⟨hkey, hrest⟩ := List.cons.inj hkeys
    have hlookup := lookup_perm h hl e.1
    rw [lookup_cons_eq, if_pos rfl, lookup_cons_eq, if_pos hkey] at hlookup
    obtain rfl : e = e' := Prod.ext hkey (Option.some.inj hlookup)
    rw [ih (List.perm_cons e |>.mp h) (List.nodup_cons.mp hl).2 hrest]

/-- Only the pairs with a key count when it is looked up. -/
theorem lookup_filter_self (l : List (String × α)) (k : String) :
    (l.filter fun e => e.1 == k).lookup k = l.lookup k := by
  induction l with
  | nil => rfl
  | cons e l ih =>
    by_cases hk : e.1 = k
    · simp [hk, lookup_cons_eq]
    · simp [hk, lookup_cons_eq, ih, Ne.symm hk]

/-- **The order of pairs with different keys does not matter**, when those with one key keep their
order. -/
theorem ofList_eq_of_filter
    (h : ∀ k, (l.filter fun e => e.1 == k) = l'.filter fun e => e.1 == k) :
    ofList l = ofList l' := by
  refine ext_get? fun k => ?_
  rw [get?_ofList, get?_ofList, ← lookup_filter_self l.reverse, ← lookup_filter_self l'.reverse,
    List.filter_reverse, List.filter_reverse, h k]

/-- The keys of a table are distinct. -/
theorem nodup_keys (t : Table α) : (t.entries.map Prod.fst).Nodup := by
  rw [List.Nodup, List.pairwise_map]
  exact t.ordered.imp Text.ne_of_precedes

/-- **A table is made of its own entries**, in whatever order they are entered. -/
theorem ofList_of_perm_entries {t : Table α} (h : l.Perm t.entries) : ofList l = t := by
  rw [← ofList_perm h.symm t.nodup_keys, ofList_entries]

/-! ## Values for one key -/

/-- **Of the values for one key the last one is entered.** -/
theorem get?_ofList_map_eq_some_iff {β : Type} {as : List β} {key : β → String} {value : β → α} :
    (ofList (as.map fun a => (key a, value a))).get? k = some v ↔
      ∃ a, LastWith (fun a => key a = k) as a ∧ value a = v := by
  induction as using List.reverseRecOn with
  | nil => simp [LastWith]
  | append_singleton as a ih =>
    rw [List.map_append, List.map_singleton, ofList_concat, get?_insert]
    by_cases hk : k = key a
    · simp [lastWith_concat_iff, hk]
    · simp [lastWith_concat_iff, hk, Ne.symm hk, ih]

end BpmnModel.Table
