import BpmnModel.Text.Order

/-!
# Tables

A table assigns values to texts.  Its entries stand in the order of their keys, each key
once, so that a table is determined by what it assigns: the attributes of an element, the
properties of a node and the names of the activities do not remember the order in which
they were written.

## Main definitions

* `Table α` — the entries, with the proof that they are in order.
* `Table.get? t k` — what `t` assigns to `k`.
* `Table.insert t k v` — `t` with `v` assigned to `k`.
* `Table.ofList l` — the pairs of `l`, entered one after the other; the last one wins.

## Main statements

* `Table.get?_insert` and `Table.get?_ofList` say what is assigned after an insertion.
* `Table.ext_get?` — two tables that assign the same are the same.
-/

namespace BpmnModel

variable {α : Type}

/-- Values assigned to texts, listed in the order of the keys. -/
structure Table (α : Type) where
  /-- The keys with their values. -/
  entries : List (String × α)
  /-- Every key stands before all later ones. -/
  ordered : entries.Pairwise fun a b => Text.precedes a.1 b.1 = true
deriving DecidableEq

namespace Table

/-- The table that assigns nothing. -/
def empty : Table α := ⟨[], .nil⟩

instance : Inhabited (Table α) := ⟨empty⟩

/-- What the table assigns to a key. -/
def get? (t : Table α) (k : String) : Option α :=
  t.entries.lookup k

/-- Whether the table assigns anything to a key. -/
def contains (t : Table α) (k : String) : Bool :=
  (t.get? k).isSome

/-- The table has no entry. -/
def isEmpty (t : Table α) : Bool :=
  t.entries.isEmpty

/-! ## Insertion -/

/-- Enters a pair at its place, in the stead of an entry with the same key. -/
def insertEntry (k : String) (v : α) : List (String × α) → List (String × α)
  | [] => [(k, v)]
  | e :: es =>
    if Text.precedes e.1 k then e :: insertEntry k v es
    else if Text.precedes k e.1 then (k, v) :: e :: es
    else (k, v) :: es

theorem mem_insertEntry {k : String} {v : α} {es : List (String × α)} {e : String × α}
    (h : e ∈ insertEntry k v es) : e = (k, v) ∨ e ∈ es := by
  induction es with
  | nil => simpa [insertEntry] using h
  | cons d ds ih =>
    simp only [insertEntry] at h
    split at h
    · rcases List.mem_cons.mp h with rfl | h
      · simp
      · rcases ih h with h | h <;> simp [h]
    · split at h
      · simpa using h
      · rcases List.mem_cons.mp h with h | h <;> simp [h]

theorem ordered_insertEntry (k : String) (v : α) {es : List (String × α)}
    (h : es.Pairwise fun a b => Text.precedes a.1 b.1 = true) :
    (insertEntry k v es).Pairwise fun a b => Text.precedes a.1 b.1 = true := by
  induction es with
  | nil => simp [insertEntry]
  | cons e es ih =>
    obtain ⟨he, hes⟩ := List.pairwise_cons.mp h
    simp only [insertEntry]
    split
    · rename_i hk
      refine List.pairwise_cons.mpr ⟨fun d hd => ?_, ih hes⟩
      rcases mem_insertEntry hd with rfl | hd
      · exact hk
      · exact he d hd
    · split
      · rename_i hk
        refine List.pairwise_cons.mpr ⟨fun d hd => ?_, h⟩
        rcases List.mem_cons.mp hd with rfl | hd
        · exact hk
        · exact Text.precedes_trans hk (he d hd)
      · rename_i h₁ h₂
        have hk : k = e.1 := Text.eq_of_not_precedes (by simpa using h₂) (by simpa using h₁)
        refine List.pairwise_cons.mpr ⟨fun d hd => ?_, hes⟩
        simpa [hk] using he d hd

/-- The table with `v` assigned to `k`. -/
def insert (t : Table α) (k : String) (v : α) : Table α :=
  ⟨insertEntry k v t.entries, ordered_insertEntry k v t.ordered⟩

/-- The pairs of a list, entered one after the other. -/
def ofList (l : List (String × α)) : Table α :=
  l.foldl (fun t p => t.insert p.1 p.2) empty

/-- The table with every value replaced. -/
def map {β : Type} (f : α → β) (t : Table α) : Table β :=
  ⟨t.entries.map fun e => (e.1, f e.2), by
    simpa [List.pairwise_map] using t.ordered⟩

/-! ## What is assigned -/

theorem lookup_cons_eq (k : String) (e : String × α) (es : List (String × α)) :
    (e :: es).lookup k = if k = e.1 then some e.2 else es.lookup k := by
  obtain ⟨j, v⟩ := e
  by_cases h : k = j
  · simp [h]
  · simp [List.lookup_cons, h, beq_eq_false_iff_ne.mpr h]

@[simp] theorem get?_empty (k : String) : (empty : Table α).get? k = none := rfl

theorem lookup_insertEntry (k : String) (v : α) (j : String) (es : List (String × α))
    (h : es.Pairwise fun a b => Text.precedes a.1 b.1 = true) :
    (insertEntry k v es).lookup j = if j = k then some v else es.lookup j := by
  induction es with
  | nil => simp [insertEntry, lookup_cons_eq]
  | cons e es ih =>
    obtain ⟨he, hes⟩ := List.pairwise_cons.mp h
    simp only [insertEntry]
    split
    · rename_i hk
      rw [lookup_cons_eq, ih hes, lookup_cons_eq]
      by_cases hj : j = k
      · subst hj
        simp [(Text.ne_of_precedes hk).symm]
      · simp [hj]
    · split
      · rw [lookup_cons_eq]
      · rename_i h₁ h₂
        have hk : k = e.1 := Text.eq_of_not_precedes (by simpa using h₂) (by simpa using h₁)
        rw [lookup_cons_eq, lookup_cons_eq, hk]
        by_cases hj : j = e.1 <;> simp [hj]

/-- **An insertion changes one assignment.** -/
theorem get?_insert (t : Table α) (k : String) (v : α) (j : String) :
    (t.insert k v).get? j = if j = k then some v else t.get? j :=
  lookup_insertEntry k v j t.entries t.ordered

theorem ofList_concat (l : List (String × α)) (p : String × α) :
    ofList (l ++ [p]) = (ofList l).insert p.1 p.2 := by
  simp [ofList]

@[simp] theorem ofList_nil : ofList ([] : List (String × α)) = empty := rfl

/-- **The last pair with a key wins.** -/
theorem get?_ofList (l : List (String × α)) (k : String) :
    (ofList l).get? k = l.reverse.lookup k := by
  induction h : l.reverse generalizing l with
  | nil => simp [List.reverse_eq_nil_iff.mp h]
  | cons p ps ih =>
    have hl : l = ps.reverse ++ [p] := by
      rw [← List.reverse_reverse l, h]; simp
    rw [hl, ofList_concat, get?_insert, lookup_cons_eq, ih ps.reverse (by simp)]

/-! ## A table is what it assigns -/

theorem lookup_of_mem {es : List (String × α)}
    (h : es.Pairwise fun a b => Text.precedes a.1 b.1 = true) {e : String × α} (he : e ∈ es) :
    es.lookup e.1 = some e.2 := by
  induction es with
  | nil => simp at he
  | cons d ds ih =>
    obtain ⟨hd, hds⟩ := List.pairwise_cons.mp h
    rcases List.mem_cons.mp he with rfl | he
    · simp [lookup_cons_eq]
    · rw [lookup_cons_eq, if_neg (Text.ne_of_precedes (hd e he)).symm, ih hds he]

theorem mem_of_lookup {es : List (String × α)} {k : String} {v : α}
    (h : es.lookup k = some v) : (k, v) ∈ es := by
  induction es with
  | nil => simp at h
  | cons d ds ih =>
    rw [lookup_cons_eq] at h
    split at h
    · rename_i hk
      rw [hk, ← Option.some.inj h]
      exact List.mem_cons_self
    · exact List.mem_cons_of_mem _ (ih h)

theorem get?_eq_some_iff {t : Table α} {k : String} {v : α} :
    t.get? k = some v ↔ (k, v) ∈ t.entries :=
  ⟨mem_of_lookup, fun h => lookup_of_mem t.ordered h⟩

theorem eq_of_mem_iff {as bs : List (String × α)}
    (ha : as.Pairwise fun a b => Text.precedes a.1 b.1 = true)
    (hb : bs.Pairwise fun a b => Text.precedes a.1 b.1 = true)
    (h : ∀ e, e ∈ as ↔ e ∈ bs) : as = bs := by
  induction as generalizing bs with
  | nil =>
    cases bs with
    | nil => rfl
    | cons b bs => simpa using (h b).mpr (by simp)
  | cons a as ih =>
    cases bs with
    | nil => simpa using (h a).mp (by simp)
    | cons b bs =>
      obtain ⟨ha₁, ha₂⟩ := List.pairwise_cons.mp ha
      obtain ⟨hb₁, hb₂⟩ := List.pairwise_cons.mp hb
      have hab : a = b := by
        rcases List.mem_cons.mp ((h a).mp (by simp)) with e | hm
        · exact e
        · rcases List.mem_cons.mp ((h b).mpr (by simp)) with e | hm'
          · exact e.symm
          · exact absurd (Text.precedes_trans (hb₁ a hm) (ha₁ b hm')) (by simp)
      subst hab
      have hne : ∀ {es : List (String × α)}, (∀ e ∈ es, Text.precedes a.1 e.1 = true) →
          a ∉ es := fun hes hm => absurd (hes a hm) (by simp)
      refine congrArg (a :: ·) (ih ha₂ hb₂ fun e => ⟨fun he => ?_, fun he => ?_⟩)
      · rcases List.mem_cons.mp ((h e).mp (List.mem_cons_of_mem _ he)) with rfl | hm
        · exact absurd he (hne ha₁)
        · exact hm
      · rcases List.mem_cons.mp ((h e).mpr (List.mem_cons_of_mem _ he)) with rfl | hm
        · exact absurd he (hne hb₁)
        · exact hm

/-- **Two tables that assign the same are the same.** -/
theorem ext_get? {t u : Table α} (h : ∀ k, t.get? k = u.get? k) : t = u := by
  obtain ⟨as, ha⟩ := t
  obtain ⟨bs, hb⟩ := u
  have : as = bs := eq_of_mem_iff ha hb fun e => by
    rw [← get?_eq_some_iff (t := ⟨as, ha⟩), ← get?_eq_some_iff (t := ⟨bs, hb⟩), h]
  subst this
  rfl

/-! ## Entries in order -/

theorem insertEntry_of_last {k : String} {v : α} {es : List (String × α)}
    (h : ∀ e ∈ es, Text.precedes e.1 k = true) : insertEntry k v es = es ++ [(k, v)] := by
  induction es with
  | nil => rfl
  | cons e es ih =>
    have he := h e List.mem_cons_self
    rw [insertEntry, if_pos he, ih fun d hd => h d (List.mem_cons_of_mem _ hd),
      List.cons_append]

theorem entries_foldl_insert {t : Table α} {l : List (String × α)}
    (h : (t.entries ++ l).Pairwise fun a b => Text.precedes a.1 b.1 = true) :
    (l.foldl (fun t p => t.insert p.1 p.2) t).entries = t.entries ++ l := by
  induction l generalizing t with
  | nil => simp
  | cons p l ih =>
    have hp : (t.insert p.1 p.2).entries = t.entries ++ [p] :=
      insertEntry_of_last fun e he => (List.pairwise_append.mp h).2.2 e he p List.mem_cons_self
    have hl := ih (t := t.insert p.1 p.2) (by rw [hp]; simpa using h)
    rw [List.foldl_cons, hl, hp]
    simp

/-- A table is made of its own entries. -/
@[simp] theorem ofList_entries (t : Table α) : ofList t.entries = t := by
  have h : (ofList t.entries).entries = t.entries := by
    simpa [ofList, empty] using entries_foldl_insert (t := empty) (by simpa [empty] using t.ordered)
  obtain ⟨es, hes⟩ := t
  cases hu : ofList es with
  | mk ds hds =>
    rw [hu] at h
    subst h
    rfl

end Table

end BpmnModel
