import BpmnModel.Generate.Flow
import BpmnModel.Proofs.Text.Blank
import BpmnModel.Text.Numeral

/-!
# Generated identifiers

The identifiers of a generated process are made of words, underscores and numbers.  They hold no
blanks, and they tell the nodes and the edges of a process apart.

## Main definitions

* `Text.IsId s` — the text is made of letters, digits and underscores.

## Main statements

* `Generate.Node.isId_id`, `Generate.Edge.isId_id` — identifiers are such texts, and so trimmed.
* `Generate.Node.task_id_inj`, `Generate.Edge.id_inj` — an identifier names one task or one edge.
-/

namespace BpmnModel

/-! ## Numbers and words -/

namespace Text

/-- A number ends where a text that does not begin with a digit follows. -/
theorem repr_append_inj {m n : Nat} {s t : String} (hs : s.toList.head?.all (!Char.isDigit ·))
    (ht : t.toList.head?.all (!Char.isDigit ·)) :
    m.repr ++ s = n.repr ++ t ↔ m = n ∧ s = t := by
  have number : ∀ (k : Nat) {u : String}, u.toList.head?.all (!Char.isDigit ·) →
      ((k.repr ++ u).toList.takeWhile Char.isDigit) = k.repr.toList := by
    intro k u hu
    have hdigits : ∀ c ∈ k.repr.toList, Char.isDigit c = true := by
      intro c hc
      rw [Nat.toList_repr] at hc
      exact Nat.isDigit_of_mem_toDigits (by decide) (by decide) hc
    rw [String.toList_append, List.takeWhile_append_of_pos hdigits]
    cases hlist : u.toList with
    | nil => simp
    | cons c cs =>
      rw [hlist] at hu
      have hc : Char.isDigit c = false := by simpa using hu
      simp [hc]
  constructor
  · intro h
    have hrepr : m.repr = n.repr := by
      rw [← String.toList_inj, ← number m hs, ← number n ht, h]
    have hmn : m = n := by
      have := congrArg natural? hrepr
      simpa using this
    subst hmn
    exact ⟨rfl, (String.append_right_inj _).mp h⟩
  · rintro ⟨rfl, rfl⟩
    rfl

theorem repr_inj {m n : Nat} : m.repr = n.repr ↔ m = n := by
  have h : m.repr ++ "" = n.repr ++ "" ↔ m = n ∧ "" = "" := repr_append_inj rfl rfl
  rwa [String.append_empty, String.append_empty, and_iff_left rfl] at h

/-- Characters of identifiers. -/
def isIdChar (c : Char) : Bool :=
  c.isAlphanum || c == '_'

/-- Digits, letters and the underscore lie between two ranges of blanks. -/
theorem isBlank_of_isIdChar {c : Char} (h : isIdChar c = true) : isBlank c = false := by
  have hcode : 48 ≤ c.val.toNat ∧ c.val.toNat ≤ 122 := by
    rw [isIdChar, Bool.or_eq_true, beq_iff_eq] at h
    rcases h with h | rfl
    · have hranges : ((decide (65 ≤ c.val ∧ c.val ≤ 90) || (decide (97 ≤ c.val) &&
          decide (c.val ≤ 122))) || (decide (48 ≤ c.val) && decide (c.val ≤ 57))) = true := h
      simp only [Bool.or_eq_true, Bool.and_eq_true, decide_eq_true_eq,
        UInt32.le_iff_toNat_le, UInt32.reduceToNat] at hranges
      omega
    · decide
  have houtside : ∀ r ∈ blankRanges, r.2 < 48 ∨ 122 < r.1 := by decide
  rw [isBlank, List.any_eq_false]
  intro r hr
  have hr := houtside r hr
  have hcode : 48 ≤ c.toNat ∧ c.toNat ≤ 122 := hcode
  simp only [Bool.and_eq_true, decide_eq_true_eq]
  omega

/-- All characters of the text are characters of identifiers. -/
def IsId (s : String) : Prop :=
  ∀ c ∈ s.toList, isIdChar c = true

instance (s : String) : Decidable (IsId s) :=
  decidable_of_iff (s.toList.all isIdChar = true) List.all_eq_true

theorem IsId.append {s t : String} (hs : IsId s) (ht : IsId t) : IsId (s ++ t) := by
  intro c hc
  rw [String.toList_append, List.mem_append] at hc
  rcases hc with hc | hc
  · exact hs c hc
  · exact ht c hc

theorem isId_repr (n : Nat) : IsId n.repr := by
  intro c hc
  rw [Nat.toList_repr] at hc
  have hdigit := Nat.isDigit_of_mem_toDigits (by decide) (by decide) hc
  simp [isIdChar, Char.isAlphanum, hdigit]

theorem IsId.trim {s : String} (h : IsId s) : Text.trim s = s := by
  have hlist : trimBlanks s.toList = s.toList :=
    trimBlanks_of_forall fun c hc => isBlank_of_isIdChar (h c hc)
  rw [Text.trim, hlist, String.ofList_toList]

end Text

namespace Generate

open Text (IsId)

/-! ## Nodes -/

/-- A word with the number of a process and a position in it. -/
theorem isId_position {word : String} (hword : IsId word) (process position : Nat) :
    IsId (word ++ process.repr ++ "_" ++ position.repr) :=
  ((hword.append (Text.isId_repr process)).append (by decide)).append (Text.isId_repr position)

theorem position_inj {word : String} {process m n : Nat} :
    word ++ process.repr ++ "_" ++ m.repr = word ++ process.repr ++ "_" ++ n.repr ↔ m = n := by
  rw [String.append_right_inj, Text.repr_inj]

theorem Node.isId_id (process : Nat) (n : Node) : IsId (n.id process) := by
  cases n with
  | task t => exact isId_position (by decide) process t
  | gateway t => exact isId_position (by decide) process t
  | finish => exact IsId.append (by decide) (Text.isId_repr process)

theorem Node.id_ne_empty (process : Nat) (n : Node) : n.id process ≠ "" := by
  cases n <;> simp [Node.id]

theorem Node.task_id_inj {process m n : Nat} :
    (Node.task m).id process = (Node.task n).id process ↔ m = n :=
  position_inj

theorem Node.gateway_id_inj {process m n : Nat} :
    (Node.gateway m).id process = (Node.gateway n).id process ↔ m = n :=
  position_inj

/-! ## Edges -/

namespace Edge

/-- The position of the task after which an edge stands. -/
def position : Edge → Nat
  | .direct t => t
  | .entry t => t
  | .guarded t => t
  | .fallback t => t

/-- The edges of a process are those that stand after its tasks, the last one left out. -/
theorem mem_edges_iff {s : Shape} {e : Edge} :
    e ∈ edges s ↔ e.position < s.tasks - 1 ∧ e ∈ edgesAfter s.conditions e.position := by
  have hposition : ∀ t, e ∈ edgesAfter s.conditions t → e.position = t := by
    intro t ht
    rw [edgesAfter] at ht
    split at ht
    · simp only [List.mem_cons, List.not_mem_nil, or_false] at ht
      rcases ht with rfl | rfl | rfl <;> rfl
    · rw [List.mem_singleton.mp ht]
      rfl
  rw [edges, List.mem_flatMap]
  constructor
  · rintro ⟨t, ht, he⟩
    rw [hposition t he]
    exact ⟨List.mem_range.mp ht, he⟩
  · rintro ⟨ht, he⟩
    exact ⟨e.position, List.mem_range.mpr ht, he⟩

/-- How the identifier of an edge ends. -/
def ending : Edge → String
  | .direct _ => ""
  | .entry _ => "_in"
  | .guarded _ => "_cond"
  | .fallback _ => "_default"

theorem id_eq (process : Nat) (e : Edge) :
    e.id process = "Flow_" ++ process.repr ++ "_" ++ (e.position.repr ++ e.ending) := by
  cases e with
  | direct t => simp [id, position, ending]
  | _ t => simp [id, position, ending, String.append_assoc]

theorem mem_endings (e : Edge) : e.ending ∈ ["", "_in", "_cond", "_default"] := by
  cases e <;> simp [ending]

theorem isId_id (process : Nat) (e : Edge) : IsId (e.id process) := by
  have hendings : ∀ s ∈ ["", "_in", "_cond", "_default"], IsId s := by decide
  rw [id_eq, ← String.append_assoc]
  exact (isId_position (by decide) process e.position).append (hendings _ e.mem_endings)

theorem id_ne_empty (process : Nat) (e : Edge) : e.id process ≠ "" := by
  rw [id_eq]
  simp

/-- **An identifier names one edge.** -/
theorem id_inj {process : Nat} {e f : Edge} : e.id process = f.id process ↔ e = f := by
  have hendings : ∀ s ∈ ["", "_in", "_cond", "_default"],
      s.toList.head?.all (!Char.isDigit ·) := by decide
  have hparts : e = f ↔ e.position = f.position ∧ e.ending = f.ending := by
    cases e <;> cases f <;> simp [position, ending]
  rw [id_eq, id_eq, String.append_right_inj, Text.repr_append_inj (hendings _ e.mem_endings)
    (hendings _ f.mem_endings), hparts]

end Edge

end Generate

end BpmnModel
