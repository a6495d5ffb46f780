import Mathlib.Data.List.DropRight
import Mathlib.Data.List.TakeWhile
import BpmnModel.Text.Blank

/-!
# Runs and trimmed texts

A run of characters of a class ends where the first other character stands.  A text is trimmed
when it neither begins nor ends with a blank, and trimming changes nothing about it.

## Main definitions

* `Text.Unpadded s` — the text has no blank at either end.

## Main statements

* `Text.takeWhile_append_cons`, `Text.dropWhile_append_cons` — where a run ends.
* `Text.trimBlanks_trimBlanks` — trimming twice is trimming once.
* `Text.trim_eq_self_iff` — the texts that trimming leaves as they are.
* `Text.trimEnd_append` — what is cut off behind a text that ends outside the class.
-/

namespace BpmnModel.Text

variable {p : Char → Bool} {as bs cs : List Char} {b c : Char}

/-! ## Runs -/

/-- A run ends where the first character outside the class stands. -/
theorem takeWhile_append_cons (has : ∀ a ∈ as, p a = true) (hb : p b = false) :
    (as ++ b :: bs).takeWhile p = as := by
  rw [List.takeWhile_append_of_pos has, List.takeWhile_cons, hb]
  simp

theorem dropWhile_append_cons (has : ∀ a ∈ as, p a = true) (hb : p b = false) :
    (as ++ b :: bs).dropWhile p = b :: bs := by
  rw [List.dropWhile_append_of_pos has, List.dropWhile_cons, hb]
  simp

/-- A text is its first run and what follows it, which begins outside the class. -/
theorem eq_append_of_dropWhile (h : cs.dropWhile p = b :: bs) :
    cs = cs.takeWhile p ++ b :: bs ∧ p b = false := by
  have hhead := List.head?_dropWhile_not p cs
  rw [h] at hhead
  rw [← h, List.takeWhile_append_dropWhile]
  exact ⟨rfl, by simpa using hhead⟩

/-- Characters of the class vanish in front of a text. -/
theorem trimStart_append (has : ∀ a ∈ as, p a = true) (bs : List Char) :
    trimStart p (as ++ bs) = trimStart p bs :=
  List.dropWhile_append_of_pos has

/-- Characters of the class vanish behind a text, whatever it ends with. -/
theorem trimEnd_append_of_forall (h : ∀ b ∈ bs, p b = true) (cs : List Char) :
    trimEnd p (cs ++ bs) = trimEnd p cs := by
  have hreverse : ∀ b ∈ bs.reverse, p b = true := fun b hb => h b (List.mem_reverse.mp hb)
  rw [trimEnd, List.reverse_append, List.dropWhile_append_of_pos hreverse, trimEnd]

/-- Nothing else vanishes behind a text that ends with another character. -/
theorem trimEnd_append (hc : p c = false) (has : ∀ a ∈ as, p a = true) (cs : List Char) :
    trimEnd p (cs ++ [c] ++ as) = cs ++ [c] := by
  rw [trimEnd_append_of_forall has, trimEnd_concat_of_not hc]

/-- Blanks around a text vanish. -/
theorem trimBlanks_pad (has : ∀ a ∈ as, isBlank a = true) (hbs : ∀ b ∈ bs, isBlank b = true)
    (cs : List Char) : trimBlanks (as ++ (cs ++ bs)) = trimBlanks cs := by
  rw [trimBlanks, trimStart_append has, trimStart, List.dropWhile_append]
  split
  · rename_i hnone
    rw [List.dropWhile_eq_nil_iff.mpr hbs, trimBlanks, trimStart, List.isEmpty_iff.mp hnone]
  · exact trimEnd_append_of_forall hbs _

/-- What is cut off the end of a text belongs to the class. -/
theorem exists_append_trimEnd (p : Char → Bool) (cs : List Char) :
    ∃ back, cs = trimEnd p cs ++ back ∧ ∀ c ∈ back, p c = true :=
  ⟨cs.rtakeWhile p, List.rdropWhile_append_rtakeWhile.symm, fun _ => List.mem_rtakeWhile_imp⟩

theorem exists_append_trimStart (p : Char → Bool) (cs : List Char) :
    ∃ front, cs = front ++ trimStart p cs ∧ ∀ c ∈ front, p c = true :=
  ⟨cs.takeWhile p, List.takeWhile_append_dropWhile.symm, fun _ => List.mem_takeWhile_imp⟩

/-! ## Trimmed texts -/

/-- The beginning of a text without blanks in front has none in front either. -/
theorem trimStart_of_prefix (h : as <+: trimStart p cs) : trimStart p as = as := by
  obtain ⟨bs, hbs⟩ := h
  cases as with
  | nil => rfl
  | cons a as =>
    refine trimStart_cons_of_not ?_ as
    have hhead := List.head?_dropWhile_not p cs
    rw [trimStart] at hbs
    rw [← hbs] at hhead
    simpa using hhead

theorem trimStart_trimBlanks (cs : List Char) :
    trimStart isBlank (trimBlanks cs) = trimBlanks cs :=
  trimStart_of_prefix (List.rdropWhile_prefix isBlank _)

theorem trimEnd_trimBlanks (cs : List Char) :
    trimEnd isBlank (trimBlanks cs) = trimBlanks cs :=
  List.rdropWhile_idempotent isBlank (trimStart isBlank cs)

/-- Trimming twice is trimming once. -/
@[simp] theorem trimBlanks_trimBlanks (cs : List Char) :
    trimBlanks (trimBlanks cs) = trimBlanks cs := by
  rw [trimBlanks, trimStart_trimBlanks, trimEnd_trimBlanks]

@[simp] theorem trim_trim (s : String) : trim (trim s) = trim s := by
  rw [trim, toList_trim, trimBlanks_trimBlanks, trim]

/-- A trimmed text does not begin with a blank. -/
theorem isBlank_of_trimBlanks_cons (h : trimBlanks (c :: cs) = c :: cs) : isBlank c = false := by
  have hstart : trimStart isBlank (c :: cs) = c :: cs := by
    rw [← h]
    exact trimStart_trimBlanks (c :: cs)
  have := List.dropWhile_eq_self_iff.mp hstart (by simp)
  simpa using this

/-- A trimmed text does not end with a blank. -/
theorem isBlank_of_trimBlanks_concat (h : trimBlanks (cs ++ [c]) = cs ++ [c]) :
    isBlank c = false := by
  have hend : trimEnd isBlank (cs ++ [c]) = cs ++ [c] := by
    rw [← h]
    exact trimEnd_trimBlanks (cs ++ [c])
  have := List.rdropWhile_eq_self_iff.mp hend (by simp)
  simpa using this

/-- Neither the first nor the last character of the text is a blank. -/
def Unpadded (s : String) : Prop :=
  (∀ c, s.toList.head? = some c → isBlank c = false) ∧
    ∀ c, s.toList.getLast? = some c → isBlank c = false

theorem trimBlanks_eq_self_iff : trimBlanks cs = cs ↔
    (∀ c, cs.head? = some c → isBlank c = false) ∧
      ∀ c, cs.getLast? = some c → isBlank c = false := by
  constructor
  · intro h
    refine ⟨fun c hc => ?_, fun c hc => ?_⟩
    · obtain ⟨ds, rfl⟩ := List.head?_eq_some_iff.mp hc
      exact isBlank_of_trimBlanks_cons h
    · obtain ⟨ds, rfl⟩ := List.getLast?_eq_some_iff.mp hc
      exact isBlank_of_trimBlanks_concat h
  · rintro ⟨hhead, hlast⟩
    have hstart : trimStart isBlank cs = cs := by
      cases cs with
      | nil => rfl
      | cons c cs => exact trimStart_cons_of_not (hhead c rfl) cs
    rw [trimBlanks, hstart]
    rcases List.eq_nil_or_concat cs with rfl | ⟨ds, d, rfl⟩
    · rfl
    · rw [List.concat_eq_append] at hlast ⊢
      exact trimEnd_concat_of_not (hlast d List.getLast?_concat) ds

/-- **Trimming leaves a text as it is when, and only when, it has no blank at either end.** -/
theorem trim_eq_self_iff {s : String} : trim s = s ↔ Unpadded s := by
  rw [← String.toList_inj, toList_trim]
  exact trimBlanks_eq_self_iff

instance (s : String) : Decidable (Unpadded s) :=
  decidable_of_iff _ trim_eq_self_iff

/-- A text is trimmed when none of its characters is a blank. -/
theorem trimBlanks_of_forall (h : ∀ c ∈ cs, isBlank c = false) : trimBlanks cs = cs :=
  trimBlanks_eq_self_iff.mpr
    ⟨fun c hc => h c (List.mem_of_mem_head? hc), fun c hc => h c (List.mem_of_mem_getLast? hc)⟩

theorem isSpace_of_not_isBlank (h : isBlank c = false) : isSpace c = false := by
  cases hs : isSpace c with
  | false => rfl
  | true => simp [isBlank_of_isSpace hs] at h

end BpmnModel.Text
