/-!
# Parts between separators

A separator cuts a list of characters into parts, one more than it occurs, so that empty
parts are kept and an empty list has one empty part.

## Main definitions

* `Text.split sep cs` — the parts of `cs`.
* `Text.afterFirst sep cs` — what follows the first separator, or all of `cs`.
* `Text.cut? mark cs` — what stands before and after the first occurrence of `mark`.

## Main statements

* `Text.length_lt_of_dropWhile`, `Text.length_lt_of_cut?` — what follows a separator is
  shorter than the whole, which is why readers end.
-/

namespace BpmnModel.Text

/-- The parts of a list between the occurrences of `sep`. -/
def split (sep : Char) : List Char → List (List Char)
  | [] => [[]]
  | c :: cs =>
    if c = sep then [] :: split sep cs
    else match split sep cs with
      | [] => [[c]]
      | p :: ps => (c :: p) :: ps

/-- What follows the first occurrence of `sep`; the whole list when there is none. -/
def afterFirst (sep : Char) (cs : List Char) : List Char :=
  match cs.dropWhile (· != sep) with
  | [] => cs
  | _ :: rest => rest

theorem split_ne_nil (sep : Char) (cs : List Char) : split sep cs ≠ [] := by
  cases cs with
  | nil => simp [split]
  | cons c cs =>
    rw [split]
    split
    · simp
    · split <;> simp

/-- A list without the separator is one part. -/
theorem split_of_not_mem {sep : Char} {cs : List Char} (h : sep ∉ cs) :
    split sep cs = [cs] := by
  induction cs with
  | nil => rfl
  | cons c cs ih =>
    have hc : ¬ c = sep := fun e => h (by simp [e])
    have hcs : sep ∉ cs := fun m => h (List.mem_cons_of_mem _ m)
    simp [split, hc, ih hcs]

/-- The first part ends where the separator first occurs. -/
theorem split_append_cons {sep : Char} {p : List Char} (h : sep ∉ p) (cs : List Char) :
    split sep (p ++ sep :: cs) = p :: split sep cs := by
  induction p with
  | nil => simp [split]
  | cons c p ih =>
    have hc : ¬ c = sep := fun e => h (by simp [e])
    have hp : sep ∉ p := fun m => h (List.mem_cons_of_mem _ m)
    simp [split, hc, ih hp]

/-! ## Marks of several characters -/

/-- What stands before and after the first occurrence of `mark`, if there is one. -/
def cut? (mark : List Char) : List Char → Option (List Char × List Char)
  | [] => if mark.isEmpty then some ([], []) else none
  | c :: cs =>
    if mark.isPrefixOf (c :: cs) then some ([], (c :: cs).drop mark.length)
    else (cut? mark cs).map fun r => (c :: r.1, r.2)

/-- The two sides of a mark, with the mark between them, are the whole. -/
theorem eq_of_cut? {mark cs before after : List Char} (h : cut? mark cs = some (before, after)) :
    cs = before ++ (mark ++ after) := by
  induction cs generalizing before with
  | nil =>
    rw [cut?] at h
    split at h
    · simp_all [List.isEmpty_iff]
    · simp at h
  | cons c cs ih =>
    rw [cut?] at h
    split at h
    · rename_i hp
      obtain ⟨rest, hr⟩ := List.isPrefixOf_iff_prefix.mp hp
      obtain ⟨rfl, rfl⟩ : [] = before ∧ (c :: cs).drop mark.length = after := by simpa using h
      rw [← hr]
      simp
    · obtain ⟨r, hr, hb⟩ := Option.map_eq_some_iff.mp h
      obtain ⟨rfl, rfl⟩ : c :: r.1 = before ∧ r.2 = after := by simpa using hb
      rw [List.cons_append, ← ih hr]

/-! ## Remainders are shorter -/

/-- What follows the character at which a run ends is shorter than the whole. -/
theorem length_lt_of_dropWhile {p : Char → Bool} {cs rest : List Char} {c : Char}
    (h : cs.dropWhile p = c :: rest) : rest.length < cs.length := by
  have := (List.dropWhile_suffix (l := cs) p).length_le
  rw [h, List.length_cons] at this
  omega

/-- What follows a mark is shorter than the whole. -/
theorem length_lt_of_cut? {m : Char} {mark cs before after : List Char}
    (h : cut? (m :: mark) cs = some (before, after)) : after.length < cs.length := by
  have := congrArg List.length (eq_of_cut? h)
  simp only [List.length_append, List.length_cons] at this
  omega

end BpmnModel.Text
