import Mathlib.Data.List.Chain
import BpmnModel.Proofs.Text.Blank

/-!
# Texts in pieces

A text that comes in pieces can be trimmed piece by piece, or as a whole once the pieces have been
put together.  The first way also cuts the blanks where two pieces meet; so both come to the same
when, and only when, there are none.

## Main definitions

* `Text.isSolid piece` — the piece is not made of blanks only.
* `Text.Abut piece next` — no blank stands where the two pieces meet.

## Main statements

* `Text.Padded.append` — what becomes of the blanks where two texts meet.
* `Text.flatMap_trimBlanks_eq_iff` — when pieces may be trimmed one by one.
-/

namespace BpmnModel.Text

variable {piece next cs front back : List Char} {pieces : List (List Char)}

/-! ## Solid pieces -/

/-- The piece is not made of blanks only. -/
def isSolid (piece : List Char) : Bool :=
  !piece.all isBlank

/-- Trimming leaves nothing of blanks, and something of all else. -/
theorem isSolid_iff : isSolid cs = true ↔ trimBlanks cs ≠ [] := by
  have hnil : trimBlanks cs = [] ↔ ∀ c ∈ cs, isBlank c = true := by
    constructor
    · intro h
      obtain ⟨front, hcs, hfront⟩ := exists_append_trimStart isBlank cs
      obtain ⟨back, hstart, hback⟩ := exists_append_trimEnd isBlank (trimStart isBlank cs)
      have hall : cs = front ++ back := by
        rw [hcs, hstart]
        exact congrArg (front ++ ·) (congrArg (· ++ back) h)
      rw [hall]
      exact fun c hc => (List.mem_append.mp hc).elim (hfront c) (hback c)
    · intro h
      rw [trimBlanks, trimStart, List.dropWhile_eq_nil_iff.mpr h, trimEnd_nil]
  rw [isSolid, Bool.not_eq_true', ne_eq, hnil, ← List.all_eq_true, Bool.not_eq_true]

/-- Pieces of blanks add nothing when each piece is trimmed. -/
theorem flatMap_trimBlanks_filter (pieces : List (List Char)) :
    (pieces.filter isSolid).flatMap trimBlanks = pieces.flatMap trimBlanks := by
  induction pieces with
  | nil => rfl
  | cons piece pieces ih =>
    cases hsolid : isSolid piece with
    | true => simp [hsolid, ih]
    | false =>
      have hnil : trimBlanks piece = [] := by
        by_contra hne
        simp [isSolid_iff.mpr hne] at hsolid
      simp [hsolid, hnil, ih]

/-! ## Blanks at the ends -/

/-- The text does not begin with a blank. -/
def BeginsSolid (cs : List Char) : Prop :=
  ∀ c, cs.head? = some c → isBlank c = false

/-- The text does not end with a blank. -/
def EndsSolid (cs : List Char) : Prop :=
  ∀ c, cs.getLast? = some c → isBlank c = false

/-- The text has a core that is not empty, with blanks in front of it and behind it. -/
structure Padded (front core back cs : List Char) : Prop where
  eq : cs = front ++ (core ++ back)
  front : ∀ c ∈ front, isBlank c = true
  back : ∀ c ∈ back, isBlank c = true
  begins : BeginsSolid core
  ends : EndsSolid core
  ne_nil : core ≠ []

/-- A solid text is its trimmed form with blanks around it. -/
theorem exists_padded (h : isSolid cs = true) :
    ∃ front back, Padded front (trimBlanks cs) back cs := by
  obtain ⟨front, hcs, hfront⟩ := exists_append_trimStart isBlank cs
  obtain ⟨back, hstart, hback⟩ := exists_append_trimEnd isBlank (trimStart isBlank cs)
  obtain ⟨hbegins, hends⟩ := trimBlanks_eq_self_iff.mp (trimBlanks_trimBlanks cs)
  exact ⟨front, back, {
    eq := hcs.trans (congrArg (front ++ ·) hstart)
    front := hfront
    back := hback
    begins := hbegins
    ends := hends
    ne_nil := isSolid_iff.mp h }⟩

namespace Padded

variable {core front' core' back' cs' : List Char}

theorem trimBlanks_eq (h : Padded front core back cs) : trimBlanks cs = core := by
  rw [h.eq, trimBlanks_pad h.front h.back]
  exact trimBlanks_eq_self_iff.mpr ⟨h.begins, h.ends⟩

theorem beginsSolid_iff (h : Padded front core back cs) : BeginsSolid cs ↔ front = [] := by
  obtain ⟨d, ds, hcore⟩ := List.exists_cons_of_ne_nil h.ne_nil
  constructor
  · intro hbegins
    cases hfront : front with
    | nil => rfl
    | cons c front =>
      have hc : isBlank c = false := hbegins c (by simp [h.eq, hfront])
      simp [h.front c (by simp [hfront])] at hc
  · rintro rfl c hc
    exact h.begins c (by simpa [h.eq, hcore] using hc)

theorem endsSolid_iff (h : Padded front core back cs) : EndsSolid cs ↔ back = [] := by
  constructor
  · intro hends
    rcases List.eq_nil_or_concat back with hback | ⟨ds, c, hback⟩
    · exact hback
    · rw [List.concat_eq_append] at hback
      have hc : isBlank c = false := hends c (by simp [h.eq, hback, ← List.append_assoc])
      simp [h.back c (by simp [hback])] at hc
  · rintro rfl c hc
    refine h.ends c ?_
    rwa [h.eq, List.append_nil, List.getLast?_append_of_ne_nil _ h.ne_nil] at hc

/-- The blanks where two texts meet belong to the core of both together. -/
theorem append (h : Padded front core back cs) (h' : Padded front' core' back' cs') :
    Padded front (core ++ (back ++ (front' ++ core'))) back' (cs ++ cs') where
  eq := by simp [h.eq, h'.eq]
  front := h.front
  back := h'.back
  begins := by
    obtain ⟨d, ds, hcore⟩ := List.exists_cons_of_ne_nil h.ne_nil
    intro c hc
    exact h.begins c (by simpa [hcore] using hc)
  ends := by
    intro c hc
    refine h'.ends c ?_
    rwa [← List.append_assoc, ← List.append_assoc,
      List.getLast?_append_of_ne_nil _ h'.ne_nil] at hc
  ne_nil := List.append_ne_nil_of_left_ne_nil h.ne_nil _

end Padded

/-! ## Pieces in a row -/

/-- No blank stands where the two pieces meet. -/
def Abut (piece next : List Char) : Prop :=
  EndsSolid piece ∧ BeginsSolid next

/-- Solid pieces in a row begin like the first of them. -/
theorem beginsSolid_flatten_cons (h : isSolid piece = true) (pieces : List (List Char)) :
    BeginsSolid (piece :: pieces).flatten ↔ BeginsSolid piece := by
  cases piece with
  | nil => simp [isSolid] at h
  | cons c cs => rfl

theorem isSolid_append (h : isSolid cs = true) (next : List Char) :
    isSolid (cs ++ next) = true := by
  simp only [isSolid, Bool.not_eq_true', List.all_append, Bool.and_eq_false_iff] at h ⊢
  exact .inl h

/-- Trimming solid pieces one by one leaves no more than trimming them as a whole, and leaves the
same when they abut. -/
theorem flatMap_trimBlanks_of_solid (h : ∀ piece ∈ pieces, isSolid piece = true) :
    (pieces.flatMap trimBlanks).length ≤ (trimBlanks pieces.flatten).length ∧
      (pieces.flatMap trimBlanks = trimBlanks pieces.flatten ↔ pieces.IsChain Abut) := by
  induction pieces with
  | nil => exact ⟨Nat.le_refl _, iff_of_true rfl .nil⟩
  | cons piece pieces ih =>
    obtain ⟨hpiece, hpieces⟩ := List.forall_mem_cons.mp h
    cases pieces with
    | nil => simp
    | cons next pieces =>
      obtain ⟨hlength, hchain⟩ := ih hpieces
      have hnext := hpieces next List.mem_cons_self
      obtain ⟨front, back, hpadded⟩ := exists_padded hpiece
      obtain ⟨front', back', hpadded'⟩ := exists_padded (isSolid_append hnext pieces.flatten)
      have hwhole : trimBlanks (piece :: next :: pieces).flatten =
          trimBlanks piece ++ (back ++ (front' ++ trimBlanks (next :: pieces).flatten)) :=
        (hpadded.append hpadded').trimBlanks_eq
      have habut : Abut piece next ↔ back = [] ∧ front' = [] := by
        rw [Abut, hpadded.endsSolid_iff, ← beginsSolid_flatten_cons hnext pieces]
        exact and_congr_right fun _ => hpadded'.beginsSolid_iff
      rw [hwhole, List.flatMap_cons, List.isChain_cons_cons, habut, ← hchain]
      generalize (next :: pieces).flatMap trimBlanks = cut at hlength ⊢
      generalize trimBlanks (next :: pieces).flatten = core at hlength ⊢
      constructor
      · simp only [List.length_append]
        omega
      · rw [List.append_cancel_left_eq]
        constructor
        · -- the blanks in between would make the one side longer than the other
          intro heq
          have hlengths := congrArg List.length heq
          simp only [List.length_append] at hlengths
          obtain rfl : back = [] := List.eq_nil_of_length_eq_zero (by omega)
          obtain rfl : front' = [] := List.eq_nil_of_length_eq_zero (by omega)
          exact ⟨⟨rfl, rfl⟩, heq⟩
        · rintro ⟨⟨rfl, rfl⟩, rfl⟩
          rfl

/-- **Pieces may be trimmed one by one** when, and only when, no blank stands where two solid ones
of them meet. -/
theorem flatMap_trimBlanks_eq_iff (pieces : List (List Char)) :
    pieces.flatMap trimBlanks = trimBlanks (pieces.filter isSolid).flatten ↔
      (pieces.filter isSolid).IsChain Abut := by
  rw [← flatMap_trimBlanks_filter]
  exact (flatMap_trimBlanks_of_solid fun _ hpiece => (List.mem_filter.mp hpiece).2).2

end BpmnModel.Text
