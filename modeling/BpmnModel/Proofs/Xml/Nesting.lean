import Mathlib.Data.List.Basic
import BpmnModel.Proofs.Xml.Steps

/-!
# Nested elements

Tags nest: an element ends with the name that its start tag begins with, after all elements that
have begun in it.  At any place of a document some start tags are open, and some elements stand
whole outside of them.

## Main definitions

* `Xml.Siblings ts n` — the tokens are `n` whole elements, and what stands between elements.
* `Xml.Opened ts opened n` — the tokens leave the start tags `opened` open after `n` whole elements.

## Main statements

* `Xml.Opened.append`, `Xml.Opened.close` — what whole elements and end tags add.
* `Xml.Opened.unique` — tokens leave one row of start tags open.
-/

namespace BpmnModel.Xml

variable {ts us : List Token} {t : Token} {opened opened' : List (List Char)} {n m : ℕ}

/-! ## Tags that nest -/

/-- Whether a token opens or closes an element. -/
def Token.isTag : Token → Bool
  | .start _ | .empty _ | .close _ => true
  | _ => false

/-- The tokens are `n` whole elements one after the other, with other tokens between them.  An
element ends with the name that its start tag begins with. -/
inductive Siblings : List Token → ℕ → Prop
  | nil : Siblings [] 0
  | other {t : Token} {ts : List Token} {n : ℕ} (ht : t.isTag = false) (h : Siblings ts n) :
    Siblings (t :: ts) n
  | empty {content : List Char} {ts : List Token} {n : ℕ} (h : Siblings ts n) :
    Siblings (.empty content :: ts) (n + 1)
  | element {content : List Char} {inner ts : List Token} {m n : ℕ} (hinner : Siblings inner m)
    (h : Siblings ts n) :
    Siblings (.start content :: (inner ++ .close (tagName content) :: ts)) (n + 1)

/-- The tokens leave some start tags open, the innermost one first, after `n` whole elements outside
of all of them.  Behind each open start tag stand whole elements, up to the next one. -/
inductive Opened : List Token → List (List Char) → ℕ → Prop
  | outside {ts : List Token} {n : ℕ} (h : Siblings ts n) : Opened ts [] n
  | inside {ts us : List Token} {content : List Char} {opened : List (List Char)} {n m : ℕ}
    (h : Opened ts opened n) (hus : Siblings us m) :
    Opened (ts ++ .start content :: us) (content :: opened) n

theorem Siblings.append (h : Siblings ts n) (hus : Siblings us m) :
    Siblings (ts ++ us) (n + m) := by
  induction h with
  | nil => rwa [List.nil_append, Nat.zero_add]
  | other ht _ ih => exact .other ht ih
  | empty _ ih =>
    rw [Nat.add_right_comm]
    exact .empty ih
  | @element content inner ts k n hinner _ _ ih =>
    rw [Nat.add_right_comm, List.cons_append, List.append_assoc]
    exact .element hinner ih

/-- Whole elements count when they stand outside of all open ones. -/
theorem Opened.append (h : Opened ts opened n) (hus : Siblings us m) :
    Opened (ts ++ us) opened (if opened = [] then n + m else n) := by
  cases h with
  | outside h =>
    rw [if_pos rfl]
    exact .outside (h.append hus)
  | inside h hinner =>
    rw [if_neg (List.cons_ne_nil _ _), List.append_assoc, List.cons_append]
    exact .inside h (hinner.append hus)

theorem Opened.append_other (h : Opened ts opened n) (ht : t.isTag = false) :
    Opened (ts ++ [t]) opened n := by
  simpa using h.append (.other ht .nil)

/-- An end tag with the name of the innermost open start tag completes its element. -/
theorem Opened.close {content : List Char} (h : Opened ts (content :: opened) n) :
    Opened (ts ++ [.close (tagName content)]) opened (if opened = [] then n + 1 else n) := by
  cases h with
  | @inside front us _ _ _ m h hus =>
    have helement : Siblings (.start content :: (us ++ [.close (tagName content)])) 1 :=
      .element hus .nil
    rw [List.append_assoc, List.cons_append]
    exact h.append helement

/-! ## Tokens leave one row of start tags open -/

/-- What a token does to the open start tags and to the number of elements outside of them. -/
def enter : List (List Char) × ℕ → Token → List (List Char) × ℕ
  | (opened, n), .start content => (content :: opened, n)
  | ([], n), .empty _ => ([], n + 1)
  | ([_], n), .close _ => ([], n + 1)
  | (_ :: opened, n), .close _ => (opened, n)
  | s, _ => s

theorem enter_of_isTag (ht : t.isTag = false) (s : List (List Char) × ℕ) : enter s t = s := by
  obtain ⟨_ | ⟨_, _ | _⟩, n⟩ := s <;> cases t <;> first | rfl | simp [Token.isTag] at ht

theorem foldl_enter_of_siblings (h : Siblings us m) (opened : List (List Char)) (n : ℕ) :
    us.foldl enter (opened, n) = (opened, if opened = [] then n + m else n) := by
  induction h generalizing opened n with
  | nil => simp
  | other ht _ ih => rw [List.foldl_cons, enter_of_isTag ht, ih]
  | empty _ ih =>
    cases opened with
    | nil => simp [enter, ih, Nat.add_comm, Nat.add_left_comm]
    | cons content opened => simp [enter, ih]
  | element _ _ hinner ih =>
    cases opened with
    | nil => simp [enter, hinner, ih, Nat.add_comm, Nat.add_left_comm]
    | cons content opened => simp [enter, hinner, ih]

theorem foldl_enter_of_opened (h : Opened ts opened n) : ts.foldl enter ([], 0) = (opened, n) := by
  induction h with
  | outside h => simp [foldl_enter_of_siblings h]
  | inside _ hus ih => simp [ih, enter, foldl_enter_of_siblings hus]

/-- **Tokens leave one row of start tags open**, after one number of whole elements. -/
theorem Opened.unique (h : Opened ts opened n) (h' : Opened ts opened' m) :
    opened = opened' ∧ n = m :=
  Prod.mk.inj ((foldl_enter_of_opened h).symm.trans (foldl_enter_of_opened h'))

end BpmnModel.Xml
