import Mathlib.Data.List.Forall2
import Mathlib.Data.List.Induction
import BpmnModel.Text.Blank
import BpmnModel.Text.Numeral

/-!
# The languages of numerals and of keywords

A numeral is a row of ASCII digits, at least one, in front of which a sign may stand; a keyword is a
word in any case of its letters.  The rules are given here as they would be told to a writer, and
each reader of characters is shown to follow them, whatever the length of the text.

## Main definitions

* `Text.Decimal ds n` — the digits `ds` write the number `n`.
* `Text.Unsigned cs n`, `Text.Signed cs n` — numerals without and with a minus sign.
* `Text.SpelledAs word cs` — the characters are the word, some of its letters as capitals.

## Main statements

* `Text.digits?_eq_some_iff`, `Text.naturalOfChars?_eq_some_iff`,
  `Text.integerOfChars?_eq_some_iff` — the readers find what a numeral writes.
* `Text.sameLetters_iff` — comparing letters finds what is spelled as a lower-case word.
-/

namespace BpmnModel.Text

/-! ## Digits -/

/-- The digits write the number: a digit writes its own value, and one more digit at the end takes
ten times what stands in front of it. -/
inductive Decimal : List Char → Nat → Prop
  | digit {d : Char} (hd : d.isDigit = true) : Decimal [d] (d.toNat - '0'.toNat)
  | concat {ds : List Char} {n : Nat} {d : Char} (hds : Decimal ds n) (hd : d.isDigit = true) :
    Decimal (ds ++ [d]) (10 * n + (d.toNat - '0'.toNat))

variable {cs ds : List Char} {n : Nat} {d : Char}

theorem digitsValue_concat (ds : List Char) (d : Char) :
    digitsValue (ds ++ [d]) = 10 * digitsValue ds + (d.toNat - '0'.toNat) := by
  rw [digitsValue, List.foldl_append]
  rfl

theorem digits?_concat (hds : ds ≠ []) : digits? (ds ++ [d]) =
    if d.isDigit then (digits? ds).map fun n => 10 * n + (d.toNat - '0'.toNat) else none := by
  have hne : ds.isEmpty = false := List.isEmpty_eq_false_iff.mpr hds
  cases hd : d.isDigit with
  | true =>
    cases hall : ds.all Char.isDigit <;> simp [digits?, hd, hall, hne, digitsValue_concat]
  | false => simp [digits?, hd]

/-- **The number that is read off digits is the one that they write.** -/
theorem digits?_eq_some_iff : digits? ds = some n ↔ Decimal ds n := by
  constructor
  · intro h
    -- the last digit is the one that was written last
    induction ds using List.reverseRecOn generalizing n with
    | nil => simp [digits?] at h
    | append_singleton ds d ih =>
      cases ds with
      | nil =>
        obtain ⟨hd, rfl⟩ : d.isDigit = true ∧ d.toNat - '0'.toNat = n := by
          simpa [digits?, digitsValue] using h
        exact .digit hd
      | cons c ds =>
        rw [digits?_concat (by simp)] at h
        split at h
        · rename_i hd
          obtain ⟨m, hm, rfl⟩ := Option.map_eq_some_iff.mp h
          exact .concat (ih hm) hd
        · simp at h
  · intro h
    induction h with
    | digit hd => simp [digits?, digitsValue, hd]
    | @concat ds n d hds hd ih =>
      have hne : ds ≠ [] := by
        rintro rfl
        simp [digits?] at ih
      rw [digits?_concat hne, if_pos hd, ih, Option.map_some]

/-- Nothing else stands in a row of digits. -/
theorem Decimal.isDigit (h : Decimal ds n) : ∀ d ∈ ds, d.isDigit = true := by
  induction h with
  | digit hd => simpa using hd
  | concat _ hd ih =>
    rw [List.forall_mem_append]
    exact ⟨ih, by simpa using hd⟩

theorem Decimal.isDigit_head {c : Char} (h : Decimal (c :: cs) n) : c.isDigit = true :=
  h.isDigit c List.mem_cons_self

theorem decimal_toDigits (n : Nat) : Decimal (Nat.toDigits 10 n) n :=
  digits?_eq_some_iff.mp (digits?_toDigits n)

theorem exists_toDigits_eq_cons (n : Nat) :
    ∃ d ds, Nat.toDigits 10 n = d :: ds ∧ d.isDigit = true := by
  cases hdigits : Nat.toDigits 10 n with
  | nil => simp at hdigits
  | cons d ds => exact ⟨d, ds, rfl, (hdigits ▸ decimal_toDigits n).isDigit_head⟩

/-! ## Signs -/

/-- The characters write the number, and a plus sign may stand in front of the digits. -/
inductive Unsigned : List Char → Nat → Prop
  | plain {ds : List Char} {n : Nat} (h : Decimal ds n) : Unsigned ds n
  | plus {ds : List Char} {n : Nat} (h : Decimal ds n) : Unsigned ('+' :: ds) n

/-- The characters write the whole number, and either sign may stand in front of the digits. -/
inductive Signed : List Char → Int → Prop
  | unsigned {cs : List Char} {n : Nat} (h : Unsigned cs n) : Signed cs n
  | minus {ds : List Char} {n : Nat} (h : Decimal ds n) : Signed ('-' :: ds) (-n)

/-- **The number that is read without a minus sign is the one that is written.** -/
theorem naturalOfChars?_eq_some_iff : naturalOfChars? cs = some n ↔ Unsigned cs n := by
  unfold naturalOfChars?
  split
  case h_1 ds =>
    rw [digits?_eq_some_iff]
    constructor
    · exact .plus
    · intro h
      cases h with
      | plain h => exact absurd h.isDigit_head (by decide)
      | plus h => exact h
  case h_2 hplus =>
    rw [digits?_eq_some_iff]
    constructor
    · exact .plain
    · intro h
      cases h with
      | plain h => exact h
      | plus h => exact absurd rfl (hplus _)

/-- **The number that is read with any sign is the one that is written.** -/
theorem integerOfChars?_eq_some_iff {n : Int} : integerOfChars? cs = some n ↔ Signed cs n := by
  unfold integerOfChars?
  split
  case h_1 ds =>
    simp only [Option.map_eq_some_iff, digits?_eq_some_iff]
    constructor
    · rintro ⟨m, hm, rfl⟩
      exact .minus hm
    · intro h
      cases h with
      | unsigned h =>
        cases h with
        | plain h => exact absurd h.isDigit_head (by decide)
      | minus h => exact ⟨_, h, rfl⟩
  case h_2 hminus =>
    simp only [Option.map_eq_some_iff, naturalOfChars?_eq_some_iff]
    constructor
    · rintro ⟨m, hm, rfl⟩
      exact .unsigned hm
    · intro h
      cases h with
      | unsigned h => exact ⟨_, h, rfl⟩
      | minus h => exact absurd rfl (hminus _)

/-! ## What stands in a numeral -/

theorem Decimal.isBlank (h : Decimal ds n) : ∀ d ∈ ds, isBlank d = false :=
  fun d hd => isBlank_of_isDigit (h.isDigit d hd)

/-- A numeral without a minus sign holds digits and a plus sign only. -/
theorem Unsigned.eq_plus_or_isDigit (h : Unsigned cs n) :
    ∀ c ∈ cs, c = '+' ∨ c.isDigit = true := by
  intro c hc
  cases h with
  | plain h => exact .inr (h.isDigit c hc)
  | plus h => exact (List.mem_cons.mp hc).imp_right (h.isDigit c)

theorem Unsigned.isBlank (h : Unsigned cs n) : ∀ c ∈ cs, isBlank c = false := by
  intro c hc
  rcases h.eq_plus_or_isDigit c hc with rfl | hdigit
  · decide
  · exact isBlank_of_isDigit hdigit

theorem Signed.isBlank {n : Int} (h : Signed cs n) : ∀ c ∈ cs, isBlank c = false := by
  cases h with
  | unsigned h => exact h.isBlank
  | minus h => exact List.forall_mem_cons.mpr ⟨by decide, h.isBlank⟩

/-! ## Keywords -/

/-- The characters are those of the word, each of them as it is or as a capital. -/
def SpelledAs (word : String) (cs : List Char) : Prop :=
  List.Forall₂ (fun c d => c = d ∨ c = d.toUpper) cs word.toList

theorem le_of_isLower (hd : d.isLower = true) : 'a'.val ≤ d.val ∧ d.val ≤ 'z'.val := by
  have hletter := Bool.and_eq_true_iff.mp hd
  exact ⟨of_decide_eq_true hletter.1, of_decide_eq_true hletter.2⟩

/-- A capital becomes the letter that stands 32 places behind it. -/
theorem toNat_toLower (c : Char) :
    c.toLower.toNat = if 65 ≤ c.toNat ∧ c.toNat ≤ 90 then c.toNat + 32 else c.toNat := by
  by_cases h : 65 ≤ c.toNat ∧ c.toNat ≤ 90
  · have hshift : ('a'.val - 'A'.val).toNat = 32 := by decide
    have hlower : c.toLower.val = c.val + ('a'.val - 'A'.val) := congrArg Char.val (dif_pos h)
    rw [if_pos h, Char.toNat, hlower, UInt32.toNat_add, hshift, ← Char.toNat]
    omega
  · rw [if_neg h]
    exact congrArg Char.toNat (dif_neg h)

theorem toNat_toUpper_of_isLower (hd : d.isLower = true) : d.toUpper.toNat = d.toNat - 32 := by
  have hrange : 97 ≤ d.toNat ∧ d.toNat ≤ 122 := le_of_isLower hd
  -- the capital stands 32 places before, counted around the end of the words
  have hshift : ('A'.val - 'a'.val).toNat = 2 ^ 32 - 32 := by decide
  have hupper : d.toUpper.toNat = (d.val + ('A'.val - 'a'.val)).toNat := by
    delta Char.toUpper
    rw [dif_pos (le_of_isLower hd)]
    rfl
  rw [hupper, UInt32.toNat_add, hshift, ← Char.toNat]
  omega

/-- What becomes a lower-case letter is that letter or its capital. -/
theorem toLower_eq_iff {c : Char} (hd : d.isLower = true) :
    c.toLower = d ↔ c = d ∨ c = d.toUpper := by
  have hrange : 97 ≤ d.toNat ∧ d.toNat ≤ 122 := le_of_isLower hd
  rw [← Char.toNat_inj, ← Char.toNat_inj, ← Char.toNat_inj, toNat_toLower,
    toNat_toUpper_of_isLower hd]
  split <;> omega

/-- **Comparing letters finds what is spelled as a word** of lower-case letters. -/
theorem sameLetters_iff {s word : String} (h : ∀ d ∈ word.toList, d.isLower = true) :
    sameLetters s word = true ↔ SpelledAs word s.toList := by
  have hrow : ∀ cs ds : List Char, (∀ d ∈ ds, d.isLower = true) →
      (cs.map Char.toLower = ds.map Char.toLower ↔
        List.Forall₂ (fun c d => c = d ∨ c = d.toUpper) cs ds) := by
    intro cs
    induction cs with
    | nil => intro ds _; cases ds <;> simp
    | cons c cs ih =>
      intro ds hds
      cases ds with
      | nil => simp
      | cons d ds =>
        obtain ⟨hd, hds⟩ := List.forall_mem_cons.mp hds
        have hlower : d.toLower = d := (toLower_eq_iff hd).mpr (.inl rfl)
        rw [List.map_cons, List.map_cons, List.cons.injEq, hlower, toLower_eq_iff hd, ih ds hds,
          List.forall₂_cons]
  rw [sameLetters, beq_iff_eq, SpelledAs]
  exact hrow _ _ h

end BpmnModel.Text
