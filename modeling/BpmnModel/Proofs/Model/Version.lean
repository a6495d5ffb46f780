import Mathlib.Data.List.Lex
import Mathlib.Order.Compare
import BpmnModel.Proofs.Model.Denotes
import BpmnModel.Proofs.Text.Numeral
import BpmnModel.Text.Order

/-!
# Texts of versions

A version is written as three numerals with single dots between them.  Leading zeros, plus signs
and outer blanks make many texts of one version; the numbers, and not the texts, decide which of two
versions comes first.

## Main definitions

* `Text.Dotted cs ns` — the characters write three numbers with dots between them.
* `Version.numbers v` — the three numbers, as a row in lexicographic order.
* `Version.Writes raw ns` — the text writes three numbers that a version can have.

## Main statements

* `Version.exists_parse?_iff` — the texts that are read as versions, and as which ones.
* `Version.compares_numbers` — versions stand in the order of their numbers.
* `Version.read_and_ordered` — both, with the written form and the order of texts.
-/

namespace BpmnModel

namespace Text

variable {sep : Char} {p as bs ds cs : List Char} {ps : List (List Char)} {ns : List ℕ}

/-! ## Parts between separators -/

/-- The first part is what stands before the first separator, or everything. -/
theorem split_eq_cons_iff : split sep cs = p :: ps ↔
    sep ∉ p ∧ (cs = p ∧ ps = [] ∨ ∃ rest, cs = p ++ sep :: rest ∧ split sep rest = ps) := by
  constructor
  · intro h
    by_cases hsep : sep ∈ cs
    · obtain ⟨front, rest, rfl, hfront⟩ := List.eq_append_cons_of_mem hsep
      rw [split_append_cons hfront] at h
      obtain ⟨rfl, rfl⟩ := List.cons.inj h
      exact ⟨hfront, .inr ⟨rest, rfl, rfl⟩⟩
    · rw [split_of_not_mem hsep] at h
      obtain ⟨rfl, rfl⟩ := List.cons.inj h
      exact ⟨hsep, .inl ⟨rfl, rfl⟩⟩
  · rintro ⟨hp, ⟨rfl, rfl⟩ | ⟨rest, rfl, rfl⟩⟩
    · exact split_of_not_mem hp
    · exact split_append_cons hp rest

theorem split_eq_three_iff : split sep cs = [as, bs, ds] ↔
    cs = as ++ sep :: (bs ++ sep :: ds) ∧ sep ∉ as ∧ sep ∉ bs ∧ sep ∉ ds := by
  constructor
  · intro h
    obtain ⟨has, ⟨-, hnil⟩ | ⟨rest, rfl, hrest⟩⟩ := split_eq_cons_iff.mp h
    · simp at hnil
    obtain ⟨hbs, ⟨-, hnil⟩ | ⟨last, rfl, hlast⟩⟩ := split_eq_cons_iff.mp hrest
    · simp at hnil
    obtain ⟨hds, ⟨rfl, -⟩ | ⟨more, -, hnil⟩⟩ := split_eq_cons_iff.mp hlast
    · exact ⟨rfl, has, hbs, hds⟩
    · exact absurd hnil (split_ne_nil sep more)
  · rintro ⟨rfl, has, hbs, hds⟩
    rw [split_append_cons has, split_append_cons hbs, split_of_not_mem hds]

/-! ## Three numerals -/

/-- The characters write three numbers, with a dot between two of them and nothing else. -/
inductive Dotted : List Char → List ℕ → Prop
  | parts {as bs cs : List Char} {a b c : ℕ} (ha : Unsigned as a) (hb : Unsigned bs b)
    (hc : Unsigned cs c) : Dotted (as ++ '.' :: (bs ++ '.' :: cs)) [a, b, c]

/-- No dot stands in a numeral. -/
theorem Unsigned.not_mem_dot {n : ℕ} (h : Unsigned cs n) : '.' ∉ cs := by
  intro hdot
  rcases h.eq_plus_or_isDigit '.' hdot with hc | hc
  · exact absurd hc (by decide)
  · exact absurd hc (by decide)

theorem Dotted.isBlank (h : Dotted cs ns) : ∀ c ∈ cs, isBlank c = false := by
  have hdot : Text.isBlank '.' = false := by decide
  cases h with
  | parts ha hb hc =>
    simp only [List.forall_mem_append, List.forall_mem_cons]
    exact ⟨ha.isBlank, hdot, hb.isBlank, hdot, hc.isBlank⟩

theorem Dotted.exists_three (h : Dotted cs ns) : ∃ a b c, ns = [a, b, c] := by
  cases h
  exact ⟨_, _, _, rfl⟩

end Text

namespace Version

variable {raw : String} {ns : List ℕ} {v w : Version}

/-! ## Reading -/

/-- The three numbers, the one that counts first in front. -/
def numbers (v : Version) : List ℕ :=
  [v.major.toNat, v.minor.toNat, v.patch.toNat]

/-- Between its outer blanks the text writes three numbers, each of them in the range of a
version's numbers. -/
def Writes (raw : String) (ns : List ℕ) : Prop :=
  Text.Dotted (Text.trimBlanks raw.toList) ns ∧ ∀ n ∈ ns, n < UInt32.size

theorem denotes_iff_dotted :
    Denotes raw v ↔ Text.Dotted (Text.trimBlanks raw.toList) v.numbers := by
  simp only [Denotes, Text.split_eq_three_iff, Text.naturalOfChars?_eq_some_iff]
  constructor
  · rintro ⟨major, minor, patch, ⟨htrim, -⟩, hmajor, hminor, hpatch⟩
    rw [htrim]
    exact .parts hmajor hminor hpatch
  · intro h
    rw [numbers] at h
    generalize Text.trimBlanks raw.toList = cs at h ⊢
    cases h with
    | parts ha hb hc =>
      exact ⟨_, _, _, ⟨rfl, ha.not_mem_dot, hb.not_mem_dot, hc.not_mem_dot⟩, ha, hb, hc⟩

theorem parse?_eq_some_iff_dotted :
    parse? raw = some v ↔ Text.Dotted (Text.trimBlanks raw.toList) v.numbers :=
  parse?_eq_some_iff.trans denotes_iff_dotted

theorem numbers_lt (v : Version) : ∀ n ∈ v.numbers, n < UInt32.size := by
  simp [numbers, UInt32.toNat_lt_size]

/-- **A text is read as a version** when, and only when, it writes numbers that a version can
have, and then as the version with these numbers. -/
theorem exists_parse?_iff : (∃ v, parse? raw = some v ∧ v.numbers = ns) ↔ Writes raw ns := by
  constructor
  · rintro ⟨v, hv, rfl⟩
    exact ⟨parse?_eq_some_iff_dotted.mp hv, v.numbers_lt⟩
  · rintro ⟨hdotted, hlt⟩
    obtain ⟨a, b, c, rfl⟩ := hdotted.exists_three
    simp only [List.forall_mem_cons, List.not_mem_nil, false_imp_iff, implies_true,
      and_true] at hlt
    obtain ⟨ha, hb, hc⟩ := hlt
    let v : Version := ⟨UInt32.ofNat a, UInt32.ofNat b, UInt32.ofNat c⟩
    have hv : v.numbers = [a, b, c] := by
      simp only [v, numbers, UInt32.toNat_ofNat_of_lt' ha, UInt32.toNat_ofNat_of_lt' hb,
        UInt32.toNat_ofNat_of_lt' hc]
    exact ⟨v, parse?_eq_some_iff_dotted.mpr (hv.symm ▸ hdotted), hv⟩

/-! ## Writing -/

theorem toList_text (v : Version) : v.text.toList = Nat.toDigits 10 v.major.toNat ++ '.' ::
    (Nat.toDigits 10 v.minor.toNat ++ '.' :: Nat.toDigits 10 v.patch.toNat) := by
  simp [text]

theorem dotted_text (v : Version) : Text.Dotted v.text.toList v.numbers := by
  rw [toList_text]
  exact .parts (.plain (Text.decimal_toDigits _)) (.plain (Text.decimal_toDigits _))
    (.plain (Text.decimal_toDigits _))

/-- Blanks around the written form do not matter. -/
theorem parse?_pad_text {front back : String} (hfront : ∀ c ∈ front.toList, Text.isBlank c = true)
    (hback : ∀ c ∈ back.toList, Text.isBlank c = true) (v : Version) :
    parse? (front ++ v.text ++ back) = some v := by
  have htrim : Text.trimBlanks (front ++ v.text ++ back).toList = v.text.toList := by
    rw [String.toList_append, String.toList_append, List.append_assoc,
      Text.trimBlanks_pad hfront hback, Text.trimBlanks_of_forall v.dotted_text.isBlank]
  rw [parse?_eq_some_iff_dotted, htrim]
  exact v.dotted_text

/-- A plus sign in front of the written form does not matter either. -/
theorem parse?_plus_text (v : Version) : parse? ("+" ++ v.text) = some v := by
  have hdotted : Text.Dotted ("+" ++ v.text).toList v.numbers := by
    rw [String.toList_append, toList_text]
    exact .parts (.plus (Text.decimal_toDigits _)) (.plain (Text.decimal_toDigits _))
      (.plain (Text.decimal_toDigits _))
  rw [parse?_eq_some_iff_dotted, Text.trimBlanks_of_forall hdotted.isBlank]
  exact hdotted

/-! ## Order -/

theorem numbers_inj : v.numbers = w.numbers ↔ v = w := by
  constructor
  · intro h
    obtain ⟨major, minor, patch⟩ := v
    obtain ⟨major', minor', patch'⟩ := w
    simpa [numbers, UInt32.toNat_inj] using h
  · rintro rfl
    rfl

/-- The first number that differs decides, and then the numbers behind it. -/
theorem compares_cons {ns ks : List ℕ} {o : Ordering} (h : o.Compares ns ks) (n k : ℕ) :
    ((compareOfLessAndEq n k).then o).Compares (n :: ns) (k :: ks) := by
  rcases lt_trichotomy n k with hlt | rfl | hgt
  · rw [compareOfLessAndEq, if_pos hlt]
    exact List.cons_lt_cons_iff.mpr (.inl hlt)
  · have hself : compareOfLessAndEq n n = .eq := by simp [compareOfLessAndEq]
    rw [hself]
    cases o with
    | lt => exact List.cons_lt_cons_iff.mpr (.inr ⟨rfl, h⟩)
    | eq => exact congrArg (n :: ·) h
    | gt => exact List.cons_lt_cons_iff.mpr (.inr ⟨rfl, h⟩)
  · rw [compareOfLessAndEq, if_neg hgt.not_gt, if_neg hgt.ne']
    exact List.cons_lt_cons_iff.mpr (.inl hgt)

/-- **Versions stand in the lexicographic order of their numbers.** -/
theorem compares_numbers (v w : Version) : (v.compare w).Compares v.numbers w.numbers := by
  have hnone : Ordering.eq.Compares ([] : List ℕ) [] := rfl
  have hpatch := compares_cons hnone v.patch.toNat w.patch.toNat
  have hminor := compares_cons hpatch v.minor.toNat w.minor.toNat
  have hmajor := compares_cons hminor v.major.toNat w.major.toNat
  rwa [Ordering.then_eq] at hmajor

/-- **The order of texts says nothing about the order of versions**: of any two versions, either
one has a text that stands before a text of the other one. -/
theorem exists_precedes (v w : Version) :
    ∃ s t, parse? s = some v ∧ parse? t = some w ∧ Text.precedes s t = true := by
  refine ⟨"+" ++ v.text, w.text, v.parse?_plus_text, w.parse?_text, ?_⟩
  -- a plus sign stands before every digit
  have hplus : ∀ {d : Char}, d.isDigit = true → '+' < d := by
    intro d hd
    have hrange : 48 ≤ d.toNat ∧ d.toNat ≤ 57 := by
      simpa [Char.isDigit, UInt32.le_iff_toNat_le] using hd
    rw [Char.lt_def, UInt32.lt_iff_toNat_lt]
    show 43 < d.toNat
    omega
  rw [Text.precedes_iff_toList, String.toList_append, toList_text w]
  obtain ⟨d, ds, hdigits, hd⟩ := Text.exists_toDigits_eq_cons w.major.toNat
  rw [hdigits]
  exact List.cons_lt_cons_iff.mpr (.inl (hplus hd))

/-- How two versions are ordered: by their numbers, and by nothing that only their texts have. -/
structure Ordered (v w : Version) : Prop where
  lt : v.compare w = .lt ↔ v.numbers < w.numbers
  eq : v.compare w = .eq ↔ v = w
  gt : v.compare w = .gt ↔ w.numbers < v.numbers
  read : ∀ s t ns ks, parse? s = some v → parse? t = some w → Writes s ns → Writes t ks →
    (v.compare w).Compares ns ks
  texts : ∃ s t, parse? s = some v ∧ parse? t = some w ∧ Text.precedes s t = true

/-- The numbers that a text writes are those of the version that it is read as. -/
theorem numbers_of_writes (hv : parse? raw = some v) (h : Writes raw ns) : v.numbers = ns := by
  obtain ⟨w, hw, rfl⟩ := exists_parse?_iff.mpr h
  rw [Option.some.inj (hv.symm.trans hw)]

theorem ordered (v w : Version) : Ordered v w where
  lt := (compares_numbers v w).eq_lt
  eq := (compares_numbers v w).eq_eq.trans numbers_inj
  gt := (compares_numbers v w).eq_gt
  read s t ns ks hs ht hns hks := by
    rw [← numbers_of_writes hs hns, ← numbers_of_writes ht hks]
    exact compares_numbers v w
  texts := exists_precedes v w

/-- **Texts and versions correspond.**  A text is read as the version whose numbers it writes; the
written form of a version is read as that version, also between blanks; and versions are compared
by their numbers. -/
theorem read_and_ordered :
    (∀ raw ns, (∃ v, parse? raw = some v ∧ v.numbers = ns) ↔ Writes raw ns) ∧
      (∀ (v : Version) (front back : String), (∀ c ∈ front.toList, Text.isBlank c = true) →
        (∀ c ∈ back.toList, Text.isBlank c = true) →
          parse? (front ++ v.text ++ back) = some v) ∧
        ∀ v w, Ordered v w :=
  ⟨fun _ _ => exists_parse?_iff, fun v _ _ hfront hback => parse?_pad_text hfront hback v, ordered⟩

/-- The version of a text with a plus sign and a leading zero comes last, though the text stands
first. -/
theorem read_and_ordered_ten :
    parse? ("\t" ++ text ⟨1, 10, 0⟩ ++ "\n") = some ⟨1, 10, 0⟩ ∧
      Writes " +1.010.0" [1, 10, 0] ∧ Writes "1.9.0" [1, 9, 0] ∧
        Text.precedes " +1.010.0" "1.9.0" = true ∧
          (compare ⟨1, 10, 0⟩ ⟨1, 9, 0⟩).Compares [1, 10, 0] [1, 9, 0] := by
  obtain ⟨hread, hpad, hordered⟩ := read_and_ordered
  have hten : parse? " +1.010.0" = some ⟨1, 10, 0⟩ := by decide +kernel
  have hnine : parse? "1.9.0" = some ⟨1, 9, 0⟩ := by decide +kernel
  have hwrites := (hread " +1.010.0" [1, 10, 0]).mp ⟨_, hten, rfl⟩
  have hwrites' := (hread "1.9.0" [1, 9, 0]).mp ⟨_, hnine, rfl⟩
  have hpadded := hpad ⟨1, 10, 0⟩ "\t" "\n" (by simp; decide) (by simp; decide)
  exact ⟨hpadded, hwrites, hwrites', by decide +kernel,
    (hordered _ _).read _ _ _ _ hten hnine hwrites hwrites'⟩

end Version

end BpmnModel
