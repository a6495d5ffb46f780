import BpmnModel.Text.Blank
import BpmnModel.Text.Numeral
import BpmnModel.Text.Split

/-!
# Versions

A model carries a version of three numbers, written with dots between them.  Versions are
compared number by number, so that `1.10.0` comes after `1.9.0`.

## Main definitions

* `Version` — major, minor and patch number, each of 32 bits.
* `Version.parse? s` — the version that a text denotes.
* `Version.text v` — the written form.
* `Version.compare v w` — the lexicographic order of the three numbers.

## Main statements

* `Version.parse?_text` — the written form reads back.
-/

namespace BpmnModel

/-- The version of a model. -/
structure Version where
  /-- The number that counts first. -/
  major : UInt32
  /-- The number that counts second. -/
  minor : UInt32
  /-- The number that counts last. -/
  patch : UInt32
deriving DecidableEq, Repr, Inhabited

namespace Version

/-- Reads three numbers with single dots between them; outer blanks do not count, inner ones
are refused. -/
def parse? (raw : String) : Option Version :=
  match Text.split '.' (Text.trimBlanks raw.toList) with
  | [a, b, c] => do
    let major ← Text.word32? (String.ofList a)
    let minor ← Text.word32? (String.ofList b)
    let patch ← Text.word32? (String.ofList c)
    return ⟨major, minor, patch⟩
  | _ => none

/-- The three numbers in decimal, with dots between them. -/
def text (v : Version) : String :=
  v.major.toNat.repr ++ "." ++ v.minor.toNat.repr ++ "." ++ v.patch.toNat.repr

/-- The first number that differs decides. -/
def compare (v w : Version) : Ordering :=
  (compareOfLessAndEq v.major.toNat w.major.toNat).then
    ((compareOfLessAndEq v.minor.toNat w.minor.toNat).then
      (compareOfLessAndEq v.patch.toNat w.patch.toNat))

/-! ## The written form reads back -/

private theorem not_mem_toDigits {c : Char} (hc : c.isDigit = false) (n : Nat) :
    c ∉ Nat.toDigits 10 n := fun h => by
  have := Nat.isDigit_of_mem_toDigits (by decide) (by decide) h
  simp [hc] at this

private theorem trimBlanks_of_ends {c d : Char} (hc : Text.isBlank c = false)
    (hd : Text.isBlank d = false) (cs : List Char) :
    Text.trimBlanks (c :: (cs ++ [d])) = c :: (cs ++ [d]) := by
  rw [Text.trimBlanks, Text.trimStart_cons_of_not hc, ← List.cons_append,
    Text.trimEnd_concat_of_not hd]

/-- **The written form of a version reads back as the version.** -/
@[simp] theorem parse?_text (v : Version) : parse? v.text = some v := by
  have hlist : v.text.toList = Nat.toDigits 10 v.major.toNat ++ '.' ::
      (Nat.toDigits 10 v.minor.toNat ++ '.' :: Nat.toDigits 10 v.patch.toNat) := by
    simp [text]
  have htrim : Text.trimBlanks v.text.toList = v.text.toList := by
    rw [hlist]
    have first : ∀ n, ∃ c cs, Nat.toDigits 10 n = c :: cs ∧ c.isDigit = true := fun n => by
      cases h : Nat.toDigits 10 n with
      | nil => simp at h
      | cons c cs => exact ⟨c, cs, rfl, Nat.isDigit_of_mem_toDigits (b := 10) (n := n)
          (by decide) (by decide) (by rw [h]; simp)⟩
    have last : ∀ n, ∃ cs c, Nat.toDigits 10 n = cs ++ [c] ∧ c.isDigit = true := fun n => by
      have hne : Nat.toDigits 10 n ≠ [] := by simp
      exact ⟨_, _, (List.dropLast_concat_getLast hne).symm,
        Nat.isDigit_of_mem_toDigits (by decide) (by decide) (List.getLast_mem hne)⟩
    obtain ⟨c, cs, hc, hcd⟩ := first v.major.toNat
    obtain ⟨ds, d, hd, hdd⟩ := last v.patch.toNat
    rw [hc, hd]
    have := trimBlanks_of_ends (Text.isBlank_of_isDigit hcd) (Text.isBlank_of_isDigit hdd)
      (cs ++ '.' :: (Nat.toDigits 10 v.minor.toNat ++ '.' :: ds))
    simpa using this
  have hdot : ∀ n, '.' ∉ Nat.toDigits 10 n := not_mem_toDigits (by decide)
  have hword : ∀ w : UInt32, Text.word32? (String.ofList (Nat.toDigits 10 w.toNat)) = some w :=
    fun w => Text.word32?_repr w
  rw [parse?, htrim, hlist, Text.split_append_cons (hdot _), Text.split_append_cons (hdot _),
    Text.split_of_not_mem (hdot _)]
  simp [hword]

end Version

end BpmnModel
