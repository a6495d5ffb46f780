import BpmnModel.Condition.Value
import BpmnModel.Model.Code
import BpmnModel.Model.Kinds
import BpmnModel.Model.Version
import BpmnModel.Proofs.Text.Blank

/-!
# What texts denote

Documents write numbers, codes, versions and values as texts.  The relations here say which
text stands for what, in terms of whole numbers without any bound; the readers with a range
agree with them.

## Main definitions

* `Coded.Denotes raw a` — the text is a code of the member `a`.
* `Version.Denotes raw v` — the text is three numbers with dots between them.
* `ConditionValue.Denotes raw type v` — the text stands for the value `v` of a storage type.

## Main statements

* `Coded.parseCode?_eq_some_iff`, `Version.parse?_eq_some_iff` and
  `ConditionValue.ofText_eq_ok_iff` — each reader finds what the text denotes, and fails only
  where it denotes nothing.
-/

namespace BpmnModel

/-! ## Numbers within a range -/

namespace Text

theorem word32?_eq_some_iff {s : String} {n : UInt32} :
    word32? s = some n ↔ natural? s = some n.toNat := by
  rw [word32?, Option.bind_eq_some_iff]
  constructor
  · rintro ⟨m, hm, h⟩
    split at h
    · rename_i hlt
      rw [hm, ← Option.some.inj h, UInt32.toNat_ofNat_of_lt' hlt]
    · simp at h
  · intro h
    exact ⟨n.toNat, h, by rw [if_pos n.toNat_lt_size, UInt32.ofNat_toNat]⟩

theorem word64?_eq_some_iff {s : String} {n : UInt64} :
    word64? s = some n ↔ natural? s = some n.toNat := by
  rw [word64?, Option.bind_eq_some_iff]
  constructor
  · rintro ⟨m, hm, h⟩
    split at h
    · rename_i hlt
      rw [hm, ← Option.some.inj h, UInt64.toNat_ofNat_of_lt' hlt]
    · simp at h
  · intro h
    exact ⟨n.toNat, h, by rw [if_pos n.toNat_lt_size, UInt64.ofNat_toNat]⟩

theorem int64?_eq_some_iff {s : String} {n : Int64} :
    int64? s = some n ↔ integer? s = some n.toInt := by
  rw [int64?, Option.bind_eq_some_iff]
  constructor
  · rintro ⟨m, hm, h⟩
    split at h
    · rename_i hrange
      rw [hm, ← Option.some.inj h, Int64.toInt_ofInt_of_le hrange.1 hrange.2]
    · simp at h
  · intro h
    exact ⟨n.toInt, h, by rw [if_pos ⟨n.le_toInt, n.toInt_lt⟩, Int64.ofInt_toInt]⟩

end Text

/-! ## Codes -/

namespace Coded

variable {α : Type} [DecidableEq α] [Coded α]

/-- Between blanks, the text denotes the code of a member. -/
def Denotes (raw : String) (a : α) : Prop :=
  Text.integer? (Text.trim raw) = some (code a : Int)

/-- A closed set whose codes are small, so that no reader of 64 bits refuses one. -/
class Small (α : Type) [DecidableEq α] [Coded α] : Prop where
  code_lt : ∀ a : α, code a < 64

instance : Small TaskBehavior := ⟨fun a => by cases a <;> decide⟩

instance : Small Operator := ⟨fun a => by cases a <;> decide⟩

instance : Small ParameterType := ⟨fun a => by cases a <;> decide⟩

/-- **The member whose code is read is the one that the text denotes.** -/
theorem parseCode?_eq_some_iff [Small α] {raw : String} {a : α} :
    parseCode? raw = some a ↔ Denotes raw a := by
  have hcode : code a < 64 := Small.code_lt a
  simp only [parseCode?, Option.bind_eq_some_iff, Text.int64?_eq_some_iff, ofCode?_eq_some_iff,
    Denotes]
  constructor
  · rintro ⟨n, hn, hna⟩
    rw [hn, hna]
  · intro h
    have hn : (Int64.ofInt (code a)).toInt = (code a : Int) :=
      Int64.toInt_ofInt_of_le (by omega) (by omega)
    exact ⟨Int64.ofInt (code a), by rw [h, hn], hn.symm⟩

@[simp] theorem denotes_trim {raw : String} {a : α} : Denotes (Text.trim raw) a ↔ Denotes raw a := by
  rw [Denotes, Text.trim_trim, Denotes]

end Coded

/-! ## Versions -/

namespace Version

/-- Between blanks, the text is the three numbers of a version with dots between them. -/
def Denotes (raw : String) (v : Version) : Prop :=
  ∃ major minor patch : List Char,
    Text.split '.' (Text.trimBlanks raw.toList) = [major, minor, patch] ∧
      Text.naturalOfChars? major = some v.major.toNat ∧
      Text.naturalOfChars? minor = some v.minor.toNat ∧
      Text.naturalOfChars? patch = some v.patch.toNat

/-- **The version that is read is the one that the text denotes.** -/
theorem parse?_eq_some_iff {raw : String} {v : Version} :
    parse? raw = some v ↔ Denotes raw v := by
  have part : ∀ (cs : List Char) (n : UInt32), Text.word32? (String.ofList cs) = some n ↔
      Text.naturalOfChars? cs = some n.toNat := by
    intro cs n
    rw [Text.word32?_eq_some_iff, Text.natural?, String.toList_ofList]
  rw [parse?]
  split
  · rename_i a b c habc
    simp only [Option.bind_eq_bind, Option.bind_eq_some_iff, Option.pure_def, Option.some.injEq,
      part, Denotes, habc]
    constructor
    · rintro ⟨major, ha, minor, hb, patch, hc, rfl⟩
      exact ⟨a, b, c, rfl, ha, hb, hc⟩
    · rintro ⟨a', b', c', habc', ha, hb, hc⟩
      obtain ⟨rfl, rfl, rfl⟩ : a = a' ∧ b = b' ∧ c = c' := by simpa using habc'
      exact ⟨v.major, ha, v.minor, hb, v.patch, hc, rfl⟩
  · rename_i hparts
    constructor
    · intro h
      simp at h
    · rintro ⟨a, b, c, habc, -⟩
      exact absurd habc (hparts a b c)

end Version

/-! ## Values -/

namespace ConditionValue

/-- The value that a text denotes under a storage type.  Truth values are keywords, in any
case of their letters; numbers have to fit in 64 bits; a text is meant as it stands. -/
inductive Denotes (raw : String) : DataType → ConditionValue → Prop
  | bool {b : Bool} (h : Text.sameLetters (Text.trim raw) (if b then "true" else "false") = true) :
    Denotes raw .bool (.bool b)
  | int {n : Int64} (h : Text.integer? (Text.trim raw) = some n.toInt) :
    Denotes raw .int256 (.int n)
  | uint {n : UInt64} (h : Text.natural? (Text.trim raw) = some n.toNat) :
    Denotes raw .uint256 (.uint n)
  | string : Denotes raw .string (.text raw)
  | address : Denotes raw .address (.text raw)
  | bytes32 : Denotes raw .bytes32 (.text raw)

/-- No text is both keywords. -/
theorem not_sameLetters_false {s : String} (h : Text.sameLetters s "true" = true) :
    Text.sameLetters s "false" = false := by
  rw [Text.sameLetters, beq_iff_eq] at h
  rw [Text.sameLetters, h]
  decide

theorem keyword?_eq_some_iff {s : String} {b : Bool} :
    keyword? s = some b ↔ Text.sameLetters s (if b then "true" else "false") = true := by
  rw [keyword?]
  split
  · rename_i htrue
    cases b with
    | true => simp [htrue]
    | false => simp [not_sameLetters_false htrue]
  · rename_i htrue
    split
    · rename_i hfalse
      cases b with
      | true => simp [htrue]
      | false => simp [hfalse]
    · rename_i hfalse
      cases b with
      | true => simp [htrue]
      | false => simp [hfalse]

/-- **The value that is read is the one that the text denotes.** -/
theorem ofText_eq_ok_iff {raw : String} {type : DataType} {v : ConditionValue} :
    ofText raw type = .ok v ↔ Denotes raw type v := by
  constructor
  · intro h
    cases type with
    | bool =>
      cases hk : keyword? (Text.trim raw) with
      | none => simp [ofText, hk] at h
      | some b =>
        obtain rfl : .bool b = v := by simpa [ofText, hk] using h
        exact .bool (keyword?_eq_some_iff.mp hk)
    | int256 =>
      cases hn : Text.int64? (Text.trim raw) with
      | none => simp [ofText, hn] at h
      | some n =>
        obtain rfl : .int n = v := by simpa [ofText, hn] using h
        exact .int (Text.int64?_eq_some_iff.mp hn)
    | uint256 =>
      cases hn : Text.word64? (Text.trim raw) with
      | none => simp [ofText, hn] at h
      | some n =>
        obtain rfl : .uint n = v := by simpa [ofText, hn] using h
        exact .uint (Text.word64?_eq_some_iff.mp hn)
    | string =>
      obtain rfl : .text raw = v := by simpa [ofText] using h
      exact .string
    | address =>
      obtain rfl : .text raw = v := by simpa [ofText] using h
      exact .address
    | bytes32 =>
      obtain rfl : .text raw = v := by simpa [ofText] using h
      exact .bytes32
  · intro h
    cases h with
    | bool h => simp [ofText, keyword?_eq_some_iff.mpr h]
    | int h => simp [ofText, Text.int64?_eq_some_iff.mpr h]
    | uint h => simp [ofText, Text.word64?_eq_some_iff.mpr h]
    | string => rfl
    | address => rfl
    | bytes32 => rfl

end ConditionValue

end BpmnModel
