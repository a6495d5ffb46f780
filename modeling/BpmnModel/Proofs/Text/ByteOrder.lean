import Mathlib.Data.List.Basic
import BpmnModel.Codec.Sequence
import BpmnModel.Text.Order

/-!
# Texts in the order of their bytes

Texts stand in the order of their code points, and their UTF-8 forms stand in the same order.  The
form of a code point is a first byte, which tells how many bytes follow, and then six bits of the
code point in each of these.  So of two code points the smaller one has the smaller first byte, or
both have the same first byte and as many bytes behind it, of which the first that differ decide.

## Main definitions

* `Codec.leadByte`, `Codec.tailSize`, `Codec.tailBytes` — the parts of the form of a code point.

## Main statements

* `Codec.utf8EncodeChar_append_lt` — one character decides, whatever follows it.
* `Codec.utf8_lt_iff` — the order of the bytes is that of the texts.
-/

namespace BpmnModel.Codec

variable {k m n : Nat} {c d : Char} {cs ds : List Char} {s t : String}

/-! ## The form of a code point -/

/-- The first byte of the form. -/
def leadByte (n : Nat) : Nat :=
  if n ≤ 127 then n
  else if n ≤ 2047 then n / 64 + 192
  else if n ≤ 65535 then n / 4096 + 224
  else n / 262144 + 240

/-- The number of bytes behind the first one. -/
def tailSize (n : Nat) : Nat :=
  if n ≤ 127 then 0
  else if n ≤ 2047 then 1
  else if n ≤ 65535 then 2
  else 3

/-- The last `k` bytes of the form. -/
def tailBytes : Nat → Nat → List UInt8
  | 0, _ => []
  | k + 1, n => tailBytes k (n / 64) ++ [UInt8.ofNat (n % 64 + 128)]

/-- What is left of a code point without the bits of its last `k` bytes. -/
def leadBits : Nat → Nat → Nat
  | 0, n => n
  | k + 1, n => leadBits k (n / 64)

theorem toNat_val_lt (c : Char) : c.val.toNat < 1114112 := by
  have hvalid := c.valid
  simp only [UInt32.isValidChar, Nat.isValidChar] at hvalid
  omega

theorem utf8EncodeChar_eq (c : Char) : String.utf8EncodeChar c =
    UInt8.ofNat (leadByte c.val.toNat) :: tailBytes (tailSize c.val.toNat) c.val.toNat := by
  have hlt := toNat_val_lt c
  simp only [String.utf8EncodeChar, leadByte, tailSize]
  generalize c.val.toNat = n at hlt
  split
  · rfl
  · split
    · have hlead : n / 64 % 32 = n / 64 := by omega
      simp [tailBytes, hlead]
    · split
      · have hlead : n / 4096 % 16 = n / 4096 := by omega
        simp [tailBytes, hlead]
      · have hlead : n / 262144 % 8 = n / 262144 := by omega
        simp [tailBytes, hlead, Nat.div_div_eq_div_mul]

/-! ## One character -/

theorem byte_lt (h : m < n) (hn : n < 256) : UInt8.ofNat m < UInt8.ofNat n := by
  rw [UInt8.lt_iff_toNat_lt, UInt8.toNat_ofNat_of_lt' hn,
    UInt8.toNat_ofNat_of_lt' (Nat.lt_trans h hn)]
  exact h

theorem leadByte_lt (hn : n < 1114112) : leadByte n < 256 := by
  unfold leadByte
  split_ifs <;> omega

/-- The smaller code point has the smaller first byte, or the two differ behind it. -/
theorem leadByte_cases (h : m < n) (hn : n < 1114112) : leadByte m < leadByte n ∨
    leadByte m = leadByte n ∧ tailSize m = tailSize n ∧
      leadBits (tailSize n) m = leadBits (tailSize n) n := by
  unfold leadByte tailSize
  split_ifs <;> simp only [leadBits, Nat.div_div_eq_div_mul, Nat.reduceMul, true_and] <;> omega

theorem tailBytes_append_lt (h : m < n) (hbits : leadBits k m = leadBits k n)
    (as bs : List UInt8) : tailBytes k m ++ as < tailBytes k n ++ bs := by
  induction k generalizing m n as bs with
  | zero =>
    rw [leadBits, leadBits] at hbits
    omega
  | succ k ih =>
    rw [leadBits, leadBits] at hbits
    rw [tailBytes, tailBytes, List.append_assoc, List.append_assoc]
    by_cases hfront : m / 64 < n / 64
    · exact ih hfront hbits _ _
    · -- all bits but those of the last byte agree
      have hsame : m / 64 = n / 64 := by omega
      have hlast : UInt8.ofNat (m % 64 + 128) < UInt8.ofNat (n % 64 + 128) :=
        byte_lt (by omega) (by omega)
      rw [hsame]
      exact List.append_left_lt (List.cons_lt_cons_iff.mpr (.inl hlast))

/-- **One character decides**, whatever follows it: neither form is the beginning of the other. -/
theorem utf8EncodeChar_append_lt (h : c < d) (as bs : List UInt8) :
    String.utf8EncodeChar c ++ as < String.utf8EncodeChar d ++ bs := by
  have hlt : c.val.toNat < d.val.toNat := UInt32.lt_iff_toNat_lt.mp (Char.lt_def.mp h)
  have hd := toNat_val_lt d
  rw [utf8EncodeChar_eq, utf8EncodeChar_eq, List.cons_append, List.cons_append,
    List.cons_lt_cons_iff]
  rcases leadByte_cases hlt hd with hlead | ⟨hlead, hsize, hbits⟩
  · exact .inl (byte_lt hlead (leadByte_lt hd))
  · rw [hlead, hsize]
    exact .inr ⟨rfl, tailBytes_append_lt hlt hbits as bs⟩

/-! ## Texts -/

theorem utf8_eq (s : String) : utf8 s = s.toList.flatMap String.utf8EncodeChar := by
  rw [utf8, ← String.utf8Encode_toList, List.utf8Encode, List.data_toByteArray]

theorem flatMap_utf8EncodeChar_lt (h : cs < ds) :
    cs.flatMap String.utf8EncodeChar < ds.flatMap String.utf8EncodeChar := by
  induction cs generalizing ds with
  | nil =>
    cases ds with
    | nil => exact absurd h (List.lt_irrefl [])
    | cons d ds =>
      rw [List.flatMap_cons, utf8EncodeChar_eq]
      exact List.nil_lt_cons _ _
  | cons c cs ih =>
    cases ds with
    | nil => exact absurd h (List.not_lt_nil _)
    | cons d ds =>
      rw [List.flatMap_cons, List.flatMap_cons]
      rcases List.cons_lt_cons_iff.mp h with hcd | ⟨rfl, hrest⟩
      · exact utf8EncodeChar_append_lt hcd _ _
      · exact List.append_left_lt (ih hrest)

/-- **The order of the bytes is that of the texts.** -/
theorem utf8_lt_iff : utf8 s < utf8 t ↔ Text.precedes s t = true := by
  have hlt : ∀ {s t : String}, Text.precedes s t = true → utf8 s < utf8 t := by
    intro s t h
    rw [utf8_eq, utf8_eq]
    exact flatMap_utf8EncodeChar_lt (Text.precedes_iff_toList.mp h)
  refine ⟨fun h => ?_, hlt⟩
  cases hst : Text.precedes s t with
  | true => rfl
  | false =>
    cases hts : Text.precedes t s with
    | true => exact absurd h (List.lt_asymm (hlt hts))
    | false =>
      obtain rfl := Text.eq_of_not_precedes hst hts
      exact absurd h (List.lt_irrefl _)

end BpmnModel.Codec
