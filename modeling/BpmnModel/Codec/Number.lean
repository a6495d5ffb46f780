import BpmnModel.Codec.Basic

/-!
# Numbers as bytes

Whole numbers take one byte below 251; larger ones take a marker and two, four or eight
bytes, the least significant one first.  A writer chooses the shortest form; a reader takes
any marker whose width the type admits, also where a shorter form would do.

## Main definitions

* `Codec.word width` — the numbers of a type that is `width` bytes wide.
* `Codec.word32`, `Codec.word64`, `Codec.int64` — the same for the fixed-width types.

## Main statements

* `readsBack_word` — a number that fits its type reads back.
-/

namespace BpmnModel.Codec

/-- One byte. -/
def byte : Codec UInt8 where
  encode b := [b]
  decode
    | [] => none
    | b :: rest => some (b, rest)

/-- A number in the given count of bytes, the least significant one first. -/
def littleEndian : Nat → Nat → List UInt8
  | 0, _ => []
  | width + 1, n => UInt8.ofNat n :: littleEndian width (n / 256)

/-- Reads a number from the given count of bytes. -/
def readLittleEndian : Nat → List UInt8 → Option (Nat × List UInt8)
  | 0, bytes => some (0, bytes)
  | _ + 1, [] => none
  | width + 1, b :: bytes => do
    let (high, rest) ← readLittleEndian width bytes
    return (b.toNat + 256 * high, rest)

/-- How many numbers the given count of bytes tells apart. -/
def capacity : Nat → Nat
  | 0 => 1
  | width + 1 => 256 * capacity width

/-- The shortest form of a number of at most 64 bits. -/
def encodeWord (n : Nat) : List UInt8 :=
  if n < 251 then [UInt8.ofNat n]
  else if n < UInt16.size then 251 :: littleEndian 2 n
  else if n < UInt32.size then 252 :: littleEndian 4 n
  else 253 :: littleEndian 8 n

/-- The number of bytes that follow a marker. -/
def markerWidth (marker : UInt8) : Option Nat :=
  if marker = 251 then some 2
  else if marker = 252 then some 4
  else if marker = 253 then some 8
  else none

/-- Reads a number whose type is `width` bytes wide. -/
def decodeWord (width : Nat) : List UInt8 → Option (Nat × List UInt8)
  | [] => none
  | b :: rest =>
    if b.toNat < 251 then some (b.toNat, rest)
    else do
      let w ← markerWidth b
      if w ≤ width then readLittleEndian w rest else none

/-- A number of a type that is `width` bytes wide. -/
def word (width : Nat) : Codec Nat where
  encode := encodeWord
  decode := decodeWord width

/-- A number of 32 bits. -/
def word32 : Codec UInt32 :=
  (word 4).map UInt32.ofNat UInt32.toNat

/-- A number of 64 bits. -/
def word64 : Codec UInt64 :=
  (word 8).map UInt64.ofNat UInt64.toNat

/-- Signed numbers folded onto the unsigned ones: 0, -1, 1, -2 and so on. -/
def zigzag (n : Int) : Nat :=
  if 0 ≤ n then (2 * n).toNat else (-2 * n - 1).toNat

/-- The signed number that was folded onto `n`. -/
def unzigzag (n : Nat) : Int :=
  if n % 2 = 0 then (n / 2 : Nat) else -((n / 2 : Nat) : Int) - 1

/-- A signed number of 64 bits. -/
def int64 : Codec Int64 :=
  (word 8).map (fun n => Int64.ofInt (unzigzag n)) fun n => zigzag n.toInt

/-! ### Numbers read back -/

theorem readLittleEndian_littleEndian (width n : Nat) (h : n < capacity width)
    (rest : List UInt8) :
    readLittleEndian width (littleEndian width n ++ rest) = some (n, rest) := by
  induction width generalizing n with
  | zero =>
    have : n = 0 := Nat.lt_one_iff.mp h
    subst this
    rfl
  | succ width ih =>
    have hhigh : n / 256 < capacity width := Nat.div_lt_of_lt_mul h
    simp only [littleEndian, List.cons_append, readLittleEndian, ih _ hhigh]
    show some (n % 256 + 256 * (n / 256), rest) = some (n, rest)
    rw [Nat.mod_add_div]

/-- **A number that fits its type reads back.** -/
theorem readsBack_word {width n : Nat}
    (hw : width = 4 ∧ n < UInt32.size ∨ width = 8 ∧ n < UInt64.size) :
    (word width).ReadsBack n := by
  intro rest
  have hmarker : ∀ (m : UInt8) (w : Nat), m.toNat ≥ 251 → markerWidth m = some w →
      w ≤ width → n < capacity w →
      decodeWord width (m :: (littleEndian w n ++ rest)) = some (n, rest) := by
    intro m w hm hmw hle hn
    have : ¬ m.toNat < 251 := by omega
    simp [decodeWord, this, hmw, hle, readLittleEndian_littleEndian w n hn]
  show decodeWord width (encodeWord n ++ rest) = some (n, rest)
  unfold encodeWord
  split
  · rename_i h
    have : (UInt8.ofNat n).toNat = n := by
      simp only [UInt8.toNat_ofNat']
      omega
    simp [decodeWord, this, h]
  · split
    · rename_i h
      exact hmarker 251 2 (by decide) (by decide) (by omega) h
    · split
      · rename_i h
        exact hmarker 252 4 (by decide) (by decide) (by omega) h
      · exact hmarker 253 8 (by decide) (by decide) (by omega)
          (by
            rcases hw with ⟨-, h⟩ | ⟨-, h⟩
            · exact absurd h ‹_›
            · exact h)

theorem readsBack_word32 (n : UInt32) : word32.ReadsBack n :=
  readsBack_map (readsBack_word (.inl ⟨rfl, n.toNat_lt_size⟩)) (by simp)

theorem readsBack_word64 (n : UInt64) : word64.ReadsBack n :=
  readsBack_map (readsBack_word (.inr ⟨rfl, n.toNat_lt_size⟩)) (by simp)

@[simp] theorem unzigzag_zigzag (n : Int) : unzigzag (zigzag n) = n := by
  unfold unzigzag zigzag
  split <;> split <;> omega

theorem readsBack_int64 (n : Int64) : int64.ReadsBack n := by
  have h₁ := n.le_toInt
  have h₂ := n.toInt_lt
  refine readsBack_map (readsBack_word (.inr ⟨rfl, ?_⟩)) (by simp)
  unfold zigzag
  simp only [UInt64.size]
  split <;> omega

end BpmnModel.Codec
