/-!
# Numerals

One language of whole numbers serves versions, codes and condition values: an optional
sign, then one or more ASCII digits, leading zeros allowed, nothing else.  The readers
differ in the signs that they take and in the range that they admit; a value outside the
range is refused and never reduced.

## Main definitions

* `Text.digits? cs` — the number that a run of digits denotes.
* `Text.natural? s`, `Text.integer? s` — the number that a numeral denotes.
* `Text.word32? s`, `Text.word64? s`, `Text.int64? s` — the same within a range.

## Main statements

* `digits?_toDigits` and the lemmas named after the readers — the decimal form of a number
  reads back as that number.
-/

namespace BpmnModel.Text

/-! ## Digits -/

/-- The value of a run of decimal digits, the most significant one first. -/
def digitsValue (ds : List Char) : Nat :=
  ds.foldl (fun n d => 10 * n + (d.toNat - '0'.toNat)) 0

/-- The number denoted by one or more ASCII digits. -/
def digits? (ds : List Char) : Option Nat :=
  if !ds.isEmpty && ds.all Char.isDigit then some (digitsValue ds) else none

/-- The decimal form of a number reads back as that number. -/
@[simp] theorem digits?_toDigits (n : Nat) : digits? (Nat.toDigits 10 n) = some n := by
  have h₁ : (Nat.toDigits 10 n).isEmpty = false := by
    simp
  have h₂ : (Nat.toDigits 10 n).all Char.isDigit = true := by
    rw [List.all_eq_true]
    exact fun c hc => Nat.isDigit_of_mem_toDigits (by decide) (by decide) hc
  have h₃ : digitsValue (Nat.toDigits 10 n) = n := by
    have := Nat.ofDigitChars_ten_toDigits (n := n)
    rwa [Nat.ofDigitChars_eq_foldl] at this
  simp [digits?, h₁, h₂, h₃]

/-! ## Signs -/

/-- The number denoted by digits after an optional plus sign; a minus sign is refused, even
before zero. -/
def naturalOfChars? : List Char → Option Nat
  | '+' :: ds => digits? ds
  | ds => digits? ds

/-- The number denoted by digits after an optional sign. -/
def integerOfChars? : List Char → Option Int
  | '-' :: ds => (digits? ds).map fun (n : Nat) => -(n : Int)
  | cs => (naturalOfChars? cs).map Int.ofNat

/-- The number that the whole of `s` denotes, without a minus sign. -/
def natural? (s : String) : Option Nat :=
  naturalOfChars? s.toList

/-- The number that the whole of `s` denotes. -/
def integer? (s : String) : Option Int :=
  integerOfChars? s.toList

/-! ## Ranges -/

/-- The number that `s` denotes, when it fits in 32 bits. -/
def word32? (s : String) : Option UInt32 :=
  (natural? s).bind fun n => if n < UInt32.size then some (UInt32.ofNat n) else none

/-- The number that `s` denotes, when it fits in 64 bits. -/
def word64? (s : String) : Option UInt64 :=
  (natural? s).bind fun n => if n < UInt64.size then some (UInt64.ofNat n) else none

/-- What the numbers that fit in 64 bits with a sign stay below: two to the power 63. -/
abbrev signedLimit : Int := 9223372036854775808

/-- The number that `s` denotes, when it fits in 64 bits with a sign. -/
def int64? (s : String) : Option Int64 :=
  (integer? s).bind fun n =>
    if -signedLimit ≤ n ∧ n < signedLimit then some (Int64.ofInt n) else none

/-! ## Decimal forms read back -/

/-- A number's decimal form carries no sign. -/
theorem naturalOfChars?_toDigits (n : Nat) :
    naturalOfChars? (Nat.toDigits 10 n) = some n := by
  unfold naturalOfChars?
  split
  · rename_i ds h
    have := Nat.isDigit_of_mem_toDigits (b := 10) (n := n) (c := '+') (by decide) (by decide)
      (by rw [h]; simp)
    exact absurd this (by decide)
  · simp

@[simp] theorem natural?_repr (n : Nat) : natural? n.repr = some n := by
  simp [natural?, naturalOfChars?_toDigits]

@[simp] theorem word32?_repr (w : UInt32) : word32? w.toNat.repr = some w := by
  simp [word32?, w.toNat_lt_size]

@[simp] theorem word64?_repr (w : UInt64) : word64? w.toNat.repr = some w := by
  simp [word64?, w.toNat_lt_size]

/-- The signed reader takes every decimal form, negative ones too. -/
@[simp] theorem integer?_repr (n : Int) : integer? n.repr = some n := by
  have key : ∀ m : Nat, integerOfChars? (Nat.toDigits 10 m) = some (m : Int) := by
    intro m
    unfold integerOfChars?
    split
    · rename_i ds h
      have := Nat.isDigit_of_mem_toDigits (b := 10) (n := m) (c := '-') (by decide)
        (by decide) (by rw [h]; simp)
      exact absurd this (by decide)
    · simp [naturalOfChars?_toDigits]
  rw [Int.repr_eq_if, integer?]
  split
  · rw [Nat.toList_repr, key]
    exact congrArg some (Int.toNat_of_nonneg ‹_›)
  · rw [String.toList_append, Nat.toList_repr]
    have : (("-" : String).toList ++ Nat.toDigits 10 (-n).toNat)
        = '-' :: Nat.toDigits 10 (-n).toNat := rfl
    rw [this, integerOfChars?, digits?_toDigits, Option.map_some]
    show some (-((-n).toNat : Int)) = some n
    exact congrArg some (by omega)

@[simp] theorem int64?_repr (n : Int64) : int64? n.toInt.repr = some n := by
  have h₁ := n.le_toInt
  have h₂ := n.toInt_lt
  rw [int64?, integer?_repr, Option.bind_some, if_pos ⟨h₁, h₂⟩, Int64.ofInt_toInt]

end BpmnModel.Text
