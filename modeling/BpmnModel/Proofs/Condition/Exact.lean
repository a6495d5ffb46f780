import BpmnModel.Proofs.Model.Denotes
import BpmnModel.Proofs.Text.Numeral

/-!
# Numbers and keywords are read exactly

A value and a code may stand between blanks.  What is left when these are taken away has to be a
numeral or a keyword as a whole, and a number has to lie in the range of its type: at either end of
a range, and however long the text is, a number is read as itself or not at all.

## Main definitions

* `ConditionValue.ExactlyRead raw` — what a text is read as under each type, and as which code.

## Main statements

* `ConditionValue.exactlyRead_and_repr` — all texts are read exactly, and decimal forms as their
  numbers.
-/

namespace BpmnModel

/-! ## Numbers within a range -/

namespace Text

variable {s : String}

/-- **A text is a number of 64 bits with a sign** when it writes one that lies in the range. -/
theorem exists_int64?_iff {n : Int} : (∃ w, int64? s = some w ∧ w.toInt = n) ↔
    Signed s.toList n ∧ -signedLimit ≤ n ∧ n < signedLimit := by
  simp only [int64?_eq_some_iff, integer?, integerOfChars?_eq_some_iff]
  constructor
  · rintro ⟨w, hw, rfl⟩
    exact ⟨hw, w.le_toInt, w.toInt_lt⟩
  · rintro ⟨hn, hle, hlt⟩
    have hw : (Int64.ofInt n).toInt = n := Int64.toInt_ofInt_of_le hle hlt
    exact ⟨Int64.ofInt n, hw.symm ▸ hn, hw⟩

/-- **A text is a number of 64 bits without a sign** when it writes one that lies in the range. -/
theorem exists_word64?_iff {n : Nat} : (∃ w, word64? s = some w ∧ w.toNat = n) ↔
    Unsigned s.toList n ∧ n < UInt64.size := by
  simp only [word64?_eq_some_iff, natural?, naturalOfChars?_eq_some_iff]
  constructor
  · rintro ⟨w, hw, rfl⟩
    exact ⟨hw, w.toNat_lt_size⟩
  · rintro ⟨hn, hlt⟩
    have hw : (UInt64.ofNat n).toNat = n := UInt64.toNat_ofNat_of_lt' hlt
    exact ⟨UInt64.ofNat n, hw.symm ▸ hn, hw⟩

/-! ## Decimal forms stand without blanks -/

/-- The decimal form of a number is written without blanks. -/
theorem trim_repr_int (n : Int) : trim n.repr = n.repr := by
  have hsigned : Signed n.repr.toList n := integerOfChars?_eq_some_iff.mp (integer?_repr n)
  rw [trim, trimBlanks_of_forall hsigned.isBlank, String.ofList_toList]

theorem trim_repr_nat (n : Nat) : trim n.repr = n.repr := by
  have hunsigned : Unsigned n.repr.toList n := naturalOfChars?_eq_some_iff.mp (natural?_repr n)
  rw [trim, trimBlanks_of_forall hunsigned.isBlank, String.ofList_toList]

end Text

/-! ## Values -/

namespace ConditionValue

variable {raw : String}

theorem ofText_int256_eq_ok_iff {w : Int64} :
    ofText raw .int256 = .ok (.int w) ↔ Text.int64? (Text.trim raw) = some w := by
  rw [ofText]
  cases Text.int64? (Text.trim raw) <;> simp

theorem ofText_uint256_eq_ok_iff {w : UInt64} :
    ofText raw .uint256 = .ok (.uint w) ↔ Text.word64? (Text.trim raw) = some w := by
  rw [ofText]
  cases Text.word64? (Text.trim raw) <;> simp

theorem ofText_bool_eq_ok_iff {b : Bool} :
    ofText raw .bool = .ok (.bool b) ↔ keyword? (Text.trim raw) = some b := by
  rw [ofText]
  cases keyword? (Text.trim raw) <;> simp

/-- A text is refused as a number when it is read as none. -/
theorem ofText_int256_eq_error_iff : ofText raw .int256 = .error (.notInteger raw) ↔
    ¬∃ n, ∃ w : Int64, ofText raw .int256 = .ok (.int w) ∧ w.toInt = n := by
  rw [ofText]
  cases Text.int64? (Text.trim raw) <;> simp

theorem ofText_uint256_eq_error_iff : ofText raw .uint256 = .error (.notUnsigned raw) ↔
    ¬∃ n, ∃ w : UInt64, ofText raw .uint256 = .ok (.uint w) ∧ w.toNat = n := by
  rw [ofText]
  cases Text.word64? (Text.trim raw) <;> simp

theorem ofText_bool_eq_error_iff : ofText raw .bool = .error (.notBoolean raw) ↔
    ¬∃ b, ofText raw .bool = .ok (.bool b) := by
  rw [ofText]
  cases keyword? (Text.trim raw) <;> simp

/-- Both keywords are words of lower-case letters. -/
theorem keyword?_eq_some_iff_spelledAs {s : String} {b : Bool} :
    keyword? s = some b ↔ Text.SpelledAs (if b then "true" else "false") s.toList := by
  rw [keyword?_eq_some_iff]
  exact Text.sameLetters_iff (by cases b <;> simp)

/-- What a text is read as.  Between its outer blanks stands a numeral or a keyword, and nothing
else; a number is read as itself where it lies in the range of the type, and is refused where it
does not; the other types take the text as it is.  Codes are read like numbers with a sign, whatever
the set is. -/
structure ExactlyRead (raw : String) : Prop where
  int : ∀ n : Int, (∃ w : Int64, ofText raw .int256 = .ok (.int w) ∧ w.toInt = n) ↔
    Text.Signed (Text.trimBlanks raw.toList) n ∧ -Text.signedLimit ≤ n ∧ n < Text.signedLimit
  notInt : ofText raw .int256 = .error (.notInteger raw) ↔
    ∀ n, Text.Signed (Text.trimBlanks raw.toList) n → n < -Text.signedLimit ∨ Text.signedLimit ≤ n
  uint : ∀ n : Nat, (∃ w : UInt64, ofText raw .uint256 = .ok (.uint w) ∧ w.toNat = n) ↔
    Text.Unsigned (Text.trimBlanks raw.toList) n ∧ n < UInt64.size
  notUint : ofText raw .uint256 = .error (.notUnsigned raw) ↔
    ∀ n, Text.Unsigned (Text.trimBlanks raw.toList) n → UInt64.size ≤ n
  bool : ∀ b, ofText raw .bool = .ok (.bool b) ↔
    Text.SpelledAs (if b then "true" else "false") (Text.trimBlanks raw.toList)
  notBool : ofText raw .bool = .error (.notBoolean raw) ↔
    ¬Text.SpelledAs "true" (Text.trimBlanks raw.toList) ∧
      ¬Text.SpelledAs "false" (Text.trimBlanks raw.toList)
  text : ∀ type, type ∉ [DataType.int256, .uint256, .bool] → ofText raw type = .ok (.text raw)
  code : ∀ {α : Type} [DecidableEq α] [Coded α] (a : α), Coded.parseCode? raw = some a ↔
    ∃ w : Int64, ofText raw .int256 = .ok (.int w) ∧ w.toInt = Coded.code a
  shared : ∀ {α β : Type} [DecidableEq α] [Coded α] [DecidableEq β] [Coded β] (a : α) (b : β),
    Coded.code a = Coded.code b → (Coded.parseCode? raw = some a ↔ Coded.parseCode? raw = some b)

theorem exists_ofText_int256_iff {n : Int} :
    (∃ w : Int64, ofText raw .int256 = .ok (.int w) ∧ w.toInt = n) ↔
      Text.Signed (Text.trimBlanks raw.toList) n ∧
        -Text.signedLimit ≤ n ∧ n < Text.signedLimit := by
  simp only [ofText_int256_eq_ok_iff, Text.exists_int64?_iff, Text.toList_trim]

theorem exists_ofText_uint256_iff {n : Nat} :
    (∃ w : UInt64, ofText raw .uint256 = .ok (.uint w) ∧ w.toNat = n) ↔
      Text.Unsigned (Text.trimBlanks raw.toList) n ∧ n < UInt64.size := by
  simp only [ofText_uint256_eq_ok_iff, Text.exists_word64?_iff, Text.toList_trim]

theorem parseCode?_eq_some_iff_ofText {α : Type} [DecidableEq α] [Coded α] {a : α} :
    Coded.parseCode? raw = some a ↔
      ∃ w : Int64, ofText raw .int256 = .ok (.int w) ∧ w.toInt = Coded.code a := by
  simp only [Coded.parseCode?, Option.bind_eq_some_iff, Coded.ofCode?_eq_some_iff,
    ofText_int256_eq_ok_iff]
  exact exists_congr fun w => and_congr_right fun _ => eq_comm

theorem exactlyRead (raw : String) : ExactlyRead raw where
  int _ := exists_ofText_int256_iff
  notInt := by
    rw [ofText_int256_eq_error_iff, not_exists]
    refine forall_congr' fun n => ?_
    rw [exists_ofText_int256_iff]
    constructor
    · intro h hn
      by_contra hrange
      exact h ⟨hn, by omega⟩
    · rintro h ⟨hn, hrange⟩
      have := h hn
      omega
  uint _ := exists_ofText_uint256_iff
  notUint := by
    rw [ofText_uint256_eq_error_iff, not_exists]
    refine forall_congr' fun n => ?_
    rw [exists_ofText_uint256_iff, not_and, Nat.not_lt]
  bool b := by
    rw [ofText_bool_eq_ok_iff, keyword?_eq_some_iff_spelledAs, Text.toList_trim]
  notBool := by
    simp only [ofText_bool_eq_error_iff, ofText_bool_eq_ok_iff, keyword?_eq_some_iff_spelledAs,
      Text.toList_trim, Bool.exists_bool, not_or]
    exact and_comm
  text type htype := by
    cases type with
    | int256 => simp at htype
    | uint256 => simp at htype
    | bool => simp at htype
    | string => rfl
    | address => rfl
    | bytes32 => rfl
  code _ := parseCode?_eq_some_iff_ofText
  shared a b hcode := by
    rw [parseCode?_eq_some_iff_ofText, parseCode?_eq_some_iff_ofText, hcode]

/-- **Numbers, keywords and codes are read exactly**, and the decimal form of a number as that
number. -/
theorem exactlyRead_and_repr : (∀ raw, ExactlyRead raw) ∧
    (∀ w : Int64, ofText w.toInt.repr .int256 = .ok (.int w)) ∧
      ∀ w : UInt64, ofText w.toNat.repr .uint256 = .ok (.uint w) := by
  refine ⟨exactlyRead, fun w => ?_, fun w => ?_⟩
  · rw [ofText_int256_eq_ok_iff, Text.trim_repr_int, Text.int64?_repr]
  · rw [ofText_uint256_eq_ok_iff, Text.trim_repr_nat, Text.word64?_repr]

end ConditionValue

end BpmnModel
