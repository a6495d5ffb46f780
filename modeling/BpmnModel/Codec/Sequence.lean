import BpmnModel.Codec.Number

/-!
# Texts and lists as bytes

What has no fixed size is written after its length.  An optional value is written after a
byte that tells whether it is there.

## Main definitions

* `Codec.bool`, `Codec.string` — the codecs of truth values and texts.
* `Codec.list`, `Codec.option` — codecs from codecs.

## Main statements

* `readsBack_bool`, `readsBack_string`, `readsBack_list`, `readsBack_option`.
-/

namespace BpmnModel.Codec

variable {α : Type}

/-! ## Truth values and texts -/

/-- A truth value is the byte zero or one. -/
def bool : Codec Bool :=
  byte.filterMap
    (fun b => if b = 0 then some false else if b = 1 then some true else none)
    fun v => if v then 1 else 0

theorem readsBack_bool (b : Bool) : bool.ReadsBack b := by
  intro rest
  cases b <;> rfl

/-- The UTF-8 form of a text. -/
def utf8 (s : String) : List UInt8 :=
  s.toByteArray.data.toList

/-- The text with the given UTF-8 form. -/
def ofUtf8? (bytes : List UInt8) : Option String :=
  String.fromUTF8? ⟨bytes.toArray⟩

/-- The first `n` bytes and what follows them. -/
def splitBytes : Nat → List UInt8 → Option (List UInt8 × List UInt8)
  | 0, bytes => some ([], bytes)
  | _ + 1, [] => none
  | n + 1, b :: bytes => do
    let (front, rest) ← splitBytes n bytes
    return (b :: front, rest)

/-- The number of items, then the items. -/
def counted (c : Nat → List UInt8 → Option (α × List UInt8)) (encode : α → List UInt8)
    (size : α → Nat) : Codec α where
  encode v := encodeWord (size v) ++ encode v
  decode bytes := do
    let (n, rest) ← decodeWord 8 bytes
    c n rest

/-- A run of bytes after its length. -/
def bytes : Codec (List UInt8) :=
  counted splitBytes id List.length

/-- The UTF-8 form of a text after its length. -/
def string : Codec String :=
  bytes.filterMap ofUtf8? utf8

@[simp] theorem ofUtf8?_utf8 (s : String) : ofUtf8? (utf8 s) = some s := by
  have h : (⟨(utf8 s).toArray⟩ : ByteArray) = s.toByteArray := by
    simp [utf8]
  rw [ofUtf8?, h, String.fromUTF8?]
  simp [String.fromUTF8, s.isValidUTF8]

theorem splitBytes_append (front rest : List UInt8) :
    splitBytes front.length (front ++ rest) = some (front, rest) := by
  induction front with
  | nil => rfl
  | cons b front ih => simp [splitBytes, ih]

theorem readsBack_bytes {bs : List UInt8} (h : bs.length < UInt64.size) : bytes.ReadsBack bs := by
  intro rest
  have hw := readsBack_word (n := bs.length) (.inr ⟨rfl, h⟩) (bs ++ rest)
  have hw' : decodeWord 8 (encodeWord bs.length ++ (bs ++ rest)) = some (bs.length, bs ++ rest) :=
    hw
  simp [bytes, counted, hw', splitBytes_append]

theorem readsBack_string {s : String} (h : (utf8 s).length < UInt64.size) : string.ReadsBack s :=
  readsBack_filterMap (readsBack_bytes h) (by simp)

/-! ## Lists and options -/

/-- Reads a number of items. -/
def decodeItems (c : Codec α) : Nat → List UInt8 → Option (List α × List UInt8)
  | 0, bytes => some ([], bytes)
  | n + 1, bytes => do
    let (a, rest) ← c.decode bytes
    let (as, rest) ← decodeItems c n rest
    return (a :: as, rest)

/-- A list after its length. -/
def list (c : Codec α) : Codec (List α) :=
  counted (decodeItems c) (List.flatMap c.encode) List.length

/-- An optional value: the byte zero, or the byte one and the value. -/
def option (c : Codec α) : Codec (Option α) where
  encode
    | none => [0]
    | some a => 1 :: c.encode a
  decode
    | [] => none
    | tag :: rest =>
      if tag = 0 then some (none, rest)
      else if tag = 1 then (c.decode rest).map fun r => (some r.1, r.2)
      else none

theorem decodeItems_flatMap {c : Codec α} {as : List α} (h : ∀ a ∈ as, c.ReadsBack a)
    (rest : List UInt8) :
    decodeItems c as.length (as.flatMap c.encode ++ rest) = some (as, rest) := by
  induction as with
  | nil => rfl
  | cons a as ih =>
    have ha := h a (by simp)
    have has := ih fun b hb => h b (List.mem_cons_of_mem _ hb)
    simp [decodeItems, ha _, has]

theorem readsBack_list {c : Codec α} {as : List α} (hc : ∀ a ∈ as, c.ReadsBack a)
    (h : as.length < UInt64.size) : (list c).ReadsBack as := by
  intro rest
  have hw : decodeWord 8 (encodeWord as.length ++ (as.flatMap c.encode ++ rest)) =
      some (as.length, as.flatMap c.encode ++ rest) :=
    readsBack_word (n := as.length) (.inr ⟨rfl, h⟩) _
  simp [list, counted, hw, decodeItems_flatMap hc]

theorem readsBack_option {c : Codec α} {v : Option α} (h : ∀ a, v = some a → c.ReadsBack a) :
    (option c).ReadsBack v := by
  intro rest
  cases v with
  | none => rfl
  | some a => simp [option, h a rfl _]

end BpmnModel.Codec
