import BpmnModel.Codec.Member

/-!
# Readers that look no further than they have to

A reader decides on the bytes that it takes and leaves the others alone: when it finds a value
at the front of some bytes, it finds the same value after more bytes have come in.  Together
with the round trip this makes the written forms self-delimiting.  A value that was cut off
anywhere could otherwise be read from the beginning that is left of it, and so from the whole
form too, where it would leave something over.

## Main definitions

* `Codec.Extends c` — what the reader of `c` finds does not change when bytes are added.

## Main statements

* `Codec.decode_of_cut` — no beginning of a written form reads as a value.
* `extends_pair`, `extends_list` and the other lemmas of that name — the codecs that are made
  of such codecs are such codecs.
-/

namespace BpmnModel.Codec

variable {α β : Type}

/-- What is read at the front of some bytes is also read when more bytes follow. -/
def Extends (c : Codec α) : Prop :=
  ∀ bytes a rest more, c.decode bytes = some (a, rest) →
    c.decode (bytes ++ more) = some (a, rest ++ more)

/-- **No beginning of a written form reads as a value.** -/
theorem decode_of_cut {c : Codec α} (hc : c.Extends) {a : α} (ha : c.ReadsBack a)
    {front rest : List UInt8} (hcut : front ++ rest = c.encode a) (hrest : rest ≠ []) :
    c.decode front = none := by
  cases h : c.decode front with
  | none => rfl
  | some found =>
    obtain ⟨b, left⟩ := found
    have hwhole : c.decode (c.encode a) = some (b, left ++ rest) := by
      rw [← hcut]
      exact hc front b left rest h
    have hback : c.decode (c.encode a) = some (a, []) := by
      simpa using ha []
    have hleft : left ++ rest = [] := by
      rw [hwhole] at hback
      simpa using congrArg Prod.snd (Option.some.inj hback)
    exact absurd (List.append_eq_nil_iff.mp hleft).2 hrest

/-! ## From codecs to codecs -/

theorem extends_pair {a : Codec α} {b : Codec β} (ha : a.Extends) (hb : b.Extends) :
    (a.pair b).Extends := by
  intro bytes v rest more h
  simp only [pair, Option.bind_eq_bind, Option.bind_eq_some_iff] at h ⊢
  obtain ⟨⟨x, mid⟩, hx, ⟨y, last⟩, hy, hv⟩ := h
  obtain ⟨rfl, rfl⟩ : (x, y) = v ∧ last = rest := by simpa using hv
  exact ⟨(x, mid ++ more), ha _ _ _ _ hx, (y, last ++ more), hb _ _ _ _ hy, rfl⟩

theorem extends_filterMap {c : Codec α} (hc : c.Extends) (make : α → Option β)
    (view : β → α) : (c.filterMap make view).Extends := by
  intro bytes v rest more h
  simp only [filterMap, Option.bind_eq_bind, Option.bind_eq_some_iff] at h ⊢
  obtain ⟨⟨x, mid⟩, hx, y, hy, hv⟩ := h
  obtain ⟨rfl, rfl⟩ : y = v ∧ mid = rest := by simpa using hv
  exact ⟨(x, mid ++ more), hc _ _ _ _ hx, y, hy, rfl⟩

theorem extends_map {c : Codec α} (hc : c.Extends) (make : α → β) (view : β → α) :
    (c.map make view).Extends :=
  extends_filterMap hc _ _

/-! ## Numbers -/

theorem extends_byte : byte.Extends := by
  intro bytes b rest more h
  cases bytes with
  | nil => simp [byte] at h
  | cons c bytes =>
    obtain ⟨rfl, rfl⟩ : c = b ∧ bytes = rest := by simpa [byte] using h
    rfl

theorem readLittleEndian_append {width n : Nat} {bytes rest : List UInt8} (more : List UInt8)
    (h : readLittleEndian width bytes = some (n, rest)) :
    readLittleEndian width (bytes ++ more) = some (n, rest ++ more) := by
  induction width generalizing bytes n with
  | zero =>
    obtain ⟨rfl, rfl⟩ : 0 = n ∧ bytes = rest := by simpa [readLittleEndian] using h
    rfl
  | succ width ih =>
    cases bytes with
    | nil => simp [readLittleEndian] at h
    | cons b bytes =>
      simp only [readLittleEndian, List.cons_append, Option.bind_eq_bind,
        Option.bind_eq_some_iff] at h ⊢
      obtain ⟨⟨high, last⟩, hhigh, hn⟩ := h
      obtain ⟨rfl, rfl⟩ : b.toNat + 256 * high = n ∧ last = rest := by simpa using hn
      exact ⟨(high, last ++ more), ih hhigh, rfl⟩

theorem extends_word (width : Nat) : (word width).Extends := by
  intro bytes n rest more h
  cases bytes with
  | nil => simp [word, decodeWord] at h
  | cons b bytes =>
    simp only [word, decodeWord, List.cons_append] at h ⊢
    by_cases hb : b.toNat < 251
    · rw [if_pos hb] at h ⊢
      obtain ⟨rfl, rfl⟩ : b.toNat = n ∧ bytes = rest := by simpa using h
      rfl
    · rw [if_neg hb] at h ⊢
      simp only [Option.bind_eq_bind, Option.bind_eq_some_iff] at h ⊢
      obtain ⟨w, hw, hn⟩ := h
      refine ⟨w, hw, ?_⟩
      by_cases hle : w ≤ width
      · rw [if_pos hle] at hn ⊢
        exact readLittleEndian_append more hn
      · simp [hle] at hn

theorem extends_word32 : word32.Extends :=
  extends_map (extends_word 4) _ _

theorem extends_word64 : word64.Extends :=
  extends_map (extends_word 8) _ _

theorem extends_int64 : int64.Extends :=
  extends_map (extends_word 8) _ _

/-! ## Texts, lists and options -/

theorem extends_bool : bool.Extends :=
  extends_filterMap extends_byte _ _

/-- What follows a count is read by a reader that depends on it. -/
theorem extends_counted {read : Nat → List UInt8 → Option (α × List UInt8)}
    {encode : α → List UInt8} {size : α → Nat}
    (h : ∀ n bytes a rest more, read n bytes = some (a, rest) →
      read n (bytes ++ more) = some (a, rest ++ more)) :
    (counted read encode size).Extends := by
  intro bytes a rest more ha
  simp only [counted, Option.bind_eq_bind, Option.bind_eq_some_iff] at ha ⊢
  obtain ⟨⟨n, mid⟩, hn, ha⟩ := ha
  exact ⟨(n, mid ++ more), extends_word 8 _ _ _ _ hn, h _ _ _ _ _ ha⟩

theorem splitBytes_append_right {n : Nat} {bytes front rest : List UInt8} (more : List UInt8)
    (h : splitBytes n bytes = some (front, rest)) :
    splitBytes n (bytes ++ more) = some (front, rest ++ more) := by
  induction n generalizing bytes front with
  | zero =>
    obtain ⟨rfl, rfl⟩ : [] = front ∧ bytes = rest := by simpa [splitBytes] using h
    rfl
  | succ n ih =>
    cases bytes with
    | nil => simp [splitBytes] at h
    | cons b bytes =>
      simp only [splitBytes, List.cons_append, Option.bind_eq_bind,
        Option.bind_eq_some_iff] at h ⊢
      obtain ⟨⟨tail, last⟩, htail, hf⟩ := h
      obtain ⟨rfl, rfl⟩ : b :: tail = front ∧ last = rest := by simpa using hf
      exact ⟨(tail, last ++ more), ih htail, rfl⟩

theorem extends_string : string.Extends :=
  extends_filterMap (extends_counted fun _ _ _ _ more h => splitBytes_append_right more h) _ _

theorem decodeItems_append {c : Codec α} (hc : c.Extends) {n : Nat} {bytes rest : List UInt8}
    {as : List α} (more : List UInt8) (h : decodeItems c n bytes = some (as, rest)) :
    decodeItems c n (bytes ++ more) = some (as, rest ++ more) := by
  induction n generalizing bytes as with
  | zero =>
    obtain ⟨rfl, rfl⟩ : [] = as ∧ bytes = rest := by simpa [decodeItems] using h
    rfl
  | succ n ih =>
    simp only [decodeItems, Option.bind_eq_bind, Option.bind_eq_some_iff] at h ⊢
    obtain ⟨⟨a, mid⟩, ha, ⟨tail, last⟩, htail, has⟩ := h
    obtain ⟨rfl, rfl⟩ : a :: tail = as ∧ last = rest := by simpa using has
    exact ⟨(a, mid ++ more), hc _ _ _ _ ha, (tail, last ++ more), ih htail, rfl⟩

theorem extends_list {c : Codec α} (hc : c.Extends) : (list c).Extends :=
  extends_counted fun _ _ _ _ more h => decodeItems_append hc more h

theorem extends_option {c : Codec α} (hc : c.Extends) : (option c).Extends := by
  intro bytes v rest more h
  cases bytes with
  | nil => simp [option] at h
  | cons tag bytes =>
    simp only [option, List.cons_append] at h ⊢
    by_cases h₀ : tag = 0
    · rw [if_pos h₀] at h ⊢
      obtain ⟨rfl, rfl⟩ : none = v ∧ bytes = rest := by simpa using h
      rfl
    · rw [if_neg h₀] at h ⊢
      by_cases h₁ : tag = 1
      · rw [if_pos h₁] at h ⊢
        obtain ⟨⟨a, mid⟩, ha, hv⟩ := Option.map_eq_some_iff.mp h
        obtain ⟨rfl, rfl⟩ : some a = v ∧ mid = rest := by simpa using hv
        exact Option.map_eq_some_iff.mpr ⟨(a, mid ++ more), hc _ _ _ _ ha, rfl⟩
      · simp [h₁] at h

/-! ## Members and tables -/

theorem extends_member [DecidableEq α] [Closed α] : (member : Codec α).Extends :=
  extends_filterMap (extends_word 4) _ _

theorem extends_table {c : Codec α} (hc : c.Extends) : (table c).Extends :=
  extends_map (extends_list (extends_pair extends_string hc)) _ _

end BpmnModel.Codec
