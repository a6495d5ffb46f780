/-!
# Text literals

Between the quotes of a JSON text some characters are escaped: the quote, the backslash and
the control characters.  Every other character stands for itself.  A reader also takes
escapes that a writer has no need of; a character beyond the basic plane may be written as
two escapes, a high and a low surrogate, and a surrogate without its partner stands for
nothing.

## Main definitions

* `Json.escape cs` — the written form of characters.
* `Json.unescape lit` — what a written form stands for.
* `Json.scanLiteral cs` — cuts a written form off at its closing quote.

## Main statements

* `unescape_escape` — the written form stands for the characters.
* `scanLiteral_escape` — the written form ends where it should.
-/

namespace BpmnModel.Json

/-! ## Writing -/

/-- The escapes of one letter, with what they stand for. -/
def shortEscapes : List (Char × Char) :=
  [('"', '"'), ('\\', '\\'), ('/', '/'), ('b', '\x08'), ('f', '\x0c'), ('n', '\n'),
    ('r', '\r'), ('t', '\t')]

/-- The characters that are written as an escape of one letter, with the letter. -/
def shortForms : List (Char × Char) :=
  [('"', '"'), ('\\', '\\'), ('\x08', 'b'), ('\x0c', 'f'), ('\n', 'n'), ('\r', 'r'),
    ('\t', 't')]

/-- Control characters have no place in a literal. -/
def isControl (c : Char) : Bool :=
  decide (c.toNat < 0x20)

/-- The written form of one character. -/
def escapeChar (c : Char) : List Char :=
  match shortForms.lookup c with
  | some letter => ['\\', letter]
  | none =>
    if isControl c then
      ['\\', 'u', '0', '0', Nat.digitChar (c.toNat / 16), Nat.digitChar (c.toNat % 16)]
    else [c]

/-- The written form of characters. -/
def escape (cs : List Char) : List Char :=
  cs.flatMap escapeChar

/-! ## Reading -/

/-- The value of a hexadecimal digit, in either case. -/
def hexDigit? (c : Char) : Option Nat :=
  if '0'.toNat ≤ c.toNat ∧ c.toNat ≤ '9'.toNat then some (c.toNat - '0'.toNat)
  else if 'a'.toNat ≤ c.toNat ∧ c.toNat ≤ 'f'.toNat then some (c.toNat - 'a'.toNat + 10)
  else if 'A'.toNat ≤ c.toNat ∧ c.toNat ≤ 'F'.toNat then some (c.toNat - 'A'.toNat + 10)
  else none

/-- The number that four hexadecimal digits denote. -/
def unit? (a b c d : Char) : Option Nat := do
  let a ← hexDigit? a
  let b ← hexDigit? b
  let c ← hexDigit? c
  let d ← hexDigit? d
  return ((a * 16 + b) * 16 + c) * 16 + d

/-- A high surrogate begins a pair. -/
def isHigh (n : Nat) : Bool :=
  decide (0xD800 ≤ n) && decide (n ≤ 0xDBFF)

/-- A low surrogate ends a pair. -/
def isLow (n : Nat) : Bool :=
  decide (0xDC00 ≤ n) && decide (n ≤ 0xDFFF)

/-- The character that a pair of surrogates stands for. -/
def joinPair (high low : Nat) : Char :=
  Char.ofNat (0x10000 + (high - 0xD800) * 0x400 + (low - 0xDC00))

/-- The characters that a written form stands for. -/
def unescape : List Char → Option (List Char)
  | [] => some []
  | '\\' :: 'u' :: a :: b :: c :: d :: rest => do
    let n ← unit? a b c d
    if isHigh n then
      match rest with
      | '\\' :: 'u' :: e :: f :: g :: h :: rest => do
        let m ← unit? e f g h
        if isLow m then (unescape rest).map (joinPair n m :: ·) else none
      | _ => none
    else if isLow n then none
    else (unescape rest).map (Char.ofNat n :: ·)
  | '\\' :: letter :: rest => do
    let c ← shortEscapes.lookup letter
    let cs ← unescape rest
    return c :: cs
  | c :: rest =>
    if c = '\\' ∨ c = '"' ∨ isControl c then none else (unescape rest).map (c :: ·)

/-- Cuts a literal off at its closing quote; what follows the quote is left.  Escapes have
to be well formed, also where they stand for nothing. -/
def scanLiteral : List Char → Option (List Char × List Char)
  | [] => none
  | '"' :: rest => some ([], rest)
  | '\\' :: 'u' :: a :: b :: c :: d :: rest => do
    let _ ← unit? a b c d
    let (lit, rest) ← scanLiteral rest
    return ('\\' :: 'u' :: a :: b :: c :: d :: lit, rest)
  | '\\' :: letter :: rest => do
    let _ ← shortEscapes.lookup letter
    let (lit, rest) ← scanLiteral rest
    return ('\\' :: letter :: lit, rest)
  | c :: rest =>
    if c = '\\' ∨ isControl c then none
    else do
      let (lit, rest) ← scanLiteral rest
      return (c :: lit, rest)

/-! ## The written form -/

/-- A character is written as itself, as an escape of one letter, or by its number. -/
theorem escapeChar_cases (c : Char) :
    (∃ letter, escapeChar c = ['\\', letter] ∧ letter ≠ 'u' ∧
      shortEscapes.lookup letter = some c) ∨
    (∃ x y, escapeChar c = ['\\', 'u', '0', '0', x, y] ∧ unit? '0' '0' x y = some c.toNat ∧
      c.toNat < 0x20) ∨
    (escapeChar c = [c] ∧ c ≠ '\\' ∧ c ≠ '"' ∧ isControl c = false) := by
  by_cases hs : c ∈ shortForms.map Prod.fst
  · left
    simp only [shortForms, List.map_cons, List.map_nil, List.mem_cons, List.not_mem_nil,
      or_false] at hs
    rcases hs with rfl | rfl | rfl | rfl | rfl | rfl | rfl <;> exact ⟨_, rfl, by decide, rfl⟩
  · right
    have hnone : shortForms.lookup c = none := by
      rw [List.lookup_eq_none_iff]
      intro p hp
      have : c ≠ p.1 := fun h => hs (h ▸ List.mem_map_of_mem hp)
      simpa using this
    have hne : c ≠ '\\' ∧ c ≠ '"' := by
      constructor <;> rintro rfl <;> exact hs (by decide)
    rw [escapeChar, hnone]
    by_cases hc : isControl c = true
    · left
      have hlt : c.toNat < 0x20 := by simpa [isControl] using hc
      have key : ∀ n < 0x20,
          unit? '0' '0' (Nat.digitChar (n / 16)) (Nat.digitChar (n % 16)) = some n := by decide
      exact ⟨_, _, if_pos hc, key _ hlt, hlt⟩
    · right
      exact ⟨if_neg hc, hne.1, hne.2, by simpa using hc⟩

theorem unescape_escapeChar_append (c : Char) (rest : List Char) :
    unescape (escapeChar c ++ rest) = (unescape rest).map (c :: ·) := by
  rcases escapeChar_cases c with ⟨l, he, hu, hl⟩ | ⟨x, y, he, hn, hlt⟩ | ⟨he, h₁, h₂, h₃⟩
  · rw [he]
    show unescape ('\\' :: l :: rest) = _
    rw [unescape]
    · simp only [hl, Option.bind_eq_bind, Option.bind_some]
      cases unescape rest <;> rfl
    · rintro a b c d rest rfl
      exact absurd rfl hu
  · rw [he]
    show unescape ('\\' :: 'u' :: '0' :: '0' :: x :: y :: rest) = _
    have hh : isHigh c.toNat = false := by simp [isHigh]; omega
    have hl : isLow c.toNat = false := by simp [isLow]; omega
    rw [unescape]
    simp [hn, hh, hl, Char.ofNat_toNat]
  · rw [he]
    show unescape (c :: rest) = _
    rw [unescape]
    · simp [h₁, h₂, h₃]
    · rintro a b d e r rfl
      exact absurd rfl h₁
    · rintro l r rfl
      exact absurd rfl h₁

/-- **The written form stands for the characters.** -/
@[simp] theorem unescape_escape (cs : List Char) : unescape (escape cs) = some cs := by
  induction cs with
  | nil => rfl
  | cons c cs ih =>
    have : escape (c :: cs) = escapeChar c ++ escape cs := by simp [escape]
    rw [this, unescape_escapeChar_append, ih, Option.map_some]

theorem scanLiteral_escapeChar_append (c : Char) (rest : List Char) :
    scanLiteral (escapeChar c ++ rest) =
      (scanLiteral rest).map fun r => (escapeChar c ++ r.1, r.2) := by
  rcases escapeChar_cases c with ⟨l, he, hu, hl⟩ | ⟨x, y, he, hn, hlt⟩ | ⟨he, h₁, h₂, h₃⟩
  · rw [he]
    show scanLiteral ('\\' :: l :: rest) = _
    rw [scanLiteral]
    · simp only [hl, Option.bind_eq_bind, Option.bind_some]
      cases scanLiteral rest <;> rfl
    · rintro a b c d rest rfl
      exact absurd rfl hu
  · rw [he]
    show scanLiteral ('\\' :: 'u' :: '0' :: '0' :: x :: y :: rest) = _
    rw [scanLiteral]
    simp only [hn, Option.bind_eq_bind, Option.bind_some]
    cases scanLiteral rest <;> rfl
  · rw [he]
    show scanLiteral (c :: rest) = _
    rw [scanLiteral]
    · simp only [h₁, h₃, Bool.false_eq_true, or_self, if_false]
      cases scanLiteral rest <;> rfl
    · exact h₂
    · rintro a b d e r rfl
      exact absurd rfl h₁
    · rintro l r rfl
      exact absurd rfl h₁

/-- **The written form ends at its closing quote.** -/
theorem scanLiteral_escape (cs rest : List Char) :
    scanLiteral (escape cs ++ '"' :: rest) = some (escape cs, rest) := by
  induction cs with
  | nil => rfl
  | cons c cs ih =>
    have : escape (c :: cs) = escapeChar c ++ escape cs := by simp [escape]
    rw [this, List.append_assoc, scanLiteral_escapeChar_append, ih, Option.map_some]

end BpmnModel.Json
