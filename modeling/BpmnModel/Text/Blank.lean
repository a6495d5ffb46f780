/-!
# Blank characters and trimming

Texts of a document are compared and read with their outer blanks removed.  A blank is a
character with the Unicode property White_Space, so the no-break spaces and the
ideographic space count, while the zero-width characters do not.  Inside markup only four
of them separate anything, and these form a class of their own.

## Main definitions

* `Text.isBlank c` — the Unicode property White_Space.
* `Text.isSpace c` — the four characters that separate the parts of markup.
* `Text.trim s` — `s` without the blanks at its two ends.
-/

namespace BpmnModel.Text

/-! ## Classes -/

/-- The code points with the Unicode property White_Space, as closed ranges. -/
def blankRanges : List (Nat × Nat) :=
  [(0x9, 0xD), (0x20, 0x20), (0x85, 0x85), (0xA0, 0xA0), (0x1680, 0x1680),
    (0x2000, 0x200A), (0x2028, 0x2029), (0x202F, 0x202F), (0x205F, 0x205F),
    (0x3000, 0x3000)]

/-- A character with the Unicode property White_Space. -/
def isBlank (c : Char) : Bool :=
  blankRanges.any fun r => decide (r.1 ≤ c.toNat) && decide (c.toNat ≤ r.2)

/-- The separators of markup: space, tab, carriage return and line feed. -/
def isSpace (c : Char) : Bool :=
  c == ' ' || c == '\t' || c == '\r' || c == '\n'

/-- There are twenty-five blanks. -/
example : (blankRanges.map fun r => r.2 + 1 - r.1).sum = 25 := by decide

/-- Every separator of markup is a blank. -/
theorem isBlank_of_isSpace {c : Char} (h : isSpace c = true) : isBlank c = true := by
  simp only [isSpace, Bool.or_eq_true, beq_iff_eq] at h
  rcases h with ((rfl | rfl) | rfl) | rfl <;> decide

/-- No digit is a blank. -/
theorem isBlank_of_isDigit {c : Char} (h : c.isDigit = true) : isBlank c = false := by
  have h' : 48 ≤ c.toNat ∧ c.toNat ≤ 57 := by
    simpa [Char.isDigit, UInt32.le_iff_toNat_le] using h
  simp [isBlank, blankRanges]
  omega

/-! ## Cutting the ends

The two cuts are stated for any class of characters, since markup cuts separators and the
texts that it carries are cut of all blanks. -/

/-- The characters from the first one outside the class on. -/
def trimStart (p : Char → Bool) (cs : List Char) : List Char :=
  cs.dropWhile p

/-- The characters up to the last one outside the class. -/
def trimEnd (p : Char → Bool) (cs : List Char) : List Char :=
  (cs.reverse.dropWhile p).reverse

@[simp] theorem trimStart_nil (p : Char → Bool) : trimStart p [] = [] := rfl

@[simp] theorem trimEnd_nil (p : Char → Bool) : trimEnd p [] = [] := rfl

/-- A first character outside the class stays, with all that follows. -/
theorem trimStart_cons_of_not {p : Char → Bool} {c : Char} (h : p c = false)
    (cs : List Char) : trimStart p (c :: cs) = c :: cs := by
  simp [trimStart, h]

/-- A last character outside the class stays, with all that precedes it. -/
theorem trimEnd_concat_of_not {p : Char → Bool} {c : Char} (h : p c = false)
    (cs : List Char) : trimEnd p (cs ++ [c]) = cs ++ [c] := by
  simp [trimEnd, h]

/-- The characters `cs` without the blanks at their two ends. -/
def trimBlanks (cs : List Char) : List Char :=
  trimEnd isBlank (trimStart isBlank cs)

/-- The text `s` without the blanks at its two ends. -/
def trim (s : String) : String :=
  String.ofList (trimBlanks s.toList)

@[simp] theorem toList_trim (s : String) : (trim s).toList = trimBlanks s.toList := by
  simp [trim]

/-! ## Comparing ends and letters -/

/-- Whether `s` begins with the characters of `start`. -/
def startsWith (s start : String) : Bool :=
  start.toList.isPrefixOf s.toList

/-- Whether the last characters of `s` are those of `tail`. -/
def endsWith (s tail : String) : Bool :=
  tail.toList.isSuffixOf s.toList

/-- Equality up to the case of ASCII letters; all other characters must agree. -/
def sameLetters (s t : String) : Bool :=
  s.toList.map Char.toLower == t.toList.map Char.toLower

/-- A flag is set by the word `true`, in any case and with any outer blanks. -/
def isTrue (s : String) : Bool :=
  sameLetters (trim s) "true"

theorem startsWith_iff {s start : String} :
    startsWith s start = true ↔ ∃ rest, start.toList ++ rest = s.toList := by
  simp [startsWith, List.IsPrefix]

end BpmnModel.Text
