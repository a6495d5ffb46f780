import BpmnModel.Json.Literal

/-!
# JSON values

Texts and numbers are kept as they are written, since a reader has to pass over values that
nobody looks at, even where they denote no text and no number that could be held.

## Main definitions

* `Json` — a value.
* `Json.ofText s`, `Json.text? v` — the way from and to a text.
* `Json.ofNat`, `Json.ofInt`, `Json.ofOption`, `Json.ofList` — further ways from values.

## Main statements

* `Json.text?_ofText` — the two ways undo each other.
-/

namespace BpmnModel

/-- A JSON value; literals are kept as written. -/
inductive Json where
  | null
  | bool (value : Bool)
  | number (literal : List Char)
  /-- A text, by what stands between its quotes. -/
  | string (literal : List Char)
  | array (items : List Json)
  /-- An object; its names stand as between their quotes, in order and possibly repeated. -/
  | object (members : List (List Char × Json))

namespace Json

instance : Inhabited Json := ⟨.null⟩

/-- The value that stands for a text. -/
def ofText (s : String) : Json :=
  .string (escape s.toList)

/-- The text that a literal stands for. -/
def textOf? (literal : List Char) : Option String :=
  (unescape literal).map String.ofList

/-- The text that a value stands for. -/
def text? : Json → Option String
  | .string literal => textOf? literal
  | _ => none

/-- The value that stands for a natural number. -/
def ofNat (n : Nat) : Json :=
  .number (Nat.toDigits 10 n)

/-- The value that stands for a whole number. -/
def ofInt (n : Int) : Json :=
  .number (if n < 0 then '-' :: Nat.toDigits 10 n.natAbs else Nat.toDigits 10 n.natAbs)

/-- The null value where there is none. -/
def ofOption {α : Type} (f : α → Json) : Option α → Json
  | none => .null
  | some a => f a

/-- The array of some values. -/
def ofList {α : Type} (f : α → Json) (as : List α) : Json :=
  .array (as.map f)

/-- The object with the given names. -/
def record (members : List (String × Json)) : Json :=
  .object (members.map fun m => (escape m.1.toList, m.2))

@[simp] theorem textOf?_escape (s : String) : textOf? (escape s.toList) = some s := by
  simp [textOf?]

/-- A text is found in the value that stands for it. -/
@[simp] theorem text?_ofText (s : String) : text? (ofText s) = some s :=
  textOf?_escape s

end Json

end BpmnModel
