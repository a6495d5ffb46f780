import BpmnModel.Text.Blank
import BpmnModel.Text.Numeral

/-!
# Closed sets and their codes

The kinds that a model distinguishes form small closed sets.  Each set is listed once, in
the order of its declaration, and everything else is read off that list: the position that
the binary form writes, the symbol that the textual forms write, and, for most sets, the
integer code that a document and the downstream engine use.

## Main definitions

* `Closed α` — the members of `α` in order, each with its symbol.
* `Coded α` — a closed set with codes and display labels.
* `Closed.index`, `Closed.ofIndex?`, `Closed.ofSymbol?`, `Coded.ofCode?` — the ways from and
  to a member.
* `Coded.parseCode?` — the member whose code a text denotes.

## Main statements

* `Closed.ofIndex?_index`, `Closed.ofSymbol?_symbol` and `Coded.ofCode?_code` — each way back
  undoes the way out.
-/

namespace BpmnModel

/-- A closed set of members, listed in the order of their declaration. -/
class Closed (α : Type) [DecidableEq α] where
  /-- All members. -/
  all : List α
  /-- The upper-case or verbatim name that textual forms write. -/
  symbol : α → String
  /-- No member is missing from the list. -/
  mem_all : ∀ a, a ∈ all
  /-- A symbol names one member. -/
  symbol_injective : ∀ a b, symbol a = symbol b → a = b

/-- A closed set whose members have integer codes and labels for display. -/
class Coded (α : Type) [DecidableEq α] extends Closed α where
  /-- The code that documents and the engine use. -/
  code : α → Nat
  /-- The text shown to a reader. -/
  label : α → String
  /-- A code belongs to one member. -/
  code_injective : ∀ a b, code a = code b → a = b

variable {α : Type} [DecidableEq α]

/-! ## Positions and symbols -/

namespace Closed

variable [Closed α]

/-- The position of a member in the list. -/
def index (a : α) : Nat :=
  (all (α := α)).idxOf a

/-- The member at a position. -/
def ofIndex? (i : Nat) : Option α :=
  (all (α := α))[i]?

/-- The member with the symbol `s`. -/
def ofSymbol? (s : String) : Option α :=
  (all (α := α)).find? fun a => symbol a == s

@[simp] theorem ofIndex?_index (a : α) : ofIndex? (index a) = some a := by
  have h : index a < (all (α := α)).length := List.idxOf_lt_length_iff.mpr (mem_all a)
  rw [ofIndex?, List.getElem?_eq_getElem h]
  exact congrArg some (List.getElem_idxOf h)

@[simp] theorem ofSymbol?_symbol (a : α) : ofSymbol? (symbol a) = some a := by
  rw [ofSymbol?]
  cases h : (all (α := α)).find? fun b => symbol b == symbol a with
  | none => simpa using List.find?_eq_none.mp h a (mem_all a)
  | some b => rw [symbol_injective b a (by simpa using List.find?_some h)]

end Closed

/-! ## Codes -/

namespace Coded

variable [Coded α]

/-- The member with the code `n`. -/
def ofCode? (n : Int) : Option α :=
  (Closed.all (α := α)).find? fun a => (code a : Int) == n

/-- The member whose code the text denotes, as in `"1"`; outer blanks do not count. -/
def parseCode? (s : String) : Option α :=
  (Text.int64? (Text.trim s)).bind fun n => ofCode? n.toInt

@[simp] theorem ofCode?_code (a : α) : ofCode? (code a : Int) = some a := by
  rw [ofCode?]
  cases h : (Closed.all (α := α)).find? fun b => (code b : Int) == (code a : Int) with
  | none => simpa using List.find?_eq_none.mp h a (Closed.mem_all a)
  | some b =>
    have : (code b : Int) = (code a : Int) := by simpa using List.find?_some h
    rw [code_injective b a (by omega)]

theorem ofCode?_eq_some_iff {n : Int} {a : α} : ofCode? n = some a ↔ (code a : Int) = n := by
  constructor
  · intro h
    simpa using List.find?_some h
  · rintro rfl
    simp

end Coded

end BpmnModel
