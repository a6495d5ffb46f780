import BpmnModel.Text.Bytes
import BpmnModel.Text.Split

/-!
# References in text

Markup writes some characters as references: five by name, any by its code point.  Between
an ampersand and the next semicolon stands what is referred to, and no second ampersand.

## Main definitions

* `Xml.ReferenceFault`, `Xml.EntityFault` — what can be wrong with a reference.
* `Xml.characterOf ds` — the character that the digits of a reference stand for.
* `Xml.expand raw` — `raw` with every reference replaced.
-/

namespace BpmnModel.Xml

/-! ## What can be wrong -/

/-- What can be wrong with a reference by code point. -/
inductive ReferenceFault where
  | signed
  | blank
  | digit
  | tooLarge
  | null
  | notScalar (code : Nat)
deriving DecidableEq, Repr

/-- The text that describes a fault of a reference by code point. -/
def ReferenceFault.message : ReferenceFault → String
  | .signed => "unexpected number sign"
  | .blank => "cannot parse integer from empty string"
  | .digit => "invalid digit found in string"
  | .tooLarge => "number too large to fit in target type"
  | .null => "0x0 character is not permitted in XML"
  | .notScalar code => "`" ++ code.repr ++ "` is not a valid codepoint"

/-- What can be wrong with a reference; places are byte offsets in the raw text. -/
inductive EntityFault where
  | unterminated (start stop : Nat)
  | unknown (start stop : Nat) (name : String)
  | character (cause : ReferenceFault)
deriving DecidableEq, Repr

/-- The text that describes a fault of a reference. -/
def EntityFault.message : EntityFault → String
  | .unterminated start stop => "Error while escaping character at range " ++ start.repr ++
      ".." ++ stop.repr ++ ": Cannot find ';' after '&'"
  | .unknown start stop name => "at " ++ start.repr ++ ".." ++ stop.repr ++
      ": unrecognized entity `" ++ name ++ "`"
  | .character cause => "invalid character reference: " ++ cause.message

/-! ## Characters by code point -/

/-- The value of a digit in the given base, letters of either case counting from ten. -/
def digit? (base : Nat) (c : Char) : Option Nat :=
  let value :=
    if c.isDigit then some (c.toNat - '0'.toNat)
    else if 'a'.toNat ≤ c.toNat ∧ c.toNat ≤ 'z'.toNat then some (c.toNat - 'a'.toNat + 10)
    else if 'A'.toNat ≤ c.toNat ∧ c.toNat ≤ 'Z'.toNat then some (c.toNat - 'A'.toNat + 10)
    else none
  value.filter fun d => decide (d < base)

/-- Reads digits onto the value `n` of the digits before them.  The first character that is
no digit, or takes the value out of 32 bits, ends the reading. -/
def codePoint (base : Nat) : Nat → List Char → Except ReferenceFault Nat
  | n, [] => .ok n
  | n, c :: cs =>
    match digit? base c with
    | none => .error .digit
    | some d =>
      if base * n + d < UInt32.size then codePoint base (base * n + d) cs else .error .tooLarge

/-- A code point without a sign. -/
def unsignedCodePoint (base : Nat) : List Char → Except ReferenceFault Nat
  | [] => .error .blank
  | '+' :: _ => .error .signed
  | '-' :: _ => .error .signed
  | ds => codePoint base 0 ds

/-- The character that stands after `#`: decimal digits, or hexadecimal ones after `x`. -/
def characterOf (ds : List Char) : Except ReferenceFault Char := do
  let code ← match ds with
    | 'x' :: hs => unsignedCodePoint 16 hs
    | _ => unsignedCodePoint 10 ds
  if code = 0 then .error .null
  else if code.isValidChar then .ok (Char.ofNat code)
  else .error (.notScalar code)

/-! ## Expansion -/

/-- The characters with a name of their own. -/
def namedEntities : List (String × Char) :=
  [("lt", '<'), ("gt", '>'), ("amp", '&'), ("apos", '\''), ("quot", '"')]

/-- The character that the reference `name` stands for, where `name` begins at `start`. -/
def resolve (start : Nat) (name : List Char) : Except EntityFault Char :=
  match name with
  | '#' :: ds => (characterOf ds).mapError .character
  | _ =>
    match namedEntities.lookup (String.ofList name) with
    | some c => .ok c
    | none => .error (.unknown start (start + Text.byteSize name) (String.ofList name))

/-- Expands what remains of a raw text of `size` bytes, from byte `start` on. -/
def expandFrom (size start : Nat) (cs : List Char) : Except EntityFault (List Char) :=
  let plain := cs.takeWhile (· != '&')
  match h : cs.dropWhile (· != '&') with
  | [] => .ok plain
  | _ :: body =>
    let ampersand := start + Text.byteSize plain
    let name := body.takeWhile fun c => c != '&' && c != ';'
    match h' : body.dropWhile fun c => c != '&' && c != ';' with
    | ';' :: rest => do
      have : rest.length < cs.length :=
        Nat.lt_trans (Text.length_lt_of_dropWhile h') (Text.length_lt_of_dropWhile h)
      let c ← resolve (ampersand + 1) name
      let more ← expandFrom size (ampersand + 1 + Text.byteSize name + 1) rest
      return plain ++ c :: more
    | _ => .error (.unterminated ampersand size)
termination_by cs.length

/-- A raw text with every reference replaced by what it stands for. -/
def expand (raw : List Char) : Except EntityFault (List Char) :=
  expandFrom (Text.byteSize raw) 0 raw

end BpmnModel.Xml
