import BpmnModel.Json.Value
import BpmnModel.Text.Blank

/-!
# Reading JSON

A reader takes one value with blanks around it and nothing else.  It is strict: no comma
after the last item, no control character in a text, no leading zero in a number.

## Main definitions

* `Json.scanNumber cs` — cuts a number off.
* `Json.readValue fuel cs` — cuts a value off; the fuel bounds the number of nested steps.
* `Json.read text` — the value of a whole text.
-/

namespace BpmnModel.Json

/-! ## Parts -/

/-- The characters after leading blanks. -/
def skipBlanks (cs : List Char) : List Char :=
  cs.dropWhile Text.isSpace

/-- Cuts one or more digits off. -/
def scanDigits (cs : List Char) : Option (List Char × List Char) :=
  let ds := cs.takeWhile Char.isDigit
  if ds.isEmpty then none else some (ds, cs.dropWhile Char.isDigit)

/-- Cuts the whole part of a number off: a zero alone, or digits without a leading zero. -/
def scanWhole (cs : List Char) : Option (List Char × List Char) := do
  let (ds, rest) ← scanDigits cs
  match ds with
  | '0' :: _ :: _ => none
  | _ => return (ds, rest)

/-- Cuts the decimals of a number off, which may be missing. -/
def scanDecimals : List Char → Option (List Char × List Char)
  | '.' :: cs => (scanDigits cs).map fun r => ('.' :: r.1, r.2)
  | cs => some ([], cs)

/-- Cuts the sign of an exponent off, which may be missing. -/
def scanSign : List Char → List Char × List Char
  | '+' :: cs => (['+'], cs)
  | '-' :: cs => (['-'], cs)
  | cs => ([], cs)

/-- Cuts the exponent of a number off, which may be missing. -/
def scanExponent : List Char → Option (List Char × List Char)
  | [] => some ([], [])
  | c :: cs =>
    if c = 'e' ∨ c = 'E' then do
      let (sign, rest) := scanSign cs
      let (ds, rest) ← scanDigits rest
      return (c :: (sign ++ ds), rest)
    else some ([], c :: cs)

/-- Cuts the minus sign of a number off, which may be missing. -/
def scanMinus : List Char → List Char × List Char
  | '-' :: cs => (['-'], cs)
  | cs => ([], cs)

/-- Cuts a number off. -/
def scanNumber (cs : List Char) : Option (List Char × List Char) := do
  let (minus, rest) := scanMinus cs
  let (whole, rest) ← scanWhole rest
  let (decimals, rest) ← scanDecimals rest
  let (exponent, rest) ← scanExponent rest
  return (minus ++ whole ++ decimals ++ exponent, rest)

/-! ## Values -/

mutual

/-- Cuts a value off, after leading blanks. -/
def readValue : Nat → List Char → Option (Json × List Char)
  | 0, _ => none
  | fuel + 1, cs =>
    match skipBlanks cs with
    | 'n' :: 'u' :: 'l' :: 'l' :: rest => some (.null, rest)
    | 't' :: 'r' :: 'u' :: 'e' :: rest => some (.bool true, rest)
    | 'f' :: 'a' :: 'l' :: 's' :: 'e' :: rest => some (.bool false, rest)
    | '"' :: rest => (scanLiteral rest).map fun r => (.string r.1, r.2)
    | '[' :: rest =>
      match skipBlanks rest with
      | ']' :: rest => some (.array [], rest)
      | _ => (readItems fuel rest).map fun r => (.array r.1, r.2)
    | '{' :: rest =>
      match skipBlanks rest with
      | '}' :: rest => some (.object [], rest)
      | _ => (readMembers fuel rest).map fun r => (.object r.1, r.2)
    | rest => (scanNumber rest).map fun r => (.number r.1, r.2)

/-- Cuts the items of an array off, one or more, up to the closing bracket. -/
def readItems : Nat → List Char → Option (List Json × List Char)
  | 0, _ => none
  | fuel + 1, cs => do
    let (v, rest) ← readValue fuel cs
    match skipBlanks rest with
    | ',' :: rest => (readItems fuel rest).map fun r => (v :: r.1, r.2)
    | ']' :: rest => some ([v], rest)
    | _ => none

/-- Cuts the members of an object off, one or more, up to the closing brace. -/
def readMembers : Nat → List Char → Option (List (List Char × Json) × List Char)
  | 0, _ => none
  | fuel + 1, cs =>
    match skipBlanks cs with
    | '"' :: rest => do
      let (name, rest) ← scanLiteral rest
      match skipBlanks rest with
      | ':' :: rest => do
        let (v, rest) ← readValue fuel rest
        match skipBlanks rest with
        | ',' :: rest => (readMembers fuel rest).map fun r => ((name, v) :: r.1, r.2)
        | '}' :: rest => some ([(name, v)], rest)
        | _ => none
      | _ => none
    | _ => none

end

/-- The value of a whole text.  A value of `n` characters nests fewer than `2 * n` steps. -/
def read (text : String) : Option Json := do
  let cs := text.toList
  let (v, rest) ← readValue (2 * cs.length + 1) cs
  if (skipBlanks rest).isEmpty then return v else none

end BpmnModel.Json
