import BpmnModel.Json.Value

/-!
# Printed JSON

A value is printed with two blanks for each level, one item a line.  An empty array and an
empty object stay on one line.

## Main definitions

* `Json.print depth v` — the characters of a value that stands at a depth.
* `Json.pretty v` — the text of a value.
-/

namespace BpmnModel.Json

/-- A new line at a depth. -/
def newline (depth : Nat) : List Char :=
  '\n' :: List.replicate (2 * depth) ' '

mutual

/-- The characters of a value at a depth. -/
def print (depth : Nat) : Json → List Char
  | .null => ['n', 'u', 'l', 'l']
  | .bool true => ['t', 'r', 'u', 'e']
  | .bool false => ['f', 'a', 'l', 's', 'e']
  | .number literal => literal
  | .string literal => '"' :: (literal ++ ['"'])
  | .array [] => ['[', ']']
  | .array (v :: vs) =>
    '[' :: (newline (depth + 1) ++ print (depth + 1) v ++ printItems (depth + 1) vs ++
      newline depth ++ [']'])
  | .object [] => ['{', '}']
  | .object ((name, v) :: ms) =>
    '{' :: (newline (depth + 1) ++ '"' :: (name ++ ['"', ':', ' ']) ++ print (depth + 1) v ++
      printMembers (depth + 1) ms ++ newline depth ++ ['}'])

/-- The items of an array after the first one. -/
def printItems (depth : Nat) : List Json → List Char
  | [] => []
  | v :: vs => ',' :: (newline depth ++ print depth v ++ printItems depth vs)

/-- The members of an object after the first one. -/
def printMembers (depth : Nat) : List (List Char × Json) → List Char
  | [] => []
  | (name, v) :: ms =>
    ',' :: (newline depth ++ '"' :: (name ++ ['"', ':', ' ']) ++ print depth v ++
      printMembers depth ms)

end

/-- The text of a value. -/
def pretty (v : Json) : String :=
  String.ofList (print 0 v)

end BpmnModel.Json
