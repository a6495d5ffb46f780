import BpmnModel.Text.Split

/-!
# Command lines

A command line is a list of words.  An option has a long name after two dashes and may have
a letter after one; it is a switch or takes a value.  A value stands behind an equals sign,
directly behind the letter, or in the next word, where it does not begin with a dash unless
it is a dash alone.  Switches can share one dash.  Two dashes alone end the options.  Every
option may be given once.

## Main definitions

* `OptionSpec` — an option.
* `Arguments` — the options and the remaining words of a command line.
* `Arguments.parse specs words` — reads a command line.
-/

namespace BpmnModel

/-- An option that a command knows. -/
structure OptionSpec where
  /-- The name after two dashes. -/
  long : String
  /-- The letter after one dash. -/
  short : Option Char := none
  /-- Whether the option takes a value. -/
  takesValue : Bool := true
deriving DecidableEq, Repr

/-- What a command line says. -/
structure Arguments where
  /-- The options by their long names; a switch has the empty value. -/
  options : List (String × String) := []
  /-- The words that belong to no option. -/
  words : List String := []
deriving DecidableEq, Repr, Inhabited

namespace Arguments

/-! ## Words -/

/-- Whether a word can be the value of an option in the word before it. -/
def isValue (word : String) : Bool :=
  match word.toList with
  | ['-'] => true
  | '-' :: _ => false
  | _ => true

/-- What is known after one word: options, and an option that waits for its value. -/
structure Step where
  /-- The options that the word completes. -/
  options : List (String × String) := []
  /-- The option whose value has to be the next word. -/
  pending : Option String := none

/-- Cuts a word at its first equals sign. -/
def cutValue (cs : List Char) : List Char × Option (List Char) :=
  match cs.dropWhile (· != '=') with
  | [] => (cs, none)
  | _ :: value => (cs.takeWhile (· != '='), some value)

/-- A word after two dashes. -/
def readLong (specs : List OptionSpec) (cs : List Char) : Option Step := do
  let (name, value?) := cutValue cs
  let spec ← specs.find? fun o => o.long == String.ofList name
  match spec.takesValue, value? with
  | true, some value => return { options := [(spec.long, String.ofList value)] }
  | true, none => return { pending := some spec.long }
  | false, none => return { options := [(spec.long, "")] }
  | false, some _ => none

/-- The value directly behind a letter; an equals sign in front of it does not count. -/
def attachedValue : List Char → String
  | '=' :: cs => String.ofList cs
  | cs => String.ofList cs

/-- The letters after one dash. -/
def readShort (specs : List OptionSpec) : List Char → Option Step
  | [] => some {}
  | c :: cs => do
    let spec ← specs.find? fun o => o.short == some c
    if spec.takesValue then
      if cs.isEmpty then return { pending := some spec.long }
      else return { options := [(spec.long, attachedValue cs)] }
    else
      let step ← readShort specs cs
      return { step with options := (spec.long, "") :: step.options }

/-! ## Command lines -/

/-- Reads words, the first of which may be the value of a waiting option. -/
def read (specs : List OptionSpec) : Option String → List String → Option Arguments
  | none, [] => some {}
  | some _, [] => none
  | some name, word :: rest => do
    if isValue word then
      let more ← read specs none rest
      return { more with options := (name, word) :: more.options }
    else none
  | none, word :: rest =>
    match word.toList with
    | ['-', '-'] => some { words := rest }
    | '-' :: '-' :: cs => do
      let step ← readLong specs cs
      let more ← read specs step.pending rest
      return { more with options := step.options ++ more.options }
    | '-' :: c :: cs => do
      let step ← readShort specs (c :: cs)
      let more ← read specs step.pending rest
      return { more with options := step.options ++ more.options }
    | _ => do
      let more ← read specs none rest
      return { more with words := word :: more.words }

/-- Reads a command line; no option may be given twice. -/
def parse (specs : List OptionSpec) (words : List String) : Option Arguments := do
  let a ← read specs none words
  if (a.options.map Prod.fst).Nodup then return a else none

/-- The value of an option that was given. -/
def value? (a : Arguments) (long : String) : Option String :=
  a.options.lookup long

/-- Whether a switch was given. -/
def has (a : Arguments) (long : String) : Bool :=
  (a.value? long).isSome

end Arguments

end BpmnModel
