import BpmnModel.Table
import BpmnModel.Text.Blank
import BpmnModel.Xml.Entity

/-!
# Attributes of a start tag

After the name of a tag stand attributes: a name, an equals sign and a quoted value, with
separators around each of them.  Attributes are read one after the other, and the value of
one is expanded before the next one is looked at, so that the first fault in the order of
the text is the one that is told.

Names keep their prefix while repetitions are looked for and lose it afterwards.  A
namespace declaration is an attribute for the first purpose only.

## Main definitions

* `Xml.AttributeFault` — what can be wrong; places are byte offsets in the tag.
* `Xml.RawAttribute` — an attribute as written.
* `Xml.nextAttribute size seen cs` — the first attribute of `cs`, and what follows it.
* `Xml.readAttributes size seen cs` — all attributes of `cs`, declarations left out.
-/

namespace BpmnModel.Xml

/-! ## What can be wrong -/

/-- What can be wrong with an attribute. -/
inductive AttributeFault where
  | equalsMissing (position : Nat)
  | valueMissing (position : Nat)
  | unquoted (position : Nat)
  | quoteMissing (position : Nat) (quote : Char)
  | duplicate (position previous : Nat)
  | value (cause : EntityFault)
deriving DecidableEq, Repr

/-- The text that describes a fault of an attribute. -/
def AttributeFault.message : AttributeFault → String
  | .equalsMissing p => "position " ++ p.repr ++
      ": attribute key must be directly followed by `=` or space"
  | .valueMissing p => "position " ++ p.repr ++ ": `=` must be followed by an attribute value"
  | .unquoted p => "position " ++ p.repr ++
      ": attribute value must be enclosed in `\"` or `'`"
  | .quoteMissing p quote => "position " ++ p.repr ++ ": missing closing quote `" ++
      quote.toString ++ "` in attribute value"
  | .duplicate p previous => "position " ++ p.repr ++
      ": duplicated attribute, previous declaration at position " ++ previous.repr
  | .value cause => cause.message

/-! ## Names -/

/-- The local part of a name: what follows its first colon. -/
def localName (name : List Char) : String :=
  String.ofList (Text.afterFirst ':' name)

/-- Names of namespace declarations, and all other names that begin like one. -/
def isDeclaration (name : List Char) : Bool :=
  "xmlns".toList.isPrefixOf name

/-! ## One attribute -/

/-- An attribute as written, with the place of its name. -/
structure RawAttribute where
  /-- The name with its prefix. -/
  name : List Char
  /-- The byte offset of the name in the tag. -/
  position : Nat
  /-- What stands between the quotes. -/
  value : List Char
deriving DecidableEq, Repr

/-- The value after an equals sign, and what follows its closing quote.  The tag has `size`
bytes. -/
def readValue (size : Nat) (cs : List Char) :
    Except AttributeFault (List Char × List Char) :=
  match Text.trimStart Text.isSpace cs with
  | [] => .error (.valueMissing size)
  | q :: w =>
    if q = '"' ∨ q = '\'' then
      match w.dropWhile (· != q) with
      | [] => .error (.quoteMissing size q)
      | _ :: rest => .ok (w.takeWhile (· != q), rest)
    else .error (.unquoted (size - Text.byteSize (q :: w)))

/-- A name runs up to the next separator or equals sign, its first character excepted. -/
def inName (c : Char) : Bool :=
  c != '=' && !Text.isSpace c

/-- The first attribute of `cs` and what follows its closing quote.  `cs` is what remains
of a tag of `size` bytes, and `seen` are the names read before, each with its place. -/
def nextAttribute (size : Nat) (seen : List (List Char × Nat)) (cs : List Char) :
    Except AttributeFault (Option (RawAttribute × List Char)) :=
  match Text.trimStart Text.isSpace cs with
  | [] => .ok none
  | c :: r =>
    let name := c :: r.takeWhile inName
    let position := size - Text.byteSize (c :: r)
    match Text.trimStart Text.isSpace (r.dropWhile inName) with
    | '=' :: v =>
      match seen.lookup name with
      | some previous => .error (.duplicate position previous)
      | none => (readValue size v).map fun value => some (⟨name, position, value.1⟩, value.2)
    | other => .error (.equalsMissing (size - Text.byteSize other))

theorem length_lt_of_readValue {size : Nat} {cs value rest : List Char}
    (h : readValue size cs = .ok (value, rest)) : rest.length < cs.length := by
  unfold readValue Text.trimStart at h
  split at h
  · simp at h
  · rename_i q w hq
    have hw := Text.length_lt_of_dropWhile hq
    split at h
    · split at h
      · simp at h
      · rename_i c r hr
        have hr' := Text.length_lt_of_dropWhile hr
        obtain ⟨-, rfl⟩ : w.takeWhile (· != q) = value ∧ r = rest := by simpa using h
        omega
    · simp at h

/-- What follows an attribute is shorter than what precedes its end. -/
theorem length_lt_of_nextAttribute {size : Nat} {seen : List (List Char × Nat)}
    {cs rest : List Char} {a : RawAttribute}
    (h : nextAttribute size seen cs = .ok (some (a, rest))) : rest.length < cs.length := by
  unfold nextAttribute Text.trimStart at h
  split at h
  · simp at h
  · rename_i c r hc
    have h₁ := Text.length_lt_of_dropWhile hc
    have h₂ := (List.dropWhile_suffix (l := r) inName).length_le
    simp only at h
    split at h
    · rename_i v hv
      have h₃ := Text.length_lt_of_dropWhile hv
      split at h
      · simp at h
      · cases hval : readValue size v with
        | error fault => simp [hval, Except.map] at h
        | ok value =>
          have h₄ := @length_lt_of_readValue size v value.1 value.2 hval
          simp only [hval, Except.map, Except.ok.injEq, Option.some.injEq,
            Prod.mk.injEq] at h
          rw [← h.2]
          omega
    · simp at h

/-- The local name and the expanded value of an attribute; nothing for a declaration, whose
value is not looked at. -/
def RawAttribute.entry? (a : RawAttribute) : Except AttributeFault (Option (String × String)) :=
  if isDeclaration a.name then .ok none
  else match expand a.value with
    | .ok value => .ok (some (localName a.name, String.ofList value))
    | .error cause => .error (.value cause)

/-! ## All attributes -/

/-- The attributes of what remains of a tag of `size` bytes, declarations left out. -/
def readAttributes (size : Nat) (seen : List (List Char × Nat)) (cs : List Char) :
    Except AttributeFault (List (String × String)) :=
  match h : nextAttribute size seen cs with
  | .error fault => .error fault
  | .ok none => .ok []
  | .ok (some (a, rest)) => do
    have : rest.length < cs.length := length_lt_of_nextAttribute h
    let entry ← a.entry?
    let more ← readAttributes size ((a.name, a.position) :: seen) rest
    return entry.toList ++ more
termination_by cs.length

end BpmnModel.Xml
