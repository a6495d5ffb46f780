import BpmnModel.Proofs.Xml.Escape
import BpmnModel.Xml.Reading

/-!
# Written tags

A tag is written as a name and attributes, each name being one of the notation and each value
escaped.  How much space there is between its parts and which quotes enclose the values is up to
the writer.  The lemmas follow the reader through such a tag: where it ends, what its name is, and
which attributes it bears.

## Main definitions

* `Markup.isName s` — names of the notation.
* `Markup.tagWellFormed name attributes` — the names in a tag are such names, and no attribute
  is written twice.
* `Markup.Spelled`, `Markup.Tag` — an attribute and a tag with the choices of their written form.
* `Markup.Tag.element t` — the element that a tag announces.
* `Markup.Tag.printed name attributes back` — a tag whose attributes are printed.

## Main statements

* `Xml.cutTag?_tag` — a tag ends behind its attributes.
* `Xml.elementOfTag_print` — the element that a tag announces.
-/

namespace BpmnModel

/-! ## Names -/

namespace Markup

/-- The characters that a name may begin with. -/
def isNameStart (c : Char) : Bool :=
  c.isAlpha || c == '_'

/-- The characters of a name. -/
def isNameChar (c : Char) : Bool :=
  c.isAlphanum || c == '_' || c == '-' || c == '.'

/-- A letter or an underscore, then any characters of a name. -/
def isName (s : String) : Bool :=
  match s.toList with
  | [] => false
  | c :: cs => isNameStart c && cs.all isNameChar

/-- The parts of a name are names. -/
def Name.wellFormed (n : Name) : Bool :=
  isName n.base && n.space.all isName

/-- An attribute bears a name that does not begin like a declaration; a declaration declares a
name. -/
def Attribute.wellFormed : Attribute → Bool
  | .plain name _ => name.wellFormed && !Xml.isDeclaration name.print
  | .declaration space _ => space.all isName

/-- The names in a tag are well formed, and no attribute is written twice. -/
def tagWellFormed (name : Name) (attributes : List Attribute) : Bool :=
  name.wellFormed && attributes.all Attribute.wellFormed &&
    decide (attributes.map Attribute.name).Nodup

/-- The entry of an attribute; declarations have none. -/
def Attribute.pair? : Attribute → Option (String × String)
  | .plain name value => some (name.base, value)
  | .declaration _ _ => none

/-- A character of a name, or the colon behind a prefix. -/
def isWordChar (c : Char) : Bool :=
  isNameChar c || c == ':'

/-- A word is not empty and separates nothing. -/
def IsWord (cs : List Char) : Prop :=
  cs ≠ [] ∧ ∀ c ∈ cs, isWordChar c = true

theorem isNameChar_of_isNameStart {c : Char} (h : isNameStart c = true) :
    isNameChar c = true := by
  simp only [isNameStart, isNameChar, Char.isAlphanum, Bool.or_eq_true] at h ⊢
  rcases h with h | h
  · exact .inl (.inl (.inl (.inl h)))
  · exact .inl (.inl (.inr h))

theorem isName_iff {s : String} : isName s = true ↔
    ∃ c cs, s.toList = c :: cs ∧ isNameStart c = true ∧ ∀ d ∈ cs, isNameChar d = true := by
  rw [isName]
  split
  · rename_i h
    simp [h]
  · rename_i c cs h
    rw [Bool.and_eq_true, List.all_eq_true]
    constructor
    · rintro ⟨hc, hcs⟩
      exact ⟨c, cs, h, hc, hcs⟩
    · rintro ⟨c', cs', h', hc, hcs⟩
      obtain ⟨rfl, rfl⟩ : c = c' ∧ cs = cs' := by simpa [h] using h'
      exact ⟨hc, hcs⟩

theorem isNameChar_of_isName {s : String} (h : isName s = true) {c : Char} (hc : c ∈ s.toList) :
    isNameChar c = true := by
  obtain ⟨d, ds, hs, hd, hds⟩ := isName_iff.mp h
  rw [hs, List.mem_cons] at hc
  rcases hc with rfl | hc
  · exact isNameChar_of_isNameStart hd
  · exact hds c hc

theorem isWord_of_isName {s : String} (h : isName s = true) : IsWord s.toList := by
  refine ⟨?_, fun c hc => ?_⟩
  · obtain ⟨c, cs, hs, -⟩ := isName_iff.mp h
    simp [hs]
  · rw [isWordChar, isNameChar_of_isName h hc, Bool.true_or]

/-- Characters that belong to no word stand in none. -/
theorem IsWord.ne {cs : List Char} (h : IsWord cs) {c d : Char} (hc : c ∈ cs)
    (hd : isWordChar d = false) : c ≠ d := by
  rintro rfl
  have := h.2 c hc
  simp [hd] at this

/-- A word holds no separator. -/
theorem IsWord.isSpace {cs : List Char} (h : IsWord cs) {c : Char} (hc : c ∈ cs) :
    Text.isSpace c = false := by
  simp only [Text.isSpace, Bool.or_eq_false_iff, beq_eq_false_iff_ne]
  exact ⟨⟨⟨h.ne hc (by decide), h.ne hc (by decide)⟩, h.ne hc (by decide)⟩, h.ne hc (by decide)⟩

theorem Name.isWord {n : Name} (h : n.wellFormed = true) : IsWord n.print := by
  rw [wellFormed, Bool.and_eq_true] at h
  have hbase := isWord_of_isName h.1
  rw [print]
  cases hs : n.space with
  | none => exact hbase
  | some space =>
    rw [hs, Option.all_some] at h
    have hspace := isWord_of_isName h.2
    refine ⟨by simp, fun c hc => ?_⟩
    rcases List.mem_append.mp hc with hc | hc
    · exact hspace.2 c hc
    · rcases List.mem_cons.mp hc with rfl | hc
      · decide
      · exact hbase.2 c hc

theorem Attribute.isWord {a : Attribute} (h : a.wellFormed = true) : IsWord a.name := by
  cases a with
  | plain name value =>
    rw [wellFormed, Bool.and_eq_true] at h
    exact Name.isWord h.1
  | declaration space value =>
    cases space with
    | none =>
      have hword : IsWord "xmlns".toList :=
        ⟨by decide, List.all_eq_true.mp rfl⟩
      exact hword
    | some space =>
      have hmark : ∀ c ∈ "xmlns:".toList, isWordChar c = true := List.all_eq_true.mp rfl
      rw [wellFormed, Option.all_some] at h
      refine ⟨List.append_ne_nil_of_left_ne_nil (by decide) _, ?_⟩
      intro c hc
      rcases List.mem_append.mp hc with hc | hc
      · exact hmark c hc
      · exact (isWord_of_isName h).2 c hc

/-- What follows the colon of a name is its base. -/
theorem Name.localName_print {n : Name} (h : n.wellFormed = true) :
    Xml.localName n.print = n.base := by
  rw [wellFormed, Bool.and_eq_true] at h
  have colon : ∀ {s : String}, isName s = true → ∀ c ∈ s.toList, (c != ':') = true := by
    intro s hs c hc
    have hc := isNameChar_of_isName hs hc
    rw [bne_iff_ne]
    rintro rfl
    exact absurd hc (by decide)
  rw [Xml.localName, print, Text.afterFirst]
  cases hs : n.space with
  | none =>
    simp only [List.dropWhile_eq_nil_iff.mpr (colon h.1)]
    exact String.ofList_toList
  | some space =>
    rw [hs, Option.all_some] at h
    simp only [Text.dropWhile_append_cons (colon h.2) (b := ':') (by decide)]
    exact String.ofList_toList

theorem Attribute.isDeclaration_name {a : Attribute} (h : a.wellFormed = true) :
    Xml.isDeclaration a.name = a.pair?.isNone := by
  cases a with
  | plain name value =>
    rw [wellFormed, Bool.and_eq_true, Bool.not_eq_true'] at h
    exact h.2
  | declaration space value =>
    cases space with
    | none => rfl
    | some space => rfl

/-! ## Spellings -/

/-- An attribute with the choices of its written form. -/
structure Spelled where
  /-- What is written. -/
  written : Attribute
  /-- The space in front of it. -/
  front : List Char
  /-- The space before the equals sign. -/
  before : List Char := []
  /-- The space after the equals sign. -/
  after : List Char := []
  /-- The mark around the value. -/
  quote : Char := '"'

namespace Spelled

/-- The characters of an attribute. -/
def print (a : Spelled) : List Char :=
  a.front ++ (a.written.name ++ (a.before ++ '=' :: (a.after ++
    a.quote :: (escape a.written.value ++ [a.quote]))))

/-- There is space in front of an attribute, and its value stands in quotes. -/
structure WellFormed (a : Spelled) : Prop where
  written : a.written.wellFormed = true
  apart : a.front ≠ []
  front : ∀ c ∈ a.front, Text.isSpace c = true
  before : ∀ c ∈ a.before, Text.isSpace c = true
  after : ∀ c ∈ a.after, Text.isSpace c = true
  quote : a.quote = '"' ∨ a.quote = '\''

/-- The space of an attribute is looked through character by character. -/
instance (a : Spelled) : Decidable a.WellFormed :=
  decidable_of_iff (a.written.wellFormed = true ∧ a.front ≠ [] ∧ a.front.all Text.isSpace = true ∧
      a.before.all Text.isSpace = true ∧ a.after.all Text.isSpace = true ∧
      (a.quote = '"' ∨ a.quote = '\''))
    ⟨fun ⟨hwritten, hapart, hfront, hbefore, hafter, hquote⟩ => ⟨hwritten, hapart,
        List.all_eq_true.mp hfront, List.all_eq_true.mp hbefore, List.all_eq_true.mp hafter, hquote⟩,
      fun h => ⟨h.written, h.apart, List.all_eq_true.mpr h.front, List.all_eq_true.mpr h.before,
        List.all_eq_true.mpr h.after, h.quote⟩⟩

/-- What is written does not hold the mark around it. -/
theorem WellFormed.ne_quote {a : Spelled} (h : a.WellFormed) {c : Char}
    (hc : c ∈ escape a.written.value) : c ≠ a.quote := by
  obtain ⟨-, hquot, hapos⟩ := ne_of_mem_escape hc
  rcases h.quote with hq | hq <;> rw [hq]
  · exact hquot
  · exact hapos

/-- An attribute begins with space. -/
theorem WellFormed.print_eq_cons {a : Spelled} (h : a.WellFormed) :
    ∃ c cs, a.print = c :: cs ∧ Text.isSpace c = true := by
  obtain ⟨c, cs, hfront⟩ := List.exists_cons_of_ne_nil h.apart
  have hc : Text.isSpace c = true := h.front c (by rw [hfront]; exact List.mem_cons_self)
  rw [print, hfront]
  exact ⟨c, _, List.cons_append, hc⟩

end Spelled

/-- What stands between the brackets of a start tag. -/
structure Tag where
  /-- The name of the tag. -/
  name : Name
  /-- The attributes in the order in which they are written. -/
  attributes : List Spelled := []
  /-- The space behind them. -/
  back : List Char := []

namespace Tag

/-- The characters of a tag. -/
def print (t : Tag) : List Char :=
  t.name.print ++ (t.attributes.flatMap Spelled.print ++ t.back)

/-- The names in a tag are well formed, no attribute is written twice, and each one is set apart. -/
structure WellFormed (t : Tag) : Prop where
  name : t.name.wellFormed = true
  attributes : ∀ a ∈ t.attributes, a.WellFormed
  distinct : (t.attributes.map fun a => a.written.name).Nodup
  back : ∀ c ∈ t.back, Text.isSpace c = true

instance (t : Tag) : Decidable t.WellFormed :=
  decidable_of_iff (t.name.wellFormed = true ∧ (∀ a ∈ t.attributes, a.WellFormed) ∧
      (t.attributes.map fun a => a.written.name).Nodup ∧ t.back.all Text.isSpace = true)
    ⟨fun ⟨hname, hattributes, hdistinct, hback⟩ =>
        ⟨hname, hattributes, hdistinct, List.all_eq_true.mp hback⟩,
      fun h => ⟨h.name, h.attributes, h.distinct, List.all_eq_true.mpr h.back⟩⟩

/-- The element that a tag announces, before it gets text or children. -/
def element (t : Tag) : Element where
  tag := t.name.base
  attributes := attributeTable (t.attributes.map Spelled.written)

end Tag

/-! ## Printed tags -/

/-- An attribute as it is printed: one blank in front of it, and the value in double quotes. -/
def Attribute.spelled (a : Attribute) : Spelled where
  written := a
  front := [' ']

theorem Attribute.wellFormed_spelled {a : Attribute} (h : a.wellFormed = true) :
    a.spelled.WellFormed where
  written := h
  apart := by simp [spelled]
  front := by simp [spelled, Text.isSpace]
  before := by simp [spelled]
  after := by simp [spelled]
  quote := .inl rfl

/-- A tag as it is printed. -/
def Tag.printed (name : Name) (attributes : List Attribute) (back : List Char) : Tag where
  name := name
  attributes := attributes.map Attribute.spelled
  back := back

section Printed

variable {name : Name} {attributes : List Attribute} {back : List Char}

theorem Tag.print_printed :
    (Tag.printed name attributes back).print = tagContent name attributes ++ back := by
  simp only [printed, print, tagContent, List.append_assoc, List.flatMap_map]
  rfl

theorem Tag.wellFormed_printed (h : tagWellFormed name attributes = true)
    (hback : ∀ c ∈ back, Text.isSpace c = true) :
    (Tag.printed name attributes back).WellFormed := by
  rw [tagWellFormed, Bool.and_eq_true, Bool.and_eq_true, List.all_eq_true,
    decide_eq_true_eq] at h
  obtain ⟨⟨hname, hattributes⟩, hdistinct⟩ := h
  have hnames : (Tag.printed name attributes back).attributes.map (fun a => a.written.name) =
      attributes.map Attribute.name := by
    rw [printed, List.map_map]
    rfl
  refine ⟨hname, ?_, hnames ▸ hdistinct, hback⟩
  intro a ha
  obtain ⟨b, hb, rfl⟩ := List.mem_map.mp ha
  exact Attribute.wellFormed_spelled (hattributes b hb)

theorem Tag.element_printed : (Tag.printed name attributes back).element =
    { tag := name.base, attributes := attributeTable attributes } := by
  have hwritten : (Tag.printed name attributes back).attributes.map Spelled.written =
      attributes := by
    rw [printed, List.map_map]
    exact List.map_id attributes
  rw [element, hwritten]
  rfl

end Printed

end Markup

/-! ## Attributes -/

namespace Xml

open Markup (Attribute Spelled Tag IsWord escape)

/-- Behind space and an equals sign the value of an attribute is read. -/
theorem readValue_spelled (size : Nat) {a : Spelled} (h : a.WellFormed) (rest : List Char) :
    readValue size (a.after ++ a.quote :: (escape a.written.value ++ a.quote :: rest)) =
      .ok (escape a.written.value, rest) := by
  have hend : ∀ c ∈ escape a.written.value, (c != a.quote) = true := by
    intro c hc
    rw [bne_iff_ne]
    exact h.ne_quote hc
  have hquote : Text.isSpace a.quote = false := by
    rcases h.quote with hq | hq <;> rw [hq] <;> decide
  have hstop : (a.quote != a.quote) = false := by simp
  rw [readValue, Text.trimStart_append h.after, Text.trimStart_cons_of_not hquote]
  simp only [if_pos h.quote, Text.dropWhile_append_cons hend hstop,
    Text.takeWhile_append_cons hend hstop]

/-- An attribute that has not been read before is read as it is written. -/
theorem nextAttribute_print (size : Nat) {seen : List (List Char × Nat)} {a : Spelled}
    (h : a.WellFormed) (hseen : seen.lookup a.written.name = none) (rest : List Char) :
    ∃ position, nextAttribute size seen (a.print ++ rest) =
      .ok (some (⟨a.written.name, position, escape a.written.value⟩, rest)) := by
  have hword := Attribute.isWord h.written
  obtain ⟨c, cs, hname⟩ := List.exists_cons_of_ne_nil hword.1
  have hin : ∀ d ∈ cs, inName d = true := by
    intro d hd
    have hd : d ∈ a.written.name := by
      rw [hname]
      exact List.mem_cons_of_mem _ hd
    rw [inName, hword.isSpace hd, Bool.not_false, Bool.and_true, bne_iff_ne]
    exact hword.ne hd (by decide)
  have hprint : a.print ++ rest = a.front ++ (c :: (cs ++ (a.before ++ '=' :: (a.after ++
      a.quote :: (escape a.written.value ++ a.quote :: rest))))) := by
    simp [Spelled.print, hname]
  have hc : Text.isSpace c = false := hword.isSpace (by rw [hname]; exact List.mem_cons_self)
  -- the name ends where space or the equals sign stands
  have hcut : ∀ v, (cs ++ (a.before ++ '=' :: v)).takeWhile inName = cs ∧
      (cs ++ (a.before ++ '=' :: v)).dropWhile inName = a.before ++ '=' :: v := by
    intro v
    cases hb : a.before with
    | nil =>
      exact ⟨Text.takeWhile_append_cons hin (by decide), Text.dropWhile_append_cons hin (by decide)⟩
    | cons b bs =>
      have hspace := h.before b (by rw [hb]; exact List.mem_cons_self)
      have hb : inName b = false := by simp [inName, hspace]
      exact ⟨Text.takeWhile_append_cons hin hb, Text.dropWhile_append_cons hin hb⟩
  have hequals : ∀ v, Text.trimStart Text.isSpace (a.before ++ '=' :: v) = '=' :: v := by
    intro v
    rw [Text.trimStart_append h.before]
    exact Text.trimStart_cons_of_not (by decide) v
  rw [hprint, nextAttribute, Text.trimStart_append h.front, Text.trimStart_cons_of_not hc]
  simp only [(hcut _).1, (hcut _).2, hequals, ← hname, hseen, readValue_spelled size h]
  exact ⟨_, rfl⟩

theorem pair?_escape {a : Attribute} (h : a.wellFormed = true) (position : Nat) :
    RawAttribute.entry? ⟨a.name, position, escape a.value⟩ = .ok a.pair? := by
  rw [RawAttribute.entry?]
  simp only [Attribute.isDeclaration_name h, expand_escape]
  cases a with
  | plain name value =>
    rw [Attribute.wellFormed, Bool.and_eq_true] at h
    show Except.ok (some (Xml.localName name.print, String.ofList value.toList)) = _
    rw [Markup.Name.localName_print h.1, String.ofList_toList]
    rfl
  | declaration space value => simp [Attribute.pair?]

theorem readAttributes_step {size : Nat} {seen : List (List Char × Nat)} {cs rest : List Char}
    {a : RawAttribute} {entry : Option (String × String)} {more : List (String × String)}
    (h : nextAttribute size seen cs = .ok (some (a, rest))) (hentry : a.entry? = .ok entry)
    (hmore : readAttributes size ((a.name, a.position) :: seen) rest = .ok more) :
    readAttributes size seen cs = .ok (entry.toList ++ more) := by
  rw [readAttributes]
  split
  · rename_i fault hfault
    simp [h] at hfault
  · rename_i hnone
    simp [h] at hnone
  · rename_i a' rest' hsome
    obtain ⟨rfl, rfl⟩ : a = a' ∧ rest = rest' := by simpa [h] using hsome
    rw [hentry]
    show (readAttributes size ((a.name, a.position) :: seen) rest >>= _) = _
    rw [hmore]
    rfl

/-- **The attributes of a tag are read as they are written**, whatever space stands around them. -/
theorem readAttributes_print {size : Nat} {back : List Char} {attributes : List Spelled}
    (hback : ∀ c ∈ back, Text.isSpace c = true) (h : ∀ a ∈ attributes, a.WellFormed)
    (hnodup : (attributes.map fun a => a.written.name).Nodup) (seen : List (List Char × Nat))
    (hseen : ∀ a ∈ attributes, seen.lookup a.written.name = none) :
    readAttributes size seen (attributes.flatMap Spelled.print ++ back) =
      .ok (attributes.filterMap fun a => a.written.pair?) := by
  induction attributes generalizing seen with
  | nil =>
    have hnone : nextAttribute size seen back = .ok none := by
      rw [nextAttribute, Text.trimStart, List.dropWhile_eq_nil_iff.mpr hback]
    rw [List.flatMap_nil, List.nil_append, readAttributes]
    split <;> simp_all
  | cons a attributes ih =>
    obtain ⟨ha, hattributes⟩ := List.forall_mem_cons.mp h
    obtain ⟨hfresh, hnodup⟩ := List.nodup_cons.mp hnodup
    obtain ⟨hseen₁, hseen₂⟩ := List.forall_mem_cons.mp hseen
    obtain ⟨position, hnext⟩ := nextAttribute_print size ha hseen₁
      (attributes.flatMap Spelled.print ++ back)
    have hlater : ∀ b ∈ attributes,
        ((a.written.name, position) :: seen).lookup b.written.name = none := by
      intro b hb
      have hne : b.written.name ≠ a.written.name := by
        intro heq
        exact hfresh (List.mem_map.mpr ⟨b, hb, heq⟩)
      rw [List.lookup_cons, beq_false_of_ne hne]
      exact hseen₂ b hb
    rw [List.flatMap_cons, List.append_assoc,
      readAttributes_step hnext (pair?_escape ha.written position)
        (ih hattributes hnodup _ hlater),
      List.filterMap_cons]
    cases a.written.pair? <;> rfl

/-! ## Tags -/

/-- Outside quotes, characters that are neither quotes nor the end of a tag belong to it. -/
theorem cutTag?_plain {as : List Char} (h : ∀ c ∈ as, c ≠ '>' ∧ c ≠ '"' ∧ c ≠ '\'')
    (bs : List Char) :
    cutTag? none (as ++ bs) = (cutTag? none bs).map fun r => (as ++ r.1, r.2) := by
  induction as with
  | nil => simp
  | cons c as ih =>
    obtain ⟨⟨hend, hquot, hapos⟩, has⟩ := List.forall_mem_cons.mp h
    rw [List.cons_append, cutTag?, if_neg hend, if_neg (by simp [hquot, hapos]), ih has,
      Option.map_map]
    rfl

/-- Inside quotes, everything up to the closing one belongs to a tag. -/
theorem cutTag?_quoted {as : List Char} {q : Char} (h : ∀ c ∈ as, c ≠ q) (bs : List Char) :
    cutTag? (some q) (as ++ q :: bs) =
      (cutTag? none bs).map fun r => (as ++ q :: r.1, r.2) := by
  induction as with
  | nil => simp [cutTag?]
  | cons c as ih =>
    obtain ⟨hc, has⟩ := List.forall_mem_cons.mp h
    rw [List.cons_append, cutTag?, if_neg hc, ih has, Option.map_map]
    rfl

theorem cutTag?_spaces {as : List Char} (h : ∀ c ∈ as, Text.isSpace c = true) (bs : List Char) :
    cutTag? none (as ++ bs) = (cutTag? none bs).map fun r => (as ++ r.1, r.2) := by
  refine cutTag?_plain (fun c hc => ?_) bs
  have hspace := h c hc
  refine ⟨?_, ?_, ?_⟩ <;> rintro rfl <;> exact absurd hspace (by decide)

theorem cutTag?_word {cs : List Char} (h : IsWord cs) (bs : List Char) :
    cutTag? none (cs ++ bs) = (cutTag? none bs).map fun r => (cs ++ r.1, r.2) :=
  cutTag?_plain (fun _ hc => ⟨h.ne hc (by decide), h.ne hc (by decide), h.ne hc (by decide)⟩) bs

theorem cutTag?_attribute {a : Spelled} (h : a.WellFormed) (bs : List Char) :
    cutTag? none (a.print ++ bs) = (cutTag? none bs).map fun r => (a.print ++ r.1, r.2) := by
  have hquote : ∀ cs, cutTag? none (a.quote :: cs) =
      (cutTag? (some a.quote) cs).map fun r => (a.quote :: r.1, r.2) := by
    intro cs
    have hend : a.quote ≠ '>' := by
      rcases h.quote with hq | hq <;> rw [hq] <;> decide
    rw [cutTag?, if_neg hend, if_pos h.quote]
  have hprint : ∀ cs, a.print ++ cs = a.front ++ (a.written.name ++ (a.before ++ (['='] ++
      (a.after ++ a.quote :: (escape a.written.value ++ a.quote :: cs))))) := by
    intro cs
    simp [Spelled.print]
  rw [hprint, cutTag?_spaces h.front, cutTag?_word (Attribute.isWord h.written),
    cutTag?_spaces h.before, cutTag?_plain (by simp), cutTag?_spaces h.after, hquote,
    cutTag?_quoted fun c => h.ne_quote]
  simp [Option.map_map, Function.comp_def, hprint]

/-- **A tag ends behind its attributes.** -/
theorem cutTag?_tag {t : Tag} (h : t.WellFormed) (bs : List Char) :
    cutTag? none (t.print ++ bs) = (cutTag? none bs).map fun r => (t.print ++ r.1, r.2) := by
  have hattributes : ∀ (as : List Spelled) (cs : List Char), (∀ a ∈ as, a.WellFormed) →
      cutTag? none (as.flatMap Spelled.print ++ cs) =
        (cutTag? none cs).map fun r => (as.flatMap Spelled.print ++ r.1, r.2) := by
    intro as cs has
    induction as with
    | nil => simp
    | cons a as ih =>
      obtain ⟨ha, has⟩ := List.forall_mem_cons.mp has
      rw [List.flatMap_cons, List.append_assoc, cutTag?_attribute ha, ih has]
      simp [Option.map_map, Function.comp_def]
  rw [Tag.print, List.append_assoc, cutTag?_word (Markup.Name.isWord h.name), List.append_assoc,
    hattributes t.attributes _ h.attributes, cutTag?_spaces h.back]
  simp [Option.map_map, Function.comp_def]

/-- The name of a tag ends where its attributes begin. -/
theorem tagName_print {t : Tag} (h : t.WellFormed) : tagName t.print = t.name.print ∧
    t.print.dropWhile (fun c => !Text.isSpace c) =
      t.attributes.flatMap Spelled.print ++ t.back := by
  have hword : ∀ c ∈ t.name.print, (!Text.isSpace c) = true := by
    intro c hc
    rw [(Markup.Name.isWord h.name).isSpace hc]
    rfl
  -- what follows the name begins with space or is not there
  have hcut : ∀ rest, rest = [] ∨ (∃ c cs, rest = c :: cs ∧ Text.isSpace c = true) →
      (t.name.print ++ rest).takeWhile (fun c => !Text.isSpace c) = t.name.print ∧
        (t.name.print ++ rest).dropWhile (fun c => !Text.isSpace c) = rest := by
    rintro rest (rfl | ⟨c, cs, rfl, hc⟩)
    · rw [List.append_nil]
      exact ⟨List.takeWhile_eq_self_iff.mpr hword, List.dropWhile_eq_nil_iff.mpr hword⟩
    · have hc : (!Text.isSpace c) = false := by rw [hc]; rfl
      exact ⟨Text.takeWhile_append_cons hword hc, Text.dropWhile_append_cons hword hc⟩
  refine hcut _ ?_
  cases hattributes : t.attributes with
  | nil =>
    cases hback : t.back with
    | nil => exact .inl rfl
    | cons c cs => exact .inr ⟨c, cs, rfl, h.back c (by rw [hback]; exact List.mem_cons_self)⟩
  | cons a as =>
    have ha := h.attributes a (by rw [hattributes]; exact List.mem_cons_self)
    obtain ⟨c, cs, hprint, hc⟩ := ha.print_eq_cons
    rw [List.flatMap_cons, hprint]
    exact .inr ⟨c, _, rfl, hc⟩

/-- **The element that a tag announces.** -/
theorem elementOfTag_print {t : Tag} (h : t.WellFormed) :
    tagName t.print = t.name.print ∧ elementOfTag t.print = .ok t.element := by
  obtain ⟨hname, hrest⟩ := tagName_print h
  rw [elementOfTag, hname, hrest,
    readAttributes_print h.back h.attributes h.distinct [] (fun _ _ => rfl),
    Markup.Name.localName_print h.name]
  refine ⟨rfl, ?_⟩
  rw [Tag.element, Markup.attributeTable, List.filterMap_map]
  rfl

end Xml

end BpmnModel
