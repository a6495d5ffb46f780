import BpmnModel.Proofs.Outcome
import BpmnModel.Proofs.Table
import BpmnModel.Proofs.Xml.Tokens

/-!
# Written trees are read back

A tree can be written in many ways.  The writer chooses prefixes, declarations, quotes and space in
every tag, the order of the attributes, how an element without content is closed, and the comments,
instructions and separators around each element.  Reading forgets all of this: whatever the choices
were, the tree comes back.

## Main definitions

* `Markup.Filler cs` — separators, comments and instructions.
* `Markup.Written e cs`, `Markup.WrittenAll es cs` — the characters `cs` write an element, or a row
  of elements with filler around them.
* `Element.Writable e` — the names in a tree are names of the notation, and its texts are trimmed.

## Main statements

* `Xml.readFrom_written` — reading a written element attaches it.
* `Xml.exists_written_and_read` — every writable tree can be written, and is read back from
  whatever it is written as.
-/

namespace BpmnModel

namespace Markup

/-! ## Characters that write a tree -/

/-- Separators, comments and instructions in a row.  No comment or instruction holds what would
end it. -/
inductive Filler : List Char → Prop
  | nil : Filler []
  | spaces {blanks cs : List Char} (h : ∀ c ∈ blanks, Text.isSpace c = true) (hcs : Filler cs) :
    Filler (blanks ++ cs)
  | comment {text cs : List Char} (h : ¬ ['-', '-'] <:+: text ++ ['-']) (hcs : Filler cs) :
    Filler ("<!--".toList ++ (text ++ ("-->".toList ++ cs)))
  | instruction {text cs : List Char} (h : ¬ ['?', '>'] <:+: text)
      (hhead : text.head? ≠ some '>') (hcs : Filler cs) :
    Filler ("<?".toList ++ (text ++ ("?>".toList ++ cs)))

mutual

/-- The characters `cs` write the element `e`. -/
inductive Written : Element → List Char → Prop
  /-- Without text and children, it may be closed by itself. -/
  | empty {t : Tag} (ht : t.WellFormed) : Written t.element ('<' :: (t.print ++ "/>".toList))
  /-- Its text stands in front of its children, and the end tag bears the name of the tag. -/
  | element {t : Tag} {text : String} {es : List Element} {content back : List Char}
      (ht : t.WellFormed) (htext : Text.trim text = text) (hes : WrittenAll es content)
      (hback : ∀ c ∈ back, Text.isSpace c = true) :
    Written { t.element with text, children := es }
      ('<' :: (t.print ++ '>' :: (escape text ++ (content ++
        ("</".toList ++ (t.name.print ++ (back ++ ['>'])))))))

/-- The characters `cs` write the elements `es` one after the other, with filler around them. -/
inductive WrittenAll : List Element → List Char → Prop
  | nil {cs : List Char} (h : Filler cs) : WrittenAll [] cs
  | cons {filler cs ds : List Char} {e : Element} {es : List Element} (hfiller : Filler filler)
      (he : Written e cs) (hes : WrittenAll es ds) : WrittenAll (e :: es) (filler ++ (cs ++ ds))

end

/-- Filler in front of filler is filler. -/
theorem Filler.append {filler cs : List Char} (h : Filler filler) (hcs : Filler cs) :
    Filler (filler ++ cs) := by
  induction h with
  | nil => exact hcs
  | spaces h _ ih =>
    rw [List.append_assoc]
    exact .spaces h ih
  | comment h _ ih =>
    rw [List.append_assoc, List.append_assoc, List.append_assoc]
    exact .comment h ih
  | instruction h hhead _ ih =>
    rw [List.append_assoc, List.append_assoc, List.append_assoc]
    exact .instruction h hhead ih

/-- More filler in front of a row of elements changes nothing. -/
theorem WrittenAll.append_filler {es : List Element} {filler cs : List Char} (h : Filler filler)
    (hes : WrittenAll es cs) : WrittenAll es (filler ++ cs) := by
  cases hes with
  | nil hcs => exact .nil (h.append hcs)
  | cons hfiller he hes =>
    rw [← List.append_assoc]
    exact .cons (h.append hfiller) he hes

/-! ## Where markup begins -/

/-- The first character that separates nothing opens markup. -/
def Opens (cs : List Char) : Prop :=
  ∃ body, Text.trimStart Text.isSpace cs = '<' :: body

theorem opens_cons (cs : List Char) : Opens ('<' :: cs) :=
  ⟨cs, Text.trimStart_cons_of_not (by decide) cs⟩

theorem Filler.opens {filler cs : List Char} (h : Filler filler) (hcs : Opens cs) :
    Opens (filler ++ cs) := by
  induction h with
  | nil => exact hcs
  | spaces h _ ih =>
    rw [List.append_assoc, Opens, Text.trimStart_append h]
    exact ih
  | comment h _ _ => exact opens_cons _
  | instruction h hhead _ _ => exact opens_cons _

theorem Written.opens {e : Element} {cs : List Char} (h : Written e cs) (rest : List Char) :
    Opens (cs ++ rest) := by
  cases h with
  | empty ht => exact opens_cons _
  | element ht htext hes hback => exact opens_cons _

/-- What stands behind the text of an element begins with markup. -/
theorem WrittenAll.opens {es : List Element} {cs rest : List Char} (h : WrittenAll es cs)
    (hrest : Opens rest) : Opens (cs ++ rest) := by
  cases h with
  | nil h => exact h.opens hrest
  | cons hfiller he hes =>
    rw [List.append_assoc, List.append_assoc]
    exact hfiller.opens (he.opens _)

end Markup

namespace Xml

open Markup (Filler Written WrittenAll Opens Tag escape)

/-! ## Reading -/

section Reading

variable {whole rest : List Char} {r : Reading} {p : Progress}

theorem readFrom_filler {filler : List Char} (h : Filler filler) :
    readFrom whole r (filler ++ rest) = readFrom whole r rest := by
  induction h with
  | nil => rfl
  | spaces h _ ih => rw [List.append_assoc, readFrom_append h, ih]
  | comment h _ ih =>
    obtain ⟨start, hnext⟩ := nextLexeme_comment h _
    rw [List.append_assoc, List.append_assoc, List.append_assoc, readFrom_ignored hnext, ih]
  | instruction h hhead _ ih =>
    obtain ⟨start, hnext⟩ := nextLexeme_instruction h hhead _
    rw [List.append_assoc, List.append_assoc, List.append_assoc, readFrom_ignored hnext, ih]

/-- Elements that are attached to an open one become its last children. -/
theorem foldlM_attach (es : List Element) {parent : Element} {outer : List Element}
    {root : Option Element} :
    es.foldlM Progress.attach { pending := parent :: outer, root } =
      .ok { pending := { parent with children := es.reverse ++ parent.children } :: outer, root } := by
  induction es generalizing parent with
  | nil =>
    obtain ⟨tag, attributes, text, children⟩ := parent
    simp [pure, Except.pure]
  | cons e es ih =>
    rw [List.foldlM_cons]
    show es.foldlM Progress.attach
      { pending := { parent with children := e :: parent.children } :: outer, root } = _
    rw [ih]
    simp

/-- The text of an element is the first thing that is read in it. -/
theorem readFrom_ownText {names : List (List Char)} {t : Tag} {s : String}
    (htrim : Text.trim s = s) (hopens : Opens rest) :
    readFrom whole { names, progress := p.openElement t.element } (escape s ++ rest) =
      readFrom whole { names, progress := p.openElement { t.element with text := s } } rest := by
  by_cases hne : s = ""
  · subst hne
    rfl
  · obtain ⟨body, hopens⟩ := hopens
    have hadd : (p.openElement t.element).addText s.toList =
        p.openElement { t.element with text := s } := by
      have hlist : String.ofList (Text.trimBlanks s.toList) = s := htrim
      simp [Progress.addText, Progress.openElement, Tag.element, hlist]
    rw [readFrom_text htrim hne hopens, hadd]

end Reading

mutual

/-- **Reading a written element attaches it** to the tree under construction, and does nothing
else. -/
theorem readFrom_written {e : Element} {cs : List Char} (h : Written e cs)
    {whole rest : List Char} {r : Reading} {p : Progress} (hp : r.progress.attach e = .ok p) :
    readFrom whole r (cs ++ rest) = readFrom whole { r with progress := p } rest := by
  match h with
  | .empty ht => rw [List.cons_append, List.append_assoc, readFrom_empty ht hp]
  | @Written.element t text es content back ht htext hes hback =>
    have hwritten : ('<' :: (t.print ++ '>' :: (escape text ++ (content ++
        ("</".toList ++ (t.name.print ++ (back ++ ['>']))))))) ++ rest =
        '<' :: (t.print ++ '>' :: (escape text ++ (content ++
          ("</".toList ++ (t.name.print ++ (back ++ '>' :: rest)))))) := by
      simp
    have hopens : Opens (content ++ ("</".toList ++ (t.name.print ++ (back ++ '>' :: rest)))) :=
      hes.opens (Markup.opens_cons _)
    rw [hwritten, readFrom_start ht, readFrom_ownText htext hopens,
      readFrom_writtenAll hes (foldlM_attach es)]
    refine readFrom_close ht.name hback rfl ?_
    simp only [Progress.closeElement, Tag.element, List.append_nil, List.reverse_reverse, if_true]
    exact hp

/-- Reading elements in a row attaches them one after the other. -/
theorem readFrom_writtenAll {es : List Element} {cs : List Char} (h : WrittenAll es cs)
    {whole rest : List Char} {r : Reading} {p : Progress}
    (hp : es.foldlM Progress.attach r.progress = .ok p) :
    readFrom whole r (cs ++ rest) = readFrom whole { r with progress := p } rest := by
  match h with
  | .nil hfiller =>
    obtain rfl : r.progress = p := by simpa [pure, Except.pure] using hp
    exact readFrom_filler hfiller
  | .cons hfiller he hes =>
    rw [List.foldlM_cons, Outcome.bind_eq_ok_iff] at hp
    obtain ⟨p', hattach, hp⟩ := hp
    rw [List.append_assoc, List.append_assoc, readFrom_filler hfiller, readFrom_written he hattach]
    exact readFrom_writtenAll hes hp

end

/-! ## Documents -/

/-- What begins with a separator or with markup begins with no byte order mark. -/
theorem withoutMark_of_opens {cs : List Char} (h : Opens cs) : withoutMark cs = cs := by
  unfold withoutMark
  split
  · obtain ⟨body, hbody⟩ := h
    rw [Text.trimStart_cons_of_not (by decide)] at hbody
    simp at hbody
  · rfl

/-- A document is one element with filler around it. -/
theorem read_of_writtenAll {e : Element} {cs : List Char} (h : WrittenAll [e] cs) :
    read (String.ofList cs) = .ok e := by
  have hopens : Opens cs := by
    cases h with
    | cons hfiller he hes => exact hfiller.opens (he.opens _)
  have hread : readFrom cs {} cs = .ok { progress := { root := some e } } := by
    have hall : readFrom cs {} (cs ++ []) = readFrom cs { progress := { root := some e } } [] :=
      readFrom_writtenAll h rfl
    rw [List.append_nil] at hall
    rw [hall]
    exact readFrom_done rfl
  rw [read, String.toList_ofList]
  simp only [withoutMark_of_opens hopens, hread]
  rfl

end Xml

/-! ## Trees that can be written -/

namespace Element

/-- The names of an element are names of the notation, no attribute looks like a declaration, and
its text is trimmed. -/
structure Notated (e : Element) : Prop where
  tag : Markup.isName e.tag = true
  attributes : ∀ a ∈ e.attributes.entries,
    Markup.isName a.1 = true ∧ Xml.isDeclaration a.1.toList = false
  text : Text.trim e.text = e.text

/-- All elements of a tree are notated. -/
def Writable (e : Element) : Prop :=
  e.Notated ∧ ∀ d ∈ e.descendants, d.Notated

instance (e : Element) : Decidable e.Notated :=
  decidable_of_iff (Markup.isName e.tag = true ∧ (∀ a ∈ e.attributes.entries,
      Markup.isName a.1 = true ∧ Xml.isDeclaration a.1.toList = false) ∧ Text.trim e.text = e.text)
    ⟨fun h => ⟨h.1, h.2.1, h.2.2⟩, fun h => ⟨h.tag, h.attributes, h.text⟩⟩

instance (e : Element) : Decidable e.Writable :=
  inferInstanceAs (Decidable (e.Notated ∧ ∀ d ∈ e.descendants, d.Notated))

end Element

namespace Markup

/-- The attributes of an element without prefixes, in the order of their names. -/
def plainAttributes (e : Element) : List Attribute :=
  e.attributes.entries.map fun a => .plain { base := a.1 } a.2

theorem attributeTable_plainAttributes (e : Element) :
    attributeTable (plainAttributes e) = e.attributes := by
  rw [attributeTable, plainAttributes, List.filterMap_map]
  show Table.ofList (e.attributes.entries.filterMap some) = e.attributes
  rw [List.filterMap_some, Table.ofList_entries]

theorem tagWellFormed_plainAttributes {e : Element} (h : e.Notated) :
    tagWellFormed { base := e.tag } (plainAttributes e) = true := by
  have hname : Name.wellFormed { base := e.tag } = true := by
    simp [Name.wellFormed, h.tag]
  have hattributes : ∀ a ∈ plainAttributes e, a.wellFormed = true := by
    intro a ha
    obtain ⟨b, hb, rfl⟩ := List.mem_map.mp ha
    obtain ⟨hisName, hdeclaration⟩ := h.attributes b hb
    simp [Attribute.wellFormed, Name.wellFormed, Name.print, hisName, hdeclaration]
  have hnames : (plainAttributes e).map Attribute.name =
      (e.attributes.entries.map Prod.fst).map String.toList := by
    rw [plainAttributes, List.map_map, List.map_map]
    rfl
  have hnodup : ((plainAttributes e).map Attribute.name).Nodup := by
    rw [hnames]
    exact e.attributes.nodup_keys.map fun _ _ => String.toList_injective
  rw [tagWellFormed, hname, List.all_eq_true.mpr hattributes, decide_eq_true hnodup]
  rfl

mutual

/-- Every writable tree can be written. -/
theorem exists_written (e : Element) (h : e.Writable) : ∃ cs, Written e cs := by
  obtain ⟨tag, attributes, text, children⟩ := e
  obtain ⟨hown, hbelow⟩ := h
  rw [Element.descendants] at hbelow
  obtain ⟨content, hcontent⟩ := exists_writtenAll children hbelow
  have hback : ∀ c ∈ ([] : List Char), Text.isSpace c = true := by simp
  have hwritten := Written.element
    (Tag.wellFormed_printed (tagWellFormed_plainAttributes hown) hback) hown.text hcontent hback
  rw [Tag.element_printed, attributeTable_plainAttributes] at hwritten
  exact ⟨_, hwritten⟩

theorem exists_writtenAll (es : List Element) (h : ∀ d ∈ Element.listDescendants es, d.Notated) :
    ∃ cs, WrittenAll es cs := by
  cases es with
  | nil => exact ⟨[], .nil .nil⟩
  | cons e es =>
    rw [Element.listDescendants] at h
    obtain ⟨he, h⟩ := List.forall_mem_cons.mp h
    obtain ⟨hbelow, hes⟩ := List.forall_mem_append.mp h
    obtain ⟨cs, hcs⟩ := exists_written e ⟨he, hbelow⟩
    obtain ⟨ds, hds⟩ := exists_writtenAll es hes
    exact ⟨_, .cons .nil hcs hds⟩

end

end Markup

namespace Xml

open Markup (WrittenAll)

/-- **A tree is read back from whatever it is written as**, and every tree can be written whose
names are names of the notation and whose texts are trimmed. -/
theorem exists_written_and_read {e : Element} (h : e.Writable) :
    (∃ cs, WrittenAll [e] cs) ∧
      ∀ cs, WrittenAll [e] cs → read (String.ofList cs) = .ok e := by
  obtain ⟨cs, hcs⟩ := Markup.exists_written e h
  exact ⟨⟨_, .cons .nil hcs (.nil .nil)⟩, fun cs => read_of_writtenAll⟩

end Xml

/-! ## A letter -/

namespace Markup

/-- A letter with a text and two children. -/
def letter : Element where
  tag := "letter"
  attributes := .ofList [("lang", "de"), ("id", "\"<1>' & 2\"")]
  text := "a < b"
  children := [
    { tag := "to", attributes := .ofList [("name", "x")] },
    { tag := "note.1", text := "5 > 3\nok" }]

/-- The tag of the letter, with a prefix, two declarations and space in different places. -/
def letterTag : Tag where
  name := { space := some "m", base := "letter" }
  attributes := [
    { written := .declaration none "urn:x", front := [' '], quote := '\'' },
    { written := .declaration (some "m") "urn:m", front := [' '] },
    { written := .plain { space := some "xml", base := "lang" } "de", front := [' ']
      before := [' ']
      after := [' ']
      quote := '\'' },
    { written := .plain { base := "id" } "\"<1>' & 2\"", front := ['\n', ' '] }]

/-- The tag of its first child. -/
def toTag : Tag where
  name := { base := "to" }
  attributes := [
    { written := .plain { base := "name" } "x", front := [' '], quote := '\'' }]

/-- The tag of its second child. -/
def noteTag : Tag where
  name := { base := "note.1" }
  back := [' ']

/-- What is written for the letter. -/
def letterText : String :=
  "<?xml version='1.0'?>\n<!-- a - b --><m:letter xmlns='urn:x' xmlns:m=\"urn:m\" " ++
    "xml:lang = 'de'\n id=\"&quot;&lt;1&gt;&apos; &amp; 2&quot;\">a &lt; b\n " ++
    "<to name='x'/><?go on?> <note.1 >5 &gt; 3\nok</note.1\t></m:letter >\n"

end Markup

namespace Xml

open Markup (Filler Written letter letterText letterTag toTag noteTag)

/-- The letter is read back from a text that makes use of many choices. -/
theorem exists_written_and_read_letter :
    letter.Writable ∧ read letterText = .ok letter := by
  have hwritable : letter.Writable := by decide +kernel
  have hto : Written { tag := "to", attributes := .ofList [("name", "x")] } _ :=
    @Written.empty toTag (by decide +kernel)
  have hnote : Written { tag := "note.1", text := "5 > 3\nok" } _ :=
    @Written.element noteTag _ [] [] ['\t'] (by decide +kernel) (by decide +kernel)
      (.nil .nil) (List.all_eq_true.mp rfl)
  have hlines : Filler _ := @Filler.spaces ['\n', ' '] _ (List.all_eq_true.mp rfl) .nil
  have hgo : Filler _ :=
    @Filler.instruction "go on".toList _ (by decide +kernel) (by decide +kernel)
      (@Filler.spaces [' '] _ (List.all_eq_true.mp rfl) .nil)
  have hletter : Written letter _ :=
    @Written.element letterTag _ _ _ [' '] (by decide +kernel) (by decide +kernel)
      (.cons hlines hto (.cons hgo hnote (.nil .nil))) (List.all_eq_true.mp rfl)
  have hfront : Filler _ :=
    @Filler.instruction "xml version='1.0'".toList _ (by decide +kernel)
      (by decide +kernel) (@Filler.spaces ['\n'] _ (List.all_eq_true.mp rfl)
        (@Filler.comment " a - b ".toList _ (by decide +kernel) .nil))
  have hback : Filler _ := @Filler.spaces ['\n'] _ (List.all_eq_true.mp rfl) .nil
  have hread := (exists_written_and_read hwritable).2 _ (.cons hfront hletter (.nil hback))
  exact ⟨hwritable, (congrArg read (by decide +kernel)).trans hread⟩

end Xml

end BpmnModel
