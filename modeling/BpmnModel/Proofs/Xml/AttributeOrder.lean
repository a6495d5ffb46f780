import BpmnModel.Compile.Compiler
import BpmnModel.Proofs.Table
import BpmnModel.Proofs.Xml.Contents
import BpmnModel.Proofs.Xml.Tags

/-!
# The order of attributes

Two documents that differ only in the order of the attributes in their tags should be one document.
The names in a tag differ, prefixes included, since a name that stands twice is told as a fault.
But the tree knows local names only, and of two attributes with one local name it takes the later
one.  Nothing else in the tree depends on the order.

## Main definitions

* `Xml.written content` — the attributes of a tag as they are written.
* `Xml.valueOf? content key` — the value of the last attribute of a tag with a local name.
* `Token.Reordered t t'` — two tags with the same attributes in another order, or the same token.
* `Xml.SameValues content content'` — the last attributes of each local name have the same value.

## Main statements

* `Xml.readAttributes_eq_ok` — the attributes that are read are those that are written.
* `Xml.sameAttributes_print` — tags that are written with their attributes in another order.
* `Xml.eq_iff_of_reordered` — when the order of the attributes does not matter.
* `Xml.read_rivals` — a document in which it does.
-/

namespace BpmnModel.Xml

variable {cs content content' : List Char} {size : Nat} {seen : List (List Char × Nat)}
variable {entries : List (String × String)} {e e' : Element} {text text' : String}

/-! ## Attributes as written -/

/-- The attributes of what remains of a tag as they are written, their places left out. -/
def writtenFrom (cs : List Char) : List RawAttribute :=
  match h : nextAttribute 0 [] cs with
  | .ok (some (a, rest)) =>
    have : rest.length < cs.length := length_lt_of_nextAttribute h
    a :: writtenFrom rest
  | _ => []
termination_by cs.length

/-- The attributes of a tag as they are written. -/
def written (content : List Char) : List RawAttribute :=
  writtenFrom (content.dropWhile fun c => !Text.isSpace c)

/-- The local name and the value of an attribute that is no declaration. -/
def RawAttribute.pair? (a : RawAttribute) : Option (String × String) :=
  a.entry?.toOption.join

/-- The value of the last attribute of a tag with a local name. -/
def valueOf? (content : List Char) (key : String) : Option String :=
  ((written content).filterMap RawAttribute.pair?).reverse.lookup key

theorem writtenFrom_of_some {a : RawAttribute} {rest : List Char}
    (h : nextAttribute 0 [] cs = .ok (some (a, rest))) : writtenFrom cs = a :: writtenFrom rest := by
  rw [writtenFrom]
  split <;> simp_all

theorem writtenFrom_of_none (h : nextAttribute 0 [] cs = .ok none) : writtenFrom cs = [] := by
  rw [writtenFrom]
  split <;> simp_all

/-- Values do not depend on their places. -/
theorem readValue_eq_ok {value : List Char × List Char} (h : readValue size cs = .ok value)
    (size' : Nat) : readValue size' cs = .ok value := by
  unfold readValue at h ⊢
  split at h
  · simp at h
  · split at h
    · rename_i hquote
      rw [if_pos hquote]
      split at h
      · simp at h
      · exact h
    · simp at h

/-- An attribute depends on its place, and on those before it, for the fault that is told only. -/
theorem nextAttribute_eq_ok {o : Option (RawAttribute × List Char)}
    (h : nextAttribute size seen cs = .ok o) :
    nextAttribute 0 [] cs = .ok (o.map fun r => ({ r.1 with position := 0 }, r.2)) := by
  unfold nextAttribute at h ⊢
  split at h
  · obtain rfl := Except.ok.inj h
    rfl
  · simp only at h ⊢
    split at h
    · split at h
      · simp at h
      · obtain ⟨value, hvalue, rfl⟩ := Outcome.map_eq_ok_iff.mp h
        simp [readValue_eq_ok hvalue 0, Except.map]
    · simp at h

/-- **The attributes of a tag are read in the order in which they are written.** -/
theorem readAttributes_eq_ok (h : readAttributes size seen cs = .ok entries) :
    entries = (writtenFrom cs).filterMap RawAttribute.pair? := by
  revert h
  fun_induction readAttributes size seen cs generalizing entries
  case case1 => simp
  case case2 seen cs hnone =>
    rintro ⟨⟩
    rw [writtenFrom_of_none (nextAttribute_eq_ok hnone)]
    rfl
  case case3 seen cs a rest hnext hlt ih =>
    intro h
    obtain ⟨entry, hentry, h⟩ := Outcome.bind_eq_ok_iff.mp h
    obtain ⟨more, hmore, h⟩ := Outcome.bind_eq_ok_iff.mp h
    obtain rfl := Outcome.pure_eq_ok_iff.mp h
    have hpair : RawAttribute.pair? { a with position := 0 } = entry := by
      have hplace : RawAttribute.entry? { a with position := 0 } = .ok entry := hentry
      rw [RawAttribute.pair?, hplace]
      rfl
    rw [writtenFrom_of_some (nextAttribute_eq_ok hnext), List.filterMap_cons, hpair, ih hmore]
    cases entry <;> rfl

theorem elementOfTag_eq_ok (h : elementOfTag content = .ok e) :
    e = { tag := localName (tagName content)
          attributes := .ofList ((written content).filterMap RawAttribute.pair?) } := by
  rw [elementOfTag] at h
  split at h
  · rename_i entries hentries
    rw [← Except.ok.inj h, readAttributes_eq_ok hentries]
    rfl
  · simp at h

theorem attr?_of_elementOfTag (h : elementOfTag content = .ok e) (key : String) :
    e.attr? key = valueOf? content key := by
  rw [elementOfTag_eq_ok h]
  exact Table.get?_ofList _ key

/-! ## Another order -/

/-- What stands between the brackets of a tag that opens an element. -/
def Token.tag? : Token → Option (List Char)
  | .start content => some content
  | .empty content => some content
  | _ => none

/-- The tags of a document that open an element. -/
def tags (text : String) : List (List Char) :=
  (tokens text).filterMap Token.tag?

/-- Two tags with the same name and the same attributes. -/
def SameAttributes (content content' : List Char) : Prop :=
  tagName content = tagName content' ∧ (written content).Perm (written content')

instance (content content' : List Char) : Decidable (SameAttributes content content') :=
  inferInstanceAs (Decidable (_ ∧ _))

/-- Two tags of one kind that have the same attributes in any order, or the same token. -/
def Token.Reordered : Token → Token → Prop
  | .start content, .start content' => SameAttributes content content'
  | .empty content, .empty content' => SameAttributes content content'
  | t, t' => t = t'

instance : DecidableRel Token.Reordered := fun t t' => by
  unfold Token.Reordered
  split <;> infer_instance

/-- Of each local name, the last attributes in the two tags have the same value. -/
def SameValues (content content' : List Char) : Prop :=
  ∀ key, valueOf? content key = valueOf? content' key

/-- The local names of the attributes of a tag, declarations left out. -/
def localNames (content : List Char) : List String :=
  ((written content).filter fun a => !isDeclaration a.name).map fun a => localName a.name

theorem RawAttribute.pair?_eq_some {a : RawAttribute} {entry : String × String}
    (h : a.pair? = some entry) : isDeclaration a.name = false ∧ entry.1 = localName a.name := by
  unfold pair? entry? at h
  split at h
  · simp [Except.toOption] at h
  · rename_i hdeclaration
    refine ⟨by simpa using hdeclaration, ?_⟩
    cases hvalue : expand a.value with
    | error fault => simp [hvalue, Except.toOption] at h
    | ok value =>
      obtain rfl : (localName a.name, String.ofList value) = entry := by
        simpa [hvalue, Except.toOption] using h
      rfl

/-- What is entered for a tag are attributes with their local names. -/
theorem sublist_localNames (content : List Char) :
    (((written content).filterMap RawAttribute.pair?).map Prod.fst).Sublist
      (localNames content) := by
  rw [localNames]
  induction written content with
  | nil => exact .slnil
  | cons a as ih =>
    cases hpair : a.pair? with
    | none =>
      rw [List.filterMap_cons_none hpair]
      exact ih.trans (((List.sublist_cons_self a as).filter _).map _)
    | some entry =>
      obtain ⟨hdeclaration, hname⟩ := RawAttribute.pair?_eq_some hpair
      rw [List.filterMap_cons_some hpair, List.filter_cons_of_pos (by simp [hdeclaration]),
        List.map_cons, List.map_cons, hname]
      exact ih.cons_cons _

/-- **The order of attributes with different local names does not matter.** -/
theorem SameAttributes.sameValues (h : SameAttributes content content')
    (hnames : (localNames content).Nodup) : SameValues content content' := by
  intro key
  have hperm := h.2.filterMap RawAttribute.pair?
  have hnodup := (sublist_localNames content).nodup hnames
  have hnodup' := (hperm.map Prod.fst).nodup_iff.mp hnodup
  rw [valueOf?, valueOf?, Table.lookup_reverse_of_nodup hnodup,
    Table.lookup_reverse_of_nodup hnodup', Table.lookup_perm hperm hnodup]

/-- Tags with the same name and the same values announce the same element. -/
theorem elementOfTag_unique (he : elementOfTag content = .ok e)
    (he' : elementOfTag content' = .ok e') (hname : tagName content = tagName content')
    (h : SameValues content content') : e = e' := by
  have htable : Table.ofList ((written content).filterMap RawAttribute.pair?) =
      .ofList ((written content').filterMap RawAttribute.pair?) := Table.ext_get? fun key => by
    rw [Table.get?_ofList, Table.get?_ofList]
    exact h key
  rw [elementOfTag_eq_ok he, elementOfTag_eq_ok he', hname, htable]

/-! ## Written tags -/

section Written

open Markup (Spelled Tag)

variable {tag tag' : Tag}

/-- An attribute as the reader finds it. -/
def rawOf (a : Spelled) : RawAttribute where
  name := a.written.name
  position := 0
  value := Markup.escape a.written.value

theorem written_print (h : tag.WellFormed) : written tag.print = tag.attributes.map rawOf := by
  have hrow : ∀ attributes : List Spelled, (∀ a ∈ attributes, a.WellFormed) →
      writtenFrom (attributes.flatMap Spelled.print ++ tag.back) = attributes.map rawOf := by
    intro attributes
    induction attributes with
    | nil =>
      intro _
      refine writtenFrom_of_none ?_
      rw [List.flatMap_nil, List.nil_append, nextAttribute, Text.trimStart,
        List.dropWhile_eq_nil_iff.mpr h.back]
    | cons a attributes ih =>
      intro hattributes
      obtain ⟨ha, hattributes⟩ := List.forall_mem_cons.mp hattributes
      have hseen : ([] : List (List Char × Nat)).lookup a.written.name = none := rfl
      obtain ⟨position, hnext⟩ := nextAttribute_print 0 ha hseen
        (attributes.flatMap Spelled.print ++ tag.back)
      rw [List.flatMap_cons, List.append_assoc, writtenFrom_of_some (nextAttribute_eq_ok hnext),
        ih hattributes]
      rfl
  rw [written, (tagName_print h).2, hrow _ h.attributes]

/-- **A tag that is written with its attributes in another order** has the same attributes, however
its quotes and its space are chosen. -/
theorem sameAttributes_print (h : tag.WellFormed) (h' : tag'.WellFormed)
    (hname : tag.name = tag'.name)
    (hperm : (tag.attributes.map Spelled.written).Perm (tag'.attributes.map Spelled.written)) :
    SameAttributes tag.print tag'.print := by
  have hraw : ∀ as : List Spelled, as.map rawOf = (as.map Spelled.written).map fun a =>
      { name := a.name, position := 0, value := Markup.escape a.value } := fun as => by
    rw [List.map_map]
    rfl
  constructor
  · rw [(tagName_print h).1, (tagName_print h').1, hname]
  · rw [written_print h, written_print h', hraw, hraw]
    exact hperm.map _

end Written

/-! ## Two readings -/

variable {r r₁ r₂ : Reading} {t t' : Token} {ts ts' : List Token}

theorem Token.Reordered.eq_or (h : t.Reordered t') : t = t' ∨ ∃ content content',
    SameAttributes content content' ∧ (t = .start content ∧ t' = .start content' ∨
      t = .empty content ∧ t' = .empty content') := by
  unfold Token.Reordered at h
  split at h
  · exact .inr ⟨_, _, h, .inl ⟨rfl, rfl⟩⟩
  · exact .inr ⟨_, _, h, .inr ⟨rfl, rfl⟩⟩
  · exact .inl h

/-- Of reordered tokens, both open an element or neither does. -/
theorem Token.Reordered.forall₂_cons_iff (h : t.Reordered t') {R : List Char → List Char → Prop} :
    List.Forall₂ R ((t :: ts).filterMap tag?) ((t' :: ts').filterMap tag?) ↔
      List.Forall₂ R t.tag?.toList t'.tag?.toList ∧
        List.Forall₂ R (ts.filterMap tag?) (ts'.filterMap tag?) := by
  rcases h.eq_or with rfl | ⟨content, content', -, ⟨rfl, rfl⟩ | ⟨rfl, rfl⟩⟩
  · cases t <;> simp [tag?, List.filterMap_cons]
  · simp [tag?]
  · simp [tag?]

/-- A tag with the same attributes in another order takes a reading to the same one, if it has the
same values. -/
theorem step_unique (ht : t.Reordered t')
    (hvalues : List.Forall₂ SameValues t.tag?.toList t'.tag?.toList) (h : Step r t r₁)
    (h' : Step r t' r₂) : r₁ = r₂ := by
  rcases ht.eq_or with rfl | ⟨content, content', hsame, ⟨rfl, rfl⟩ | ⟨rfl, rfl⟩⟩
  · exact h.unique h'
  · obtain ⟨hvalue, -⟩ := List.forall₂_cons.mp hvalues
    cases h with
    | start he =>
      cases h' with
      | start he' =>
        obtain rfl := elementOfTag_unique he he' hsame.1 hvalue
        rw [hsame.1]
  · obtain ⟨hvalue, -⟩ := List.forall₂_cons.mp hvalues
    cases h with
    | empty he hp =>
      cases h' with
      | empty he' hp' =>
        obtain rfl := elementOfTag_unique he he' hsame.1 hvalue
        rw [Except.ok.inj (hp.symm.trans hp')]

theorem run_unique (hts : List.Forall₂ Token.Reordered ts ts')
    (hvalues : List.Forall₂ SameValues (ts.filterMap Token.tag?) (ts'.filterMap Token.tag?))
    (h : Run r ts r₁) (h' : Run r ts' r₂) : r₁ = r₂ := by
  induction h generalizing ts' with
  | nil =>
    obtain rfl := List.forall₂_nil_left_iff.mp hts
    cases h'
    rfl
  | cons hstep _ ih =>
    obtain ⟨t', ts', ht, hrest, rfl⟩ := List.forall₂_cons_left_iff.mp hts
    obtain ⟨hfirst, hvalues⟩ := ht.forall₂_cons_iff.mp hvalues
    cases h' with
    | cons hstep' hrun' =>
      obtain rfl := step_unique ht hfirst hstep hstep'
      exact ih hrest hvalues hrun'

/-! ## Two documents -/

theorem forall₂_sameAttributes (h : List.Forall₂ Token.Reordered ts ts') :
    List.Forall₂ SameAttributes (ts.filterMap Token.tag?) (ts'.filterMap Token.tag?) := by
  have hrefl : ∀ content, SameAttributes content content := fun _ => ⟨rfl, .refl _⟩
  induction h with
  | nil => exact .nil
  | cons ht _ ih =>
    refine ht.forall₂_cons_iff.mpr ⟨?_, ih⟩
    rcases ht.eq_or with rfl | ⟨content, content', hsame, ⟨rfl, rfl⟩ | ⟨rfl, rfl⟩⟩
    · exact List.forall₂_same.mpr fun content _ => hrefl content
    · exact .cons hsame .nil
    · exact .cons hsame .nil

theorem map_fst_contents (ts : List Token) :
    (contents ts).map Prod.fst = ts.filterMap Token.tag? := by
  induction ts with
  | nil => rfl
  | cons t ts ih => cases t <;> simp [contents, Token.tag?, List.filterMap_cons, ih]

/-- The elements of a tree have the values of their tags. -/
theorem forall₂_valueOf?_of_read (h : read text = .ok e) :
    List.Forall₂ (fun d content => ∀ key, d.attr? key = valueOf? content key)
      (e :: e.descendants) (tags text) := by
  rw [tags, ← map_fst_contents, List.forall₂_map_right_iff]
  exact (announcedBy_of_read h).imp fun d row hd key => attr?_of_elementOfTag hd.tag key

/-- **When the order of attributes does not matter.**  Two accepted documents that differ in it only
are read as one tree when, and only when, the last attributes of each local name have the same
values in each two of their tags; this is so when no tag has two attributes with one local name. -/
theorem eq_iff_of_reordered (h : List.Forall₂ Token.Reordered (tokens text) (tokens text'))
    (he : read text = .ok e) (he' : read text' = .ok e') :
    (e = e' ↔ List.Forall₂ SameValues (tags text) (tags text')) ∧
      ((∀ content ∈ tags text, (localNames content).Nodup) → e = e') ∧
      (e = e' → ∀ c : Compiler, c.compileText text = c.compileText text') := by
  have hvalues : List.Forall₂ SameValues (tags text) (tags text') → e = e' := by
    intro hvalues
    obtain ⟨r, hrun, hfinish⟩ := run_of_read he
    obtain ⟨r', hrun', hfinish'⟩ := run_of_read he'
    obtain rfl := run_unique h hvalues hrun hrun'
    exact Except.ok.inj (hfinish.symm.trans hfinish')
  refine ⟨⟨?same, hvalues⟩, fun hnames => hvalues ?distinct, ?compile⟩
  case same =>
    rintro rfl
    have hback := (forall₂_valueOf?_of_read he).flip
    refine (Outcome.forall₂_trans hback (forall₂_valueOf?_of_read he')).imp ?_
    rintro content content' ⟨d, hd, hd'⟩ key
    exact (hd key).symm.trans (hd' key)
  case distinct =>
    have hsame := (List.forall₂_and_left _ _).mpr ⟨hnames, forall₂_sameAttributes h⟩
    exact hsame.imp fun _ _ ⟨hnodup, hattributes⟩ => hattributes.sameValues hnodup
  case compile =>
    rintro rfl c
    rw [Compiler.compileText, Compiler.compileText, he, he']

/-- Attributes with different local names may change places, whatever their prefixes and between
what quotes their values stand. -/
theorem eq_iff_of_reordered_names :
    ∃ e, read "<a x='1' v:y='&lt;'><b/></a>" = .ok e ∧
      read "<a v:y=\"&lt;\"  x='1'><b /></a>" = .ok e ∧
      e.attributes.entries = [("x", "1"), ("y", "<")] := by
  obtain ⟨e, he, hentries⟩ := Outcome.exists_of_toOption_map
    (show (read "<a x='1' v:y='&lt;'><b/></a>").toOption.map (fun e => e.attributes.entries) =
      some [("x", "1"), ("y", "<")] from by decide +kernel)
  obtain ⟨e', he', -⟩ := Outcome.exists_of_toOption_map
    (show (read "<a v:y=\"&lt;\"  x='1'><b /></a>").toOption.map Element.tag = some "a" from by
      decide +kernel)
  have hreordered : List.Forall₂ Token.Reordered (tokens "<a x='1' v:y='&lt;'><b/></a>")
      (tokens "<a v:y=\"&lt;\"  x='1'><b /></a>") := by decide +kernel
  obtain ⟨-, hsame, -⟩ := eq_iff_of_reordered hreordered he he'
  have hnames : ∀ content ∈ tags "<a x='1' v:y='&lt;'><b/></a>", (localNames content).Nodup := by
    decide +kernel
  obtain rfl := hsame hnames
  exact ⟨e, he, he', hentries⟩

/-- **The order of attributes matters**, because two of them may have one local name: the later one
is entered, and gives the element its identifier. -/
theorem read_rivals :
    List.Forall₂ Token.Reordered (tokens "<a id='P' v:id='Q'/>") (tokens "<a v:id='Q' id='P'/>") ∧
      (read "<a id='P' v:id='Q'/>").toOption.map Element.id = some "Q" ∧
      (read "<a v:id='Q' id='P'/>").toOption.map Element.id = some "P" := by
  decide +kernel

end BpmnModel.Xml
