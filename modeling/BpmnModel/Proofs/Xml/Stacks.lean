import Mathlib.Data.List.Forall2
import BpmnModel.Proofs.Xml.Contents
import BpmnModel.Proofs.Xml.Nesting

/-!
# The stacks of a reader

While a document is read, two stacks follow the tags, one of their names as they are written and one
of the elements.  They agree at every step, for every document, and so an end tag that passes the
first never fails at the second.

## Main definitions

* `Xml.Reading.Mirrors r opened n` — both stacks hold the open elements.
* `Xml.Reached whole ts r cs` — a reader of the document comes to `r` after the tokens `ts`.
* `Xml.Ends whole ts r` — all tokens of the document are `ts`, and they take the reader to `r`.
* `Xml.OfToken fault` — a fault that is told of a single token.
* `Xml.ResultOf text result` — a result, with the tags from which it follows.

## Main statements

* `Xml.mirrors_step` — a step keeps both stacks in agreement with the tags.
* `Xml.resultOf_read` — the result of a document follows from its tags, or a token is at fault.
* `Xml.wellNested` — the stacks at every step of every document, and the results that follow.
-/

namespace BpmnModel

/-! ## Both stacks -/

/-- The element is the one that a start tag announces, with the text and the children that it has
got since. -/
def Element.StartedBy (e : Element) (content : List Char) : Prop :=
  Xml.elementOfTag content = .ok { e with text := "", children := [] }

namespace Xml

variable {ts us : List Token} {t : Token} {opened opened' : List (List Char)} {n m : ℕ}
variable {r r' : Reading} {whole cs : List Char} {e : Element} {l : Lexeme}

/-- The reading holds the open elements, the innermost one first in both stacks: their full names as
they are written, and the elements themselves with local names.  Its root is there when an element
has been completed outside of all others, which happens once at most. -/
structure Reading.Mirrors (r : Reading) (opened : List (List Char)) (n : ℕ) : Prop where
  names : r.names = opened.map tagName
  elements : List.Forall₂ Element.StartedBy r.progress.pending opened
  root : r.progress.root.isSome = true ↔ 0 < n
  single : n ≤ 1

theorem tag_of_startedBy {content : List Char} (h : e.StartedBy content) :
    e.tag = localName (tagName content) := by
  rw [Element.StartedBy, elementOfTag] at h
  split at h
  · exact congrArg Element.tag (Except.ok.inj h).symm
  · simp at h

/-- The open elements have the local names of their start tags. -/
theorem Reading.Mirrors.openTags (hr : r.Mirrors opened n) :
    r.progress.openTags = opened.map fun content => localName (tagName content) := by
  have hrow : List.Forall₂ (· = ·) (r.progress.pending.map Element.tag)
      (opened.map fun content => localName (tagName content)) := by
    rw [List.forall₂_map_left_iff, List.forall₂_map_right_iff]
    exact hr.elements.imp fun _ _ => tag_of_startedBy
  rwa [List.forall₂_eq_eq_eq] at hrow

theorem mirrors_nil : Reading.Mirrors {} [] 0 where
  names := rfl
  elements := .nil
  root := by simp
  single := Nat.zero_le 1

/-- Text belongs to the innermost open element and changes nothing about its tag. -/
theorem mirrors_addText (hr : r.Mirrors opened n) (piece : List Char) :
    Reading.Mirrors { r with progress := r.progress.addText piece } opened n := by
  obtain ⟨hnames, helements, hroot, hsingle⟩ := hr
  obtain ⟨names, pending, root⟩ := r
  cases helements with
  | nil => exact ⟨hnames, .nil, hroot, hsingle⟩
  | cons he houter => exact ⟨hnames, .cons he houter, hroot, hsingle⟩

/-- A whole element is added to the innermost open one, or it is the root and the first of all. -/
theorem mirrors_attach {progress : Progress} (hr : r.Mirrors opened n)
    (hp : r.progress.attach e = .ok progress) :
    Reading.Mirrors { r with progress } opened (if opened = [] then n + 1 else n) := by
  obtain ⟨hnames, helements, hroot, hsingle⟩ := hr
  obtain ⟨names, pending, root⟩ := r
  cases helements with
  | cons he houter =>
    obtain rfl := Except.ok.inj hp
    rw [if_neg (List.cons_ne_nil _ _)]
    exact ⟨hnames, .cons he houter, hroot, hsingle⟩
  | nil =>
    cases root with
    | none =>
      obtain rfl := Except.ok.inj hp
      obtain rfl : n = 0 := by simpa using hroot
      exact ⟨hnames, .nil, by simp, by simp⟩
    | some root => simp [Progress.attach] at hp

/-- An end tag takes the innermost open element off both stacks. -/
theorem mirrors_close {content : List Char} {progress : Progress} {tag : String}
    {names : List (List Char)} (hr : r.Mirrors (content :: opened) n)
    (hnames : r.names = tagName content :: names)
    (hp : r.progress.closeElement tag = .ok progress) :
    Reading.Mirrors { names, progress } opened (if opened = [] then n + 1 else n) := by
  obtain ⟨hopen, helements, hroot, hsingle⟩ := hr
  obtain rfl : names = opened.map tagName := by simpa [hnames] using hopen
  obtain ⟨e, outer, he, houter, hpending⟩ := List.forall₂_cons_right_iff.mp helements
  have hrest : Reading.Mirrors
      ⟨opened.map tagName, { r.progress with pending := outer }⟩ opened n :=
    ⟨rfl, houter, hroot, hsingle⟩
  rw [Progress.closeElement, hpending] at hp
  split at hp
  · simp_all
  · rename_i heq
    obtain ⟨rfl, rfl⟩ := List.cons.inj heq
    split at hp
    · exact mirrors_attach hrest hp
    · simp at hp

/-- **A step keeps both stacks in agreement with the tags.** -/
theorem mirrors_step (hts : Opened ts opened n) (hr : r.Mirrors opened n) (h : Step r t r') :
    ∃ opened' n', Opened (ts ++ [t]) opened' n' ∧ r'.Mirrors opened' n' := by
  cases h with
  | @text run piece _ => exact ⟨opened, n, hts.append_other rfl, mirrors_addText hr piece⟩
  | characters content => exact ⟨opened, n, hts.append_other rfl, mirrors_addText hr content⟩
  | @start content e he =>
    have hstarted : e.StartedBy content := by
      obtain ⟨tag, attributes, text, children⟩ := e
      obtain ⟨rfl, rfl⟩ := bare_of_elementOfTag he
      exact he
    refine ⟨content :: opened, n, .inside hts .nil, ?_⟩
    exact ⟨congrArg (tagName content :: ·) hr.names, .cons hstarted hr.elements, hr.root, hr.single⟩
  | empty _ hp => exact ⟨opened, _, hts.append (.empty .nil), mirrors_attach hr hp⟩
  | @close name names progress hname hp =>
    cases opened with
    | nil => simp [hr.names] at hname
    | cons content opened =>
      obtain rfl : tagName content = name := by simpa [hr.names] using congrArg List.head? hname
      exact ⟨opened, _, hts.close, mirrors_close hr hname hp⟩
  | ignored => exact ⟨opened, n, hts.append_other rfl, hr⟩

/-! ## The steps of a document -/

/-- A reader of the document `whole` comes to the reading `r` after the tokens `ts`, with `cs` still
to be read. -/
inductive Reached (whole : List Char) : List Token → Reading → List Char → Prop
  | start : Reached whole [] {} whole
  | next {ts : List Token} {r r' : Reading} {cs : List Char} {l : Lexeme}
    (h : Reached whole ts r cs) (hl : nextLexeme cs = .ok (some l))
    (hr : r.advance whole l = .ok r') :
    Reached whole (ts ++ [l.token]) r' l.rest

theorem mirrors_of_reached (h : Reached whole ts r cs) :
    ∃ opened n, Opened ts opened n ∧ r.Mirrors opened n := by
  induction h with
  | start => exact ⟨[], 0, .outside .nil, mirrors_nil⟩
  | next _ _ hr ih =>
    obtain ⟨opened, n, hts, hmirrors⟩ := ih
    exact mirrors_step hts hmirrors (step_of_advance hr)

/-- The open start tags are those that both stacks hold. -/
theorem mirrors_of_opened (h : Reached whole ts r cs) (hts : Opened ts opened n) :
    r.Mirrors opened n := by
  obtain ⟨opened', n', hts', hr⟩ := mirrors_of_reached h
  obtain ⟨rfl, rfl⟩ := hts.unique hts'
  exact hr

/-- The tokens `ts` are all tokens of the document `whole`, and reading them ends with `r`. -/
def Ends (whole : List Char) (ts : List Token) (r : Reading) : Prop :=
  ∃ cs, Reached whole ts r cs ∧ nextLexeme cs = .ok none

/-- What is still to be read decides what comes of the whole document. -/
theorem readFrom_of_reached (h : Reached whole ts r cs) :
    readFrom whole {} whole = readFrom whole r cs := by
  induction h with
  | start => rfl
  | next _ hl hr ih => rw [ih, readFrom_step hl hr]

/-- Reading on from where a reader has come to ends with all tokens read. -/
theorem exists_ends_of_readFrom (h : Reached whole ts r cs) (hr : readFrom whole r cs = .ok r') :
    ∃ ts', Ends whole ts' r' := by
  revert h hr
  fun_induction readFrom whole r cs generalizing ts
  case case1 => simp
  case case2 r cs hnone =>
    rintro h ⟨⟩
    exact ⟨ts, cs, h, hnone⟩
  case case3 => simp
  case case4 r cs l hnext _ r₁ hadvance ih => exact fun h => ih (h.next hnext hadvance)

theorem readFrom_eq_ok_iff : readFrom whole {} whole = .ok r ↔ ∃ ts, Ends whole ts r := by
  constructor
  · exact exists_ends_of_readFrom .start
  · rintro ⟨ts, cs, h, hnone⟩
    rw [readFrom_of_reached h, readFrom_done hnone]

/-! ## Faults -/

/-- A fault that is told of a single token, of its form or of its attributes. -/
inductive OfToken : XmlError → Prop
  | malformed (position : ℕ) (message : String) : OfToken (.malformed position message)
  | attribute (element message : String) : OfToken (.attribute element message)

variable {fault : XmlError}

theorem ofToken_of_elementOfTag {content : List Char} (h : elementOfTag content = .error fault) :
    OfToken fault := by
  rw [elementOfTag] at h
  split at h
  · simp at h
  · exact Except.error.inj h ▸ .attribute _ _

theorem ofToken_of_attach {p : Progress} (h : p.attach e = .error fault) : OfToken fault := by
  unfold Progress.attach at h
  split at h
  · simp at h
  · simp at h
  · exact Except.error.inj h ▸ .malformed _ _

theorem ofToken_of_dropName {start name : List Char}
    (h : r.dropName whole start name = .error fault) : OfToken fault := by
  unfold Reading.dropName at h
  split at h
  · exact Except.error.inj h ▸ .malformed _ _
  · split at h
    · simp at h
    · exact Except.error.inj h ▸ .malformed _ _

/-- **An end tag with the full name of the innermost open tag has its local name too**, so that it
closes the innermost open element. -/
theorem ofToken_of_closeElement {name : List Char} {names : List (List Char)}
    (hr : r.Mirrors opened n) (hnames : r.names = name :: names)
    (h : r.progress.closeElement (localName name) = .error fault) : OfToken fault := by
  cases opened with
  | nil => simp [hr.names] at hnames
  | cons content opened =>
    obtain rfl : tagName content = name := by simpa [hr.names] using congrArg List.head? hnames
    obtain ⟨e, outer, he, -, hpending⟩ := List.forall₂_cons_right_iff.mp hr.elements
    rw [Progress.closeElement, hpending] at h
    simp only [if_pos (tag_of_startedBy he)] at h
    exact ofToken_of_attach h

/-- No token of a document is told as a tag that does not match or is not closed. -/
theorem ofToken_of_advance (hr : r.Mirrors opened n) (h : r.advance whole l = .error fault) :
    OfToken fault := by
  unfold Reading.advance at h
  cases ht : l.token with
  | text raw =>
    simp only [ht] at h
    split at h
    · simp at h
    · exact Except.error.inj h ▸ .malformed _ _
  | characters content => simp [ht] at h
  | start content =>
    simp only [ht, Outcome.bind_eq_error_iff] at h
    rcases h with h | ⟨e, -, h⟩
    · exact ofToken_of_elementOfTag h
    · simp [pure, Except.pure] at h
  | empty content =>
    simp only [ht, Outcome.bind_eq_error_iff] at h
    rcases h with h | ⟨e, -, h | ⟨progress, -, h⟩⟩
    · exact ofToken_of_elementOfTag h
    · exact ofToken_of_attach h
    · simp [pure, Except.pure] at h
  | close name =>
    simp only [ht, Outcome.bind_eq_error_iff] at h
    rcases h with h | ⟨names, hnames, h | ⟨progress, -, h⟩⟩
    · exact ofToken_of_dropName h
    · exact ofToken_of_closeElement hr (names_of_dropName hnames) h
    · simp [pure, Except.pure] at h
  | ignored => simp [ht] at h

theorem ofToken_of_readFrom (h : Reached whole ts r cs) (hr : readFrom whole r cs = .error fault) :
    OfToken fault := by
  revert h hr
  fun_induction readFrom whole r cs generalizing ts
  case case1 r cs fault' _ =>
    rintro - ⟨⟩
    exact .malformed _ _
  case case2 => simp
  case case3 r cs l hnext _ fault' hadvance =>
    rintro h ⟨⟩
    obtain ⟨opened, n, -, hr⟩ := mirrors_of_reached h
    exact ofToken_of_advance hr hadvance
  case case4 r cs l hnext _ r₁ hadvance ih => exact fun h => ih (h.next hnext hadvance)

/-! ## Results -/

variable {text : String} {content : List Char}

theorem finish_of_open (hr : r.Mirrors (content :: opened) n) :
    r.progress.finish = .error (.unclosed (localName (tagName content))) := by
  obtain ⟨e, outer, he, -, hpending⟩ := List.forall₂_cons_right_iff.mp hr.elements
  rw [Progress.finish, hpending]
  simp only [tag_of_startedBy he]

theorem finish_of_none (hr : r.Mirrors [] 0) : r.progress.finish = .error .emptyDocument := by
  have hpending : r.progress.pending = [] := List.forall₂_nil_right_iff.mp hr.elements
  have hroot : r.progress.root = none := by simpa using hr.root
  rw [Progress.finish, hpending, hroot]

theorem finish_of_one (hr : r.Mirrors [] 1) : ∃ e, r.progress.finish = .ok e := by
  have hpending : r.progress.pending = [] := List.forall₂_nil_right_iff.mp hr.elements
  obtain ⟨e, hroot⟩ := Option.isSome_iff_exists.mp (hr.root.mpr Nat.zero_lt_one)
  refine ⟨e, ?_⟩
  rw [Progress.finish, hpending, hroot]

theorem read_of_ends (h : Ends (withoutMark text.toList) ts r) : read text = r.progress.finish := by
  rw [read, readFrom_eq_ok_iff.mpr ⟨ts, h⟩]
  rfl

theorem mirrors_of_ends (h : Ends whole ts r) (hts : Opened ts opened n) :
    r.Mirrors opened n := by
  obtain ⟨cs, hreached, -⟩ := h
  exact mirrors_of_opened hreached hts

/-- The results of reading a document, with the tags from which each of them follows. -/
inductive ResultOf (text : String) : Except XmlError Element → Prop
  | unclosed {ts : List Token} {r : Reading} {content : List Char} {outer : List (List Char)}
    {n : ℕ} (h : Ends (withoutMark text.toList) ts r) (hts : Opened ts (content :: outer) n) :
    ResultOf text (.error (.unclosed (localName (tagName content))))
  | accepted {ts : List Token} {r : Reading} (e : Element)
    (h : Ends (withoutMark text.toList) ts r) (hts : Siblings ts 1) : ResultOf text (.ok e)
  | nothing {ts : List Token} {r : Reading} (h : Ends (withoutMark text.toList) ts r)
    (hts : Siblings ts 0) : ResultOf text (.error .emptyDocument)
  | fault {fault : XmlError} (h : OfToken fault) : ResultOf text (.error fault)

/-- **A document is read to its end, or a token of it is at fault.**  At its end, what has been read
of it depends on the tags that are open and on the elements outside of them. -/
theorem resultOf_read (text : String) : ResultOf text (read text) := by
  cases hread : readFrom (withoutMark text.toList) {} (withoutMark text.toList) with
  | error fault =>
    have herror : read text = .error fault := by
      rw [read, hread]
      rfl
    rw [herror]
    exact .fault (ofToken_of_readFrom .start hread)
  | ok r =>
    obtain ⟨ts, cs, hreached, hnone⟩ := readFrom_eq_ok_iff.mp hread
    have hends : Ends (withoutMark text.toList) ts r := ⟨cs, hreached, hnone⟩
    obtain ⟨opened, n, hts, hr⟩ := mirrors_of_reached hreached
    rw [read_of_ends hends]
    cases hts with
    | inside hts hus =>
      rw [finish_of_open hr]
      exact .unclosed hends (.inside hts hus)
    | outside hts =>
      obtain rfl | rfl := Nat.le_one_iff_eq_zero_or_eq_one.mp hr.single
      · rw [finish_of_none hr]
        exact .nothing hends hts
      · obtain ⟨e, hfinish⟩ := finish_of_one hr
        rw [hfinish]
        exact .accepted e hends hts

theorem resultOf_of_read {result : Except XmlError Element} (h : read text = result) :
    ResultOf text result :=
  h ▸ resultOf_read text

theorem read_ne_mismatchedTag (text expected found : String) :
    read text ≠ .error (.mismatchedTag expected found) := by
  intro h
  cases resultOf_of_read h with
  | fault hfault => cases hfault

theorem read_eq_unclosed_iff {tag : String} : read text = .error (.unclosed tag) ↔
    ∃ ts r content outer n, Ends (withoutMark text.toList) ts r ∧ Opened ts (content :: outer) n ∧
      localName (tagName content) = tag := by
  constructor
  · intro h
    cases resultOf_of_read h with
    | unclosed hends hts => exact ⟨_, _, _, _, _, hends, hts, rfl⟩
    | fault hfault => cases hfault
  · rintro ⟨ts, r, content, outer, n, hends, hts, rfl⟩
    rw [read_of_ends hends, finish_of_open (mirrors_of_ends hends hts)]

theorem exists_read_eq_ok_iff : (∃ e, read text = .ok e) ↔
    ∃ ts r, Ends (withoutMark text.toList) ts r ∧ Siblings ts 1 := by
  constructor
  · rintro ⟨e, h⟩
    cases resultOf_of_read h with
    | accepted _ hends hts => exact ⟨_, _, hends, hts⟩
  · rintro ⟨ts, r, hends, hts⟩
    obtain ⟨e, hfinish⟩ := finish_of_one (mirrors_of_ends hends (.outside hts))
    exact ⟨e, (read_of_ends hends).trans hfinish⟩

theorem read_eq_emptyDocument_iff : read text = .error .emptyDocument ↔
    ∃ ts r, Ends (withoutMark text.toList) ts r ∧ Siblings ts 0 := by
  constructor
  · intro h
    cases resultOf_of_read h with
    | nothing hends hts => exact ⟨_, _, hends, hts⟩
    | fault hfault => cases hfault
  · rintro ⟨ts, r, hends, hts⟩
    rw [read_of_ends hends, finish_of_none (mirrors_of_ends hends (.outside hts))]

/-- What holds of every document.  The document is read through the readings that are reached, one
token after the other.  In each of them both stacks hold the start tags that are open, the innermost
one first, the names as they are written and the elements with local names; no end tag ever fails to
match the innermost element; and when all tokens have been read, the document is refused for the
innermost open tag, is accepted if it is one whole element, and is empty if it has none. -/
structure WellNested (text : String) : Prop where
  reached : ∀ ts r cs, Reached (withoutMark text.toList) ts r cs →
    readFrom (withoutMark text.toList) {} (withoutMark text.toList) =
      readFrom (withoutMark text.toList) r cs
  nested : ∀ ts r cs, Reached (withoutMark text.toList) ts r cs → ∃ opened n, Opened ts opened n
  mirrored : ∀ ts r cs opened n, Reached (withoutMark text.toList) ts r cs → Opened ts opened n →
    r.Mirrors opened n ∧
      r.progress.openTags = opened.map fun content => localName (tagName content)
  matched : ∀ expected found, read text ≠ .error (.mismatchedTag expected found)
  unclosed : ∀ tag, read text = .error (.unclosed tag) ↔
    ∃ ts r content outer n, Ends (withoutMark text.toList) ts r ∧ Opened ts (content :: outer) n ∧
      localName (tagName content) = tag
  accepted : (∃ e, read text = .ok e) ↔
    ∃ ts r, Ends (withoutMark text.toList) ts r ∧ Siblings ts 1
  nothing : read text = .error .emptyDocument ↔
    ∃ ts r, Ends (withoutMark text.toList) ts r ∧ Siblings ts 0

/-- **In every document the stacks follow the tags**, and the result depends on the tags that are
open at its end. -/
theorem wellNested (text : String) : WellNested text where
  reached _ _ _ := readFrom_of_reached
  nested ts r cs h := by
    obtain ⟨opened, n, hts, -⟩ := mirrors_of_reached h
    exact ⟨opened, n, hts⟩
  mirrored ts r cs opened n h hts :=
    have hr := mirrors_of_opened h hts
    ⟨hr, hr.openTags⟩
  matched := read_ne_mismatchedTag text
  unclosed _ := read_eq_unclosed_iff
  accepted := exists_read_eq_ok_iff
  nothing := read_eq_emptyDocument_iff

end Xml

end BpmnModel
