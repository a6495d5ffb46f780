import Mathlib.Data.List.Forall2
import BpmnModel.Proofs.Xml.Steps

/-!
# What a document says about each element

An element comes from one tag.  The tag announces its name and its attributes; its text is made of
what stands between the tag and its end tag, the contents of inner elements left out.  A reader
builds elements from the inside out, while a document tells them in the order of their tags; both
come to the same row of elements.

## Main definitions

* `Xml.piecesAt ts depth` — the pieces of text that tokens add to an open element.
* `Xml.contents ts` — the tags that open an element, each with the pieces of text directly in it.
* `Xml.announced? row` — the element of a tag with its pieces of text, without children.
* `Element.AnnouncedBy d row` — the element has what its tag and its pieces of text say.
* `Progress.rows p ts` — the elements that a reading has met or will meet, in the order of their
  tags.

## Main statements

* `Xml.rows_step` — a step neither adds to this row nor takes from it.
* `Xml.announcedBy_of_read` — the elements of a tree are those that the tags of its document
  announce.
-/

namespace BpmnModel

/-- An element without its children. -/
def Element.bare (e : Element) : Element :=
  { e with children := [] }

/-- The elements of a tree in the order of their tags, each without its children. -/
def Element.rows (e : Element) : List Element :=
  (e :: e.descendants).map bare

namespace Xml

/-! ## Pieces of text -/

/-- The characters that a token adds to the element in which it stands. -/
def Token.piece? : Token → Option (List Char)
  | .text run => (expand run).toOption
  | .characters content => some content
  | _ => none

/-- The pieces of text that stand directly in an open element, up to its end tag.  The element is
`depth` levels above the innermost open one. -/
def piecesAt : List Token → Nat → List (List Char)
  | [], _ => []
  | .start _ :: ts, depth => piecesAt ts (depth + 1)
  | .close _ :: _, 0 => []
  | .close _ :: ts, depth + 1 => piecesAt ts depth
  | t :: ts, depth => (if depth = 0 then t.piece?.toList else []) ++ piecesAt ts depth

/-- The tags that open an element, each with the pieces of text that stand directly in the
element. -/
def contents : List Token → List (List Char × List (List Char))
  | [] => []
  | .start content :: ts => (content, piecesAt ts 0) :: contents ts
  | .empty content :: ts => (content, []) :: contents ts
  | _ :: ts => contents ts

/-- The text of an element: its pieces, each without the blanks at its two ends. -/
def joined (pieces : List (List Char)) : String :=
  String.ofList (pieces.flatMap Text.trimBlanks)

/-- The element that a tag announces, with the text that its pieces make up. -/
def announced? (row : List Char × List (List Char)) : Option Element :=
  (elementOfTag row.1).toOption.map fun e => { e with text := joined row.2 }

@[simp] theorem joined_nil : joined [] = "" := rfl

theorem joined_cons (piece : List Char) (pieces : List (List Char)) :
    joined (piece :: pieces) = String.ofList (Text.trimBlanks piece) ++ joined pieces := by
  rw [joined, List.flatMap_cons, String.ofList_append]
  rfl

end Xml

/-- The element has the name and the attributes that its tag announces, and the text that its pieces
make up. -/
structure Element.AnnouncedBy (d : Element) (row : List Char × List (List Char)) : Prop where
  tag : Xml.elementOfTag row.1 = .ok { d with text := "", children := [] }
  text : d.text = Xml.joined row.2

namespace Xml

variable {ts : List Token} {t : Token} {r r' : Reading} {text : String} {e d : Element}
variable {p q : Progress}

/-! ## The elements of a reading -/

namespace Progress

/-- The open elements from the outermost one to the innermost one, each with the text that it will
have and followed by the finished elements in it.  The first of the list is `depth` levels above the
innermost one. -/
def openRows (ts : List Token) : List Element → Nat → List Element
  | [], _ => []
  | e :: outer, depth => openRows ts outer (depth + 1) ++
      { e.bare with text := e.text ++ joined (piecesAt ts depth) } ::
        (Element.listDescendants e.children.reverse).map Element.bare

/-- The elements that a reading has met, in the order of their tags. -/
def met (p : Progress) (ts : List Token) : List Element :=
  p.root.toList.flatMap Element.rows ++ openRows ts p.pending 0

/-- The elements that a reading has met, and those that it will meet in the tokens that remain, in
the order of their tags. -/
def rows (p : Progress) (ts : List Token) : List (Option Element) :=
  (p.met ts).map some ++ (contents ts).map announced?

/-- The open elements get the same texts from tokens that add the same pieces to each of them. -/
theorem openRows_congr {ts ts' : List Token} {depth depth' : Nat}
    (h : ∀ i, piecesAt ts (depth + i) = piecesAt ts' (depth' + i)) (pending : List Element) :
    openRows ts pending depth = openRows ts' pending depth' := by
  induction pending generalizing depth depth' with
  | nil => rfl
  | cons e outer ih =>
    have houter : openRows ts outer (depth + 1) = openRows ts' outer (depth' + 1) := by
      refine ih fun i => ?_
      rw [Nat.add_assoc, Nat.add_assoc, h]
    have hown : piecesAt ts depth = piecesAt ts' depth' := h 0
    rw [openRows, openRows, houter, hown]

/-- A token that adds no piece to any element, and opens and closes none. -/
theorem met_of_piecesAt (h : ∀ depth, piecesAt (t :: ts) depth = piecesAt ts depth) (p : Progress) :
    p.met (t :: ts) = p.met ts := by
  rw [met, met, openRows_congr (fun i => h (0 + i))]

/-- A finished element is the last one that has been met. -/
theorem met_attach (h : p.attach e = .ok q) (ts : List Token) :
    q.met ts = p.met ts ++ e.rows := by
  unfold attach at h
  split at h
  · rename_i parent outer hpending
    obtain rfl := Except.ok.inj h
    simp [met, hpending, openRows, Element.bare, Element.rows, Element.listDescendants]
  · rename_i hpending hroot
    obtain rfl := Except.ok.inj h
    simp [met, hpending, hroot, openRows]
  · simp at h

/-- A piece of text belongs to the innermost open element. -/
theorem met_addText {piece : List Char} (h : t.piece? = some piece) (p : Progress) :
    (p.addText piece).met ts = p.met (t :: ts) := by
  have hpieces : ∀ depth, piecesAt (t :: ts) depth =
      (if depth = 0 then [piece] else []) ++ piecesAt ts depth := by
    intro depth
    cases t <;> simp_all [Token.piece?, piecesAt]
  unfold addText
  split
  · rename_i hpending
    simp [met, hpending, openRows]
  · rename_i e outer hpending
    have houter : openRows (t :: ts) outer 1 = openRows ts outer 1 := by
      refine openRows_congr (fun i => ?_) outer
      rw [hpieces, if_neg (by omega), List.nil_append]
    simp [met, hpending, openRows, houter, hpieces, joined_cons, Element.bare, String.append_assoc]

/-- An end tag leaves the text of the innermost open element as it is, and finishes the element. -/
theorem met_closeElement {tag : String} (h : p.closeElement tag = .ok q) (name : List Char) :
    q.met ts = p.met (.close name :: ts) := by
  unfold closeElement at h
  split at h
  · simp at h
  · rename_i e outer hpending
    split at h
    · have houter : openRows (.close name :: ts) outer 1 = openRows ts outer 0 := by
        refine openRows_congr (fun i => ?_) outer
        rw [Nat.add_comm 1 i, Nat.zero_add, piecesAt]
      rw [met_attach h]
      simp [met, hpending, openRows, houter, piecesAt, Element.rows, Element.descendants_eq,
        Element.bare]
    · simp at h

end Progress

/-! ## Steps -/

/-- A tag announces neither text nor children. -/
theorem bare_of_elementOfTag {content : List Char} (h : elementOfTag content = .ok e) :
    e.text = "" ∧ e.children = [] := by
  rw [elementOfTag] at h
  split at h
  · obtain rfl := Except.ok.inj h
    exact ⟨rfl, rfl⟩
  · simp at h

theorem announced?_of_elementOfTag {content : List Char} (h : elementOfTag content = .ok e)
    (pieces : List (List Char)) :
    announced? (content, pieces) = some { e.bare with text := joined pieces } := by
  obtain ⟨-, hchildren⟩ := bare_of_elementOfTag h
  simp [announced?, h, Except.toOption, Element.bare, hchildren]

/-- **A step neither adds to the row of elements nor takes from it.** -/
theorem rows_step (h : Step r t r') (ts : List Token) :
    r'.progress.rows ts = r.progress.rows (t :: ts) := by
  cases h with
  | @text run piece h =>
    have hpiece : (Token.text run).piece? = some piece := by
      simp [Token.piece?, h, Except.toOption]
    rw [Progress.rows, Progress.rows, Progress.met_addText hpiece]
    rfl
  | characters content =>
    rw [Progress.rows, Progress.rows, Progress.met_addText (t := .characters content) rfl]
    rfl
  | @start content e h =>
    have houter : Progress.openRows ts r.progress.pending 1 =
        Progress.openRows (.start content :: ts) r.progress.pending 0 := by
      refine Progress.openRows_congr (fun i => ?_) _
      rw [piecesAt, Nat.zero_add, Nat.add_comm 1 i]
    obtain ⟨htext, hchildren⟩ := bare_of_elementOfTag h
    simp [Progress.rows, Progress.met, Progress.openElement, Progress.openRows, contents,
      announced?_of_elementOfTag h, houter, htext, hchildren, Element.bare]
  | @empty content e progress h hp =>
    have hbefore : r.progress.met (.empty content :: ts) = r.progress.met ts :=
      Progress.met_of_piecesAt (fun depth => by cases depth <;> simp [piecesAt, Token.piece?]) _
    obtain ⟨htext, hchildren⟩ := bare_of_elementOfTag h
    simp [Progress.rows, Progress.met_attach hp, hbefore, contents, announced?_of_elementOfTag h,
      Element.rows, Element.descendants_eq, htext, hchildren, Element.bare]
  | close h hp =>
    rw [Progress.rows, Progress.rows, Progress.met_closeElement hp]
    rfl
  | ignored =>
    have hbefore : r.progress.met (.ignored :: ts) = r.progress.met ts :=
      Progress.met_of_piecesAt (fun depth => by cases depth <;> simp [piecesAt, Token.piece?]) _
    rw [Progress.rows, Progress.rows, hbefore]
    rfl

theorem rows_run (h : Run r ts r') : r'.progress.rows [] = r.progress.rows ts := by
  induction h with
  | nil => rfl
  | cons hstep _ ih => rw [ih, rows_step hstep]

theorem rows_of_read (h : read text = .ok e) :
    e.rows.map some = (contents (tokens text)).map announced? := by
  obtain ⟨r, hrun, hfinish⟩ := run_of_read h
  have hrows := rows_run hrun
  unfold Progress.finish at hfinish
  split at hfinish
  · simp at hfinish
  · simp at hfinish
  · rename_i hpending hroot
    obtain rfl := Except.ok.inj hfinish
    simpa [Progress.rows, Progress.met, hpending, hroot, Progress.openRows, contents] using hrows

theorem announcedBy_of_announced? {row : List Char × List (List Char)}
    (h : some d.bare = announced? row) : d.AnnouncedBy row := by
  obtain ⟨e, he, hd⟩ := Option.map_eq_some_iff.mp h.symm
  have helement : elementOfTag row.1 = .ok e := by
    cases hrow : elementOfTag row.1 with
    | error fault => simp [hrow, Except.toOption] at he
    | ok e' => simpa [hrow, Except.toOption] using he
  obtain ⟨htext, hchildren⟩ := bare_of_elementOfTag helement
  obtain ⟨tag, attributes, text, children⟩ := e
  obtain rfl : text = "" := htext
  obtain rfl : children = [] := hchildren
  obtain ⟨dtag, dattributes, dtext, dchildren⟩ := d
  obtain ⟨rfl, rfl, rfl⟩ : tag = dtag ∧ attributes = dattributes ∧ joined row.2 = dtext := by
    simpa [Element.bare] using hd
  exact { tag := helement, text := rfl }

/-- **The elements of a tree are those that the tags of its document announce**, in the order of the
tags and each with the text that its pieces make up. -/
theorem announcedBy_of_read (h : read text = .ok e) :
    List.Forall₂ Element.AnnouncedBy (e :: e.descendants) (contents (tokens text)) := by
  have hrows := rows_of_read h
  rw [Element.rows, List.map_map, ← List.forall₂_eq_eq_eq, List.forall₂_map_left_iff,
    List.forall₂_map_right_iff] at hrows
  exact hrows.imp fun _ _ => announcedBy_of_announced?

end Xml

end BpmnModel
