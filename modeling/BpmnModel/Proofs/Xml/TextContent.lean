import BpmnModel.Proofs.Text.Pieces
import BpmnModel.Proofs.Xml.Contents

/-!
# The text of an element

The text of an element comes in pieces, between which comments, instructions, inner elements and the
ends of character sections may stand.  The reader trims each piece before it adds it to the text, so
that the blanks are lost that separate a word from the next one across such a place.  The text is
what the document says of it, trimmed as a whole, as long as no blank stands there.

## Main definitions

* `Xml.wholeText pieces` — the pieces that are not blank, put together and then trimmed.
* `Element.ToldBy d row` — the element has the tag, the attributes and the text that a document
  tells.

## Main statements

* `Xml.joined_eq_wholeText_iff` — when both ways of trimming agree.
* `Xml.toldBy_of_read` — what an accepted document tells of each of its elements.
* `Xml.read_separated` — words that lose the blank between them.
-/

namespace BpmnModel

namespace Xml

/-- The text that the pieces make up when it is trimmed as a whole. -/
def wholeText (pieces : List (List Char)) : String :=
  String.ofList (Text.trimBlanks (pieces.filter Text.isSolid).flatten)

/-- **Both ways of trimming agree** when, and only when, no blank stands where two pieces meet. -/
theorem joined_eq_wholeText_iff (pieces : List (List Char)) :
    joined pieces = wholeText pieces ↔ (pieces.filter Text.isSolid).IsChain Text.Abut := by
  rw [joined, wholeText, String.ofList_inj, Text.flatMap_trimBlanks_eq_iff]

end Xml

/-- The element has the text that its pieces make up, each of them trimmed.  This is what the whole
text would be when it is trimmed, unless a blank stands where two of the pieces meet. -/
structure Element.ToldBy (d : Element) (row : List Char × List (List Char)) : Prop extends
    d.AnnouncedBy row where
  whole : d.text = Xml.wholeText row.2 ↔ (row.2.filter Text.isSolid).IsChain Text.Abut

namespace Xml

variable {text : String} {e d : Element} {row : List Char × List (List Char)}

theorem toldBy_of_announcedBy (h : d.AnnouncedBy row) : d.ToldBy row :=
  { h with whole := by rw [h.text, joined_eq_wholeText_iff] }

/-- **What an accepted document tells of each of its elements**, in the order of their tags. -/
theorem toldBy_of_read (h : read text = .ok e) :
    List.Forall₂ Element.ToldBy (e :: e.descendants) (contents (tokens text)) :=
  (announcedBy_of_read h).imp fun _ _ => toldBy_of_announcedBy

/-- Where pieces abut, only the blanks at the ends of the text are cut. -/
theorem toldBy_of_read_abutting :
    ∃ e, read "<a> x y &amp;<b> z </b><![CDATA[<z]]><!-- c --> </a>" = .ok e ∧
      (e :: e.descendants).map Element.text = ["x y &<z", "z"] ∧
      List.Forall₂ Element.ToldBy (e :: e.descendants)
        (contents (tokens "<a> x y &amp;<b> z </b><![CDATA[<z]]><!-- c --> </a>")) := by
  obtain ⟨e, he, htexts⟩ := Outcome.exists_of_toOption_map
    (show (read "<a> x y &amp;<b> z </b><![CDATA[<z]]><!-- c --> </a>").toOption.map
        (fun e => (e :: e.descendants).map Element.text) = some ["x y &<z", "z"] from by
      decide +kernel)
  exact ⟨e, he, htexts, toldBy_of_read he⟩

/-- **The blank between two words is lost** where a comment stands between them: the document tells
two words, and the element has one. -/
theorem read_separated :
    (contents (tokens "<a>x<!-- c --> y</a>")).map (fun row => wholeText row.2) = ["x y"] ∧
      (read "<a>x<!-- c --> y</a>").toOption.map Element.text = some "xy" := by
  decide +kernel

end Xml

end BpmnModel
