import BpmnModel.Proofs.Xml.Written

/-!
# Printed markup is read back

A piece of markup stands for at most one element, and its characters are one way of writing that
element.  So a printed document is read as the element that it stands for, whatever the names have
for prefixes, however the pieces are laid out, and whatever comments and instructions stand between
them.

## Main definitions

* `Markup.WellFormed m` — the pieces that can be read back.

## Main statements

* `Markup.writtenAll_printAll` — printed pieces write the elements that they stand for.
* `Xml.read_document` — a printed document is read as the element that it stands for.
-/

namespace BpmnModel

/-! ## Well-formed markup -/

namespace Markup

mutual

/-- Names are names, blanks are separators, texts are trimmed, and comments and instructions do
not hold what would end them. -/
def WellFormed : Markup → Prop
  | .blank cs => ∀ c ∈ cs, Text.isSpace c = true
  | .comment text => ¬ ['-', '-'] <:+: text.toList ++ ['-']
  | .instruction text => ¬ ['?', '>'] <:+: text.toList ∧ text.toList.head? ≠ some '>'
  | .leaf name attributes => tagWellFormed name attributes = true
  | .element name attributes text content =>
    tagWellFormed name attributes = true ∧ Text.trim text = text ∧ AllWellFormed content

/-- All pieces of a row are well formed. -/
def AllWellFormed : List Markup → Prop
  | [] => True
  | m :: ms => WellFormed m ∧ AllWellFormed ms

end

theorem allWellFormed_iff {ms : List Markup} : AllWellFormed ms ↔ ∀ m ∈ ms, WellFormed m := by
  induction ms with
  | nil => simp [AllWellFormed]
  | cons m ms ih => rw [AllWellFormed, ih, List.forall_mem_cons]

theorem wellFormed_lineBreak (depth : Nat) : WellFormed (lineBreak depth) := by
  rw [lineBreak, WellFormed]
  intro c hc
  rcases List.mem_cons.mp hc with rfl | hc
  · rfl
  · rw [List.eq_of_mem_replicate hc]
    rfl

mutual

/-- Layout keeps markup well formed. -/
theorem wellFormed_indent (depth : Nat) (m : Markup) (h : WellFormed m) :
    WellFormed (indent depth m) := by
  cases m with
  | element name attributes text content =>
    rw [WellFormed] at h
    obtain ⟨htag, htext, hcontent⟩ := h
    rw [indent]
    split
    · rw [WellFormed, allWellFormed_iff, List.forall_mem_append, ← allWellFormed_iff]
      refine ⟨htag, rfl, allWellFormed_indentAll (depth + 1) content hcontent, ?_⟩
      intro m hm
      rw [List.mem_singleton.mp hm]
      exact wellFormed_lineBreak depth
    · rw [WellFormed]
      exact ⟨htag, htext, hcontent⟩
  | _ => rwa [indent]

theorem allWellFormed_indentAll (depth : Nat) (ms : List Markup) (h : AllWellFormed ms) :
    AllWellFormed (indentAll depth ms) := by
  cases ms with
  | nil => rwa [indentAll]
  | cons m ms =>
    rw [AllWellFormed] at h
    rw [indentAll, AllWellFormed, AllWellFormed]
    exact ⟨wellFormed_lineBreak depth, wellFormed_indent depth m h.1,
      allWellFormed_indentAll depth ms h.2⟩

end

/-! ## Printing is writing -/

mutual

/-- The characters of a piece of markup write the element that it stands for. -/
theorem written_print (m : Markup) (h : WellFormed m) {e : Element} (he : element? m = some e) :
    Written e (print m) := by
  cases m with
  | leaf name attributes =>
    rw [WellFormed] at h
    rw [element?, Option.some.injEq] at he
    have hprint : print (.leaf name attributes) =
        '<' :: ((Tag.printed name attributes [' ']).print ++ "/>".toList) := by
      simp [print, Tag.print_printed]
    rw [hprint, ← he, ← Tag.element_printed]
    exact .empty (Tag.wellFormed_printed h (by simp [Text.isSpace]))
  | element name attributes text content =>
    rw [WellFormed] at h
    obtain ⟨htag, htext, hcontent⟩ := h
    rw [element?, Option.some.injEq] at he
    have hprint : print (.element name attributes text content) =
        '<' :: ((Tag.printed name attributes []).print ++ '>' :: (escape text ++
          (printAll content ++ ("</".toList ++ (name.print ++ ([] ++ ['>'])))))) := by
      simp [print, Tag.print_printed]
    have helement : e = { (Tag.printed name attributes []).element with
        text, children := elements content } := by
      rw [Tag.element_printed, he]
    rw [hprint, helement]
    exact .element (Tag.wellFormed_printed htag (by simp)) htext
      (writtenAll_printAll content hcontent) (by simp)
  | _ => simp [element?] at he

/-- **Printed pieces write the elements that they stand for.** -/
theorem writtenAll_printAll (ms : List Markup) (h : AllWellFormed ms) :
    WrittenAll (elements ms) (printAll ms) := by
  cases ms with
  | nil =>
    rw [elements, printAll]
    exact .nil .nil
  | cons m ms =>
    rw [AllWellFormed] at h
    rw [elements, printAll]
    have hms := writtenAll_printAll ms h.2
    have hm := h.1
    cases he : element? m with
    | some e => exact .cons .nil (written_print m hm he) hms
    | none =>
      refine WrittenAll.append_filler ?_ hms
      cases m with
      | blank blanks =>
        rw [WellFormed] at hm
        rw [print, ← List.append_nil blanks]
        exact .spaces hm .nil
      | comment text =>
        rw [WellFormed] at hm
        rw [print, List.append_assoc, ← List.append_nil "-->".toList]
        exact .comment hm .nil
      | instruction text =>
        rw [WellFormed] at hm
        rw [print, List.append_assoc, ← List.append_nil "?>".toList]
        exact .instruction hm.1 hm.2 .nil
      | _ => simp [element?] at he

end

end Markup

/-! ## Documents -/

/-- **A printed document is read as the element that it stands for.** -/
theorem Xml.read_document {pieces : List Markup} {e : Element} (h : Markup.AllWellFormed pieces)
    (he : Markup.elements pieces = [e]) : read (Markup.document pieces) = .ok e := by
  have hwritten := Markup.writtenAll_printAll pieces h
  rw [he] at hwritten
  exact read_of_writtenAll hwritten

end BpmnModel
