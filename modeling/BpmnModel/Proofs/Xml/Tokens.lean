import BpmnModel.Proofs.Xml.Tags

/-!
# Tokens of a written document

Comments, instructions, tags and texts are one token each, whatever follows them, and separators in
front of a token do not matter.  What a token does to the tree under construction is said next to
it.

## Main statements

* `Xml.nextLexeme_start`, `Xml.nextLexeme_empty`, `Xml.nextLexeme_close` — tags.
* `Xml.nextLexeme_text` — a text in front of markup.
* `Xml.readFrom_append` — separators between tokens do not matter.
* `Xml.readFrom_start`, `Xml.readFrom_empty`, `Xml.readFrom_close` — what reading a tag does.
-/

namespace BpmnModel

namespace Text

/-! ## Marks -/

/-- A mark is found behind a text in which it does not begin. -/
theorem cut?_append {mark before after : List Char} (hne : mark ≠ [])
    (h : ∀ suffix, suffix <:+ before → suffix ≠ [] → ¬ mark <+: suffix ++ (mark ++ after)) :
    cut? mark (before ++ (mark ++ after)) = some (before, after) := by
  induction before with
  | nil =>
    obtain ⟨m, ms, rfl⟩ := List.exists_cons_of_ne_nil hne
    have hprefix : (m :: ms).isPrefixOf (m :: (ms ++ after)) = true :=
      List.isPrefixOf_iff_prefix.mpr ⟨after, rfl⟩
    rw [List.nil_append, List.cons_append, cut?, if_pos hprefix, ← List.cons_append,
      List.drop_left]
  | cons c before ih =>
    have hno : ¬ mark.isPrefixOf (c :: (before ++ (mark ++ after))) = true := by
      rw [List.isPrefixOf_iff_prefix]
      exact h (c :: before) (List.suffix_refl _) (by simp)
    have htail : ∀ suffix, suffix <:+ before → suffix ≠ [] →
        ¬ mark <+: suffix ++ (mark ++ after) :=
      fun suffix hs => h suffix (hs.trans (List.suffix_cons c before))
    rw [List.cons_append, cut?, if_neg hno, ih htail]
    rfl

end Text

namespace Xml

open Markup (IsWord Spelled Tag escape)

variable {cs rest : List Char}

/-! ## Tokens -/

/-- Separators in front of a token do not belong to it. -/
theorem nextLexeme_append {blanks : List Char} (h : ∀ c ∈ blanks, Text.isSpace c = true)
    (cs : List Char) : nextLexeme (blanks ++ cs) = nextLexeme cs := by
  rw [nextLexeme, nextLexeme, Text.trimStart_append h]

theorem nextLexeme_markup {body : List Char} {t : Token} (h : markup body = .ok (t, rest)) :
    nextLexeme ('<' :: body) = .ok (some ⟨t, '<' :: body, rest⟩) := by
  rw [nextLexeme, Text.trimStart_cons_of_not (by decide)]
  simp only [h]
  rfl

/-- Markup that begins neither like a declaration nor like an instruction is a tag. -/
theorem markup_of_cutTag? {body content : List Char} (hdeclaration : body.head? ≠ some '!')
    (hinstruction : body.head? ≠ some '?') (h : cutTag? none body = some (content, rest)) :
    markup body = .ok (tagToken content, rest) := by
  unfold markup
  split <;> simp_all

theorem nextLexeme_comment {text : List Char} (h : ¬ ['-', '-'] <:+: text ++ ['-'])
    (rest : List Char) :
    ∃ start, nextLexeme ("<!--".toList ++ (text ++ ("-->".toList ++ rest))) =
      .ok (some ⟨.ignored, start, rest⟩) := by
  have hcut : Text.cut? "-->".toList (text ++ ("-->".toList ++ rest)) = some (text, rest) := by
    refine Text.cut?_append (by decide) fun suffix ⟨before, htext⟩ hne ⟨after, hafter⟩ => h ?_
    have hmark : "-->".toList = ['-', '-', '>'] := rfl
    obtain ⟨c, suffix, rfl⟩ := List.exists_cons_of_ne_nil hne
    rw [hmark] at hafter
    obtain ⟨rfl, htail⟩ := List.cons.inj hafter
    cases suffix with
    | nil => exact ⟨before, [], by simp [← htext]⟩
    | cons d suffix =>
      obtain ⟨rfl, -⟩ := List.cons.inj htail
      exact ⟨before, suffix ++ ['-'], by simp [← htext]⟩
  refine ⟨_, nextLexeme_markup ?_⟩
  show markup ('!' :: '-' :: '-' :: (text ++ ("-->".toList ++ rest))) = _
  simp only [markup, comment?, hcut]
  rfl

theorem nextLexeme_instruction {text : List Char} (h : ¬ ['?', '>'] <:+: text)
    (hhead : text.head? ≠ some '>') (rest : List Char) :
    ∃ start, nextLexeme ("<?".toList ++ (text ++ ("?>".toList ++ rest))) =
      .ok (some ⟨.ignored, start, rest⟩) := by
  have hcut : Text.cut? "?>".toList (text ++ ("?>".toList ++ rest)) = some (text, rest) := by
    refine Text.cut?_append (by decide) fun suffix ⟨before, htext⟩ hne ⟨after, hafter⟩ => h ?_
    have hmark : "?>".toList = ['?', '>'] := rfl
    obtain ⟨c, suffix, rfl⟩ := List.exists_cons_of_ne_nil hne
    rw [hmark] at hafter
    obtain ⟨rfl, htail⟩ := List.cons.inj hafter
    cases suffix with
    | nil => exact absurd (List.cons.inj htail).1 (by decide)
    | cons d suffix =>
      obtain ⟨rfl, -⟩ := List.cons.inj htail
      exact ⟨before, suffix, by simp [← htext]⟩
  have hinstruction : instruction? (text ++ ("?>".toList ++ rest)) = some (.ignored, rest) := by
    unfold instruction?
    split
    · rename_i cs hcs
      cases text with
      | nil => simp at hcs
      | cons c text =>
        obtain ⟨rfl, -⟩ : c = '>' ∧ _ := List.cons.inj hcs
        simp at hhead
    · rw [hcut]
      rfl
  refine ⟨_, nextLexeme_markup ?_⟩
  show markup ('?' :: (text ++ ("?>".toList ++ rest))) = _
  simp only [markup, hinstruction]

section Tag

variable {t : Tag}

/-- A tag begins with a character of a name. -/
theorem head_tag (h : t.WellFormed) {d : Char} (hd : Markup.isWordChar d = false)
    (rest : List Char) : (t.print ++ rest).head? ≠ some d := by
  have hword := Markup.Name.isWord h.name
  obtain ⟨c, cs, hprint⟩ := List.exists_cons_of_ne_nil hword.1
  have hc : c ≠ d := hword.ne (by rw [hprint]; exact List.mem_cons_self) hd
  rw [Tag.print, hprint]
  simpa using hc

/-- A tag ends with a character of a name, with a quote or with space. -/
theorem getLast_tag (h : t.WellFormed) : t.print.getLast? ≠ some '/' := by
  have hspace : Text.isSpace '/' = false := by decide
  rcases List.eq_nil_or_concat t.back with hback | ⟨cs, c, hback⟩
  · rcases List.eq_nil_or_concat t.attributes with hattributes | ⟨as, a, hattributes⟩
    · intro hlast
      rw [Tag.print, hback, hattributes, List.flatMap_nil, List.append_nil, List.append_nil] at hlast
      exact (Markup.Name.isWord h.name).ne (List.mem_of_getLast? hlast) (by decide) rfl
    · have ha := h.attributes a (by rw [hattributes]; simp)
      have hprint : t.print = t.name.print ++ (as.flatMap Spelled.print ++ (a.front ++
          (a.written.name ++ (a.before ++ '=' :: (a.after ++
            a.quote :: escape a.written.value))))) ++ [a.quote] := by
        simp [Tag.print, hback, hattributes, Spelled.print]
      rw [hprint, List.getLast?_concat]
      rcases ha.quote with hq | hq <;> rw [hq] <;> decide
  · have hc := h.back c (by rw [hback]; simp)
    have hprint : t.print = t.name.print ++ (t.attributes.flatMap Spelled.print ++ cs) ++ [c] := by
      simp [Tag.print, hback]
    rw [hprint, List.getLast?_concat]
    rintro ⟨⟩
    simp [hspace] at hc

theorem nextLexeme_start (h : t.WellFormed) (rest : List Char) :
    ∃ start, nextLexeme ('<' :: (t.print ++ '>' :: rest)) =
      .ok (some ⟨.start t.print, start, rest⟩) := by
  have hcut : cutTag? none (t.print ++ '>' :: rest) = some (t.print, rest) := by
    rw [cutTag?_tag h, cutTag?]
    simp
  have htoken : tagToken t.print = .start t.print := by
    have hhead : (t.print ++ []).head? ≠ some '/' := head_tag h (by decide) []
    unfold tagToken
    split
    · rename_i hslash
      simp [hslash] at hhead
    · rw [if_neg (getLast_tag h)]
  refine ⟨_, nextLexeme_markup ?_⟩
  rw [markup_of_cutTag? (head_tag h (by decide) _) (head_tag h (by decide) _) hcut, htoken]

theorem nextLexeme_empty (h : t.WellFormed) (rest : List Char) :
    ∃ start, nextLexeme ('<' :: (t.print ++ ("/>".toList ++ rest))) =
      .ok (some ⟨.empty t.print, start, rest⟩) := by
  have hcut : cutTag? none (t.print ++ ("/>".toList ++ rest)) = some (t.print ++ ['/'], rest) := by
    rw [cutTag?_tag h]
    rfl
  have htoken : tagToken (t.print ++ ['/']) = .empty t.print := by
    have hhead : (t.print ++ ['/']).head? ≠ some '/' := head_tag h (by decide) ['/']
    unfold tagToken
    split
    · rename_i hslash
      simp [hslash] at hhead
    · rw [List.getLast?_concat, List.dropLast_concat]
      rfl
  refine ⟨_, nextLexeme_markup ?_⟩
  rw [markup_of_cutTag? (head_tag h (by decide) _) (head_tag h (by decide) _) hcut, htoken]

/-- An end tag has the name of its start tag, and space may follow the name. -/
theorem nextLexeme_close {name : Markup.Name} (h : name.wellFormed = true) {back : List Char}
    (hback : ∀ c ∈ back, Text.isSpace c = true) (rest : List Char) :
    ∃ start, nextLexeme ("</".toList ++ (name.print ++ (back ++ '>' :: rest))) =
      .ok (some ⟨.close name.print, start, rest⟩) := by
  have hword := Markup.Name.isWord h
  have hcut : cutTag? none ('/' :: (name.print ++ (back ++ '>' :: rest))) =
      some ('/' :: (name.print ++ back), rest) := by
    have hslash : '/' :: (name.print ++ (back ++ '>' :: rest)) =
        ['/'] ++ (name.print ++ (back ++ '>' :: rest)) := rfl
    rw [hslash, cutTag?_plain (by simp), cutTag?_word hword, cutTag?_spaces hback, cutTag?]
    simp
  have hclosing : closingName (name.print ++ back) = name.print := by
    have htrim : Text.trimEnd Text.isSpace (name.print ++ back) = name.print := by
      rcases List.eq_nil_or_concat name.print with hnil | ⟨cs, c, hconcat⟩
      · exact absurd hnil hword.1
      · rw [hconcat, List.concat_eq_append]
        exact Text.trimEnd_append (hword.isSpace (by simp [hconcat])) hback cs
    rw [closingName, htrim]
    split
    · rename_i hnil
      exact absurd hnil hword.1
    · rfl
  refine ⟨_, nextLexeme_markup ?_⟩
  show markup ('/' :: (name.print ++ (back ++ '>' :: rest))) = _
  rw [markup_of_cutTag? (by simp) (by simp) hcut, tagToken, hclosing]

end Tag

/-- A character that is no blank is written without separators at its ends. -/
theorem escapeChar_ends {c : Char} (h : Text.isBlank c = false) :
    (∃ d ds, Markup.escapeChar c = d :: ds ∧ Text.isSpace d = false) ∧
      ∃ ds d, Markup.escapeChar c = ds ++ [d] ∧ Text.isSpace d = false := by
  have hc := Text.isSpace_of_not_isBlank h
  rcases Markup.escapeChar_cases c with ⟨hplain, -⟩ | ⟨name, hname, -⟩
  · exact ⟨⟨c, [], hplain, hc⟩, ⟨[], c, hplain, hc⟩⟩
  · exact ⟨⟨'&', name ++ [';'], hname, by decide⟩, ⟨'&' :: name, ';', hname, by decide⟩⟩

/-- A trimmed text is written without separators at its ends. -/
theorem escape_ends {s : String} (htrim : Text.trim s = s) (hne : s ≠ "") :
    (∃ d ds, escape s = d :: ds ∧ Text.isSpace d = false) ∧
      ∃ ds d, escape s = ds ++ [d] ∧ Text.isSpace d = false := by
  have hlist : Text.trimBlanks s.toList = s.toList := by
    rw [← Text.toList_trim, htrim]
  have hnil : s.toList ≠ [] := by
    rwa [ne_eq, String.toList_eq_nil_iff]
  constructor
  · obtain ⟨c, cs, hc⟩ := List.exists_cons_of_ne_nil hnil
    rw [hc] at hlist
    obtain ⟨⟨d, ds, hd, hspace⟩, -⟩ := escapeChar_ends (Text.isBlank_of_trimBlanks_cons hlist)
    exact ⟨d, ds ++ cs.flatMap Markup.escapeChar, by rw [escape, hc, List.flatMap_cons, hd]; rfl,
      hspace⟩
  · rcases List.eq_nil_or_concat s.toList with h | ⟨cs, c, hc⟩
    · exact absurd h hnil
    · rw [List.concat_eq_append] at hc
      rw [hc] at hlist
      obtain ⟨-, ds, d, hd, hspace⟩ := escapeChar_ends (Text.isBlank_of_trimBlanks_concat hlist)
      exact ⟨cs.flatMap Markup.escapeChar ++ ds, d, by
        rw [escape, hc, List.flatMap_append, List.flatMap_singleton, hd, List.append_assoc], hspace⟩

/-- A text in front of markup is one token, and separators between the two do not matter. -/
theorem nextLexeme_text {s : String} (htrim : Text.trim s = s) (hne : s ≠ "") {body : List Char}
    (hopens : Text.trimStart Text.isSpace cs = '<' :: body) :
    ∃ start, nextLexeme (escape s ++ cs) = .ok (some ⟨.text (escape s), start, '<' :: body⟩) := by
  obtain ⟨⟨d, ds, hstart, hd⟩, init, e, hend, he⟩ := escape_ends htrim hne
  obtain ⟨blanks, hblanks, rfl⟩ : ∃ blanks, (∀ c ∈ blanks, Text.isSpace c = true) ∧
      cs = blanks ++ '<' :: body := by
    refine ⟨cs.takeWhile Text.isSpace, fun c hc => List.mem_takeWhile_imp hc, ?_⟩
    rw [← hopens]
    exact List.takeWhile_append_dropWhile.symm
  have hrun : ∀ c ∈ escape s ++ blanks, (c != '<') = true := by
    intro c hc
    rw [bne_iff_ne]
    rcases List.mem_append.mp hc with hc | hc
    · exact (Markup.ne_of_mem_escape hc).1
    · rintro rfl
      exact absurd (hblanks _ hc) (by decide)
  have htake : (escape s ++ (blanks ++ '<' :: body)).takeWhile (· != '<') = escape s ++ blanks := by
    rw [← List.append_assoc]
    exact Text.takeWhile_append_cons hrun (by decide)
  have hdrop : (escape s ++ (blanks ++ '<' :: body)).dropWhile (· != '<') = '<' :: body := by
    rw [← List.append_assoc]
    exact Text.dropWhile_append_cons hrun (by decide)
  have hfirst : Text.trimStart Text.isSpace (escape s ++ (blanks ++ '<' :: body)) =
      escape s ++ (blanks ++ '<' :: body) := by
    rw [hstart]
    exact Text.trimStart_cons_of_not hd _
  have hlast : Text.trimEnd Text.isSpace (escape s ++ blanks) = escape s := by
    rw [hend]
    exact Text.trimEnd_append he hblanks init
  refine ⟨escape s ++ (blanks ++ '<' :: body), ?_⟩
  rw [nextLexeme, hfirst]
  split
  · rename_i hnil
    simp [hstart] at hnil
  · rename_i body' hopen
    have hmem : '<' ∈ escape s := by
      rw [hstart, List.cons_append] at hopen
      rw [hstart, (List.cons.inj hopen).1]
      exact List.mem_cons_self
    exact absurd rfl (Markup.ne_of_mem_escape hmem).1
  · rw [htake, hdrop, hlast]

/-! ## Reading on -/

section Reading

variable {whole : List Char} {r : Reading} {p : Progress}

theorem readFrom_fault {fault : MisplacedMarkup} (h : nextLexeme cs = .error fault) :
    readFrom whole r cs =
      .error (.malformed (Text.offset whole fault.remaining) fault.cause.message) := by
  rw [readFrom]
  split <;> simp_all

/-- Separators between tokens do not matter. -/
theorem readFrom_append {blanks : List Char} (h : ∀ c ∈ blanks, Text.isSpace c = true) :
    readFrom whole r (blanks ++ cs) = readFrom whole r cs := by
  have hnext := nextLexeme_append h cs
  cases hcs : nextLexeme cs with
  | error fault => rw [readFrom_fault hcs, readFrom_fault (hnext.trans hcs)]
  | ok o =>
    cases o with
    | none => rw [readFrom_done hcs, readFrom_done (hnext.trans hcs)]
    | some l =>
      cases hr : r.advance whole l with
      | error e => rw [readFrom_stop hcs hr, readFrom_stop (hnext.trans hcs) hr]
      | ok r' => rw [readFrom_step hcs hr, readFrom_step (hnext.trans hcs) hr]

theorem readFrom_ignored {start : List Char}
    (h : nextLexeme cs = .ok (some ⟨.ignored, start, rest⟩)) :
    readFrom whole r cs = readFrom whole r rest :=
  readFrom_step h rfl

theorem readFrom_text {s : String} (htrim : Text.trim s = s) (hne : s ≠ "") {body : List Char}
    (hopens : Text.trimStart Text.isSpace cs = '<' :: body) :
    readFrom whole r (escape s ++ cs) =
      readFrom whole { r with progress := r.progress.addText s.toList } cs := by
  obtain ⟨start, hnext⟩ := nextLexeme_text htrim hne hopens
  have hadvance : r.advance whole ⟨.text (escape s), start, '<' :: body⟩ =
      .ok { r with progress := r.progress.addText s.toList } := by
    simp only [Reading.advance, expand_escape]
  have hblanks : ∀ c ∈ cs.takeWhile Text.isSpace, Text.isSpace c = true :=
    fun c hc => List.mem_takeWhile_imp hc
  have hcs : cs = cs.takeWhile Text.isSpace ++ '<' :: body := by
    rw [← hopens]
    exact List.takeWhile_append_dropWhile.symm
  rw [readFrom_step hnext hadvance]
  conv_rhs => rw [hcs]
  rw [readFrom_append hblanks]

/-- A start tag opens the element that it announces. -/
theorem readFrom_start {t : Tag} (h : t.WellFormed) :
    readFrom whole r ('<' :: (t.print ++ '>' :: cs)) =
      readFrom whole { names := t.name.print :: r.names,
                       progress := r.progress.openElement t.element } cs := by
  obtain ⟨start, hnext⟩ := nextLexeme_start h cs
  obtain ⟨htag, helement⟩ := elementOfTag_print h
  refine readFrom_step hnext ?_
  simp only [Reading.advance, helement, htag]
  rfl

/-- An empty tag attaches the element that it announces. -/
theorem readFrom_empty {t : Tag} (h : t.WellFormed) (hp : r.progress.attach t.element = .ok p) :
    readFrom whole r ('<' :: (t.print ++ ("/>".toList ++ cs))) =
      readFrom whole { r with progress := p } cs := by
  obtain ⟨start, hnext⟩ := nextLexeme_empty h cs
  obtain ⟨-, helement⟩ := elementOfTag_print h
  refine readFrom_step hnext ?_
  simp only [Reading.advance, helement]
  show (r.progress.attach t.element >>= _) = _
  rw [hp]
  rfl

/-- An end tag closes the element that was opened under its name. -/
theorem readFrom_close {name : Markup.Name} (h : name.wellFormed = true) {back : List Char}
    (hback : ∀ c ∈ back, Text.isSpace c = true) {outer : List (List Char)}
    (hnames : r.names = name.print :: outer) (hp : r.progress.closeElement name.base = .ok p) :
    readFrom whole r ("</".toList ++ (name.print ++ (back ++ '>' :: cs))) =
      readFrom whole { names := outer, progress := p } cs := by
  obtain ⟨start, hnext⟩ := nextLexeme_close h hback cs
  have hdrop : r.dropName whole start name.print = .ok outer := by
    simp [Reading.dropName, hnames]
  refine readFrom_step hnext ?_
  simp only [Reading.advance, hdrop, Markup.Name.localName_print h]
  show (r.progress.closeElement name.base >>= _) = _
  rw [hp]
  rfl

end Reading

end Xml

end BpmnModel
