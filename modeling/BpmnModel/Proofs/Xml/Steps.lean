import BpmnModel.Proofs.Xml.Expansion
import BpmnModel.Xml.Reading

/-!
# The steps of a reading

A document is read token by token.  Where no token is at fault, the places of the tokens do not
matter, nor do the separators that a reader cuts off a text: each token takes the reading one step
further, and the steps alone decide what is read.

## Main definitions

* `Xml.tokens text` — the tokens of a document, its texts with all characters between two pieces of
  markup.
* `Xml.Step r t r'` — what a token does to a reading.
* `Xml.Run r ts r'` — what tokens do one after the other.

## Main statements

* `Xml.run_of_read` — an accepted document is a run from nothing to its tree.
-/

namespace BpmnModel.Xml

variable {cs raw piece whole : List Char} {r r' : Reading} {l : Lexeme} {t : Token}
variable {text : String} {e : Element}

/-! ## Tokens -/

/-- The token that begins `cs`.  A text has all its characters, with the separators at both ends
that no piece of text is told with. -/
def Lexeme.inFull (l : Lexeme) (cs : List Char) : Token :=
  match Text.trimStart Text.isSpace cs with
  | '<' :: _ => l.token
  | _ => .text (cs.takeWhile (· != '<'))

/-- The tokens up to the end of `cs` or to the first fault of form. -/
def tokensFrom (cs : List Char) : List Token :=
  match h : nextLexeme cs with
  | .ok (some l) =>
    have : l.rest.length < cs.length := length_lt_of_nextLexeme h
    l.inFull cs :: tokensFrom l.rest
  | _ => []
termination_by cs.length

/-- The tokens of a document. -/
def tokens (text : String) : List Token :=
  tokensFrom (withoutMark text.toList)

theorem tokensFrom_of_some (h : nextLexeme cs = .ok (some l)) :
    tokensFrom cs = l.inFull cs :: tokensFrom l.rest := by
  rw [tokensFrom]
  split <;> simp_all

theorem tokensFrom_of_none (h : nextLexeme cs = .ok none) : tokensFrom cs = [] := by
  rw [tokensFrom]
  split <;> simp_all

/-- A text in full is the text that is read, with separators around it. -/
theorem inFull_cases (h : nextLexeme cs = .ok (some l)) : l.inFull cs = l.token ∨
    ∃ front raw back, l.token = .text raw ∧ l.inFull cs = .text (front ++ (raw ++ back)) ∧
      (∀ c ∈ front, Text.isSpace c = true) ∧ ∀ c ∈ back, Text.isSpace c = true := by
  obtain ⟨front, hcs, hfront⟩ := Text.exists_append_trimStart Text.isSpace cs
  rw [nextLexeme] at h
  unfold Lexeme.inFull
  split at h
  · simp at h
  · rename_i body hbody
    exact .inl (by simp only [hbody])
  · rename_i hne hopen
    obtain rfl := Option.some.inj (Except.ok.inj h)
    obtain ⟨back, hrun, hback⟩ := Text.exists_append_trimEnd Text.isSpace
      ((Text.trimStart Text.isSpace cs).takeWhile (· != '<'))
    refine .inr ⟨front, _, back, rfl, ?_, hfront, hback⟩
    have hplain : ∀ c ∈ front, (c != '<') = true := by
      intro c hc
      rw [bne_iff_ne]
      rintro rfl
      exact absurd (hfront _ hc) (by decide)
    have hfull : cs.takeWhile (· != '<') =
        front ++ (Text.trimStart Text.isSpace cs).takeWhile (· != '<') := by
      conv_lhs => rw [hcs, List.takeWhile_append_of_pos hplain]
    rw [← hrun]
    split
    · rename_i hbody
      exact absurd hbody (hopen _)
    · rw [hfull]

/-! ## Steps -/

/-- What a token does to a reading, if it is not at fault. -/
inductive Step (r : Reading) : Token → Reading → Prop
  | text {run piece : List Char} (h : expand run = .ok piece) :
    Step r (.text run) { r with progress := r.progress.addText piece }
  | characters (content : List Char) :
    Step r (.characters content) { r with progress := r.progress.addText content }
  | start {content : List Char} {e : Element} (h : elementOfTag content = .ok e) :
    Step r (.start content)
      { names := tagName content :: r.names, progress := r.progress.openElement e }
  | empty {content : List Char} {e : Element} {progress : Progress}
    (h : elementOfTag content = .ok e) (hp : r.progress.attach e = .ok progress) :
    Step r (.empty content) { r with progress }
  | close {name : List Char} {names : List (List Char)} {progress : Progress}
    (h : r.names = name :: names) (hp : r.progress.closeElement (localName name) = .ok progress) :
    Step r (.close name) { names, progress }
  | ignored : Step r .ignored r

/-- What tokens do one after the other. -/
inductive Run : Reading → List Token → Reading → Prop
  | nil {r : Reading} : Run r [] r
  | cons {r r' r'' : Reading} {t : Token} {ts : List Token} (h : Step r t r') (hts : Run r' ts r'') :
    Run r (t :: ts) r''

/-- A token takes a reading to one other only. -/
theorem Step.unique {r₁ r₂ : Reading} (h : Step r t r₁) (h' : Step r t r₂) : r₁ = r₂ := by
  cases h with
  | text hpiece =>
    cases h' with
    | text hpiece' => rw [Except.ok.inj (hpiece.symm.trans hpiece')]
  | characters content =>
    cases h'
    rfl
  | start he =>
    cases h' with
    | start he' => rw [Except.ok.inj (he.symm.trans he')]
  | empty he hp =>
    cases h' with
    | empty he' hp' =>
      obtain rfl := Except.ok.inj (he.symm.trans he')
      rw [Except.ok.inj (hp.symm.trans hp')]
  | close hname hp =>
    cases h' with
    | close hname' hp' =>
      obtain ⟨-, rfl⟩ := List.cons.inj (hname.symm.trans hname')
      rw [Except.ok.inj (hp.symm.trans hp')]
  | ignored =>
    cases h'
    rfl

/-- An end tag takes its own name off the names of the open tags. -/
theorem names_of_dropName {start name : List Char} {names : List (List Char)}
    (h : r.dropName whole start name = .ok names) : r.names = name :: names := by
  unfold Reading.dropName at h
  split at h
  · simp at h
  · rename_i hopen
    split at h
    · rename_i heq
      rw [hopen, heq, Except.ok.inj h]
    · simp at h

/-- A lexeme that is not at fault takes the step of its token. -/
theorem step_of_advance (h : r.advance whole l = .ok r') : Step r l.token r' := by
  unfold Reading.advance at h
  cases ht : l.token with
  | text raw =>
    simp only [ht] at h
    split at h
    · rename_i hpiece
      exact Except.ok.inj h ▸ .text hpiece
    · simp at h
  | characters content =>
    simp only [ht] at h
    exact Except.ok.inj h ▸ .characters content
  | start content =>
    simp only [ht, Outcome.bind_eq_ok_iff, Outcome.pure_eq_ok_iff] at h
    obtain ⟨e, he, rfl⟩ := h
    exact .start he
  | empty content =>
    simp only [ht, Outcome.bind_eq_ok_iff, Outcome.pure_eq_ok_iff] at h
    obtain ⟨e, he, progress, hp, rfl⟩ := h
    exact .empty he hp
  | close name =>
    simp only [ht, Outcome.bind_eq_ok_iff, Outcome.pure_eq_ok_iff] at h
    obtain ⟨names, hnames, progress, hp, rfl⟩ := h
    exact .close (names_of_dropName hnames) hp
  | ignored =>
    simp only [ht] at h
    exact Except.ok.inj h ▸ .ignored

/-- Separators around a text are trimmed away with its other outer blanks. -/
theorem Step.pad {front back : List Char} (h : Step r (.text raw) r')
    (hfront : ∀ c ∈ front, Text.isSpace c = true) (hback : ∀ c ∈ back, Text.isSpace c = true) :
    Step r (.text (front ++ (raw ++ back))) r' := by
  have hplain : ∀ {cs : List Char}, (∀ c ∈ cs, Text.isSpace c = true) → '&' ∉ cs := by
    intro cs hcs hmem
    exact absurd (hcs _ hmem) (by decide)
  cases h with
  | @text _ piece hpiece =>
    have htrim : Text.trimBlanks (front ++ (piece ++ back)) = Text.trimBlanks piece :=
      Text.trimBlanks_pad (fun c hc => Text.isBlank_of_isSpace (hfront c hc))
        (fun c hc => Text.isBlank_of_isSpace (hback c hc)) piece
    have hadd : r.progress.addText (front ++ (piece ++ back)) = r.progress.addText piece := by
      simp only [Progress.addText, htrim]
    have hexpand : expand (front ++ (raw ++ back)) = .ok (front ++ (piece ++ back)) :=
      expand_eq_ok_iff.mpr ((expand_eq_ok_iff.mp hpiece).pad (hplain hfront) (hplain hback))
    exact hadd ▸ .text hexpand

/-- **Reading on is a run over the tokens.** -/
theorem run_of_readFrom (h : readFrom whole r cs = .ok r') : Run r (tokensFrom cs) r' := by
  revert h
  fun_induction readFrom whole r cs
  case case1 => simp
  case case2 r cs hnone =>
    rintro ⟨⟩
    rw [tokensFrom_of_none hnone]
    exact .nil
  case case3 => simp
  case case4 r cs l hnext _ r₁ hadvance ih =>
    intro h
    rw [tokensFrom_of_some hnext]
    refine .cons ?_ (ih h)
    have hstep := step_of_advance hadvance
    rcases inFull_cases hnext with hfull | ⟨front, raw, back, htoken, hfull, hfront, hback⟩
    · rwa [hfull]
    · rw [htoken] at hstep
      rw [hfull]
      exact hstep.pad hfront hback

/-- **An accepted document is a run from nothing to its tree.** -/
theorem run_of_read (h : read text = .ok e) :
    ∃ r, Run {} (tokens text) r ∧ r.progress.finish = .ok e := by
  obtain ⟨r, hr, hfinish⟩ := Outcome.bind_eq_ok_iff.mp h
  exact ⟨r, run_of_readFrom hr, hfinish⟩

end BpmnModel.Xml
