import BpmnModel.Text.Blank
import BpmnModel.Text.Split

/-!
# Tokens of a document

A document is cut into runs of text and pieces of markup.  Each piece of markup has an end
of its own: a comment ends at `-->`, a character section at `]]>`, an instruction at `?>`,
a type declaration at the `>` that balances its inner brackets, and a tag at the first `>`
outside quotes.

## Main definitions

* `Xml.MarkupFault` — what can be wrong with the form of a document.
* `Xml.Token` — a run of text or a piece of markup.
* `Xml.Lexeme` — a token with the places where it begins and ends.
* `Xml.nextLexeme cs` — the first token of `cs`.

## Main statements

* `Xml.length_lt_of_nextLexeme` — what follows a token is shorter.
-/

namespace BpmnModel.Xml

/-! ## What can be wrong -/

/-- What can be wrong with the form of a piece of markup. -/
inductive MarkupFault where
  | tagOpen
  | unknownMarkup
  | commentOpen
  | charactersOpen
  | doctypeOpen
  | doctypeUnnamed
  | instructionOpen
deriving DecidableEq, Repr

/-- The text that describes a fault of form. -/
def MarkupFault.message : MarkupFault → String
  | .tagOpen => "syntax error: tag not closed: `>` not found before end of input"
  | .unknownMarkup => "syntax error: unknown or missed symbol in markup"
  | .commentOpen => "syntax error: comment not closed: `-->` not found before end of input"
  | .charactersOpen => "syntax error: CDATA not closed: `]]>` not found before end of input"
  | .doctypeOpen => "syntax error: DOCTYPE not closed: `>` not found before end of input"
  | .doctypeUnnamed => "ill-formed document: `<!DOCTYPE>` declaration does not contain a " ++
      "name of a document type"
  | .instructionOpen => "syntax error: processing instruction or xml declaration not " ++
      "closed: `?>` not found before end of input"

/-! ## Tokens -/

/-- A run of text or a piece of markup. -/
inductive Token where
  /-- Text up to the next markup, without outer separators. -/
  | text (raw : List Char)
  /-- The content of a character section, which holds no references. -/
  | characters (content : List Char)
  /-- A start tag, what stands between its brackets. -/
  | start (content : List Char)
  /-- The tag of an element without content, less its final slash. -/
  | empty (content : List Char)
  /-- An end tag, its name. -/
  | close (name : List Char)
  /-- A comment, an instruction or a type declaration. -/
  | ignored
deriving DecidableEq, Repr

/-- A token with what remains where it begins and where it ends. -/
structure Lexeme where
  /-- What was read. -/
  token : Token
  /-- What remained when the token began. -/
  start : List Char
  /-- What remains after the token. -/
  rest : List Char
deriving DecidableEq, Repr

/-- A fault of form, with what remained at the place of the fault. -/
structure MisplacedMarkup where
  /-- What is wrong. -/
  cause : MarkupFault
  /-- What remained. -/
  remaining : List Char
deriving DecidableEq, Repr

/-! ## Ends of markup -/

/-- Cuts a tag at the first `>` outside quotes.  `quote` is the mark that was opened last
and is not closed yet. -/
def cutTag? : Option Char → List Char → Option (List Char × List Char)
  | _, [] => none
  | none, c :: cs =>
    if c = '>' then some ([], cs)
    else
      (cutTag? (if c = '"' ∨ c = '\'' then some c else none) cs).map fun r => (c :: r.1, r.2)
  | some q, c :: cs =>
    (cutTag? (if c = q then none else some q) cs).map fun r => (c :: r.1, r.2)

/-- Cuts a type declaration at the `>` that balances its inner brackets, of which `depth`
are open. -/
def cutDoctype? : Nat → List Char → Option (List Char × List Char)
  | _, [] => none
  | depth, c :: cs =>
    if c = '>' ∧ depth = 0 then some ([], cs)
    else
      (cutDoctype? (if c = '<' then depth + 1 else if c = '>' then depth - 1 else depth) cs).map
        fun r => (c :: r.1, r.2)

theorem length_lt_of_cutTag? {quote : Option Char} {cs before after : List Char}
    (h : cutTag? quote cs = some (before, after)) : after.length < cs.length := by
  induction cs generalizing quote before with
  | nil => cases quote <;> simp [cutTag?] at h
  | cons c cs ih =>
    have step : ∀ {q}, (cutTag? q cs).map (fun r => (c :: r.1, r.2)) = some (before, after) →
        after.length < (c :: cs).length := by
      intro q hq
      obtain ⟨r, hr, hb⟩ := Option.map_eq_some_iff.mp hq
      obtain ⟨-, rfl⟩ : c :: r.1 = before ∧ r.2 = after := by simpa using hb
      exact Nat.lt_succ_of_lt (ih hr)
    cases quote with
    | none =>
      rw [cutTag?] at h
      split at h
      · obtain ⟨-, rfl⟩ : [] = before ∧ cs = after := by simpa using h
        simp
      · exact step h
    | some q =>
      rw [cutTag?] at h
      exact step h

theorem length_lt_of_cutDoctype? {depth : Nat} {cs before after : List Char}
    (h : cutDoctype? depth cs = some (before, after)) : after.length < cs.length := by
  induction cs generalizing depth before with
  | nil => simp [cutDoctype?] at h
  | cons c cs ih =>
    rw [cutDoctype?] at h
    split at h
    · obtain ⟨-, rfl⟩ : [] = before ∧ cs = after := by simpa using h
      simp
    · obtain ⟨r, hr, hb⟩ := Option.map_eq_some_iff.mp h
      obtain ⟨-, rfl⟩ : c :: r.1 = before ∧ r.2 = after := by simpa using hb
      exact Nat.lt_succ_of_lt (ih hr)

/-! ## Pieces of markup

Each of the following reads what stands after the characters that tell the kinds of markup
apart, and yields the token with what remains. -/

/-- A comment, after `<!-`. -/
def comment? : List Char → Option (Token × List Char)
  | '-' :: cs => (Text.cut? "-->".toList cs).map fun r => (.ignored, r.2)
  | _ => none

/-- A character section, after `<![`. -/
def characters? (cs : List Char) : Option (Token × List Char) :=
  if "CDATA[".toList.isPrefixOf cs then
    (Text.cut? "]]>".toList (cs.drop 6)).map fun r => (.characters r.1, r.2)
  else none

/-- The keyword of a type declaration, in any case, and nothing of what follows it. -/
def isDoctype (content : List Char) : Bool :=
  (content.take 7).map Char.toUpper == "DOCTYPE".toList

/-- An instruction, after `<?`. -/
def instruction? : List Char → Option (Token × List Char)
  | '>' :: _ => none
  | cs => (Text.cut? "?>".toList cs).map fun r => (.ignored, r.2)

/-- The name in an end tag.  Separators after the name do not belong to it, but where there
is no name the separators stand for one. -/
def closingName (content : List Char) : List Char :=
  match Text.trimEnd Text.isSpace content with
  | [] => content
  | name => name

/-- The token of a tag, from what stands between its brackets. -/
def tagToken : List Char → Token
  | '/' :: name => .close (closingName name)
  | content =>
    if content.getLast? = some '/' then .empty content.dropLast else .start content

/-- A piece of markup, after its opening bracket.  A fault lies at the bracket, except that
a type declaration without a name is told at its closing bracket. -/
def markup (body : List Char) : Except MisplacedMarkup (Token × List Char) :=
  let found (fault : MarkupFault) (r : Option (Token × List Char)) :
      Except MisplacedMarkup (Token × List Char) :=
    match r with
    | some t => .ok t
    | none => .error ⟨fault, '<' :: body⟩
  match body with
  | '!' :: '[' :: cs => found .charactersOpen (characters? cs)
  | '!' :: '-' :: cs => found .commentOpen (comment? cs)
  | '!' :: c :: cs =>
    if c = 'D' ∨ c = 'd' then
      match cutDoctype? 0 (c :: cs) with
      | some (content, rest) =>
        if !isDoctype content then .error ⟨.doctypeOpen, '<' :: body⟩
        else if (content.drop 7).all Text.isSpace then .error ⟨.doctypeUnnamed, '>' :: rest⟩
        else .ok (.ignored, rest)
      | none => .error ⟨.doctypeOpen, '<' :: body⟩
    else .error ⟨.unknownMarkup, '<' :: body⟩
  | '!' :: [] => .error ⟨.unknownMarkup, '<' :: body⟩
  | '?' :: cs => found .instructionOpen (instruction? cs)
  | _ => found .tagOpen ((cutTag? none body).map fun r => (tagToken r.1, r.2))

/-! ## The first token -/

/-- The first token of `cs`, or nothing when only separators are left. -/
def nextLexeme (cs : List Char) : Except MisplacedMarkup (Option Lexeme) :=
  match Text.trimStart Text.isSpace cs with
  | [] => .ok none
  | '<' :: body => (markup body).map fun r => some ⟨r.1, '<' :: body, r.2⟩
  | here =>
    .ok (some ⟨.text (Text.trimEnd Text.isSpace (here.takeWhile (· != '<'))), here,
      here.dropWhile (· != '<')⟩)

theorem length_lt_of_characters? {cs rest : List Char} {t : Token}
    (h : characters? cs = some (t, rest)) : rest.length < cs.length := by
  rw [characters?] at h
  split at h
  · obtain ⟨r, hr, hb⟩ := Option.map_eq_some_iff.mp h
    obtain ⟨-, rfl⟩ : Token.characters r.1 = t ∧ r.2 = rest := by simpa using hb
    have := Text.length_lt_of_cut? hr
    rw [List.length_drop] at this
    omega
  · simp at h

theorem length_lt_of_comment? {cs rest : List Char} {t : Token}
    (h : comment? cs = some (t, rest)) : rest.length < cs.length := by
  unfold comment? at h
  split at h
  · obtain ⟨r, hr, hb⟩ := Option.map_eq_some_iff.mp h
    obtain ⟨-, rfl⟩ : Token.ignored = t ∧ r.2 = rest := by simpa using hb
    have := Text.length_lt_of_cut? hr
    rw [List.length_cons]
    omega
  · simp at h

theorem length_lt_of_instruction? {cs rest : List Char} {t : Token}
    (h : instruction? cs = some (t, rest)) : rest.length < cs.length := by
  unfold instruction? at h
  split at h
  · simp at h
  · obtain ⟨r, hr, hb⟩ := Option.map_eq_some_iff.mp h
    obtain ⟨-, rfl⟩ : Token.ignored = t ∧ r.2 = rest := by simpa using hb
    exact Text.length_lt_of_cut? hr

theorem length_lt_of_markup {body rest : List Char} {t : Token}
    (h : markup body = .ok (t, rest)) : rest.length < body.length := by
  have found : ∀ {fault : MarkupFault} {r : Option (Token × List Char)},
      (match r with
        | some t => Except.ok t
        | none => Except.error (⟨fault, '<' :: body⟩ : MisplacedMarkup)) = .ok (t, rest) →
      r = some (t, rest) := by
    intro fault r hr
    cases r with
    | none => simp at hr
    | some p => simpa using hr
  unfold markup at h
  simp only at h
  split at h
  · have := length_lt_of_characters? (found h)
    simp only [List.length_cons]
    omega
  · have := length_lt_of_comment? (found h)
    simp only [List.length_cons]
    omega
  · split at h
    · split at h
      · rename_i hcut
        have := length_lt_of_cutDoctype? hcut
        simp only [List.length_cons] at this ⊢
        split at h
        · simp at h
        · split at h
          · simp at h
          · simp only [Except.ok.injEq, Prod.mk.injEq] at h
            rw [← h.2]
            omega
      · simp at h
    · simp at h
  · simp at h
  · have := length_lt_of_instruction? (found h)
    simp only [List.length_cons]
    omega
  · obtain ⟨r, hr, hb⟩ := Option.map_eq_some_iff.mp (found h)
    have := length_lt_of_cutTag? hr
    simp only [Prod.mk.injEq] at hb
    rw [← hb.2]
    omega

/-- **What follows a token is shorter than what the token was read from.** -/
theorem length_lt_of_nextLexeme {cs : List Char} {l : Lexeme}
    (h : nextLexeme cs = .ok (some l)) : l.rest.length < cs.length := by
  have h₁ := (List.dropWhile_suffix (l := cs) Text.isSpace).length_le
  unfold nextLexeme Text.trimStart at h
  split at h
  · simp at h
  · rename_i body hbody
    rw [hbody, List.length_cons] at h₁
    cases hm : markup body with
    | error e => simp [hm, Except.map] at h
    | ok r =>
      have := @length_lt_of_markup body r.2 r.1 hm
      simp only [hm, Except.map, Except.ok.injEq, Option.some.injEq] at h
      rw [← h]
      simp only
      omega
  · rename_i here hne hnot
    cases hh : cs.dropWhile Text.isSpace with
    | nil => exact absurd hh hne
    | cons c r =>
      have hc : c ≠ '<' := fun e => hnot r (by rw [hh, e])
      have h₂ := (List.dropWhile_suffix (l := r) (· != '<')).length_le
      rw [hh, List.length_cons] at h₁
      simp only [hh, Except.ok.injEq, Option.some.injEq] at h
      rw [← h]
      simp only [List.dropWhile_cons, bne_iff_ne.mpr hc, if_true]
      omega

end BpmnModel.Xml
