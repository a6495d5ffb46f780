import BpmnModel.Json.Printer
import BpmnModel.Json.Reader
import BpmnModel.Proofs.Text.Blank
import BpmnModel.Proofs.Text.Numeral

/-!
# Printed values are read back

The printer lays a value out over several lines; the reader passes over the blanks and finds the
value again.  It needs to know of the literals in a value only that they end where they should: a
text is escaped and a number is a whole one in decimal form.

## Main definitions

* `Json.IsWhole literal` — the decimal form of a whole number.
* `Json.Written v` — the literals in a value are such forms and escaped texts.
* `Json.Follows rest` — what can stand behind a printed value.
* `Json.ReadsBack v` — the reader cuts a value off where its printed form ends.

## Main statements

* `Json.readsBack_of_written` — a value is read off its printed form at any depth.
* `Json.read_pretty` — a value is read back from its text.
* `Json.pretty_inj` — values with the same text are the same.
-/

namespace BpmnModel.Json

/-! ## Values with literals as they are written -/

/-- The decimal form of a whole number, with a minus sign or without one. -/
def IsWhole (literal : List Char) : Prop :=
  ∃ n, literal = Nat.toDigits 10 n ∨ literal = '-' :: Nat.toDigits 10 n

/-- The texts and names in a value are escaped, and its numbers are whole ones in decimal form. -/
inductive Written : Json → Prop
  | null : Written .null
  | bool (b : Bool) : Written (.bool b)
  | number {literal : List Char} (h : IsWhole literal) : Written (.number literal)
  | string (cs : List Char) : Written (.string (escape cs))
  | array {vs : List Json} (h : ∀ v ∈ vs, Written v) : Written (.array vs)
  | object {ms : List (List Char × Json)} (hnames : ∀ m ∈ ms, ∃ cs, m.1 = escape cs)
    (h : ∀ m ∈ ms, Written m.2) : Written (.object ms)

/-- What can stand behind a printed value: nothing, the next item or a new line. -/
inductive Follows : List Char → Prop
  | nothing : Follows []
  | comma (cs : List Char) : Follows (',' :: cs)
  | line (cs : List Char) : Follows ('\n' :: cs)

variable {cs ds blanks literal rest : List Char} {v : Json} {fuel depth : ℕ}

/-! ## Numbers -/

/-- The decimal form of a number other than zero has no zero in front. -/
theorem head?_toDigits_ne_zero {n : ℕ} (hn : 0 < n) : (Nat.toDigits 10 n).head? ≠ some '0' := by
  have hdigit : ∀ d < 10, 0 < d → Nat.digitChar d ≠ '0' := by decide
  -- the first digit is that of the number without its last digit
  induction n using Nat.strongRecOn with
  | ind n ih =>
    by_cases hlt : n < 10
    · rw [Nat.toDigits_of_lt_base hlt]
      simpa using hdigit n hlt hn
    · have hfront := ih (n / 10) (by omega) (by omega)
      rw [Nat.toDigits_of_base_le (by decide) (by omega)]
      cases hdigits : Nat.toDigits 10 (n / 10) with
      | nil => simp at hdigits
      | cons d ds => simpa [hdigits] using hfront

theorem scanDigits_append (hds : ds ≠ []) (hdigits : ∀ d ∈ ds, d.isDigit = true)
    (hrest : Follows rest) : scanDigits (ds ++ rest) = some (ds, rest) := by
  have htake : rest.takeWhile Char.isDigit = [] := by cases hrest <;> rfl
  have hdrop : rest.dropWhile Char.isDigit = rest := by cases hrest <;> rfl
  rw [scanDigits, List.takeWhile_append_of_pos hdigits, List.dropWhile_append_of_pos hdigits, htake,
    hdrop, List.append_nil]
  simp [hds]

theorem scanWhole_toDigits (hrest : Follows rest) (n : ℕ) :
    scanWhole (Nat.toDigits 10 n ++ rest) = some (Nat.toDigits 10 n, rest) := by
  have hscan : scanDigits (Nat.toDigits 10 n ++ rest) = some (Nat.toDigits 10 n, rest) :=
    scanDigits_append Nat.toDigits_ne_nil (Text.decimal_toDigits n).isDigit hrest
  rw [scanWhole, hscan]
  simp only [Option.bind_eq_bind, Option.bind_some]
  split
  · rename_i d ds hdigits
    rcases Nat.eq_zero_or_pos n with rfl | hn
    · simp at hdigits
    · exact absurd (by rw [hdigits]; rfl) (head?_toDigits_ne_zero hn)
  · rfl

/-- **A number ends where its decimal form ends.** -/
theorem scanNumber_append (h : IsWhole literal) (hrest : Follows rest) :
    scanNumber (literal ++ rest) = some (literal, rest) := by
  have hdecimals : scanDecimals rest = some ([], rest) := by cases hrest <;> rfl
  have hexponent : scanExponent rest = some ([], rest) := by cases hrest <;> rfl
  obtain ⟨n, rfl | rfl⟩ := h
  · have hminus : scanMinus (Nat.toDigits 10 n ++ rest) = ([], Nat.toDigits 10 n ++ rest) := by
      obtain ⟨d, ds, hdigits, hd⟩ := Text.exists_toDigits_eq_cons n
      rw [hdigits, List.cons_append, scanMinus]
      intro ds' hcons
      obtain ⟨rfl, -⟩ := List.cons.inj hcons
      exact absurd hd (by decide)
    simp [scanNumber, hminus, scanWhole_toDigits hrest, hdecimals, hexponent]
  · simp [scanNumber, scanMinus, scanWhole_toDigits hrest, hdecimals, hexponent]

/-! ## Blanks -/

/-- The characters are blanks, which the reader passes over. -/
abbrev Blanks (cs : List Char) : Prop :=
  ∀ c ∈ cs, Text.isSpace c = true

theorem blanks_newline (depth : ℕ) : Blanks (newline depth) := by
  intro c hc
  rcases List.mem_cons.mp hc with rfl | hc
  · rfl
  · rw [List.eq_of_mem_replicate hc]
    rfl

theorem skipBlanks_append (hblanks : Blanks blanks) (cs : List Char) :
    skipBlanks (blanks ++ cs) = skipBlanks cs :=
  List.dropWhile_append_of_pos hblanks

theorem readValue_append (hblanks : Blanks blanks) (fuel : ℕ) (cs : List Char) :
    readValue fuel (blanks ++ cs) = readValue fuel cs := by
  cases fuel with
  | zero => rfl
  | succ fuel => rw [readValue, readValue, skipBlanks_append hblanks]

/-! ## Values -/

theorem exists_cons_of_isWhole (h : IsWhole literal) :
    ∃ c cs, literal = c :: cs ∧ (c.isDigit = true ∨ c = '-') := by
  obtain ⟨n, rfl | rfl⟩ := h
  · obtain ⟨d, ds, hdigits, hd⟩ := Text.exists_toDigits_eq_cons n
    exact ⟨d, ds, hdigits, .inl hd⟩
  · exact ⟨_, _, rfl, .inr rfl⟩

theorem isSpace_of_isDigit_or {c : Char} (h : c.isDigit = true ∨ c = '-') :
    Text.isSpace c = false := by
  rcases h with h | rfl
  · exact Text.isSpace_of_not_isBlank (Text.isBlank_of_isDigit h)
  · rfl

/-- A printed value begins neither with a blank nor with the end of an array. -/
theorem exists_print_eq_cons (h : Written v) (depth : ℕ) :
    ∃ c cs, print depth v = c :: cs ∧ Text.isSpace c = false ∧ c ≠ ']' := by
  cases h with
  | null => exact ⟨_, _, rfl, rfl, by decide⟩
  | bool b => cases b <;> exact ⟨_, _, rfl, rfl, by decide⟩
  | number h =>
    obtain ⟨c, cs, rfl, hc⟩ := exists_cons_of_isWhole h
    refine ⟨c, cs, rfl, isSpace_of_isDigit_or hc, ?_⟩
    rintro rfl
    exact absurd hc (by decide)
  | string cs => exact ⟨_, _, rfl, rfl, by decide⟩
  | @array vs _ => cases vs <;> exact ⟨_, _, rfl, rfl, by decide⟩
  | @object ms _ _ => cases ms <;> exact ⟨_, _, rfl, rfl, by decide⟩

theorem readValue_number (h : IsWhole literal) (hrest : Follows rest) (fuel : ℕ) :
    readValue (fuel + 1) (literal ++ rest) = some (.number literal, rest) := by
  have hscan := scanNumber_append h hrest
  obtain ⟨c, cs, rfl, hc⟩ := exists_cons_of_isWhole h
  have hskip : skipBlanks (c :: cs ++ rest) = c :: (cs ++ rest) := by
    simp [skipBlanks, isSpace_of_isDigit_or hc]
  -- no other value begins as a number does
  have hother : ∀ {d : Char} {ds : List Char}, c :: (cs ++ rest) = d :: ds → d.isDigit = false →
      d ≠ '-' → False := by
    rintro d ds hcons hd hminus
    obtain ⟨rfl, -⟩ := List.cons.inj hcons
    simp [hd, hminus] at hc
  rw [readValue, hskip]
  split
  case h_7 =>
    rw [← List.cons_append, hscan]
    rfl
  all_goals
    rename_i hcons
    exact (hother hcons rfl (by decide)).elim

/-! ## Items and members -/

/-- With fuel for its nested steps, a value is read off its printed form, whatever follows it. -/
def ReadsBack (v : Json) : Prop :=
  ∀ depth fuel rest, Follows rest → 2 * (print depth v).length < fuel →
    readValue fuel (print depth v ++ rest) = some (v, rest)

theorem follows_printItems (depth outer : ℕ) (vs : List Json) (rest : List Char) :
    Follows (printItems depth vs ++ (newline outer ++ rest)) := by
  cases vs with
  | nil => exact .line _
  | cons w vs => exact .comma _

theorem follows_printMembers (depth outer : ℕ) (ms : List (List Char × Json)) (rest : List Char) :
    Follows (printMembers depth ms ++ (newline outer ++ rest)) := by
  cases ms with
  | nil => exact .line _
  | cons m ms => exact .comma _

/-- The items of an array are read up to the bracket that closes it. -/
theorem readItems_print {vs : List Json} (hv : ReadsBack v) (hvs : ∀ w ∈ vs, ReadsBack w)
    (depth outer : ℕ) (rest : List Char)
    (hfuel : 2 * ((print depth v).length + (printItems depth vs).length) + 1 < fuel) :
    readItems fuel (newline depth ++ (print depth v ++ (printItems depth vs ++
      (newline outer ++ ']' :: rest)))) = some (v :: vs, rest) := by
  induction vs generalizing v fuel with
  | nil =>
    obtain ⟨fuel, rfl⟩ := Nat.exists_eq_succ_of_ne_zero (show fuel ≠ 0 by omega)
    have hfirst := hv depth fuel _ (follows_printItems depth outer [] (']' :: rest)) (by omega)
    have hend : skipBlanks (newline outer ++ ']' :: rest) = ']' :: rest :=
      skipBlanks_append (blanks_newline outer) _
    rw [readItems, readValue_append (blanks_newline depth), hfirst]
    simp only [printItems, List.nil_append, Option.bind_eq_bind, Option.bind_some, hend]
  | cons w vs ih =>
    obtain ⟨fuel, rfl⟩ := Nat.exists_eq_succ_of_ne_zero (show fuel ≠ 0 by omega)
    obtain ⟨hw, hvs'⟩ := List.forall_mem_cons.mp hvs
    simp only [printItems, List.length_cons, List.length_append] at hfuel
    have hfirst :=
      hv depth fuel _ (follows_printItems depth outer (w :: vs) (']' :: rest)) (by omega)
    have hothers : readItems fuel _ = some (w :: vs, rest) := ih hw hvs' (by omega)
    have hcomma : ∀ cs, skipBlanks (',' :: cs) = ',' :: cs := fun _ => rfl
    rw [readItems, readValue_append (blanks_newline depth), hfirst]
    simp only [printItems, List.cons_append, List.append_assoc, Option.bind_eq_bind,
      Option.bind_some, hcomma, hothers, Option.map_some]

/-- The members of an object are read up to the brace that closes it. -/
theorem readMembers_print {ms : List (List Char × Json)} (name : List Char) (hv : ReadsBack v)
    (hnames : ∀ m ∈ ms, ∃ cs, m.1 = escape cs) (hms : ∀ m ∈ ms, ReadsBack m.2)
    (depth outer : ℕ) (rest : List Char)
    (hfuel : 2 * ((print depth v).length + (printMembers depth ms).length) + 1 < fuel) :
    readMembers fuel (newline depth ++ '"' :: (escape name ++ '"' :: ':' :: ' ' :: (print depth v ++
      (printMembers depth ms ++ (newline outer ++ '}' :: rest))))) =
        some ((escape name, v) :: ms, rest) := by
  have hquote : ∀ cs, skipBlanks (newline depth ++ '"' :: cs) = '"' :: cs :=
    fun cs => skipBlanks_append (blanks_newline depth) _
  have hcolon : ∀ cs, skipBlanks (':' :: cs) = ':' :: cs := fun _ => rfl
  have hblank : ∀ fuel cs, readValue fuel (' ' :: cs) = readValue fuel cs := by
    have hspace : Blanks [' '] := by simp [Blanks, Text.isSpace]
    exact readValue_append hspace
  induction ms generalizing name v fuel with
  | nil =>
    obtain ⟨fuel, rfl⟩ := Nat.exists_eq_succ_of_ne_zero (show fuel ≠ 0 by omega)
    have hfirst := hv depth fuel _ (follows_printMembers depth outer [] ('}' :: rest)) (by omega)
    have hend : skipBlanks (newline outer ++ '}' :: rest) = '}' :: rest :=
      skipBlanks_append (blanks_newline outer) _
    rw [readMembers, hquote]
    simp only [scanLiteral_escape, Option.bind_eq_bind, Option.bind_some, hcolon, hblank, hfirst]
    simp only [printMembers, List.nil_append, hend]
  | cons m ms ih =>
    obtain ⟨fuel, rfl⟩ := Nat.exists_eq_succ_of_ne_zero (show fuel ≠ 0 by omega)
    obtain ⟨_, w⟩ := m
    obtain ⟨⟨name', rfl⟩, hnames'⟩ := List.forall_mem_cons.mp hnames
    obtain ⟨hw, hms'⟩ := List.forall_mem_cons.mp hms
    simp only [printMembers, List.length_cons, List.length_append] at hfuel
    have hfirst := hv depth fuel _
      (follows_printMembers depth outer ((escape name', w) :: ms) ('}' :: rest)) (by omega)
    have hothers := ih name' hw hnames' hms'
      (show 2 * ((print depth w).length + (printMembers depth ms).length) + 1 < fuel by omega)
    have hcomma : ∀ cs, skipBlanks (',' :: cs) = ',' :: cs := fun _ => rfl
    rw [readMembers, hquote]
    simp only [scanLiteral_escape, Option.bind_eq_bind, Option.bind_some, hcolon, hblank, hfirst]
    simp only [printMembers, List.cons_append, List.append_assoc, List.nil_append,
      hcomma, hothers, Option.map_some]

/-! ## Values of any depth -/

/-- An array that does not end at once has items. -/
theorem readValue_array {c : Char} (hskip : skipBlanks cs = c :: ds) (hc : c ≠ ']') (fuel : ℕ) :
    readValue (fuel + 1) ('[' :: cs) =
      (readItems fuel cs).map fun r : List Json × List Char => (array r.1, r.2) := by
  have hopen : skipBlanks ('[' :: cs) = '[' :: cs := rfl
  rw [readValue, hopen]
  simp only [hskip]
  split
  · rename_i heq
    exact absurd (List.cons.inj heq).1 hc
  · rfl

theorem readValue_object {c : Char} (hskip : skipBlanks cs = c :: ds) (hc : c ≠ '}') (fuel : ℕ) :
    readValue (fuel + 1) ('{' :: cs) = (readMembers fuel cs).map
      fun r : List (List Char × Json) × List Char => (object r.1, r.2) := by
  have hopen : skipBlanks ('{' :: cs) = '{' :: cs := rfl
  rw [readValue, hopen]
  simp only [hskip]
  split
  · rename_i heq
    exact absurd (List.cons.inj heq).1 hc
  · rfl

/-- **A value is read off its printed form.** -/
theorem readsBack_of_written (h : Written v) : ReadsBack v := by
  induction h with
  | null =>
    intro depth fuel rest _ hfuel
    obtain ⟨fuel, rfl⟩ := Nat.exists_eq_succ_of_ne_zero (show fuel ≠ 0 by omega)
    rfl
  | bool b =>
    intro depth fuel rest _ hfuel
    obtain ⟨fuel, rfl⟩ := Nat.exists_eq_succ_of_ne_zero (show fuel ≠ 0 by omega)
    cases b <;> rfl
  | number h =>
    intro depth fuel rest hrest hfuel
    obtain ⟨fuel, rfl⟩ := Nat.exists_eq_succ_of_ne_zero (show fuel ≠ 0 by omega)
    exact readValue_number h hrest fuel
  | string cs =>
    intro depth fuel rest _ hfuel
    obtain ⟨fuel, rfl⟩ := Nat.exists_eq_succ_of_ne_zero (show fuel ≠ 0 by omega)
    have hscan : scanLiteral (escape cs ++ ['"'] ++ rest) = some (escape cs, rest) := by
      rw [List.append_assoc]
      exact scanLiteral_escape cs rest
    show (scanLiteral (escape cs ++ ['"'] ++ rest)).map _ = _
    rw [hscan]
    rfl
  | @array vs hvs ih =>
    intro depth fuel rest _ hfuel
    obtain ⟨fuel, rfl⟩ := Nat.exists_eq_succ_of_ne_zero (show fuel ≠ 0 by omega)
    cases vs with
    | nil => rfl
    | cons v vs =>
      obtain ⟨hv, hitems⟩ := List.forall_mem_cons.mp ih
      obtain ⟨c, ds, hprint, hspace, hc⟩ :=
        exists_print_eq_cons (hvs v List.mem_cons_self) (depth + 1)
      simp only [print, List.length_cons, List.length_append] at hfuel
      have hread : readItems fuel _ = some (v :: vs, rest) :=
        readItems_print hv hitems (depth + 1) depth rest (by omega)
      have hskip : ∀ cs, skipBlanks (newline (depth + 1) ++ (print (depth + 1) v ++ cs)) =
          c :: (ds ++ cs) := by
        intro cs
        rw [skipBlanks_append (blanks_newline _), hprint]
        simp [skipBlanks, hspace]
      simp only [print, List.cons_append, List.append_assoc, List.nil_append]
      rw [readValue_array (hskip _) hc, hread]
      rfl
  | @object ms hnames _ ih =>
    intro depth fuel rest _ hfuel
    obtain ⟨fuel, rfl⟩ := Nat.exists_eq_succ_of_ne_zero (show fuel ≠ 0 by omega)
    cases ms with
    | nil => rfl
    | cons m ms =>
      obtain ⟨_, v⟩ := m
      obtain ⟨⟨name, rfl⟩, hnames'⟩ := List.forall_mem_cons.mp hnames
      have hv : ReadsBack v := ih _ List.mem_cons_self
      have hmembers : ∀ m ∈ ms, ReadsBack m.2 := fun m hm => ih m (List.mem_cons_of_mem _ hm)
      simp only [print, List.length_cons, List.length_append] at hfuel
      have hread : readMembers fuel _ = some ((escape name, v) :: ms, rest) :=
        readMembers_print name hv hnames' hmembers (depth + 1) depth rest (by omega)
      have hskip : ∀ cs, skipBlanks (newline (depth + 1) ++ '"' :: cs) = '"' :: cs :=
        fun cs => skipBlanks_append (blanks_newline _) _
      simp only [print, List.cons_append, List.append_assoc, List.nil_append]
      rw [readValue_object (hskip _) (by decide), hread]
      rfl

/-- **A value is read back from its text.** -/
theorem read_pretty (h : Written v) : read v.pretty = some v := by
  have hread := readsBack_of_written h 0 (2 * (print 0 v).length + 1) [] .nothing (by omega)
  rw [List.append_nil] at hread
  rw [read, pretty, String.toList_ofList, hread]
  rfl

/-- **Values with the same text are the same.** -/
theorem pretty_inj {w : Json} (hv : Written v) (hw : Written w) : v.pretty = w.pretty ↔ v = w := by
  constructor
  · intro h
    exact Option.some.inj ((read_pretty hv).symm.trans (h ▸ read_pretty hw))
  · rintro rfl
    rfl

end BpmnModel.Json
