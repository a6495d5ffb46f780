import BpmnModel.Proofs.Text.Blank
import BpmnModel.Xml.Entity
import BpmnModel.Xml.Markup

/-!
# Escaped texts

Five characters are written as references.  A written text holds none of the characters that
end a value or a run of text, and expanding it gives the text back, whatever stands in it.

## Main statements

* `Xml.expand_escape` — expanding undoes escaping.
* `Markup.not_mem_escape` — what a written text does not hold.
-/

namespace BpmnModel

/-! ## What a written text holds -/

namespace Markup

/-- A character is written as it is, or as a named reference. -/
theorem escapeChar_cases (c : Char) :
    (escapeChar c = [c] ∧ c ≠ '&' ∧ c ≠ '<' ∧ c ≠ '"' ∧ c ≠ '\'') ∨
      ∃ name, escapeChar c = '&' :: (name ++ [';']) ∧ (∀ d ∈ name, d.isAlpha = true) ∧
        ∀ start, Xml.resolve start name = .ok c := by
  rw [escapeChar]
  split
  · rename_i h
    exact .inr ⟨['a', 'm', 'p'], rfl, List.all_eq_true.mp rfl, fun _ => by rw [h]; rfl⟩
  split
  · rename_i h
    exact .inr ⟨['l', 't'], rfl, List.all_eq_true.mp rfl, fun _ => by rw [h]; rfl⟩
  split
  · rename_i h
    exact .inr ⟨['g', 't'], rfl, List.all_eq_true.mp rfl, fun _ => by rw [h]; rfl⟩
  split
  · rename_i h
    exact .inr ⟨['q', 'u', 'o', 't'], rfl, List.all_eq_true.mp rfl, fun _ => by rw [h]; rfl⟩
  split
  · rename_i h
    exact .inr ⟨['a', 'p', 'o', 's'], rfl, List.all_eq_true.mp rfl, fun _ => by rw [h]; rfl⟩
  · rename_i hamp hlt _ hquot hapos
    exact .inl ⟨rfl, hamp, hlt, hquot, hapos⟩

/-- A written text opens no markup and ends no value. -/
theorem ne_of_mem_escape {s : String} {c : Char} (h : c ∈ escape s) :
    c ≠ '<' ∧ c ≠ '"' ∧ c ≠ '\'' := by
  obtain ⟨d, -, hd⟩ := List.mem_flatMap.mp h
  rcases escapeChar_cases d with ⟨hplain, -, hends⟩ | ⟨name, hname, halpha, -⟩
  · rw [hplain, List.mem_singleton] at hd
    subst hd
    exact hends
  · rw [hname, List.mem_cons, List.mem_append, List.mem_singleton] at hd
    rcases hd with rfl | hd | rfl
    · decide
    · have := halpha c hd
      refine ⟨?_, ?_, ?_⟩ <;> rintro rfl <;> simp at this
    · decide

end Markup

/-! ## Expansion -/

namespace Xml

theorem expandFrom_of_plain {size start : Nat} {raw : List Char} (h : '&' ∉ raw) :
    expandFrom size start raw = .ok raw := by
  have hall : ∀ c ∈ raw, (c != '&') = true := by
    intro c hc
    rw [bne_iff_ne]
    rintro rfl
    exact h hc
  have hdrop : raw.dropWhile (· != '&') = [] := List.dropWhile_eq_nil_iff.mpr hall
  rw [expandFrom]
  split
  · rw [List.takeWhile_eq_self_iff.mpr hall]
  · rename_i hcons
    rw [hdrop] at hcons
    simp at hcons

/-- A reference is expanded once, and what follows it on its own. -/
theorem expandFrom_reference {size start : Nat} {plain name rest more : List Char} {c : Char}
    (hplain : '&' ∉ plain) (hname : ∀ d ∈ name, d ≠ '&' ∧ d ≠ ';')
    (hc : ∀ start, resolve start name = .ok c)
    (hrest : ∀ start, expandFrom size start rest = .ok more) :
    expandFrom size start (plain ++ '&' :: (name ++ ';' :: rest)) = .ok (plain ++ c :: more) := by
  have hall : ∀ d ∈ plain, (d != '&') = true := by
    intro d hd
    rw [bne_iff_ne]
    rintro rfl
    exact hplain hd
  have hmark : ∀ d ∈ name, (d != '&' && d != ';') = true := by
    intro d hd
    rw [Bool.and_eq_true, bne_iff_ne, bne_iff_ne]
    exact hname d hd
  have htake : (plain ++ '&' :: (name ++ ';' :: rest)).takeWhile (· != '&') = plain :=
    Text.takeWhile_append_cons hall (by decide)
  have hdrop : (plain ++ '&' :: (name ++ ';' :: rest)).dropWhile (· != '&') =
      '&' :: (name ++ ';' :: rest) :=
    Text.dropWhile_append_cons hall (by decide)
  have htake' : (name ++ ';' :: rest).takeWhile (fun d => d != '&' && d != ';') = name :=
    Text.takeWhile_append_cons hmark (by decide)
  have hdrop' : (name ++ ';' :: rest).dropWhile (fun d => d != '&' && d != ';') = ';' :: rest :=
    Text.dropWhile_append_cons hmark (by decide)
  rw [expandFrom]
  split
  · rename_i hnil
    rw [hdrop] at hnil
    simp at hnil
  · rename_i head body hbody
    obtain ⟨rfl, rfl⟩ : '&' = head ∧ name ++ ';' :: rest = body := by
      rw [hdrop] at hbody
      simpa using hbody
    split
    · rename_i rest' hrest'
      obtain rfl : rest = rest' := by
        rw [hdrop'] at hrest'
        simpa using hrest'
      simp only [htake, htake', hc, hrest]
      rfl
    · rename_i hno
      exact absurd hdrop' (hno rest)

/-- **Expanding undoes escaping.** -/
theorem expand_escape (s : String) : expand (Markup.escape s) = .ok s.toList := by
  have key : ∀ (cs : List Char) (size : Nat) (plain : List Char) (start : Nat), '&' ∉ plain →
      expandFrom size start (plain ++ cs.flatMap Markup.escapeChar) = .ok (plain ++ cs) := by
    intro cs size
    induction cs with
    | nil =>
      intro plain start hplain
      rw [List.flatMap_nil, List.append_nil]
      exact expandFrom_of_plain hplain
    | cons c cs ih =>
      intro plain start hplain
      rw [List.flatMap_cons]
      rcases Markup.escapeChar_cases c with ⟨hc, hamp, -⟩ | ⟨name, hname, halpha, hresolve⟩
      · -- the run of characters without a reference goes on
        have hplain' : '&' ∉ plain ++ [c] := by
          simp [hplain, hamp.symm]
        simpa [hc] using ih (plain ++ [c]) start hplain'
      · have hname' : ∀ d ∈ name, d ≠ '&' ∧ d ≠ ';' := by
          intro d hd
          have hd := halpha d hd
          constructor <;> rintro rfl <;> simp at hd
        have hexpand : expandFrom size start
            (plain ++ '&' :: (name ++ ';' :: cs.flatMap Markup.escapeChar)) =
              .ok (plain ++ c :: cs) :=
          expandFrom_reference hplain hname' hresolve fun start => ih [] start (by simp)
        simpa [hname] using hexpand
  exact key s.toList _ [] 0 (by simp)

end Xml

end BpmnModel
