import Mathlib.Data.List.Induction
import BpmnModel.Compile.Compiler
import BpmnModel.Proofs.Table

/-!
# Registries of built-in classifiers

A compiler that was only told aliases knows the built-in classifiers and no others.  Which one
reads an element depends on the built-in tag that the element's tag stands for: the last alias
counts, and a tag without alias stands for itself.

## Main definitions

* `Compiler.aliased settings aliases` — a compiler after a sequence of aliases.
* `Registry.resolve aliases tag` — the built-in tag that `tag` stands for.

## Main statements

* `Registry.get?_aliased` — the classifier of a tag is that of the tag it stands for.
-/

namespace BpmnModel

/-! ## Sequences of aliases -/

namespace Registry

/-- The registry after a sequence of aliases. -/
def aliased (aliases : List (String × String)) : Registry :=
  aliases.foldl (fun r a => r.withAlias a.1 a.2) standard

/-- The built-in tag that a tag stands for.  An alias for a tag that is not built in does not
count. -/
def resolve (aliases : List (String × String)) (tag : String) : Option String :=
  ((aliases.filter fun a => (builtin? a.2).isSome).reverse.lookup tag).or
    (if (builtin? tag).isSome then some tag else none)

end Registry

/-- The compiler with the given settings after a sequence of aliases. -/
def Compiler.aliased (s : Settings) (aliases : List (String × String)) : Compiler :=
  aliases.foldl (fun c a => c.withAlias a.1 a.2) { settings := s }

/-- Aliases change the registry and nothing else. -/
theorem Compiler.aliased_eq (s : Settings) (aliases : List (String × String)) :
    Compiler.aliased s aliases = { settings := s, registry := .aliased aliases } := by
  have key : ∀ r : Registry, aliases.foldl (fun c a => Compiler.withAlias c a.1 a.2)
      { settings := s, registry := r } =
        { settings := s, registry := aliases.foldl (fun r a => r.withAlias a.1 a.2) r } := by
    induction aliases with
    | nil => intro r; rfl
    | cons a aliases ih => intro r; exact ih (r.withAlias a.1 a.2)
  exact key .standard

namespace Registry

/-! ## The built-in classifiers -/

theorem get?_standard (tag : String) : standard.get? tag = builtin? tag := by
  rw [standard, Table.get?_ofList, Table.lookup_reverse_of_nodup (by decide), builtin?]

/-! ## The last alias counts -/

theorem get?_withAlias (r : Registry) (user builtinTag tag : String) :
    (r.withAlias user builtinTag).get? tag =
      if tag = user ∧ (builtin? builtinTag).isSome then builtin? builtinTag else r.get? tag := by
  rw [withAlias]
  split
  · rename_i c hc
    rw [Table.get?_insert, hc]
    simp
  · rename_i hnone
    simp [hnone]

theorem resolve_concat (aliases : List (String × String)) (user builtinTag tag : String) :
    resolve (aliases ++ [(user, builtinTag)]) tag =
      if tag = user ∧ (builtin? builtinTag).isSome then some builtinTag
      else resolve aliases tag := by
  unfold resolve
  by_cases hb : (builtin? builtinTag).isSome
  · by_cases ht : tag = user
    · simp [List.filter_append, hb, ht]
    · simp [List.filter_append, hb, ht, Table.lookup_cons_eq]
  · simp [List.filter_append, hb]

/-- **The classifier of a tag is that of the built-in tag it stands for.** -/
theorem get?_aliased (aliases : List (String × String)) (tag : String) :
    (aliased aliases).get? tag = (resolve aliases tag).bind builtin? := by
  induction aliases using List.reverseRecOn with
  | nil =>
    rw [aliased, List.foldl_nil, get?_standard]
    cases h : builtin? tag <;> simp [resolve, h]
  | append_singleton aliases a ih =>
    have hstep : aliased (aliases ++ [a]) = (aliased aliases).withAlias a.1 a.2 := by
      simp [aliased]
    rw [hstep, get?_withAlias, resolve_concat aliases a.1 a.2, ih]
    by_cases h : tag = a.1 ∧ (builtin? a.2).isSome <;> simp [h]

/-- A tag stands for built-in tags only. -/
theorem isSome_builtin?_of_resolve {aliases : List (String × String)} {tag builtinTag : String}
    (h : resolve aliases tag = some builtinTag) : (builtin? builtinTag).isSome := by
  induction aliases using List.reverseRecOn with
  | nil =>
    simp only [resolve, List.filter_nil, List.reverse_nil, List.lookup_nil,
      Option.none_or] at h
    split at h
    · rename_i hb
      rwa [← Option.some.inj h]
    · simp at h
  | append_singleton aliases a ih =>
    rw [resolve_concat aliases a.1 a.2] at h
    split at h
    · rename_i hb
      rw [← Option.some.inj h]
      exact hb.2
    · exact ih h

end Registry

end BpmnModel
