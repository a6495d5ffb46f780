import BpmnModel.Compile.Compiler
import BpmnModel.Proofs.Outcome

/-!
# The stages of a compilation

A compilation that succeeds has passed all of its stages.  What each of them found is said here
at once, so that no later proof follows the compiler through its stages again.

## Main statements

* `Compiler.compile_eq_ok_iff` — what has been found when a document is accepted.
* `Compiler.compile_eq_structure_iff`, `Compiler.compile_eq_validation_iff` — why a document is
  refused, and `Compiler.cause_of_compile` that there is no other reason.
-/

namespace BpmnModel.Compiler

variable {c : Compiler} {root : Element} {d : Document}

theorem readProcesses_eq_ok_iff {ps : List Process} : c.readProcesses root = .ok ps ↔
    root.childrenNamed "process" ≠ [] ∧
      List.Forall₂ (fun node p => Process.read c.registry c.settings node = .ok p)
        (root.childrenNamed "process") ps := by
  rw [readProcesses]
  split
  · rename_i hnone
    simp [hnone]
  · rename_i hsome
    rw [Outcome.mapM_eq_ok_iff]
    exact ⟨fun h => ⟨hsome, h⟩, fun h => h.2⟩

theorem readStructure_eq_ok_iff : c.readStructure root = .ok d ↔
    root.tag = "definitions" ∧ Collaboration.read c.settings root = .ok d.model ∧
      c.readProcesses root = .ok d.processes := by
  rw [readStructure]
  split
  · rename_i htag
    simp only [Outcome.bind_eq_ok_iff, Outcome.pure_eq_ok_iff, htag, true_and]
    constructor
    · rintro ⟨model, hmodel, processes, hprocesses, rfl⟩
      exact ⟨hmodel, hprocesses⟩
    · rintro ⟨hmodel, hprocesses⟩
      exact ⟨d.model, hmodel, d.processes, hprocesses, rfl⟩
  · rename_i htag
    simp [htag]

theorem checkDocument_eq_ok_iff {d' : Document} : c.checkDocument d = .ok d' ↔
    d'.model = d.model ∧
      List.Forall₂ (fun p q => p.check c.settings d.model = .ok q) d.processes d'.processes := by
  simp only [checkDocument, Outcome.bind_eq_ok_iff, Outcome.pure_eq_ok_iff,
    Outcome.mapM_eq_ok_iff]
  constructor
  · rintro ⟨processes, hprocesses, rfl⟩
    exact ⟨rfl, hprocesses⟩
  · rintro ⟨hmodel, hprocesses⟩
    exact ⟨d'.processes, hprocesses, by rw [← hmodel]⟩

/-- **What has been found when a document is accepted.** -/
theorem compile_eq_ok_iff : c.compile root = .ok d ↔
    root.tag = "definitions" ∧ root.childrenNamed "process" ≠ [] ∧
      Collaboration.read c.settings root = .ok d.model ∧
      ∃ ps, List.Forall₂ (fun node p => Process.read c.registry c.settings node = .ok p)
          (root.childrenNamed "process") ps ∧
        List.Forall₂ (fun p q => p.check c.settings d.model = .ok q) ps d.processes := by
  simp only [compile, Outcome.bind_eq_ok_iff, Outcome.mapError_eq_ok_iff,
    readStructure_eq_ok_iff, readProcesses_eq_ok_iff, checkDocument_eq_ok_iff]
  constructor
  · rintro ⟨d', ⟨htag, hmodel, hsome, hread⟩, hsame, hcheck⟩
    rw [← hsame] at hmodel hcheck
    exact ⟨htag, hsome, hmodel, d'.processes, hread, hcheck⟩
  · rintro ⟨htag, hsome, hmodel, ps, hread, hcheck⟩
    exact ⟨{ model := d.model, processes := ps }, ⟨htag, hmodel, hsome, hread⟩, rfl, hcheck⟩

/-! ## Refusals -/

/-- A structural error is told before anything is checked. -/
theorem compile_eq_structure_iff {cause : StructureError} :
    c.compile root = .error (.structure cause) ↔ c.readStructure root = .error cause := by
  simp [compile, Outcome.bind_eq_error_iff, Outcome.mapError_eq_error_iff]

/-- Violations are told when the structure of the whole document has been read. -/
theorem compile_eq_validation_iff {cause : ValidationError} :
    c.compile root = .error (.validation cause) ↔
      ∃ d, c.readStructure root = .ok d ∧ c.checkDocument d = .error cause := by
  simp [compile, Outcome.bind_eq_error_iff, Outcome.mapError_eq_error_iff,
    Outcome.mapError_eq_ok_iff]

/-- A tree is refused for its structure or for its violations. -/
theorem cause_of_compile {e : Error} (h : c.compile root = .error e) :
    (∃ cause, e = .structure cause) ∨ ∃ cause, e = .validation cause := by
  simp only [compile, Outcome.bind_eq_error_iff, Outcome.mapError_eq_error_iff] at h
  rcases h with ⟨cause, -, rfl⟩ | ⟨-, -, cause, -, rfl⟩
  · exact .inl ⟨cause, rfl⟩
  · exact .inr ⟨cause, rfl⟩

end BpmnModel.Compiler
