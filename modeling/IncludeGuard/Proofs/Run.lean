import IncludeGuard.Proofs.Discovery
import IncludeGuard.Proofs.Fixing

/-! # What a run comes to

A run resolves the root and all arguments before it looks at a header. If one of them leads nowhere
(`Unresolved`), the run ends there and nothing is changed (`run_workspace_of_unresolved`). Otherwise
it comes to its candidates and is a check or a fix of these (`run_of_candidates`): a check changes
nothing, and a fix changes what `fixEach` does. -/

namespace IncludeGuard.Workspace

/-- The root or one of the arguments leads nowhere. -/
def Unresolved (ws : Workspace) (o : Options) : Prop :=
  (∃ e, ws.resolveRoot o.root = .error e) ∨
    ∃ argument ∈ o.paths, ∃ fault, ws.resolve argument = .error fault

section Run
variable {ws : Workspace} {o : Options} {root : Path} {files : List Path} {e : Failure}

theorem not_unresolved_iff : ¬ws.Unresolved o ↔
    ∃ root files, ws.resolveRoot o.root = .ok root ∧ ws.candidates o.paths = .ok files := by
  have hroot : (¬∃ e, ws.resolveRoot o.root = .error e) ↔
      ∃ root, ws.resolveRoot o.root = .ok root := by
    cases ws.resolveRoot o.root <;> simp
  have hpaths : (¬∃ argument ∈ o.paths, ∃ fault, ws.resolve argument = .error fault) ↔
      ∃ files, ws.candidates o.paths = .ok files := by
    rw [exists_candidates_iff, not_exists]
    refine forall_congr' fun argument => ?_
    cases ws.resolve argument <;> simp
  rw [Unresolved, not_or, hroot, hpaths]
  simp

theorem run_workspace_of_unresolved (h : ws.Unresolved o) : (ws.run o).workspace = ws := by
  rcases hroot : ws.resolveRoot o.root with e | root
  · simp [run, hroot]
  · rcases hexpand : ws.expandAll o.paths with ⟨expansions, _ | e⟩
    · have hfiles : ws.candidates o.paths = .ok (expansions.flatMap Expansion.headers) := by
        simp [candidates, hexpand]
      exact absurd h (not_unresolved_iff.mpr ⟨root, _, hroot, hfiles⟩)
    · simp [run, hroot, hexpand]

theorem run_of_candidates (hroot : ws.resolveRoot o.root = .ok root)
    (hfiles : ws.candidates o.paths = .ok files) :
    (ws.run o).workspace =
        (if o.check then ws.runCheck o.json root files
          else ws.runFix o.json root files).workspace ∧
      (ws.run o).result =
        (if o.check then ws.runCheck o.json root files
          else ws.runFix o.json root files).result := by
  rcases hexpand : ws.expandAll o.paths with ⟨expansions, _ | e⟩
  · obtain rfl : expansions.flatMap Expansion.headers = files := by
      simpa [candidates, hexpand] using hfiles
    simp [run, hroot, hexpand]
  · simp [candidates, hexpand] at hfiles

theorem runFix_workspace (json : Bool) :
    (ws.runFix json root files).workspace = (fixEach root ws files).workspace := by
  unfold runFix
  dsimp only
  split <;> rfl

theorem runFix_result_eq_error_iff (json : Bool) :
    (ws.runFix json root files).result = .error e ↔ (fixEach root ws files).failure = some e := by
  rcases hfailure : (fixEach root ws files).failure with _ | e' <;>
    simp [runFix, FixProgress.report, hfailure]

theorem runCheck_workspace (json : Bool) : (ws.runCheck json root files).workspace = ws := by
  rcases hcheck : ws.checkEach root files with ⟨checked, _ | e'⟩ <;> simp [runCheck, hcheck]

theorem runCheck_result_eq_error_iff (json : Bool) :
    (ws.runCheck json root files).result = .error e ↔ (ws.checkEach root files).2 = some e := by
  rcases hcheck : ws.checkEach root files with ⟨checked, _ | e'⟩ <;> simp [runCheck, hcheck]

end Run

end IncludeGuard.Workspace
