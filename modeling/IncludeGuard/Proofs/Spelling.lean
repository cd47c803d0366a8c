import IncludeGuard.Proofs.Run
import Mathlib.Data.List.Forall2

/-! # The spelling of arguments

Resolving a path spells out the address it leads to, and that spelling resolves to itself
(`resolve_path_of_resolve`). It cannot be too long to be looked up: each name on the way was looked
up under its full path, and the parent of a directory has a shorter one. Only the current directory
is where it is without having been looked up.

A run uses an argument to resolve it, and to name it if that fails. So it comes to the same end
whichever arguments that lead somewhere, and whether or not the root, are spelled out
(`run_of_respelled`). -/

namespace IncludeGuard

namespace Purpose

@[simp] theorem outgrows_nil (purpose : Purpose) : purpose.outgrows [] = false := by
  cases purpose <;> rfl

theorem outgrows_dropLast {purpose : Purpose} {a : Address} (h : purpose.outgrows a = false) :
    purpose.outgrows a.dropLast = false := by
  rcases List.eq_nil_or_concat a with rfl | ⟨ns, n, rfl⟩
  · exact h
  · rw [List.concat_eq_append] at h
    rw [List.concat_eq_append, List.dropLast_concat]
    exact outgrows_of_append h

end Purpose

namespace Workspace

variable {ws : Workspace} {p q : Path} {a : Address}

/-! ### Resolving twice -/

section Resolve
variable (hcwd : ws.tree.entryAt? ws.cwd = some .dir)
  (hshort : ws.cwd.path.bytes.length < pathLimit)
include hshort

theorem outgrows_of_resolve (h : ws.resolve p = .ok a) : Purpose.resolve.outgrows a = false := by
  have hstart : Purpose.resolve.outgrows (ws.start p) = false := by
    unfold start
    split_ifs
    · exact Purpose.outgrows_nil _
    · exact Purpose.outgrows_eq_false_iff.mpr fun _ => hshort
  rw [resolve_eq_ok_iff] at h
  unfold Workspace.locate at h
  split_ifs at h
  · simp at h
  · simp at h
  · rcases h with hdir | hfile
    · exact Tree.of_locate (P := (Purpose.resolve.outgrows · = false)) (Purpose.outgrows_nil _)
        (fun _ => Purpose.outgrows_dropLast) (fun _ _ hb => hb) hstart hdir
    · exact (Tree.exists_file_of_locate hfile).2

include hcwd

/-- **What a path resolves to resolves to itself.** -/
theorem resolve_path_of_resolve (h : ws.resolve p = .ok a) : ws.resolve a.path = .ok a := by
  have hlong := outgrows_of_resolve hshort h
  rw [resolve_eq_ok_iff]
  rcases entryAt?_of_resolve hcwd h with hdir | ⟨c, hc⟩
  · exact Or.inl (locate_path (by simp) hlong hdir)
  · exact Or.inr (locate_path (by simp) hlong hc)

end Resolve

/-! ### Other spellings of a run -/

/-- The second path is the first one, or the first one spelled out. -/
inductive Respells (ws : Workspace) (p : Path) : Path → Prop
  | same : ws.Respells p p
  | resolved {a : Address} (h : ws.resolve p = .ok a) : ws.Respells p a.path

/-- The second options are the first ones up to the spelling of the arguments and of the root. A
root that is not given is the current directory. -/
structure Respelled (ws : Workspace) (o o' : Options) : Prop where
  paths : List.Forall₂ ws.Respells o.paths o'.paths
  root : o'.root = o.root ∨
    ∃ a, ws.resolve (o.root.getD ws.cwd.path) = .ok a ∧ o'.root = some a.path
  check : o'.check = o.check
  json : o'.json = o.json

section Run
variable (hcwd : ws.tree.entryAt? ws.cwd = some .dir)
  (hshort : ws.cwd.path.bytes.length < pathLimit)
include hcwd hshort

theorem expand_of_respells (h : ws.Respells p q) : ws.expand q = ws.expand p := by
  cases h with
  | same => rfl
  | resolved hresolve =>
    unfold expand
    rw [hresolve, resolve_path_of_resolve hcwd hshort hresolve]

theorem expandAll_of_respells {ps qs : List Path} (h : List.Forall₂ ws.Respells ps qs) :
    ws.expandAll qs = ws.expandAll ps := by
  induction h with
  | nil => rfl
  | cons hpq _ ih =>
    unfold expandAll at ih ⊢
    rw [untilFailure, untilFailure, ih, expand_of_respells hcwd hshort hpq]

theorem resolveRoot_of_respelled {root root' : Option Path} (h : root' = root ∨
    ∃ a, ws.resolve (root.getD ws.cwd.path) = .ok a ∧ root' = some a.path) :
    ws.resolveRoot root' = ws.resolveRoot root := by
  rcases h with rfl | ⟨a, ha, rfl⟩
  · rfl
  · have hspelled := resolve_path_of_resolve hcwd hshort ha
    simp [resolveRoot, ha, hspelled]

/-- **The spelling does not matter.** -/
theorem run_of_respelled {o o' : Options} (h : ws.Respelled o o') :
    ws.run o' = ws.run o ∧ ∀ t arguments arguments', Options.parse arguments = .ok o →
      Options.parse arguments' = .ok o' → ws.program t arguments' = ws.program t arguments := by
  have hrun : ws.run o' = ws.run o := by
    unfold run
    rw [resolveRoot_of_respelled hcwd hshort h.root, expandAll_of_respells hcwd hshort h.paths,
      h.check, h.json]
  refine ⟨hrun, fun t arguments arguments' hparse hparse' => ?_⟩
  simp only [program, hparse, hparse', hrun]

end Run

/-- Two headers with the wrong name on their guards in a directory `d`, seen from its parent
directory, and a link to the inner directory. -/
def winding : Workspace :=
  { ofEntries [("w/d/a.h".toList, .file (Utf8.encode "#ifndef X\n#define X\n#endif\n".toList)),
      ("w/d/e/b.h".toList, .file (Utf8.encode "#ifndef X\n#define X\n#endif\n".toList)),
      ("l".toList, .link (.ofText "w//d/e".toList))] with cwd := [Utf8.encode "w".toList] }

/-- A fix run over both headers. -/
def windingOptions : Options :=
  ⟨[.ofText "../l/..//a.h".toList, .ofText "./d/e/../e".toList], false, none, false⟩

/-- The same with all paths spelled out. -/
def straightOptions : Options :=
  ⟨[.ofText "/w/d/a.h".toList, .ofText "/w/d/e".toList], false, some (.ofText "/w".toList), false⟩

/-- The theorem at these options: the parent directory is that of what the link leads to. Both headers
are fixed. -/
theorem run_of_respelled_winding : winding.run straightOptions = winding.run windingOptions ∧
    (winding.run windingOptions).result.map Answer.stdout =
      .ok "Fixed 2 files:\n  d/a.h\n  d/e/b.h\n".toList := by
  have hcwd : winding.tree.entryAt? winding.cwd = some .dir := by decide +kernel
  have hshort : winding.cwd.path.bytes.length < pathLimit := by decide +kernel
  have hfile : winding.resolve (.ofText "../l/..//a.h".toList) =
      .ok (["w", "d", "a.h"].map fun n => Utf8.encode n.toList) := by decide +kernel
  have hdir : winding.resolve (.ofText "./d/e/../e".toList) =
      .ok (["w", "d", "e"].map fun n => Utf8.encode n.toList) := by decide +kernel
  have hroot : winding.resolve winding.cwd.path = .ok [Utf8.encode "w".toList] := by
    decide +kernel
  have hspelled : winding.Respelled windingOptions straightOptions :=
    ⟨.cons (.resolved hfile) (.cons (.resolved hdir) .nil), Or.inr ⟨_, hroot, rfl⟩, rfl, rfl⟩
  exact ⟨(run_of_respelled hcwd hshort hspelled).1, by decide +kernel⟩

end Workspace

end IncludeGuard
