import IncludeGuard.Proofs.Checking

/-! # Runs that fail

A run can fail before it looks at any header, because the root or an argument leads nowhere
(`Unresolved`), or at one of the headers.

* `run_fix_error`: a fix run of the first kind leaves everything as it was. One of the second kind
  leaves what fixing the headers before the one that failed leaves, and fails for the reason for
  which that header cannot be fixed. That a header cannot be shown is never the reason: a header
  that was written has a name, and what has a name can be shown.
* `run_error_of_inside`: if the root is a directory and all arguments lead to something in it, every
  candidate has a name, and a run can fail for one reason only: the content of a candidate is no
  text. -/

namespace IncludeGuard

namespace Workspace

/-! ### A fix run that fails -/

/-- **A fix run that fails** before it comes to a header changes nothing. Otherwise it has fixed
some of the headers, in order, and leaves what this left, and the next header is the one that cannot
be fixed. No header that was written fails to be shown. -/
theorem run_fix_error {ws : Workspace} {o : Options} {e : Failure} (ho : o.check = false)
    (h : (ws.run o).result = .error e) :
    (ws.Unresolved o → (ws.run o).workspace = ws) ∧
    (¬ws.Unresolved o → ∃ root files k file report,
      ws.resolveRoot o.root = .ok root ∧ ws.candidates o.paths = .ok files ∧
      files[k]? = some file ∧ (fixEach root ws (files.take k)).report = .ok report ∧
      (fixEach root ws (files.take k)).workspace.fixHeader file root = .error e ∧
      (ws.run o).workspace = (fixEach root ws (files.take k)).workspace) ∧
    ∀ (ws' : Workspace) (file root : Path) (repaired : Repaired),
      ws'.fixHeader file root = .ok (some repaired) →
        ∃ path, relativeDisplay file root = .ok path := by
  refine ⟨run_workspace_of_unresolved, fun hresolved => ?_, fun _ _ _ _ hrepaired =>
    exists_relativeDisplay_of_repaired hrepaired⟩
  obtain ⟨root, files, hroot, hfiles⟩ := not_unresolved_iff.mp hresolved
  obtain ⟨hws, hresult⟩ := run_of_candidates hroot hfiles
  rw [ho, if_neg Bool.false_ne_true] at hws hresult
  rw [runFix_workspace] at hws
  rw [hresult, runFix_result_eq_error_iff] at h
  obtain ⟨k, file, hfile, hbefore, herror, hleft⟩ := exists_take_of_failure h
  have hreport := FixProgress.report_eq_ok_iff.mpr ⟨hbefore, rfl⟩
  exact ⟨root, files, k, file, _, hroot, hfiles, hfile, hreport, herror, hws.trans hleft⟩

/-- Two headers in a linked directory, of which the second is no text. -/
def unreadable : Workspace :=
  ofEntries [("w/d/a.h".toList, .file (Utf8.encode "#ifndef X\n#define X\n#endif\n".toList)),
    ("w/d/b.h".toList, .file [0xFF]), ("w/d/c.h".toList, .link (.ofText "a.h".toList)),
    ("l".toList, .link (.ofText "w/d".toList))]

/-- A fix run over them below the directory `w`. -/
def unreadableOptions : Options :=
  ⟨[.ofText "l".toList], false, some (.ofText "w".toList), false⟩

theorem run_unreadable : (unreadable.run unreadableOptions).result =
    .error (.read (.ofText "/w/d/b.h".toList) .invalidText) := by
  decide +kernel

/-- The theorem at the two headers: the first is written, and the run stops at the second. -/
theorem run_fix_error_unreadable :
    (∃ root files k file report,
      unreadable.candidates unreadableOptions.paths = .ok files ∧ files[k]? = some file ∧
      (fixEach root unreadable (files.take k)).report = .ok report ∧
      (fixEach root unreadable (files.take k)).workspace.fixHeader file root =
        .error (.read (.ofText "/w/d/b.h".toList) .invalidText) ∧
      (unreadable.run unreadableOptions).workspace =
        (fixEach root unreadable (files.take k)).workspace) ∧
    (unreadable.run unreadableOptions).workspace.tree.content?
      (Path.segments (Utf8.encode "w/d/a.h".toList)) =
        some (Utf8.encode "#ifndef D_A_H\n#define D_A_H\n#endif // D_A_H\n".toList) := by
  have hroot : unreadable.resolveRoot unreadableOptions.root = .ok (.ofText "/w".toList) := by
    decide +kernel
  have hfiles : unreadable.candidates unreadableOptions.paths = .ok
      [.ofText "/w/d/a.h".toList, .ofText "/w/d/b.h".toList, .ofText "/w/d/c.h".toList] := by
    decide +kernel
  have hresolved := not_unresolved_iff.mpr ⟨_, _, hroot, hfiles⟩
  obtain ⟨root, files, k, file, report, -, hcandidates, hfile, hreport, herror, hleft⟩ :=
    (run_fix_error rfl run_unreadable).2.1 hresolved
  exact ⟨⟨root, files, k, file, report, hcandidates, hfile, hreport, herror, hleft⟩,
    by decide +kernel⟩

/-! ### A run inside the root -/

section Inside
variable {ws : Workspace} {file root : Path} {e : Failure}

theorem readHeader_eq_of_checkOne {name : Text} (hname : guardName file root = .ok name)
    (h : ws.checkOne root file = .error e) : ws.readHeader file = .error e := by
  have hverdict := checkOne_eq_error_iff.mp h
  rcases hc : ws.readHeader file with e' | c
  · simpa [checkHeader, hc] using hverdict
  · exfalso
    by_cases hlen : (splitLines c).length < minGuardedLines
    · rw [checkHeader_of_short hc hlen] at hverdict
      cases hverdict
    · rw [checkHeader_of_guardName hc (by omega) hname] at hverdict
      cases hverdict

theorem eq_of_readHeader_eq_error {a : Address} (hfile : ws.reach .find file = .ok (.file a))
    (h : ws.readHeader file = .error e) : e = .read file .invalidText := by
  rcases htext : (ws.tree.content? a).bind Utf8.decode? with _ | t <;>
    simp [readHeader, read, hfile, htext, Except.mapError] at h
  exact h.symm

end Inside

theorem exists_guardName_eq_ok {r ns : Address} (hn : ∀ n ∈ r ++ ns, IsName n) (hns : ns ≠ []) :
    ∃ name, guardName (Address.path (r ++ ns)) r.path = .ok name := by
  obtain ⟨first, rest, rfl⟩ := List.exists_cons_of_ne_nil hns
  have hr : ∀ n ∈ r, IsName n := fun n h => hn n (List.mem_append_left _ h)
  have hcomponents : (Address.path (r ++ first :: rest)).components =
      r.path.components ++ .normal first :: rest.map .normal := by
    rw [Address.components_path hn, Address.components_path hr, List.map_append]
    rfl
  have hlast : (Path.Component.normal first :: rest.map .normal).getLast? =
      some (.normal ((first :: rest).getLast hns)) := by
    rw [← List.map_cons, List.getLast?_map, List.getLast?_eq_some_getLast hns]
    rfl
  exact ⟨_, guardName_eq hcomponents hlast⟩

/-- **Candidates inside the root have names.** -/
theorem exists_guardName_of_mem_candidates {ws : Workspace} {r : Address}
    {arguments files : List Path} (hcwd : ws.tree.entryAt? ws.cwd = some .dir)
    (hr : ws.tree.entryAt? r = some .dir)
    (hinside : ∀ argument ∈ arguments, ∃ a, ws.resolve argument = .ok a ∧
      r.path.components <+: a.path.components)
    (hfiles : ws.candidates arguments = .ok files) {p : Path} (hp : p ∈ files) :
    ∃ name, guardName p r.path = .ok name := by
  obtain ⟨argument, hargument, d, ns, hd, rfl, -, hholds, -⟩ :=
    exists_of_mem_candidates hcwd hfiles hp
  obtain ⟨a, ha, hprefix⟩ := hinside argument hargument
  obtain rfl : d = a := by simpa [hd] using ha
  obtain ⟨e, he, hdir⟩ := hholds.exists_entryAt?_eq
  have hn := hholds.isName
  -- for addresses, to begin with the same components is to begin with the same names
  obtain ⟨ms, rfl⟩ : r <+: d := by
    rw [Address.components_path (Listing.isName_of_entryAt? ws.tree.wellFormed hr),
      Address.components_path fun n h => hn n (List.mem_append_left _ h), List.cons_prefix_cons]
      at hprefix
    exact (List.prefix_map_iff_of_injective fun _ _ h => by cases h; rfl).mp hprefix.2
  rw [List.append_assoc] at he hn ⊢
  refine exists_guardName_eq_ok hn fun hnil => ?_
  rw [hnil, List.append_nil, hr] at he
  exact hdir (by simpa using he.symm)

/-- **A run inside the root** fails only because a candidate holds no text. -/
theorem run_error_of_inside {ws : Workspace} {o : Options} {r : Address} {e : Failure}
    (hcwd : ws.tree.entryAt? ws.cwd = some .dir) (hroot : ws.resolveRoot o.root = .ok r.path)
    (hr : ws.tree.entryAt? r = some .dir)
    (hinside : ∀ argument ∈ o.paths, ∃ a, ws.resolve argument = .ok a ∧
      r.path.components <+: a.path.components)
    (h : (ws.run o).result = .error e) :
    ∃ files, ws.candidates o.paths = .ok files ∧ ∃ file ∈ files,
      e = .read file .invalidText ∧ (ws.run o).workspace.readHeader file = .error e := by
  obtain ⟨files, hfiles⟩ := exists_candidates_iff.mpr fun argument hargument =>
    (hinside argument hargument).imp fun _ ha => ha.1
  have hname : ∀ file ∈ files, ∃ name, guardName file r.path = .ok name := fun file hfile =>
    exists_guardName_of_mem_candidates hcwd hr hinside hfiles hfile
  have hreach : ∀ file ∈ files, ∃ a, ws.reach .find file = .ok (.file a) := by
    intro file hfile
    obtain ⟨-, -, d, ns, -, rfl, -, ⟨ha, -⟩, -⟩ := exists_of_mem_candidates hcwd hfiles hfile
    exact ha
  obtain ⟨hws, hresult⟩ := run_of_candidates hroot hfiles
  refine ⟨files, hfiles, ?_⟩
  rw [hresult] at h
  rw [hws]
  cases ho : o.check with
  | true =>
    rw [ho, if_pos rfl, runCheck_result_eq_error_iff] at h
    obtain ⟨file, hfile, herror⟩ := exists_error_of_untilFailure h
    obtain ⟨name, hname⟩ := hname file hfile
    obtain ⟨a, ha⟩ := hreach file hfile
    have hread := readHeader_eq_of_checkOne hname herror
    rw [if_pos rfl, runCheck_workspace]
    exact ⟨file, hfile, eq_of_readHeader_eq_error ha hread, hread⟩
  | false =>
    rw [ho, if_neg Bool.false_ne_true, runFix_result_eq_error_iff] at h
    obtain ⟨k, file, hfile, -, herror, hleft⟩ := exists_take_of_failure h
    have hmem := List.mem_of_getElem? hfile
    obtain ⟨name, hname⟩ := hname file hmem
    obtain ⟨a, ha⟩ := hreach file hmem
    have hread := readHeader_eq_of_fixHeader hname herror
    -- the files that were written before are where they were
    obtain ⟨as, hchanges, -⟩ := exists_fixEach_changesOnly ws r.path (files.take k)
    rw [← hchanges.reach_eq] at ha
    rw [if_neg Bool.false_ne_true, runFix_workspace, hleft]
    exact ⟨file, hmem, eq_of_readHeader_eq_error ha hread, hread⟩

/-- The theorem at the two headers, seen from the root directory. -/
theorem run_error_of_inside_unreadable : ∃ files,
    unreadable.candidates unreadableOptions.paths = .ok files ∧ ∃ file ∈ files,
    (Failure.read (.ofText "/w/d/b.h".toList) .invalidText = .read file .invalidText) ∧
    (unreadable.run unreadableOptions).workspace.readHeader file =
      .error (.read (.ofText "/w/d/b.h".toList) .invalidText) := by
  have hcwd : unreadable.tree.entryAt? unreadable.cwd = some .dir := rfl
  have hroot : unreadable.resolveRoot unreadableOptions.root =
      .ok (Address.path [Utf8.encode "w".toList]) := by decide +kernel
  have hdir : unreadable.tree.entryAt? [Utf8.encode "w".toList] = some .dir := by decide +kernel
  have hinside : ∀ argument ∈ unreadableOptions.paths, ∃ a, unreadable.resolve argument = .ok a ∧
      (Address.path [Utf8.encode "w".toList]).components <+: a.path.components := by
    intro argument hargument
    obtain rfl := List.mem_singleton.mp hargument
    have hresolve : unreadable.resolve (.ofText "l".toList) =
        .ok [Utf8.encode "w".toList, Utf8.encode "d".toList] := by decide +kernel
    exact ⟨_, hresolve, by decide⟩
  exact run_error_of_inside hcwd hroot hdir hinside run_unreadable

end Workspace

end IncludeGuard
