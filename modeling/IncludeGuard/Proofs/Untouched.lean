import IncludeGuard.Proofs.FailedRun

/-! # What a fix run leaves alone

A fix run writes through the path of a candidate, and it writes to where that path leads. For an
argument that leads to a file this is the file itself, whose own name was looked at. For a header
below a directory it need not be: the name that was looked at may be that of a link, and the link
may lead to a file of any name.

So a fix run changes the contents of files only, and each file that it changes is called like a
header, or is what a link below a directory among the arguments leads to and the link is called like
a header (`run_fix_changes`). The second does happen (`run_fix_changes_linked`). -/

namespace IncludeGuard

namespace Workspace

variable {ws : Workspace} {o : Options} {b : Address}

theorem isHeader_or_link_of_mem_candidates (hcwd : ws.tree.entryAt? ws.cwd = some .dir)
    {arguments files : List Path} (hfiles : ws.candidates arguments = .ok files) {p : Path}
    (hp : p ∈ files) (hreach : ws.reach .find p = .ok (.file b)) :
    Address.IsHeader b ∨ ∃ argument ∈ arguments, ∃ d ns target, ws.resolve argument = .ok d ∧
      ws.HeaderBelow d ns ∧ ws.tree.entryAt? (d ++ ns) = some (.link target) ∧
        ws.reach .find (Address.path (d ++ ns)) = .ok (.file b) := by
  obtain ⟨argument, hargument, d, ns, hd, rfl, hheader, ⟨-, hentry⟩, horigin⟩ :=
    exists_of_mem_candidates hcwd hfiles hp
  rcases hentry with ⟨c, hc⟩ | ⟨target, htarget⟩
  · -- a file leads to itself
    rw [reach_find_path hc] at hreach
    split_ifs at hreach
    obtain rfl : d ++ ns = b := by simpa [Entry.leadsTo] using hreach
    exact Or.inl hheader
  · rcases horigin with ⟨rfl, c, hc⟩ | hbelow
    · simp [hc] at htarget
    · exact Or.inr ⟨argument, hargument, d, ns, target, hd, hbelow, htarget, hreach⟩

/-- **What a fix run changes** is the content of files. Each of them is called like a header, or a
link that is called like a header and lies below a directory among the arguments leads to it. -/
theorem run_fix_changes (hcwd : ws.tree.entryAt? ws.cwd = some .dir) (ho : o.check = false)
    (hb : (ws.run o).workspace.tree.entryAt? b ≠ ws.tree.entryAt? b) :
    (∃ c c', ws.tree.entryAt? b = some (.file c) ∧
      (ws.run o).workspace.tree.entryAt? b = some (.file c')) ∧
    (Address.IsHeader b ∨ ∃ argument ∈ o.paths, ∃ d ns target, ws.resolve argument = .ok d ∧
      ws.HeaderBelow d ns ∧ ws.tree.entryAt? (d ++ ns) = some (.link target) ∧
        ws.reach .find (Address.path (d ++ ns)) = .ok (.file b)) := by
  by_cases hunresolved : ws.Unresolved o
  · rw [run_workspace_of_unresolved hunresolved] at hb
    exact absurd rfl hb
  · obtain ⟨root, files, hroot, hfiles⟩ := not_unresolved_iff.mp hunresolved
    have hws : (ws.run o).workspace = (fixEach root ws files).workspace := by
      rw [(run_of_candidates hroot hfiles).1, ho, if_neg Bool.false_ne_true, runFix_workspace]
    obtain ⟨as, hchanges, hreach⟩ := exists_fixEach_changesOnly ws root files
    rw [hws] at hb ⊢
    obtain ⟨hbas, c, c', hc, hc'⟩ := (hchanges.tree b).resolve_left hb
    obtain ⟨p, hp, hpb⟩ := hreach b hbas
    exact ⟨⟨c, c', hc, hc'⟩, isHeader_or_link_of_mem_candidates hcwd hfiles hp hpb⟩

/-- A directory with a link that is called like a header and leads to a file that is not. -/
def disguised : Workspace :=
  ofEntries [("d/c.cpp".toList, .file (Utf8.encode "#ifndef X\n#define X\n#endif\n".toList)),
    ("d/a.h".toList, .link (.ofText "c.cpp".toList))]

/-- A fix run over the directory. -/
def disguisedOptions : Options :=
  ⟨[.ofText "d".toList], false, none, false⟩

/-- The theorem at that directory: the run changes the file, which the link leads to. -/
theorem run_fix_changes_linked :
    (disguised.run disguisedOptions).workspace.tree.content?
      [Utf8.encode "d".toList, Utf8.encode "c.cpp".toList] =
        some (Utf8.encode "#ifndef D_A_H\n#define D_A_H\n#endif // D_A_H\n".toList) ∧
    ∃ argument ∈ disguisedOptions.paths, ∃ d ns target,
      disguised.resolve argument = .ok d ∧ disguised.HeaderBelow d ns ∧
      disguised.tree.entryAt? (d ++ ns) = some (.link target) ∧
      disguised.reach .find (Address.path (d ++ ns)) =
        .ok (.file [Utf8.encode "d".toList, Utf8.encode "c.cpp".toList]) := by
  have hchanged : (disguised.run disguisedOptions).workspace.tree.entryAt?
      [Utf8.encode "d".toList, Utf8.encode "c.cpp".toList] ≠
        disguised.tree.entryAt? [Utf8.encode "d".toList, Utf8.encode "c.cpp".toList] := by
    decide +kernel
  have hother : ¬Address.IsHeader [Utf8.encode "d".toList, Utf8.encode "c.cpp".toList] := by
    rintro ⟨n, hn, hheader⟩
    obtain rfl : Utf8.encode "c.cpp".toList = n := by simpa using hn
    exact absurd hheader (by decide)
  exact ⟨by decide +kernel, (run_fix_changes rfl rfl hchanged).2.resolve_left hother⟩

end Workspace

end IncludeGuard
