import IncludeGuard.Proofs.Convergence
import IncludeGuard.Proofs.Fixing

/-! # When a fix writes

`Workspace.Replaces` says of two workspaces that they differ in the bytes of one file. A write of
another text over a file that can be read does this (`replaces_of_write`), and a fix of a header
either does it or does nothing: it cannot fail once the header is read and has a name
(`eq_of_fixHeader_error`), so it never stops halfway through a write.

A repair is decided line by line, but the text as a whole changes with it (`repair?_ne`), also if
the name holds a line feed and so adds lines. A header is therefore reported as fixed exactly if
some file in the tree has other bytes than before (`fixHeader_writes`). -/

namespace IncludeGuard

namespace Workspace

/-- The workspaces differ in the file at the address `a` only. It holds the bytes `old` in the first
and other ones, `new`, in the second. -/
structure Replaces (a : Address) (old new : Bytes) (ws ws' : Workspace) : Prop where
  cwd : ws'.cwd = ws.cwd
  before : ws.tree.content? a = some old
  after : ws'.tree.content? a = some new
  ne : new ≠ old
  elsewhere : ∀ b, b ≠ a → ws'.tree.entryAt? b = ws.tree.entryAt? b

theorem Replaces.content?_ne_iff {a : Address} {old new : Bytes} {ws ws' : Workspace}
    (h : Replaces a old new ws ws') (b : Address) :
    ws'.tree.content? b ≠ ws.tree.content? b ↔ b = a := by
  constructor
  · intro hne
    by_contra hb
    exact hne (by rw [Tree.content?, Tree.content?, h.elsewhere b hb])
  · rintro rfl
    rw [h.before, h.after]
    simpa using h.ne

section Header
variable {ws : Workspace} {file root : Path}

/-- **A write of another text** replaces the bytes of the file, as one text has one encoding. -/
theorem replaces_of_write {c t : Text} {ws' : Workspace} (hc : ws.read file = .ok c) (hne : t ≠ c)
    (hw : ws.write file t = .ok ws') : ∃ a old, ws.reach .find file = .ok (.file a) ∧
      Utf8.decode? old = some c ∧ Replaces a old (Utf8.encode t) ws ws' := by
  obtain ⟨a, old, ha, hold, hdecode⟩ := exists_content?_of_read hc
  have hentry := entryAt?_of_write ha hw
  have hcwd : ws'.cwd = ws.cwd := by
    rw [write_eq ha] at hw
    cases hw
    rfl
  refine ⟨a, old, ha, hdecode, hcwd, hold, by simp [Tree.content?, hentry], ?_,
    fun b hb => by rw [hentry, if_neg hb]⟩
  rintro rfl
  rw [Utf8.decode?_encode] at hdecode
  exact hne (Option.some.inj hdecode)

/-- **A fix fails before it writes**: the header cannot be read, or it has no name. -/
theorem eq_of_fixHeader_error {e : Failure} (h : ws.fixHeader file root = .error e) :
    ws.readHeader file = .error e ∨ ∃ n, guardName file root = .error n ∧ e = .naming n := by
  rcases hn : guardName file root with n | name
  · unfold fixHeader at h
    rcases hc : ws.readHeader file with e' | c
    · left
      simpa [hc] using h
    · right
      simp only [hc, hn] at h
      split_ifs at h
      exact ⟨n, rfl, by simpa using h.symm⟩
  · exact Or.inl (readHeader_eq_of_fixHeader hn h)

theorem workspace_fixEach_of_not_written
    (h : ∀ repaired, ws.fixHeader file root ≠ .ok (some repaired)) :
    (fixEach root ws [file]).workspace = ws := by
  rcases hr : ws.fixHeader file root with e | _ | repaired
  · rw [fixEach_cons_of_error hr]
  · rw [(fixEach_cons_of_ok hr []).2]
    rfl
  · exact absurd hr (h repaired)

/-- **A header that is written** gets the repaired text, in other bytes than before. -/
theorem exists_replaces_of_written {repaired : Repaired}
    (h : ws.fixHeader file root = .ok (some repaired)) :
    ∃ a old c t, ws.reach .find file = .ok (.file a) ∧ Utf8.decode? old = some c ∧
      guardName file root = .ok repaired.expected ∧
      repair? (splitLines c) repaired.expected = some t ∧
      Replaces a old (Utf8.encode t) ws repaired.workspace := by
  obtain ⟨c, hc, hcases⟩ := fixHeader_cases h
  rcases hcases with ⟨-, hr⟩ | ⟨-, e, he, ⟨-, hr⟩ | ⟨t, ws', ht, hw, hr⟩⟩
  · cases hr
  · cases hr
  · cases hr
    obtain ⟨a, old, ha, hdecode, hreplaces⟩ := replaces_of_write (readHeader_eq_ok_iff.mp hc)
      (repair?_ne ht) (writeHeader_eq_ok_iff.mp hw)
    exact ⟨a, old, c, t, ha, hdecode, he, ht, hreplaces⟩

end Header

/-- **A fix writes exactly what it reports.** If a header is not reported as fixed, or cannot be
fixed, the workspace is left as it was, and a failure is never one of writing. If it is reported,
then one file has other bytes, the one that its path leads to, and these are the repaired text. So
the header is reported exactly if some file of the tree has changed, whatever its name is. -/
theorem fixHeader_writes (ws : Workspace) (file root : Path) :
    ((∀ repaired, ws.fixHeader file root ≠ .ok (some repaired)) →
      (fixEach root ws [file]).workspace = ws) ∧
    (∀ e, ws.fixHeader file root = .error e →
      ws.readHeader file = .error e ∨ ∃ n, guardName file root = .error n ∧ e = .naming n) ∧
    (∀ repaired, ws.fixHeader file root = .ok (some repaired) →
      ∃ a old c t, ws.reach .find file = .ok (.file a) ∧ Utf8.decode? old = some c ∧
        guardName file root = .ok repaired.expected ∧
        repair? (splitLines c) repaired.expected = some t ∧
        Replaces a old (Utf8.encode t) ws (fixEach root ws [file]).workspace) ∧
    ((∃ repaired, ws.fixHeader file root = .ok (some repaired)) ↔
      ∃ b, (fixEach root ws [file]).workspace.tree.content? b ≠ ws.tree.content? b) := by
  have hleft {repaired : Repaired} (h : ws.fixHeader file root = .ok (some repaired)) :
      (fixEach root ws [file]).workspace = repaired.workspace := (fixEach_cons_of_ok h []).2
  refine ⟨workspace_fixEach_of_not_written, fun e => eq_of_fixHeader_error, fun repaired h => ?_,
    ?_, ?_⟩
  · rw [hleft h]
    exact exists_replaces_of_written h
  · rintro ⟨repaired, h⟩
    obtain ⟨a, old, c, t, -, -, -, -, hreplaces⟩ := exists_replaces_of_written h
    rw [hleft h]
    exact ⟨a, (hreplaces.content?_ne_iff a).mpr rfl⟩
  · rintro ⟨b, hb⟩
    by_contra hnot
    rw [workspace_fixEach_of_not_written fun repaired h => hnot ⟨repaired, h⟩] at hb
    exact hb rfl

/-- A header in a directory whose name holds a line feed. -/
def splitDirectory : Workspace :=
  ofEntries [("w/d\ne/a.h".toList,
    .file (Utf8.encode "#ifndef D\nE_A_H\n#define D\nE_A_H\n#endif".toList))]

/-- The theorem at that header: the lines added to it make it another text. -/
theorem fixHeader_writes_splitDirectory : ∃ a old t,
    splitDirectory.reach .find (.ofText "/w/d\ne/a.h".toList) = .ok (.file a) ∧
    Replaces a old (Utf8.encode t) splitDirectory
      (fixEach (.ofText "/w".toList) splitDirectory [.ofText "/w/d\ne/a.h".toList]).workspace := by
  obtain ⟨-, -, hwritten, hreported⟩ :=
    fixHeader_writes splitDirectory (.ofText "/w/d\ne/a.h".toList) (.ofText "/w".toList)
  obtain ⟨repaired, h⟩ := hreported.mpr
    ⟨Path.segments (Utf8.encode "w/d\ne/a.h".toList), by decide +kernel⟩
  obtain ⟨a, old, -, t, ha, -, -, -, hreplaces⟩ := hwritten repaired h
  exact ⟨a, old, t, ha, hreplaces⟩

end Workspace

end IncludeGuard
