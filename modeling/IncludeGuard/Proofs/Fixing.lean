import IncludeGuard.Proofs.GuardName
import IncludeGuard.Proofs.Workspace
import IncludeGuard.Run

/-! # What a fix does

`FixesTo` says which text a fix leaves in place of which. A fix that ends well has changed the file
of its header at most, and has left there what `FixesTo` says (`fixHeader_fixesTo`). A run over
headers in different files then does the same to each of them, as no step undoes another
(`fixEach_fixesTo`). A header that can be read and named can also be written, as there are no
permissions in a workspace and there is always room, so a fix of it ends well
(`exists_fixHeader_eq`).

A run over any headers changes the files at most that they lead to (`exists_fixEach_changesOnly`),
and one that fails stops at a header that cannot be fixed, with what the headers before it left
(`exists_take_of_failure`). -/

namespace IncludeGuard

theorem exists_relativeDisplay_eq {file root : Path} {e : Text} (h : guardName file root = .ok e) :
    ∃ path, relativeDisplay file root = .ok path := by
  obtain ⟨below, -, -, -, hbelow, -, -⟩ := exists_nameSegments_of_guardName h
  exact ⟨below.display, by simp [relativeDisplay, hbelow]⟩

/-- A fix of the header leaves the second text in place of the first: a text that is too short stays
as it is, and any other is repaired to the name of the header. -/
def FixesTo (file root : Path) (c c' : Text) : Prop :=
  ((splitLines c).length < minGuardedLines ∧ c' = c) ∨
    (minGuardedLines ≤ (splitLines c).length ∧
      ∃ e, guardName file root = .ok e ∧ c' = (repair? (splitLines c) e).getD c)

theorem FixProgress.report_eq_ok_iff {p : FixProgress} {r : FixReport} :
    p.report = .ok r ↔ p.failure = none ∧ r = ⟨p.done.length, p.shown⟩ := by
  unfold report
  rcases p.failure with _ | e <;> simp [eq_comm]

namespace Workspace

/-- The workspace after a header was gone through. -/
def after (ws : Workspace) (r : Option Repaired) : Workspace :=
  r.elim ws Repaired.workspace

/-! ### One header -/

theorem readHeader_eq_ok_iff {ws : Workspace} {p : Path} {t : Text} :
    ws.readHeader p = .ok t ↔ ws.read p = .ok t := by
  unfold readHeader
  cases ws.read p <;> simp [Except.mapError]

theorem writeHeader_eq_ok_iff {ws ws' : Workspace} {p : Path} {t : Text} :
    ws.writeHeader p t = .ok ws' ↔ ws.write p t = .ok ws' := by
  unfold writeHeader
  cases ws.write p t <;> simp [Except.mapError]

section Header
variable {ws : Workspace} {file root : Path} {r : Option Repaired}

/-- The ways in which a fix of one header ends well. -/
theorem fixHeader_cases (h : ws.fixHeader file root = .ok r) : ∃ c, ws.readHeader file = .ok c ∧
    (((splitLines c).length < minGuardedLines ∧ r = none) ∨
      (minGuardedLines ≤ (splitLines c).length ∧ ∃ e, guardName file root = .ok e ∧
        ((repair? (splitLines c) e = none ∧ r = none) ∨
          ∃ t ws', repair? (splitLines c) e = some t ∧ ws.writeHeader file t = .ok ws' ∧
            r = some ⟨e, ws'⟩))) := by
  unfold fixHeader at h
  rcases hc : ws.readHeader file with e | c
  · simp [hc] at h
  · refine ⟨c, rfl, ?_⟩
    simp only [hc] at h
    split_ifs at h with hlen
    · exact Or.inl ⟨hlen, by simpa using h.symm⟩
    · refine Or.inr ⟨by omega, ?_⟩
      rcases he : guardName file root with e | e
      · simp [he] at h
      · refine ⟨e, rfl, ?_⟩
        simp only [he] at h
        rcases ht : repair? (splitLines c) e with _ | t
        · exact Or.inl ⟨rfl, by simpa [ht] using h.symm⟩
        · simp only [ht] at h
          rcases hw : ws.writeHeader file t with e | ws'
          · simp [hw] at h
          · exact Or.inr ⟨t, ws', rfl, hw, by simpa [hw] using h.symm⟩

/-- **A fix of one header** changes the file of the header at most, and fixes its text. -/
theorem fixHeader_fixesTo (h : ws.fixHeader file root = .ok r) : ∃ a c c',
    ws.reach .find file = .ok (.file a) ∧ ChangesOnly [a] ws (ws.after r) ∧
      ws.readHeader file = .ok c ∧ (ws.after r).readHeader file = .ok c' ∧
        FixesTo file root c c' := by
  obtain ⟨c, hc, hcases⟩ := fixHeader_cases h
  obtain ⟨a, ha⟩ := exists_file_of_read (readHeader_eq_ok_iff.mp hc)
  rcases hcases with ⟨hlen, rfl⟩ | ⟨hlen, e, he, ⟨hnone, rfl⟩ | ⟨t, ws', ht, hw, rfl⟩⟩
  · exact ⟨a, c, c, ha, .refl _ _, hc, hc, Or.inl ⟨hlen, rfl⟩⟩
  · exact ⟨a, c, c, ha, .refl _ _, hc, hc, Or.inr ⟨hlen, e, he, by simp [hnone]⟩⟩
  · obtain ⟨ws'', hw', hchanges, hread⟩ := exists_write_eq ha t
    obtain rfl : ws'' = ws' := by simpa [writeHeader_eq_ok_iff.mp hw] using hw'.symm
    exact ⟨a, c, t, ha, hchanges, hc, readHeader_eq_ok_iff.mpr hread,
      Or.inr ⟨hlen, e, he, by simp [ht]⟩⟩

/-- **A header that can be read and named can be fixed.** -/
theorem exists_fixHeader_eq {c e : Text} (hc : ws.readHeader file = .ok c)
    (hlen : minGuardedLines ≤ (splitLines c).length) (he : guardName file root = .ok e) :
    ∃ r, ws.fixHeader file root = .ok r ∧
      r.map Repaired.expected = (repair? (splitLines c) e).map fun _ => e := by
  have hshort : ¬(splitLines c).length < minGuardedLines := by omega
  unfold fixHeader
  simp only [hc, he, if_neg hshort]
  rcases ht : repair? (splitLines c) e with _ | t
  · exact ⟨none, rfl, rfl⟩
  · obtain ⟨a, ha⟩ := exists_file_of_read (readHeader_eq_ok_iff.mp hc)
    obtain ⟨ws', hw, -, -⟩ := exists_write_eq ha t
    dsimp only
    rw [writeHeader_eq_ok_iff.mpr hw]
    exact ⟨some ⟨e, ws'⟩, rfl, rfl⟩

theorem exists_relativeDisplay_of_repaired {repaired : Repaired}
    (h : ws.fixHeader file root = .ok (some repaired)) :
    ∃ path, relativeDisplay file root = .ok path := by
  obtain ⟨c, -, hcases⟩ := fixHeader_cases h
  rcases hcases with ⟨-, hr⟩ | ⟨-, e, he, -⟩
  · cases hr
  · exact exists_relativeDisplay_eq he

theorem readHeader_eq_of_fixHeader {e : Text} {failure : Failure} (he : guardName file root = .ok e)
    (h : ws.fixHeader file root = .error failure) : ws.readHeader file = .error failure := by
  rcases hc : ws.readHeader file with failure' | c
  · simpa [fixHeader, hc] using h
  · exfalso
    by_cases hlen : (splitLines c).length < minGuardedLines
    · simp [fixHeader, hc, hlen] at h
    · obtain ⟨r, hr, -⟩ := exists_fixHeader_eq hc (by omega) he
      rw [hr] at h
      cases h

end Header

/-! ### A run -/

theorem fixEach_cons_of_error {ws : Workspace} {file root : Path} {e : Failure}
    (h : ws.fixHeader file root = .error e) (files : List Path) :
    fixEach root ws (file :: files) = ⟨ws, [], [], some e⟩ := by
  simp [fixEach, h]

theorem fixEach_cons_of_ok {ws : Workspace} {file root : Path} {r : Option Repaired}
    (h : ws.fixHeader file root = .ok r) (files : List Path) :
    (fixEach root ws (file :: files)).failure = (fixEach root (ws.after r) files).failure ∧
      (fixEach root ws (file :: files)).workspace =
        (fixEach root (ws.after r) files).workspace := by
  rcases r with _ | repaired
  · simp [fixEach, h, after]
  · obtain ⟨path, hpath⟩ := exists_relativeDisplay_of_repaired h
    simp [fixEach, h, hpath, after]

theorem fixEach_cons_report {ws : Workspace} {file root : Path} {r : Option Repaired}
    (h : ws.fixHeader file root = .ok r) (files : List Path) :
    (fixEach root ws (file :: files)).done.length =
        (fixEach root (ws.after r) files).done.length + 1 ∧
      (fixEach root ws (file :: files)).shown.map .ok =
        (if r.isSome then [relativeDisplay file root] else []) ++
          (fixEach root (ws.after r) files).shown.map .ok := by
  rcases r with _ | repaired
  · simp [fixEach, h, after]
  · obtain ⟨path, hpath⟩ := exists_relativeDisplay_of_repaired h
    simp [fixEach, h, hpath, after]

theorem fixEach_cons {ws : Workspace} {file root : Path} {files : List Path}
    (h : (fixEach root ws (file :: files)).failure = none) :
    ∃ r, ws.fixHeader file root = .ok r ∧ (fixEach root (ws.after r) files).failure = none ∧
      (fixEach root ws (file :: files)).workspace =
        (fixEach root (ws.after r) files).workspace := by
  rcases hr : ws.fixHeader file root with e | r
  · simp [fixEach_cons_of_error hr] at h
  · obtain ⟨hfailure, hws⟩ := fixEach_cons_of_ok hr files
    exact ⟨r, rfl, hfailure ▸ h, hws⟩

theorem length_done_fixEach {ws : Workspace} {root : Path} {files : List Path}
    (h : (fixEach root ws files).failure = none) :
    (fixEach root ws files).done.length = files.length := by
  induction files generalizing ws with
  | nil => rfl
  | cons file files ih =>
    obtain ⟨r, hr, hrest, -⟩ := fixEach_cons h
    rw [(fixEach_cons_report hr files).1, ih hrest, List.length_cons]

/-- **A run that fails** stops at a header that cannot be fixed. What it leaves is what a run over
the headers before that one leaves. -/
theorem exists_take_of_failure {ws : Workspace} {root : Path} {files : List Path} {e : Failure}
    (h : (fixEach root ws files).failure = some e) : ∃ k file, files[k]? = some file ∧
      (fixEach root ws (files.take k)).failure = none ∧
      (fixEach root ws (files.take k)).workspace.fixHeader file root = .error e ∧
      (fixEach root ws files).workspace = (fixEach root ws (files.take k)).workspace := by
  induction files generalizing ws with
  | nil => simp [fixEach] at h
  | cons file files ih =>
    rcases hr : ws.fixHeader file root with e' | r
    · rw [fixEach_cons_of_error hr] at h ⊢
      obtain rfl : e' = e := by simpa using h
      exact ⟨0, file, rfl, rfl, hr, rfl⟩
    · obtain ⟨hfailure, hws⟩ := fixEach_cons_of_ok hr files
      obtain ⟨k, stop, hstop, hbefore, herror, hleft⟩ := ih (hfailure ▸ h)
      obtain ⟨hfailure', hws'⟩ := fixEach_cons_of_ok hr (files.take k)
      refine ⟨k + 1, stop, hstop, ?_⟩
      rw [List.take_succ_cons, hfailure', hws', hws]
      exact ⟨hbefore, herror, hleft⟩

/-- **A run over any headers** changes the files at most that they lead to. -/
theorem exists_fixEach_changesOnly (ws : Workspace) (root : Path) (files : List Path) :
    ∃ as, ChangesOnly as ws (fixEach root ws files).workspace ∧
      ∀ a ∈ as, ∃ file ∈ files, ws.reach .find file = .ok (.file a) := by
  induction files generalizing ws with
  | nil => exact ⟨[], .refl _ _, by simp⟩
  | cons file files ih =>
    rcases hr : ws.fixHeader file root with e | r
    · rw [fixEach_cons_of_error hr]
      exact ⟨[], .refl _ _, by simp⟩
    · obtain ⟨a, -, -, ha, hfirst, -⟩ := fixHeader_fixesTo hr
      obtain ⟨as, hrest, has⟩ := ih (ws.after r)
      rw [(fixEach_cons_of_ok hr files).2]
      refine ⟨a :: as, (hfirst.mono (by simp)).trans (hrest.mono (by simp)), fun b hb => ?_⟩
      rcases List.mem_cons.mp hb with rfl | hb
      · exact ⟨file, by simp, ha⟩
      · obtain ⟨p, hp, hreach⟩ := has b hb
        rw [hfirst.reach_eq] at hreach
        exact ⟨p, List.mem_cons_of_mem file hp, hreach⟩

/-- **A run over headers in different files** changes these files at most, and fixes the text of
each header. -/
theorem fixEach_fixesTo {ws : Workspace} {root : Path} {files : List Path} {as : List Address}
    (hreach : files.map (ws.reach .find) = as.map fun a => .ok (.file a)) (hdiff : as.Nodup)
    (h : (fixEach root ws files).failure = none) :
    ChangesOnly as ws (fixEach root ws files).workspace ∧
      ∀ file ∈ files, ∃ c c', ws.readHeader file = .ok c ∧
        (fixEach root ws files).workspace.readHeader file = .ok c' ∧ FixesTo file root c c' := by
  induction files generalizing ws as with
  | nil => exact ⟨.refl _ _, by simp⟩
  | cons file files ih =>
    obtain ⟨a, as, rfl⟩ : ∃ a as', as = a :: as' := by
      cases as with
      | nil => simp at hreach
      | cons a as => exact ⟨a, as, rfl⟩
    simp only [List.map_cons, List.cons.injEq] at hreach
    obtain ⟨ha, hreach⟩ := hreach
    obtain ⟨hnotMem, hdiff'⟩ := List.nodup_cons.mp hdiff
    obtain ⟨r, hr, hrest, hws⟩ := fixEach_cons h
    obtain ⟨a', c, c', ha', hfirst, hc, hc', hfix⟩ := fixHeader_fixesTo hr
    obtain rfl : a' = a := by simpa [ha] using ha'.symm
    have hreach' : files.map ((ws.after r).reach .find) = as.map fun a => .ok (.file a) := by
      rw [← hreach]
      exact List.map_congr_left fun p _ => hfirst.reach_eq .find p
    obtain ⟨hothers, hfixes⟩ := ih hreach' hdiff' hrest
    rw [hws]
    refine ⟨(hfirst.mono (by simp)).trans (hothers.mono (by simp)), fun p hp => ?_⟩
    rcases List.mem_cons.mp hp with rfl | hp
    · -- the later steps leave the first file alone
      refine ⟨c, c', hc, ?_, hfix⟩
      rw [readHeader_eq_ok_iff] at hc' ⊢
      rw [← hc']
      exact hothers.read_eq (by rw [hfirst.reach_eq, ha']) hnotMem
    · -- the first step leaves the later files alone
      obtain ⟨d, d', hd, hd', hfix'⟩ := hfixes p hp
      refine ⟨d, d', ?_, hd', hfix'⟩
      obtain ⟨b, hb, hbp⟩ : ∃ b ∈ as, .ok (.file b) = ws.reach .find p := by
        have hmem : ws.reach .find p ∈ files.map (ws.reach .find) := List.mem_map_of_mem hp
        rw [hreach] at hmem
        simpa using hmem
      rw [readHeader_eq_ok_iff] at hd ⊢
      rw [← hd]
      refine (hfirst.read_eq hbp.symm ?_).symm
      rintro hba
      rw [List.mem_singleton] at hba
      exact hnotMem (hba ▸ hb)

end Workspace

end IncludeGuard
