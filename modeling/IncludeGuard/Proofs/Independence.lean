import IncludeGuard.Proofs.Changes
import Mathlib.Data.List.Nodup

/-! # Fixing headers in any order

Headers in different files do not get in each other's way. A fix of one of them comes out the same
wherever the others have been changed before (`exists_fixHeader_elsewhere`), and a run over all of
them leaves in each file what a fix of its header alone would have left (`fixEach_alone`). As a tree
is determined by what stands at the addresses, the order of the headers makes no difference to it.

The run reports a header exactly if the fix has written it, which is the same as to say that its
bytes are no longer what they were (`isSome_iff_bytes?_ne`): a repair changes the text. Altogether,
any order of the headers gives the same tree and the same report up to that order
(`fixEach_perm`). -/

namespace IncludeGuard

namespace Workspace

/-- The bytes of the file that a path leads to. -/
def bytes? (ws : Workspace) (p : Path) : Option Bytes :=
  match ws.reach .find p with
  | .ok (.file a) => ws.tree.content? a
  | _ => none

/-- The path leads to other bytes than in the workspace before. -/
def changedSince (ws before : Workspace) (p : Path) : Bool :=
  ws.bytes? p != before.bytes? p

/-- A fix of the header writes it. -/
def repairs (ws : Workspace) (root file : Path) : Bool :=
  match ws.fixHeader file root with
  | .ok r => r.isSome
  | .error _ => false

/-- The headers lie in different files, and each of them can be fixed. -/
structure Fixable (ws : Workspace) (root : Path) (files : List Path) : Prop where
  reach : ∀ file ∈ files, ∃ a, ws.reach .find file = .ok (.file a)
  distinct : (files.map (ws.reach .find)).Nodup
  fix : ∀ file ∈ files, ∃ r, ws.fixHeader file root = .ok r

theorem Fixable.perm {ws : Workspace} {root : Path} {files files' : List Path}
    (h : Fixable ws root files) (hperm : files'.Perm files) : Fixable ws root files' where
  reach file hfile := h.reach file (hperm.mem_iff.mp hfile)
  distinct := ((hperm.map _).nodup_iff).mpr h.distinct
  fix file hfile := h.fix file (hperm.mem_iff.mp hfile)

/-! ### One header -/

section Header
variable {ws ws' : Workspace} {file root : Path} {a : Address} {r : Option Repaired}

theorem bytes?_eq (h : ws.reach .find file = .ok (.file a)) :
    ws.bytes? file = ws.tree.content? a := by
  simp [bytes?, h]

/-- **A fix writes a header exactly if its bytes change.** -/
theorem isSome_iff_bytes?_ne (h : ws.fixHeader file root = .ok r) :
    r.isSome = true ↔ (ws.after r).bytes? file ≠ ws.bytes? file := by
  rcases r with _ | repaired
  · simp [after]
  · obtain ⟨_, _, _, -, hchanges, -⟩ := fixHeader_fixesTo h
    obtain ⟨a, old, c, t, ha, -, -, -, hreplaces⟩ := exists_replaces_of_written h
    have ha' : (ws.after (some repaired)).reach .find file = .ok (.file a) := by
      rw [hchanges.reach_eq, ha]
    rw [bytes?_eq ha', bytes?_eq ha]
    exact iff_of_true rfl ((hreplaces.content?_ne_iff a).mpr rfl)

/-- **A fix comes out the same wherever other files have changed.** -/
theorem exists_fixHeader_elsewhere {bs : List Address} (hchanges : ChangesOnly bs ws ws')
    (ha : ws.reach .find file = .ok (.file a)) (hbs : a ∉ bs)
    (h : ws.fixHeader file root = .ok r) :
    ∃ r', ws'.fixHeader file root = .ok r' ∧ r'.isSome = r.isSome ∧
      (ws'.after r').tree.entryAt? a = (ws.after r).tree.entryAt? a := by
  have hentry : ws'.tree.entryAt? a = ws.tree.entryAt? a :=
    (hchanges.tree a).resolve_right fun ⟨hmem, _⟩ => hbs hmem
  have ha' : ws'.reach .find file = .ok (.file a) := by rw [hchanges.reach_eq, ha]
  obtain ⟨c, hc, hcases⟩ := fixHeader_cases h
  have hc' : ws'.readHeader file = .ok c := by
    rw [readHeader_eq_ok_iff] at hc ⊢
    rw [hchanges.read_eq ha hbs, hc]
  rcases hcases with ⟨hlen, rfl⟩ | ⟨hlen, e, he, hcases⟩
  · exact ⟨none, by simp [fixHeader, hc', hlen], rfl, hentry⟩
  · have hlen' : ¬(splitLines c).length < minGuardedLines := by omega
    rcases hcases with ⟨hnone, rfl⟩ | ⟨t, ws₁, ht, hw, rfl⟩
    · exact ⟨none, by simp [fixHeader, hc', hlen', he, hnone], rfl, hentry⟩
    · rw [writeHeader_eq_ok_iff] at hw
      obtain ⟨ws₂, hw', -, -⟩ := exists_write_eq ha' t
      have hheader := writeHeader_eq_ok_iff.mpr hw'
      refine ⟨some ⟨e, ws₂⟩, by simp [fixHeader, hc', hlen', he, ht, hheader], rfl, ?_⟩
      rw [after, after, Option.elim_some, Option.elim_some, entryAt?_of_write ha hw,
        entryAt?_of_write ha' hw']
      simp

end Header

/-! ### A run -/

section Run
variable {ws : Workspace} {root : Path}

/-- **The first step does not touch the others.** They lead where they led, and a fix of them
comes out as before. -/
theorem Fixable.step {file p : Path} {files : List Path} {r : Option Repaired}
    (h : Fixable ws root (file :: files)) (hr : ws.fixHeader file root = .ok r) (hp : p ∈ files) :
    ∃ b s s', ws.reach .find p = .ok (.file b) ∧ ws.reach .find file ≠ .ok (.file b) ∧
      ws.fixHeader p root = .ok s ∧ (ws.after r).fixHeader p root = .ok s' ∧
      s'.isSome = s.isSome ∧
      ((ws.after r).after s').tree.entryAt? b = (ws.after s).tree.entryAt? b := by
  obtain ⟨a, -, -, ha, hfirst, -⟩ := fixHeader_fixesTo hr
  obtain ⟨b, hb⟩ := h.reach p (List.mem_cons_of_mem file hp)
  obtain ⟨s, hs⟩ := h.fix p (List.mem_cons_of_mem file hp)
  have hne : ws.reach .find file ≠ .ok (.file b) := by
    intro hfile
    have hdiff := h.distinct
    rw [List.map_cons, List.nodup_cons] at hdiff
    exact hdiff.1 (List.mem_map.mpr ⟨p, hp, hb.trans hfile.symm⟩)
  have hba : b ∉ [a] := by
    rintro hmem
    obtain rfl := List.mem_singleton.mp hmem
    exact hne ha
  obtain ⟨s', hs', hsome, hentry⟩ := exists_fixHeader_elsewhere hfirst hb hba hs
  exact ⟨b, s, s', hb, hne, hs, hs', hsome, hentry⟩

theorem Fixable.after {file : Path} {files : List Path} {r : Option Repaired}
    (h : Fixable ws root (file :: files)) (hr : ws.fixHeader file root = .ok r) :
    Fixable (ws.after r) root files := by
  obtain ⟨a, -, -, -, hfirst, -⟩ := fixHeader_fixesTo hr
  have hreach : (ws.after r).reach .find = ws.reach .find := by
    funext p
    exact hfirst.reach_eq .find p
  refine ⟨fun p hp => ?_, ?_, fun p hp => ?_⟩
  · rw [hreach]
    exact h.reach p (List.mem_cons_of_mem file hp)
  · rw [hreach]
    exact (List.nodup_cons.mp h.distinct).2
  · obtain ⟨-, -, s', -, -, -, hs', -⟩ := h.step hr hp
    exact ⟨s', hs'⟩

/-- **A run leaves in each file what a fix of its header alone leaves**, and it reports the headers
that such a fix writes. -/
theorem fixEach_alone {files : List Path} (h : Fixable ws root files) :
    (fixEach root ws files).failure = none ∧
    (fixEach root ws files).shown.map .ok =
      (files.filter (ws.repairs root)).map (relativeDisplay · root) ∧
    ∀ file ∈ files, ∀ a r, ws.reach .find file = .ok (.file a) →
      ws.fixHeader file root = .ok r →
        (fixEach root ws files).workspace.tree.entryAt? a = (ws.after r).tree.entryAt? a := by
  induction files generalizing ws with
  | nil => exact ⟨rfl, rfl, by simp⟩
  | cons file files ih =>
    obtain ⟨r, hr⟩ := h.fix file (by simp)
    obtain ⟨a, -, -, ha, hfirst, -⟩ := fixHeader_fixesTo hr
    obtain ⟨hended, hshown, hleft⟩ := ih (h.after hr)
    obtain ⟨hfailure, hws⟩ := fixEach_cons_of_ok hr files
    obtain ⟨-, hshown'⟩ := fixEach_cons_report hr files
    have hrepairs : files.filter ((ws.after r).repairs root) = files.filter (ws.repairs root) := by
      refine List.filter_congr fun p hp => ?_
      obtain ⟨-, s, s', -, -, hs, hs', hsome, -⟩ := h.step hr hp
      simp [repairs, hs, hs', hsome]
    have hhead : ws.repairs root file = r.isSome := by simp [repairs, hr]
    refine ⟨hfailure.trans hended, ?_, ?_⟩
    · rw [hshown', hshown, hrepairs, List.filter_cons, hhead]
      split <;> simp
    · rw [hws]
      intro p hp b s hb hs
      rcases List.mem_cons.mp hp with rfl | hp
      · -- the later steps leave the first file alone
        obtain rfl : s = r := by simpa [hr] using hs.symm
        obtain ⟨bs, hrest, hbs⟩ := exists_fixEach_changesOnly (ws.after s) root files
        refine (hrest.tree b).resolve_right fun ⟨hmem, _⟩ => ?_
        obtain ⟨q, hq, hqb⟩ := hbs b hmem
        obtain ⟨b', -, -, hb', hne, -⟩ := h.step hr hq
        rw [hfirst.reach_eq, hb'] at hqb
        exact hne (hb.trans hqb.symm)
      · obtain ⟨b', s₁, s', hb', -, hs₁, hs', -, hentry⟩ := h.step hr hp
        obtain rfl : b' = b := by simpa [hb] using hb'.symm
        obtain rfl : s₁ = s := by simpa [hs] using hs₁.symm
        rw [hleft p hp b' s' (by rw [hfirst.reach_eq, hb]) hs', hentry]

/-- **The order of the headers makes no difference to the workspace.** -/
theorem workspace_fixEach_perm {files files' : List Path} (h : Fixable ws root files)
    (hperm : files'.Perm files) :
    (fixEach root ws files').workspace = (fixEach root ws files).workspace := by
  obtain ⟨-, -, hleft⟩ := fixEach_alone h
  obtain ⟨-, -, hleft'⟩ := fixEach_alone (h.perm hperm)
  obtain ⟨as, hchanges, has⟩ := exists_fixEach_changesOnly ws root files
  obtain ⟨as', hchanges', has'⟩ := exists_fixEach_changesOnly ws root files'
  have htree : (fixEach root ws files').workspace.tree =
      (fixEach root ws files).workspace.tree := by
    refine Tree.eq_of_entryAt? fun b => ?_
    by_cases hb : ∃ file ∈ files, ws.reach .find file = .ok (.file b)
    · obtain ⟨file, hfile, hreach⟩ := hb
      obtain ⟨r, hr⟩ := h.fix file hfile
      rw [hleft file hfile b r hreach hr, hleft' file (hperm.mem_iff.mpr hfile) b r hreach hr]
    · -- no header leads there
      rw [(hchanges.tree b).resolve_right fun ⟨hmem, _⟩ => hb (has b hmem),
        (hchanges'.tree b).resolve_right fun ⟨hmem, _⟩ => hb ?_]
      obtain ⟨file, hfile, hreach⟩ := has' b hmem
      exact ⟨file, hperm.mem_iff.mp hfile, hreach⟩
  have hcwd := hchanges'.cwd.trans hchanges.cwd.symm
  cases hws : (fixEach root ws files).workspace
  cases hws' : (fixEach root ws files').workspace
  simp_all

end Run

/-- **Fixing headers in any order.** If the headers lie in different files and each can be fixed,
then in any order a run over them ends well, counts all of them and leaves the same workspace. Each
file then holds what a fix of its header alone would leave, and the report shows, in that order, the
headers whose bytes have changed. -/
theorem fixEach_perm {ws : Workspace} {root : Path} {files files' : List Path} {as : List Address}
    (hreach : files.map (ws.reach .find) = as.map fun a => .ok (.file a)) (hdiff : as.Nodup)
    (hfix : ∀ file ∈ files, ∃ r, ws.fixHeader file root = .ok r) (hperm : files'.Perm files) :
    ∃ report, (fixEach root ws files').report = .ok report ∧
      report.checked = files.length ∧
      report.fixed.map .ok = (files'.filter
        ((fixEach root ws files').workspace.changedSince ws)).map (relativeDisplay · root) ∧
      (fixEach root ws files').workspace = (fixEach root ws files).workspace ∧
      ∀ file ∈ files, ∃ r, ws.fixHeader file root = .ok r ∧
        (fixEach root ws files').workspace.bytes? file = (ws.after r).bytes? file := by
  have h : Fixable ws root files := by
    refine ⟨fun file hfile => ?_, ?_, hfix⟩
    · have hmem : ws.reach .find file ∈ files.map (ws.reach .find) := List.mem_map_of_mem hfile
      rw [hreach] at hmem
      obtain ⟨a, -, ha⟩ := List.mem_map.mp hmem
      exact ⟨a, ha.symm⟩
    · rw [hreach]
      exact List.Nodup.map (fun a b hab => by simpa using hab) hdiff
  obtain ⟨hended, hshown, hleft⟩ := fixEach_alone (h.perm hperm)
  obtain ⟨as', hchanges', -⟩ := exists_fixEach_changesOnly ws root files'
  have hbytes : ∀ file ∈ files, ∃ r, ws.fixHeader file root = .ok r ∧
      (fixEach root ws files').workspace.bytes? file = (ws.after r).bytes? file := by
    intro file hfile
    obtain ⟨r, hr⟩ := hfix file hfile
    obtain ⟨a, -, -, ha, hfirst, -⟩ := fixHeader_fixesTo hr
    refine ⟨r, hr, ?_⟩
    rw [bytes?_eq (hchanges'.reach_eq .find file ▸ ha), bytes?_eq (hfirst.reach_eq .find file ▸ ha),
      Tree.content?, Tree.content?, hleft file (hperm.mem_iff.mpr hfile) a r ha hr]
  have hreport : (fixEach root ws files').report =
      .ok ⟨files.length, (fixEach root ws files').shown⟩ := by
    rw [FixProgress.report_eq_ok_iff, length_done_fixEach hended, hperm.length_eq]
    exact ⟨hended, rfl⟩
  refine ⟨_, hreport, rfl, ?_, workspace_fixEach_perm h hperm, hbytes⟩
  rw [hshown]
  refine congrArg (List.map (relativeDisplay · root)) (List.filter_congr fun file hfile => ?_)
  obtain ⟨r, hr, hfinal⟩ := hbytes file (hperm.mem_iff.mp hfile)
  have hwritten := isSome_iff_bytes?_ne hr
  rw [repairs, hr, changedSince, hfinal, Bool.eq_iff_iff, bne_iff_ne]
  exact hwritten

/-- Three headers of which the last has the right guard, and a link to their directory. -/
def linkedDirectory : Workspace :=
  ofEntries [("w/d/a.h".toList, .file (Utf8.encode "#ifndef X\n#define X\n#endif\n".toList)),
    ("w/d/b.h".toList, .file (Utf8.encode "#ifndef X\n#define X\n#endif\n".toList)),
    ("w/d/c.h".toList,
      .file (Utf8.encode "#ifndef D_C_H\n#define D_C_H\n#endif // D_C_H\n".toList)),
    ("w/l".toList, .link (.ofText "d".toList))]

/-- The three headers, two of them through the link. -/
def linkedFiles : List Path :=
  [.ofText "/w/l/../d/a.h".toList, .ofText "/w/l/b.h".toList, .ofText "/w/d/c.h".toList]

/-- The theorem at the three headers from the last to the first. The first two are fixed, and shown in
this order. -/
theorem fixEach_perm_linked : ∃ report,
    (fixEach (.ofText "/w".toList) linkedDirectory linkedFiles.reverse).report = .ok report ∧
    report.checked = 3 ∧ report.fixed = ["l/b.h".toList, "l/../d/a.h".toList] ∧
    (fixEach (.ofText "/w".toList) linkedDirectory linkedFiles.reverse).workspace =
      (fixEach (.ofText "/w".toList) linkedDirectory linkedFiles).workspace := by
  have hreach : linkedFiles.map (linkedDirectory.reach .find) =
      (["w/d/a.h", "w/d/b.h", "w/d/c.h"].map fun p => Path.segments (Utf8.encode p.toList)).map
        fun a => .ok (.file a) := by decide +kernel
  have hall : ∀ file ∈ linkedFiles,
      (linkedDirectory.fixHeader file (.ofText "/w".toList)).isOk = true := by decide +kernel
  have hfix : ∀ file ∈ linkedFiles, ∃ r,
      linkedDirectory.fixHeader file (.ofText "/w".toList) = .ok r := by
    intro file hfile
    have hok := hall file hfile
    rcases hr : linkedDirectory.fixHeader file (.ofText "/w".toList) with e | r
    · rw [hr] at hok
      cases hok
    · exact ⟨r, rfl⟩
  obtain ⟨report, hreport, hchecked, -, hws, -⟩ :=
    fixEach_perm hreach (by decide) hfix linkedFiles.reverse_perm
  have hfixed : (fixEach (.ofText "/w".toList) linkedDirectory linkedFiles.reverse).report =
      .ok ⟨3, ["l/b.h".toList, "l/../d/a.h".toList]⟩ := by decide +kernel
  rw [hreport] at hfixed
  cases hfixed
  exact ⟨_, hreport, hchecked, rfl, hws⟩

end Workspace

end IncludeGuard
