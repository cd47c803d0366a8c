import IncludeGuard.Proofs.Convergence
import IncludeGuard.Proofs.Checking

/-! # A check after a fix

A fix run writes the expected name on every anchor there is, and it makes no anchor that is missing.
A check asks for the name on all three. So, as long as the anchors of a header can carry its name at
all (`Workspace.Nameable`), a check after a fix run finds fault with the header exactly if its guard
has no closing line (`invalid_eq_unclosed`). This is so header by header, whatever the names of the
others are, and the check comes to an end in any case: a fixed header is not shorter than before, so
it has a verdict (`exists_checkHeader_of_fixesTo`).

`checkAll_fixEach` says this of a whole run. If all headers have such names, the check reports those
without a closing line, in order, and it exits with `0` exactly if there are none. -/

namespace IncludeGuard

open Directive Scan

namespace Workspace

/-- The scan of a header that is not too short to be looked at. -/
def scanOf? (ws : Workspace) (file : Path) : Option Scan :=
  match ws.readHeader file with
  | .error _ => none
  | .ok c =>
    if (splitLines c).length < minGuardedLines then none else some (scan (splitLines c))

/-- The header has a guard. -/
def guarded (ws : Workspace) (file : Path) : Bool :=
  (ws.scanOf? file).any hasGuard

/-- The header has a guard without a closing line. -/
def unclosed (ws : Workspace) (file : Path) : Bool :=
  (ws.scanOf? file).any fun s => s.hasGuard && s.endif.isNone

/-- If the header has a guard, the name for it is a macro name, which the anchors can carry. -/
def Nameable (ws : Workspace) (root file : Path) : Prop :=
  ws.guarded file = true → ∀ e, guardName file root = .ok e → e.IsMacroName

instance (ws : Workspace) (root file : Path) : Decidable (ws.Nameable root file) :=
  match h : guardName file root with
  | .ok e => decidable_of_iff (ws.guarded file = true → e.IsMacroName) (by simp [Nameable, h])
  | .error _ => isTrue (by simp [Nameable, h])

end Workspace

/-! ### One header -/

theorem splitLines_getD_repair? {c e : Text} (he : e.IsMacroName)
    (hguard : (scan (splitLines c)).hasGuard = true) :
    splitLines ((repair? (splitLines c) e).getD c) = rewritten (splitLines c) e := by
  rcases ht : repair? (splitLines c) e with _ | t
  · exact (repair?_eq_none_iff.mp ht hguard).symm
  · obtain ⟨-, -, rfl⟩ := repair?_eq_some_iff.mp ht
    exact splitLines_flatten_rewritten (isLines_splitLines c) he.lf_notMem

theorem getD_repair?_of_hasGuard_eq_false {c e : Text}
    (hguard : (scan (splitLines c)).hasGuard = false) :
    (repair? (splitLines c) e).getD c = c := by
  have hnone : repair? (splitLines c) e = none := by
    refine repair?_eq_none_iff.mpr fun h => ?_
    simp [hguard] at h
  rw [hnone, Option.getD_none]

/-- **A fixed text agrees with the name**, unless its guard has no closing line. -/
theorem agrees_scan_fixed {c e : Text}
    (he : (scan (splitLines c)).hasGuard = true → e.IsMacroName) :
    (scan (splitLines ((repair? (splitLines c) e).getD c))).agrees e =
      !((scan (splitLines c)).hasGuard && (scan (splitLines c)).endif.isNone) := by
  cases hguard : (scan (splitLines c)).hasGuard with
  | false =>
    rw [getD_repair?_of_hasGuard_eq_false hguard, agrees, hguard]
    rfl
  | true =>
    rw [splitLines_getD_repair? (he hguard) hguard, agrees_scan_rewritten (he hguard) hguard]
    cases (scan (splitLines c)).endif <;> rfl

theorem length_splitLines_le_fixed (c e : Text) :
    (splitLines c).length ≤ (splitLines ((repair? (splitLines c) e).getD c)).length := by
  rcases ht : repair? (splitLines c) e with _ | t
  · exact Nat.le_refl _
  · obtain ⟨-, -, rfl⟩ := repair?_eq_some_iff.mp ht
    exact length_le_length_splitLines_rewritten (isLines_splitLines c) e

namespace Workspace

section Fixed
variable {ws ws' : Workspace} {file root : Path} {c c' : Text}

/-- **A fixed header has a verdict**, whatever its name is. -/
theorem exists_checkHeader_of_fixesTo (hc' : ws'.readHeader file = .ok c')
    (hfix : FixesTo file root c c') : ∃ verdict, ws'.checkHeader file root = .ok verdict := by
  rcases hfix with ⟨hlen, rfl⟩ | ⟨hlen, e, he, rfl⟩
  · exact ⟨_, checkHeader_of_short hc' hlen⟩
  · exact ⟨_, checkHeader_of_guardName hc' (hlen.trans (length_splitLines_le_fixed c e)) he⟩

/-- **Checking a fixed header** finds fault with it exactly if its guard has no closing line. -/
theorem invalid_eq_unclosed (hc : ws.readHeader file = .ok c) (hc' : ws'.readHeader file = .ok c')
    (hfix : FixesTo file root c c') (hname : ws.Nameable root file) :
    ws'.invalid root file = ws.unclosed file := by
  rcases hfix with ⟨hlen, rfl⟩ | ⟨hlen, e, he, rfl⟩
  · -- too short to be looked at
    simp [invalid, checkHeader_of_short hc' hlen, Verdict.expected?, unclosed, scanOf?, hc, hlen]
  · have hshort : ¬(splitLines c).length < minGuardedLines := by omega
    have hscan : ws.scanOf? file = some (scan (splitLines c)) := by
      simp [scanOf?, hc, hshort]
    have hmacro : (scan (splitLines c)).hasGuard = true → e.IsMacroName := by
      intro hguard
      exact hname (by simp [guarded, hscan, hguard]) e he
    have hunclosed : ws.unclosed file =
        ((scan (splitLines c)).hasGuard && (scan (splitLines c)).endif.isNone) := by
      simp [unclosed, hscan]
    rw [invalid, checkHeader_of_guardName hc' (hlen.trans (length_splitLines_le_fixed c e)) he]
    dsimp only
    rw [Verdict.expected?_ofLines, agrees_scan_fixed hmacro, ← hunclosed]
    cases ws.unclosed file <;> rfl

end Fixed

/-! ### A run -/

/-- **A check after a fix.** Of headers in different files, a check after a fix run that ends well
counts all, and it reports some, in order. A header whose anchors can carry its name is among them
exactly if its guard has no closing line. So if this is so for all names, the check reports the
headers without a closing line, and it exits with `0` exactly if there are none. -/
theorem checkAll_fixEach {ws : Workspace} {root : Path} {files : List Path} {as : List Address}
    {report : FixReport} (hreach : files.map (ws.reach .find) = as.map fun a => .ok (.file a))
    (hdiff : as.Nodup) (h : (fixEach root ws files).report = .ok report) :
    ∃ checks, (fixEach root ws files).workspace.checkAll root files = .ok checks ∧
      checks.checked = files.length ∧
      List.Forall₂ (Reports root)
        (files.filter ((fixEach root ws files).workspace.invalid root)) checks.violations ∧
      (∀ file ∈ files, ws.Nameable root file →
        (fixEach root ws files).workspace.invalid root file = ws.unclosed file) ∧
      ((∀ file ∈ files, ws.Nameable root file) →
        List.Forall₂ (Reports root) (files.filter ws.unclosed) checks.violations ∧
        (checks.violations = [] ↔ ∀ file ∈ files, ws.unclosed file = false)) ∧
      ∀ o : Options, o.check = true →
        (fixEach root ws files).workspace.resolveRoot o.root = .ok root →
        (fixEach root ws files).workspace.candidates o.paths = .ok files →
        ∃ answer, ((fixEach root ws files).workspace.run o).result = .ok answer ∧
          (answer.exitCode = 0 ↔ checks.violations = []) := by
  obtain ⟨hended, -⟩ := FixProgress.report_eq_ok_iff.mp h
  obtain ⟨-, hfixes⟩ := fixEach_fixesTo hreach hdiff hended
  have hverdicts : ∀ file ∈ files, ∃ verdict,
      (fixEach root ws files).workspace.checkHeader file root = .ok verdict := by
    intro file hfile
    obtain ⟨c, c', -, hc', hfix⟩ := hfixes file hfile
    exact exists_checkHeader_of_fixesTo hc' hfix
  have hinvalid : ∀ file ∈ files, ws.Nameable root file →
      (fixEach root ws files).workspace.invalid root file = ws.unclosed file := by
    intro file hfile hname
    obtain ⟨c, c', hc, hc', hfix⟩ := hfixes file hfile
    exact invalid_eq_unclosed hc hc' hfix hname
  obtain ⟨checked, hcheck, hlen, hreports⟩ := exists_checkEach_eq hverdicts
  refine ⟨.of checked, by simp [checkAll, hcheck], hlen, hreports, hinvalid, fun hnames => ?_,
    fun o ho hroot hfiles => ⟨_, run_result_of_checkEach ho hroot hfiles hcheck, ?_⟩⟩
  · rw [List.filter_congr fun file hfile => hinvalid file hfile (hnames file hfile)] at hreports
    refine ⟨hreports, ?_⟩
    have hnil : (CheckReport.of checked).violations = [] ↔ files.filter ws.unclosed = [] := by
      rw [← List.length_eq_zero_iff, ← List.length_eq_zero_iff, hreports.length_eq]
      rfl
    simp [hnil]
  · simp [CheckReport.exitCode_eq]

/-- Three headers with the wrong name on their guards. The second guard has no closing line, and the
third header lies directly below the directory `w`. -/
def halfClosed : Workspace :=
  ofFiles [("w/d/a.h".toList, "#ifndef X\n#define X\n#endif\n".toList),
    ("w/d/b.h".toList, "#ifndef X\n#define X\nint x;\n".toList),
    ("w/t.h".toList, "#ifndef X\n#define X\n#endif\n".toList)]

/-- The first two headers. -/
def halfClosedFiles : List Path :=
  [.ofText "/w/d/a.h".toList, .ofText "/w/d/b.h".toList]

/-- The theorem at the first two headers, of which the check reports the second, and at all three.
The name of the third holds a full stop, and the check still tells the first two apart. -/
theorem checkAll_fixEach_halfClosed :
    let root := Path.ofText "/w".toList
    let files := halfClosedFiles ++ [.ofText "/w/t.h".toList]
    (∃ checks, (fixEach root halfClosed halfClosedFiles).workspace.checkAll root halfClosedFiles =
        .ok checks ∧ List.Forall₂ (Reports root) [.ofText "/w/d/b.h".toList] checks.violations) ∧
    ¬halfClosed.Nameable root (.ofText "/w/t.h".toList) ∧
    ∃ checks, (fixEach root halfClosed files).workspace.checkAll root files = .ok checks ∧
      checks.checked = 3 ∧
      (fixEach root halfClosed files).workspace.invalid root (.ofText "/w/d/a.h".toList) = false ∧
      (fixEach root halfClosed files).workspace.invalid root (.ofText "/w/d/b.h".toList) = true := by
  intro root files
  have hnames : ∀ file ∈ halfClosedFiles, halfClosed.Nameable root file := by decide +kernel
  refine ⟨?_, by decide +kernel, ?_⟩
  · have hreach : halfClosedFiles.map (halfClosed.reach .find) =
        (["w/d/a.h", "w/d/b.h"].map fun p => Path.segments (Utf8.encode p.toList)).map
          fun a => .ok (.file a) := by decide
    have hreport : (fixEach root halfClosed halfClosedFiles).report =
        .ok ⟨2, ["d/a.h".toList, "d/b.h".toList]⟩ := by decide +kernel
    obtain ⟨checks, hchecks, -, -, -, hreports, -⟩ := checkAll_fixEach hreach (by decide) hreport
    exact ⟨checks, hchecks, (hreports hnames).1⟩
  · have hreach : files.map (halfClosed.reach .find) =
        (["w/d/a.h", "w/d/b.h", "w/t.h"].map fun p => Path.segments (Utf8.encode p.toList)).map
          fun a => .ok (.file a) := by decide
    have hreport : (fixEach root halfClosed files).report =
        .ok ⟨3, ["d/a.h".toList, "d/b.h".toList, "t.h".toList]⟩ := by decide +kernel
    obtain ⟨checks, hchecks, hcount, -, hinvalid, -⟩ :=
      checkAll_fixEach hreach (by decide) hreport
    refine ⟨checks, hchecks, hcount, ?_, ?_⟩
    · rw [hinvalid _ (by decide) (hnames _ (by decide))]
      decide
    · rw [hinvalid _ (by decide) (hnames _ (by decide))]
      decide

/-- Not every check after a fix is empty. -/
theorem checkAll_fixEach_ne_nil :
    halfClosedFiles.map (halfClosed.reach .find) = ["w/d/a.h", "w/d/b.h"].map (fun p =>
      .ok (.file (Path.segments (Utf8.encode p.toList)))) ∧
    (fixEach (.ofText "/w".toList) halfClosed halfClosedFiles).report =
      .ok ⟨2, ["d/a.h".toList, "d/b.h".toList]⟩ ∧
    (fixEach (.ofText "/w".toList) halfClosed halfClosedFiles).workspace.checkAll
      (.ofText "/w".toList) halfClosedFiles =
        .ok ⟨2, [⟨"d/b.h".toList, "D_B_H".toList⟩]⟩ ∧
    (((fixEach (.ofText "/w".toList) halfClosed halfClosedFiles).workspace.run
      ⟨halfClosedFiles, true, some (.ofText "/w".toList), false⟩).result.map Answer.exitCode) =
        .ok 1 := by
  decide +kernel

end Workspace

end IncludeGuard
