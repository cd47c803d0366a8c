import IncludeGuard.Proofs.Run
import Mathlib.Data.List.Forall2

/-! # What a check does

A check of a header fails exactly if its verdict cannot be found (`checkOne_eq_error_iff`): what has
a wrong guard has a name, and what has a name can be shown. If all verdicts are found, the checks
make up a report that counts all headers and lists those with a wrong guard in order
(`exists_checkEach_eq`).

`run_check` says what a run in check mode comes to. It changes nothing. If the verdict on every
candidate is found, it prints such a report, its exit code tells whether the report lists a header,
and so does the field `ok` of the JSON form. Otherwise it prints nothing and fails as the first
candidate does whose verdict is not found. -/

namespace IncludeGuard

/-- What a check has to report about a header: where it lies and the name it should have. -/
def Reports (root file : Path) (v : Violation) : Prop :=
  relativeDisplay file root = .ok v.path ∧ guardName file root = .ok v.expected

/-- A check finds that the header has a wrong guard. -/
def Workspace.invalid (ws : Workspace) (root file : Path) : Bool :=
  match ws.checkHeader file root with
  | .ok verdict => verdict.expected?.isSome
  | .error _ => false

/-- The start of a JSON document whose field `ok` has the given value. -/
def okField (ok : Bool) : Text :=
  Char.ofNat 0x7B :: "\n  \"ok\": ".toList ++ Text.ofBool ok ++ [',']

theorem okField_prefix_envelope_iff {ok ok' : Bool} {data : List (Text × Text)} :
    okField ok <+: envelope ok' data ↔ ok = ok' := by
  have hstart : okField ok' <+: envelope ok' data := by
    simp [okField, envelope, outputLine, Json.object, Json.block, Json.indent, Json.quote,
      Json.escape, List.intercalate]
  constructor
  · intro h
    have hor := List.prefix_or_prefix_of_prefix h hstart
    revert hor
    cases ok <;> cases ok' <;> decide
  · rintro rfl
    exact hstart

theorem CheckReport.exitCode_eq (r : CheckReport) (t : Text) :
    Answer.exitCode ⟨t, !r.ok⟩ = if r.violations = [] then 0 else 1 := by
  rcases h : r.violations with _ | ⟨v, vs⟩ <;> simp [Answer.exitCode, ok, h]

theorem Verdict.expected?_ofLines (lines : List Line) (e : Text) :
    (Verdict.ofLines lines e).expected? = if (scan lines).agrees e then none else some e := by
  unfold ofLines
  dsimp only
  split_ifs <;> rfl

namespace Workspace

/-! ### One header -/

section Header
variable {ws : Workspace} {file root : Path} {c : Text} {verdict : Verdict} {e : Failure}

theorem checkHeader_of_short (hc : ws.readHeader file = .ok c)
    (hlen : (splitLines c).length < minGuardedLines) : ws.checkHeader file root = .ok .short := by
  simp [checkHeader, hc, hlen]

theorem checkHeader_of_guardName {e : Text} (hc : ws.readHeader file = .ok c)
    (hlen : minGuardedLines ≤ (splitLines c).length) (he : guardName file root = .ok e) :
    ws.checkHeader file root = .ok (.ofLines (splitLines c) e) := by
  have hshort : ¬(splitLines c).length < minGuardedLines := by omega
  simp [checkHeader, hc, he, hshort]

theorem guardName_of_checkHeader {name : Text} (h : ws.checkHeader file root = .ok verdict)
    (hname : verdict.expected? = some name) : guardName file root = .ok name := by
  unfold checkHeader at h
  rcases hc : ws.readHeader file with e | c
  · simp [hc] at h
  · rcases he : guardName file root with e | e
    · simp only [hc, he] at h
      split_ifs at h
      cases h
      simp [Verdict.expected?] at hname
    · simp only [hc, he] at h
      split_ifs at h <;> cases h
      · simp [Verdict.expected?] at hname
      · rw [Verdict.expected?_ofLines] at hname
        split_ifs at hname
        exact congrArg _ (Option.some.inj hname)

/-- **A header that has a verdict can be reported.** -/
theorem exists_checkOne_of_checkHeader (h : ws.checkHeader file root = .ok verdict) :
    ∃ checked, ws.checkOne root file = .ok checked ∧
      (ws.invalid root file = false → checked.violation = none) ∧
      (ws.invalid root file = true → ∃ v, checked.violation = some v ∧ Reports root file v) := by
  have hinvalid : ws.invalid root file = verdict.expected?.isSome := by
    rw [invalid, h]
  rw [hinvalid]
  rcases hname : verdict.expected? with _ | name
  · exact ⟨⟨file, verdict, none⟩, by simp [checkOne, h, hname], fun _ => rfl, by simp⟩
  · have he := guardName_of_checkHeader h hname
    obtain ⟨path, hpath⟩ := exists_relativeDisplay_eq he
    exact ⟨⟨file, verdict, some ⟨path, name⟩⟩, by simp [checkOne, h, hname, hpath], by simp,
      fun _ => ⟨⟨path, name⟩, rfl, hpath, he⟩⟩

theorem checkOne_eq_error_iff :
    ws.checkOne root file = .error e ↔ ws.checkHeader file root = .error e := by
  rcases h : ws.checkHeader file root with e' | verdict
  · simp [checkOne, h]
  · obtain ⟨checked, hchecked, -⟩ := exists_checkOne_of_checkHeader h
    simp [hchecked]

end Header

/-! ### A run -/

/-- **Checks of headers one by one** make up a report of those with a wrong guard. -/
theorem exists_checkEach_eq {ws : Workspace} {root : Path} {files : List Path}
    (h : ∀ file ∈ files, ∃ verdict, ws.checkHeader file root = .ok verdict) :
    ∃ checked, ws.checkEach root files = (checked, none) ∧ checked.length = files.length ∧
      List.Forall₂ (Reports root) (files.filter (ws.invalid root))
        (checked.filterMap Checked.violation) := by
  simp only [checkEach, untilFailure_eq_none_iff]
  induction files with
  | nil => exact ⟨[], rfl, rfl, .nil⟩
  | cons file files ih =>
    obtain ⟨checked, hrest, hlen, hreports⟩ := ih fun q hq => h q (by simp [hq])
    obtain ⟨verdict, hverdict⟩ := h file (by simp)
    obtain ⟨first, hfirst, hnone, hsome⟩ := exists_checkOne_of_checkHeader hverdict
    refine ⟨first :: checked, by simp [hfirst, hrest], by simp [hlen], ?_⟩
    cases hinvalid : ws.invalid root file with
    | false =>
      rw [List.filter_cons_of_neg (by simp [hinvalid]), List.filterMap_cons_none (hnone hinvalid)]
      exact hreports
    | true =>
      obtain ⟨v, hv, hreport⟩ := hsome hinvalid
      rw [List.filter_cons_of_pos hinvalid, List.filterMap_cons_some hv]
      exact .cons hreport hreports

section Run
variable {ws : Workspace} {o : Options} {root : Path} {files : List Path}

theorem run_workspace_of_check (ho : o.check = true) : (ws.run o).workspace = ws := by
  by_cases hunresolved : ws.Unresolved o
  · exact run_workspace_of_unresolved hunresolved
  · obtain ⟨root, files, hroot, hfiles⟩ := not_unresolved_iff.mp hunresolved
    rw [(run_of_candidates hroot hfiles).1, ho, if_pos rfl, runCheck_workspace]

theorem run_result_of_checkEach {checked : List Checked} (ho : o.check = true)
    (hroot : ws.resolveRoot o.root = .ok root) (hfiles : ws.candidates o.paths = .ok files)
    (hcheck : ws.checkEach root files = (checked, none)) :
    (ws.run o).result =
      .ok ⟨(CheckReport.of checked).render o.json, !(CheckReport.of checked).ok⟩ := by
  rw [(run_of_candidates hroot hfiles).2, ho, if_pos rfl]
  simp [runCheck, hcheck]

/-- **A check that comes to an end** reports the headers with a wrong guard. -/
theorem exists_run_result_of_check (ho : o.check = true)
    (hroot : ws.resolveRoot o.root = .ok root) (hfiles : ws.candidates o.paths = .ok files)
    (hok : ∀ file ∈ files, ∃ verdict, ws.checkHeader file root = .ok verdict) :
    ∃ report : CheckReport, ws.checkAll root files = .ok report ∧
      (ws.run o).result = .ok ⟨report.render o.json, !report.ok⟩ ∧
      report.checked = files.length ∧
      List.Forall₂ (Reports root) (files.filter (ws.invalid root)) report.violations := by
  obtain ⟨checked, hcheck, hlen, hreports⟩ := exists_checkEach_eq hok
  exact ⟨.of checked, by simp [checkAll, hcheck], run_result_of_checkEach ho hroot hfiles hcheck,
    hlen, hreports⟩

/-- **A check that fails** fails as the first candidate does whose verdict is not found. -/
theorem exists_run_error_of_check (ho : o.check = true)
    (hroot : ws.resolveRoot o.root = .ok root) (hfiles : ws.candidates o.paths = .ok files)
    (herror : ∃ file ∈ files, ∃ e, ws.checkHeader file root = .error e) :
    ∃ k file e, files[k]? = some file ∧ ws.checkHeader file root = .error e ∧
      (∀ earlier ∈ files.take k, ∃ verdict, ws.checkHeader earlier root = .ok verdict) ∧
      (ws.run o).result = .error e := by
  obtain ⟨e, he⟩ : ∃ e, (ws.checkEach root files).2 = some e := by
    rw [← Option.ne_none_iff_exists']
    intro hnone
    obtain ⟨file, hfile, e, he⟩ := herror
    obtain ⟨checked, hchecked⟩ :=
      exists_untilFailure_iff.mp ⟨_, Prod.ext rfl hnone⟩ file hfile
    simp [checkOne_eq_error_iff.mpr he] at hchecked
  obtain ⟨k, file, hfile, hfails, hbefore⟩ := untilFailure_eq_some_iff.mp he
  refine ⟨k, file, e, hfile, checkOne_eq_error_iff.mp hfails, fun earlier hearlier => ?_, ?_⟩
  · obtain ⟨checked, hchecked⟩ := hbefore earlier hearlier
    rcases hverdict : ws.checkHeader earlier root with e' | verdict
    · simp [checkOne_eq_error_iff.mpr hverdict] at hchecked
    · exact ⟨verdict, rfl⟩
  · rw [(run_of_candidates hroot hfiles).2, ho, if_pos rfl, runCheck_result_eq_error_iff]
    exact he

theorem program_of_parse {t : Threshold} {arguments : List Bytes}
    (hparse : Options.parse arguments = .ok o) :
    (ws.program t arguments).1 = (ws.run o).workspace ∧
    (∀ answer, (ws.run o).result = .ok answer →
      (ws.program t arguments).2.stdout = answer.stdout ∧
      (ws.program t arguments).2.exitCode = answer.exitCode) ∧
    ∀ e, (ws.run o).result = .error e →
      (ws.program t arguments).2.stdout = [] ∧ (ws.program t arguments).2.exitCode = 1 := by
  rcases hresult : (ws.run o).result with e | answer <;> simp [program, hparse, hresult]

end Run

/-- **A run in check mode** changes nothing. If the root and the arguments lead somewhere and the
verdict on every candidate is found, it counts the candidates and reports those with a wrong guard,
in order, each with its path relative to the root and the name it should have. It exits with `1` if
there are any and with `0` otherwise, and the JSON form says so. If the verdict on a candidate is
not found, it prints no report and fails as the first such candidate does. -/
theorem run_check {ws : Workspace} {o : Options} (ho : o.check = true) :
    (ws.run o).workspace = ws ∧
    (¬ws.Unresolved o → ∃ root files,
      ws.resolveRoot o.root = .ok root ∧ ws.candidates o.paths = .ok files ∧
      ((∀ file ∈ files, ∃ verdict, ws.checkHeader file root = .ok verdict) →
        ∃ (report : CheckReport) (answer : Answer), ws.checkAll root files = .ok report ∧
          (ws.run o).result = .ok answer ∧ answer.stdout = report.render o.json ∧
          report.checked = files.length ∧
          List.Forall₂ (Reports root) (files.filter (ws.invalid root)) report.violations ∧
          (answer.exitCode = 1 ↔ report.violations ≠ []) ∧
          (answer.exitCode = 0 ↔ report.violations = []) ∧
          (o.json = true → ∀ ok, okField ok <+: answer.stdout ↔
            (ok = true ↔ answer.exitCode = 0))) ∧
      ((∃ file ∈ files, ∃ e, ws.checkHeader file root = .error e) →
        ∃ k file e, files[k]? = some file ∧ ws.checkHeader file root = .error e ∧
          (∀ earlier ∈ files.take k, ∃ verdict, ws.checkHeader earlier root = .ok verdict) ∧
          (ws.run o).result = .error e)) ∧
    ∀ t arguments, Options.parse arguments = .ok o →
      (ws.program t arguments).1 = ws ∧
      (∀ answer, (ws.run o).result = .ok answer →
        (ws.program t arguments).2.stdout = answer.stdout ∧
        (ws.program t arguments).2.exitCode = answer.exitCode) ∧
      ∀ e, (ws.run o).result = .error e →
        (ws.program t arguments).2.stdout = [] ∧ (ws.program t arguments).2.exitCode = 1 := by
  have hws : (ws.run o).workspace = ws := run_workspace_of_check ho
  refine ⟨hws, fun hresolved => ?_, fun t arguments hparse => ?_⟩
  · obtain ⟨root, files, hroot, hfiles⟩ := not_unresolved_iff.mp hresolved
    refine ⟨root, files, hroot, hfiles, fun hok => ?_, exists_run_error_of_check ho hroot hfiles⟩
    obtain ⟨report, hreport, hresult, hcount, hreports⟩ :=
      exists_run_result_of_check ho hroot hfiles hok
    have hexit : Answer.exitCode ⟨report.render o.json, !report.ok⟩ = 0 ↔
        report.violations = [] := by
      simp [CheckReport.exitCode_eq]
    refine ⟨report, _, hreport, hresult, rfl, hcount, hreports, ?_, hexit, fun hjson ok => ?_⟩
    · simp [CheckReport.exitCode_eq]
    · rw [hexit, CheckReport.render, if_pos hjson, CheckReport.json, okField_prefix_envelope_iff,
        CheckReport.ok, ← List.isEmpty_iff, Bool.eq_iff_iff]
  · obtain ⟨hleft, hprints⟩ := program_of_parse hparse
    exact ⟨hleft.trans hws, hprints⟩

/-- A wrong header, a right one and two that lie beside the root, of which the first is short. -/
def scattered : Workspace :=
  ofFiles [("r/d/a.h".toList, "#ifndef X\n#define X\n#endif\n".toList),
    ("r/d/b.h".toList, "#ifndef D_B_H\n#define D_B_H\n#endif // D_B_H\n".toList),
    ("s.h".toList, "int s;\n".toList), ("t.h".toList, "\n\n\n".toList)]

/-- A check of some of these, as JSON. -/
def scatteredOptions (paths : List String) : Options :=
  ⟨paths.map fun p => .ofText p.toList, true, some (.ofText "r".toList), true⟩

/-- The theorem at these headers: the short one needs no name, and the other one beside the root has
none. -/
theorem run_check_scattered :
    (∃ (report : CheckReport) (answer : Answer),
      (scattered.run (scatteredOptions ["s.h", "r"])).result = .ok answer ∧
      report.checked = 3 ∧ answer.exitCode = 1 ∧ okField false <+: answer.stdout ∧
      List.Forall₂ (Reports (.ofText "/r".toList)) [.ofText "/r/d/a.h".toList]
        report.violations ∧
      answer.stdout = CheckReport.json ⟨3, [⟨"d/a.h".toList, "D_A_H".toList⟩]⟩) ∧
    ∃ (k : Nat) (file : Path) (e : Failure),
      [Path.ofText "/r/d/a.h".toList, .ofText "/r/d/b.h".toList, .ofText "/t.h".toList,
        .ofText "/s.h".toList][k]? = some file ∧
      scattered.checkHeader file (.ofText "/r".toList) = .error e ∧
      (scattered.run (scatteredOptions ["r", "t.h", "s.h"])).result = .error e := by
  have hroot (paths : List String) : scattered.resolveRoot (scatteredOptions paths).root =
      .ok (.ofText "/r".toList) := by
    have h : scattered.resolveRoot (some (.ofText "r".toList)) = .ok (.ofText "/r".toList) := by
      decide +kernel
    exact h
  constructor
  · have hfiles : scattered.candidates (scatteredOptions ["s.h", "r"]).paths = .ok
        [.ofText "/s.h".toList, .ofText "/r/d/a.h".toList, .ofText "/r/d/b.h".toList] := by
      decide +kernel
    have hverdicts : untilFailure (scattered.checkHeader · (.ofText "/r".toList))
        [.ofText "/s.h".toList, .ofText "/r/d/a.h".toList, .ofText "/r/d/b.h".toList] =
          ([.short, .mismatch "D_A_H".toList, .correct], none) := by decide +kernel
    have hinvalid : [Path.ofText "/s.h".toList, .ofText "/r/d/a.h".toList,
        .ofText "/r/d/b.h".toList].filter (scattered.invalid (.ofText "/r".toList)) =
          [.ofText "/r/d/a.h".toList] := by decide +kernel
    obtain ⟨-, hrun, -⟩ := @run_check scattered (scatteredOptions ["s.h", "r"]) rfl
    obtain ⟨root, files, hroot', hfiles', hok, -⟩ :=
      hrun (not_unresolved_iff.mpr ⟨_, _, hroot _, hfiles⟩)
    rw [hroot] at hroot'
    rw [hfiles] at hfiles'
    cases hroot'
    cases hfiles'
    obtain ⟨report, answer, -, hanswer, -, hcount, hreports, hone, hzero, hjson⟩ :=
      hok (exists_untilFailure_iff.mp ⟨_, hverdicts⟩)
    rw [hinvalid] at hreports
    have hexit : answer.exitCode = 1 := by
      refine hone.mpr fun hnil => ?_
      rw [hnil] at hreports
      cases hreports
    have hprinted : (scattered.run (scatteredOptions ["s.h", "r"])).result.map Answer.stdout =
        .ok (CheckReport.json ⟨3, [⟨"d/a.h".toList, "D_A_H".toList⟩]⟩) := by decide +kernel
    rw [hanswer] at hprinted
    exact ⟨report, answer, hanswer, hcount, hexit, (hjson rfl false).mpr (by simp [hexit]),
      hreports, Except.ok.inj hprinted⟩
  · have hfiles : scattered.candidates (scatteredOptions ["r", "t.h", "s.h"]).paths = .ok
        [.ofText "/r/d/a.h".toList, .ofText "/r/d/b.h".toList, .ofText "/t.h".toList,
          .ofText "/s.h".toList] := by decide +kernel
    have hfails : scattered.checkHeader (.ofText "/t.h".toList) (.ofText "/r".toList) =
        .error (.naming (.notUnderRoot (.ofText "/t.h".toList) (.ofText "/r".toList))) := by
      decide +kernel
    obtain ⟨-, hrun, -⟩ := @run_check scattered (scatteredOptions ["r", "t.h", "s.h"]) rfl
    obtain ⟨root, files, hroot', hfiles', -, hfail⟩ :=
      hrun (not_unresolved_iff.mpr ⟨_, _, hroot _, hfiles⟩)
    rw [hroot] at hroot'
    rw [hfiles] at hfiles'
    cases hroot'
    cases hfiles'
    obtain ⟨k, file, e, hfile, he, -, hresult⟩ := hfail ⟨_, by simp, _, hfails⟩
    exact ⟨k, file, e, hfile, he, hresult⟩

end Workspace

end IncludeGuard
