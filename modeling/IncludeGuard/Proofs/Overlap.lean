import IncludeGuard.Proofs.Checking
import IncludeGuard.Proofs.Report
import Mathlib.Data.Finset.Dedup
import Mathlib.Data.Finset.Card

/-! # Arguments that overlap

Every argument is expanded by itself, and what they stand for is put together, without looking for
headers that are there already. Two arguments overlap (`Overlap`) if one of them leads to a place at
or below the place of the other and names a header there.

* `overlap_iff`: this is so exactly if both name some header.
* `count_candidates`: a header is a candidate as often as there are arguments that name it.
* `candidates_repeat`: so no header is a candidate twice exactly if no two arguments overlap. A run
  counts candidates, also in the headline that it prints, and only then are these different headers.
-/

namespace IncludeGuard

namespace Workspace

/-- One of the arguments leads to a place at or below the place of the other, and it names a
header. -/
def Overlap (ws : Workspace) (x y : Path) : Prop :=
  match ws.resolve x, ws.resolve y with
  | .ok a, .ok b => (a <+: b ∧ ws.headersOf y ≠ []) ∨ (b <+: a ∧ ws.headersOf x ≠ [])
  | _, _ => False

instance (ws : Workspace) (x y : Path) : Decidable (ws.Overlap x y) := by
  unfold Overlap; split <;> infer_instance

/-! ### What arguments have in common -/

section Arguments
variable {ws : Workspace} {argument x y p : Path} {arguments files : List Path} {a b : Address}
  (hcwd : ws.tree.entryAt? ws.cwd = some .dir)
include hcwd

theorem nodup_headersOf (ha : ws.resolve argument = .ok a) : (ws.headersOf argument).Nodup := by
  rcases entryAt?_of_resolve hcwd ha with hdir | ⟨c, hc⟩
  · rw [headersOf_of_dir ha hdir]
    exact nodup_headersBelow hdir
  · rw [headersOf_of_file ha hc]
    split_ifs <;> simp

theorem headersOf_subset (ha : ws.resolve x = .ok a) (hb : ws.resolve y = .ok b) (hab : a <+: b) :
    ws.headersOf y ⊆ ws.headersOf x := by
  intro p hp
  obtain ⟨c, hbc, hc⟩ := (mem_headersOf_iff hcwd hb).mp hp
  exact (mem_headersOf_iff hcwd ha).mpr ⟨c, hab.trans hbc, hc⟩

/-- **Arguments overlap** exactly if they name a header in common. -/
theorem overlap_iff (ha : ws.resolve x = .ok a) (hb : ws.resolve y = .ok b) :
    ws.Overlap x y ↔ ∃ p, p ∈ ws.headersOf x ∧ p ∈ ws.headersOf y := by
  have hplaces : ws.Overlap x y ↔
      (a <+: b ∧ ws.headersOf y ≠ []) ∨ (b <+: a ∧ ws.headersOf x ≠ []) := by
    simp only [Overlap, ha, hb]
  rw [hplaces]
  constructor
  · rintro (⟨hab, hne⟩ | ⟨hba, hne⟩)
    · obtain ⟨p, hp⟩ := List.exists_mem_of_ne_nil _ hne
      exact ⟨p, headersOf_subset hcwd ha hb hab hp, hp⟩
    · obtain ⟨p, hp⟩ := List.exists_mem_of_ne_nil _ hne
      exact ⟨p, hp, headersOf_subset hcwd hb ha hba hp⟩
  · rintro ⟨p, hpx, hpy⟩
    obtain ⟨c, hac, hc, -, rfl⟩ := (mem_headersOf_iff hcwd ha).mp hpx
    obtain ⟨c', hbc, hc', -, hpath⟩ := (mem_headersOf_iff hcwd hb).mp hpy
    -- the header in common has one address only, so both places are on the way to it
    obtain rfl := Address.path_injective hc.isName hc'.isName hpath
    rcases List.prefix_or_prefix_of_prefix hac hbc with hab | hba
    · exact Or.inl ⟨hab, List.ne_nil_of_mem hpy⟩
    · exact Or.inr ⟨hba, List.ne_nil_of_mem hpx⟩

theorem count_candidates (h : ws.candidates arguments = .ok files) (p : Path) :
    files.count p = arguments.countP fun argument => p ∈ ws.headersOf argument := by
  have hresolve := exists_candidates_iff.mp ⟨files, h⟩
  rw [candidates_eq_flatMap h]
  clear h
  induction arguments with
  | nil => rfl
  | cons argument arguments ih =>
    obtain ⟨a, ha⟩ := hresolve argument (by simp)
    rw [List.flatMap_cons, List.count_append, ih fun x hx => hresolve x (by simp [hx]),
      (nodup_headersOf hcwd ha).count, List.countP_cons, Nat.add_comm]
    simp

/-- **No header is a candidate twice** exactly if no two arguments overlap. -/
theorem nodup_candidates_iff (h : ws.candidates arguments = .ok files) :
    files.Nodup ↔ arguments.Pairwise fun x y => ¬ws.Overlap x y := by
  have hresolve := exists_candidates_iff.mp ⟨files, h⟩
  rw [candidates_eq_flatMap h, List.nodup_flatMap, and_iff_right]
  · refine List.Pairwise.iff_of_mem fun {x y} hx hy => ?_
    obtain ⟨a, ha⟩ := hresolve x hx
    obtain ⟨b, hb⟩ := hresolve y hy
    rw [overlap_iff hcwd ha hb, Function.onFun_apply, List.disjoint_left]
    simp
  · intro argument hargument
    obtain ⟨a, ha⟩ := hresolve argument hargument
    exact nodup_headersOf hcwd ha

end Arguments

/-! ### What a run counts -/

section Run
variable {ws : Workspace} {o : Options} {answer : Answer} {root : Path} {files : List Path}

theorem exists_checkReport (ho : o.check = true) (hroot : ws.resolveRoot o.root = .ok root)
    (hfiles : ws.candidates o.paths = .ok files) (h : (ws.run o).result = .ok answer) :
    ∃ report : CheckReport, ws.checkAll root files = .ok report ∧
      answer.stdout = report.render o.json ∧ report.checked = files.length ∧
      report.violations.length = (files.filter (ws.invalid root)).length ∧
      (o.json = false → (splitLines answer.stdout).head? = some (outputLine
        (if files.filter (ws.invalid root) = [] then "All header guards are correct.".toList
          else "Found ".toList ++ Text.ofNat (files.filter (ws.invalid root)).length ++
            " files with incorrect guards:".toList))) := by
  by_cases herror : ∃ file ∈ files, ∃ e, ws.checkHeader file root = .error e
  · obtain ⟨-, -, e, -, -, -, hfails⟩ := exists_run_error_of_check ho hroot hfiles herror
    simp [hfails] at h
  · have hok : ∀ file ∈ files, ∃ verdict, ws.checkHeader file root = .ok verdict := by
      intro file hfile
      rcases hverdict : ws.checkHeader file root with e | verdict
      · exact absurd ⟨file, hfile, e, hverdict⟩ herror
      · exact ⟨verdict, rfl⟩
    obtain ⟨report, hreport, hresult, hcount, hreports⟩ :=
      exists_run_result_of_check ho hroot hfiles hok
    rw [hresult] at h
    cases h
    have hlen : report.violations.length = (files.filter (ws.invalid root)).length :=
      hreports.length_eq.symm
    refine ⟨report, hreport, rfl, hcount, hlen, fun hjson => ?_⟩
    have hnil : report.violations = [] ↔ files.filter (ws.invalid root) = [] := by
      rw [← List.length_eq_zero_iff, hlen, List.length_eq_zero_iff]
    simp only [hjson, CheckReport.render, Bool.false_eq_true, if_false,
      CheckReport.splitLines_text, List.head?_cons, hnil, hlen]

theorem exists_fixReport (ho : o.check = false) (hroot : ws.resolveRoot o.root = .ok root)
    (hfiles : ws.candidates o.paths = .ok files) (h : (ws.run o).result = .ok answer) :
    ∃ report : FixReport, (fixEach root ws files).report = .ok report ∧
      answer.stdout = report.render o.json ∧ report.checked = files.length ∧
      (o.json = false → (splitLines answer.stdout).head? = some (outputLine
        (if report.fixed = [] then "No header guards needed fixing.".toList
          else "Fixed ".toList ++ Text.ofNat report.fixed.length ++ " files:".toList))) := by
  rw [(run_of_candidates hroot hfiles).2, ho, if_neg Bool.false_ne_true] at h
  rcases hfailure : (fixEach root ws files).failure with _ | e
  · simp only [runFix, FixProgress.report, hfailure, Except.ok.injEq] at h
    subst h
    refine ⟨_, FixProgress.report_eq_ok_iff.mpr ⟨hfailure, rfl⟩, rfl, length_done_fixEach hfailure,
      fun hjson => ?_⟩
    simp only [hjson, FixReport.render, Bool.false_eq_true, if_false, FixReport.splitLines_text,
      List.head?_cons]
  · rw [(runFix_result_eq_error_iff o.json).mpr hfailure] at h
    cases h

/-- **What the numbers in a report mean.** A header is a candidate as often as there are arguments
that name it, and a run counts it that often. A check counts the candidates with a wrong guard in
its list, and as text it prints that number. No header is a candidate twice exactly if no two
arguments overlap, and then a run counts different headers. -/
theorem candidates_repeat {arguments : List Path} (hcwd : ws.tree.entryAt? ws.cwd = some .dir)
    (hfiles : ws.candidates arguments = .ok files) :
    (∀ p, files.count p = arguments.countP fun argument => p ∈ ws.headersOf argument) ∧
    (files.Nodup ↔ arguments.Pairwise fun x y => ¬ws.Overlap x y) ∧
    ∀ o root answer, o.paths = arguments → ws.resolveRoot o.root = .ok root →
      (ws.run o).result = .ok answer →
      (o.check = true → ∃ report : CheckReport, ws.checkAll root files = .ok report ∧
        answer.stdout = report.render o.json ∧ report.checked = files.length ∧
        report.violations.length = (files.filter (ws.invalid root)).length ∧
        (o.json = false → (splitLines answer.stdout).head? = some (outputLine
          (if files.filter (ws.invalid root) = [] then "All header guards are correct.".toList
            else "Found ".toList ++ Text.ofNat (files.filter (ws.invalid root)).length ++
              " files with incorrect guards:".toList))) ∧
        (files.Nodup → report.checked = files.toFinset.card ∧
          report.violations.length = (files.filter (ws.invalid root)).toFinset.card)) ∧
      (o.check = false → ∃ report : FixReport, (fixEach root ws files).report = .ok report ∧
        answer.stdout = report.render o.json ∧ report.checked = files.length ∧
        (o.json = false → (splitLines answer.stdout).head? = some (outputLine
          (if report.fixed = [] then "No header guards needed fixing.".toList
            else "Fixed ".toList ++ Text.ofNat report.fixed.length ++ " files:".toList))) ∧
        (files.Nodup → report.checked = files.toFinset.card)) := by
  refine ⟨count_candidates hcwd hfiles, nodup_candidates_iff hcwd hfiles, ?_⟩
  rintro o root answer rfl hroot hresult
  refine ⟨fun ho => ?_, fun ho => ?_⟩
  · obtain ⟨report, hreport, hstdout, hcount, hviolations, hprinted⟩ :=
      exists_checkReport ho hroot hfiles hresult
    refine ⟨report, hreport, hstdout, hcount, hviolations, hprinted, fun hnodup => ⟨?_, ?_⟩⟩
    · rw [hcount, List.toFinset_card_of_nodup hnodup]
    · rw [hviolations, List.toFinset_card_of_nodup (hnodup.filter _)]
  · obtain ⟨report, hreport, hstdout, hcount, hprinted⟩ :=
      exists_fixReport ho hroot hfiles hresult
    refine ⟨report, hreport, hstdout, hcount, hprinted, fun hnodup => ?_⟩
    rw [hcount, List.toFinset_card_of_nodup hnodup]

/-- Two headers with the wrong name on their guards, and below the directory of the first another
directory without headers. -/
def neighbours : Workspace :=
  ofFiles [("d/a.h".toList, "#ifndef X\n#define X\n#endif\n".toList),
    ("d/n/c.txt".toList, []), ("e/b.h".toList, "#ifndef X\n#define X\n#endif\n".toList)]

/-- A check run over arguments. -/
def checkOptions (paths : List String) : Options :=
  ⟨paths.map fun p => .ofText p.toList, true, none, false⟩

/-- The theorem at arguments that do not overlap, although one leads to a place below another. -/
theorem candidates_repeat_neighbours :
    [Path.ofText "/d/a.h".toList, .ofText "/e/b.h".toList].Nodup ∧
    ∃ (report : CheckReport) (answer : Answer),
      (neighbours.run (checkOptions ["d", "d/n", "e"])).result = .ok answer ∧
      answer.stdout = report.render false ∧
      report.checked = [Path.ofText "/d/a.h".toList, .ofText "/e/b.h".toList].toFinset.card ∧
      (splitLines answer.stdout).head? =
        some "Found 2 files with incorrect guards:\n".toList := by
  have hcwd : neighbours.tree.entryAt? neighbours.cwd = some .dir := rfl
  have hroot : neighbours.resolveRoot (checkOptions ["d", "d/n", "e"]).root =
      .ok (.ofText "/".toList) := by decide +kernel
  have hfiles : neighbours.candidates (checkOptions ["d", "d/n", "e"]).paths =
      .ok [.ofText "/d/a.h".toList, .ofText "/e/b.h".toList] := by decide +kernel
  have hinvalid : [Path.ofText "/d/a.h".toList, .ofText "/e/b.h".toList].filter
      (neighbours.invalid (.ofText "/".toList)) =
        [.ofText "/d/a.h".toList, .ofText "/e/b.h".toList] := by decide +kernel
  obtain ⟨answer, hrun⟩ : ∃ answer,
      (neighbours.run (checkOptions ["d", "d/n", "e"])).result = .ok answer :=
    ⟨⟨("Found 2 files with incorrect guards:\n" ++ "  d/a.h: expected D_A_H\n" ++
      "  e/b.h: expected E_B_H\n").toList, true⟩, by decide +kernel⟩
  obtain ⟨-, hnodup, hcounts⟩ := candidates_repeat hcwd hfiles
  have hdistinct := hnodup.mpr (by decide +kernel)
  obtain ⟨report, -, hstdout, -, -, hprinted, hcards⟩ :=
    (hcounts (checkOptions ["d", "d/n", "e"]) _ _ rfl hroot hrun).1 rfl
  have hheadline := hprinted rfl
  rw [hinvalid] at hheadline
  exact ⟨hdistinct, report, answer, hrun, hstdout, (hcards hdistinct).1, hheadline⟩

/-- A directory and a header below it overlap: the header is a candidate twice, and it is counted
and reported twice. -/
theorem candidates_of_overlap :
    neighbours.candidates (checkOptions ["d", "d/a.h"]).paths =
      .ok [.ofText "/d/a.h".toList, .ofText "/d/a.h".toList] ∧
    ¬[Path.ofText "/d/a.h".toList, .ofText "/d/a.h".toList].Nodup ∧
    (neighbours.run (checkOptions ["d", "d/a.h"])).result = .ok
      ⟨("Found 2 files with incorrect guards:\n" ++ "  d/a.h: expected D_A_H\n" ++
        "  d/a.h: expected D_A_H\n").toList, true⟩ := by
  decide +kernel

end Run

end Workspace

end IncludeGuard
