import IncludeGuard.Proofs.Scan
import Mathlib.Order.Lattice.Nat

/-! # Which lines are the anchors

The search for the anchors goes line by line and stops early, but what it finds can be said at
once, by the numbers of the lines of each directive (`linesOf`):

* the `#define` anchor is the first `#define` line, if that lies in the window
  (`define_eq_some_iff_isLeast`, `define_eq_none_iff`);
* the `#ifndef` anchor is the last `#ifndef` line before it, or before the end of the window if
  there is no `#define` anchor (`ifndef_eq_some_iff_isGreatest`, `ifndef_eq_none_iff`);
* the `#endif` anchor is the last `#endif` line of all (`endif_eq_some_iff_isGreatest`,
  `endif_eq_none_iff`).

`scan_anchors` puts these together. -/

namespace IncludeGuard

open Directive

/-- The numbers of the lines of a directive. -/
def linesOf (d : Directive) (lines : List Line) : Set Nat :=
  {x | ∃ l, lines[x]? = some l ∧ d.accepts l = true}

/-- The number of the line before which the search for `#ifndef` lines ends. -/
def Scan.openingEnd (s : Scan) : Nat :=
  (s.define.map (·.index)).getD scanWindow

variable {lines : List Line} {d : Directive} {x : Nat}

theorem mem_linesOf_iff : x ∈ linesOf d lines ↔ kindAt? lines x = some d := by
  rw [kindAt?, Option.bind_eq_some_iff]
  exact exists_congr fun l => and_congr_right fun _ => kind?_eq_some_iff.symm

theorem noDefineBefore_iff : NoDefineBefore lines x ↔ x ∈ lowerBounds (linesOf .define lines) := by
  constructor
  · intro h y hy
    by_contra hlt
    exact h y (by omega) (mem_linesOf_iff.mp hy)
  · intro h y hlt hk
    have := h (mem_linesOf_iff.mpr hk)
    omega

theorem lt_length_of_mem_linesOf (h : x ∈ linesOf d lines) : x < lines.length := by
  obtain ⟨l, hl, -⟩ := h
  exact (List.getElem?_eq_some_iff.mp hl).1

theorem exists_isGreatest {s : Set Nat} {n : Nat} (hne : s.Nonempty) (hlt : ∀ x ∈ s, x < n) :
    ∃ x, IsGreatest s x := by
  have hbdd : BddAbove s := ⟨n, fun x hx => (hlt x hx).le⟩
  exact ⟨sSup s, Nat.sSup_mem hne hbdd, fun x hx => le_csSup hbdd hx⟩

namespace Scan

/-! ### The `#define` anchor -/

theorem define_eq_some_iff_isLeast {a : Anchor} : (scan lines).define = some a ↔
    IsLeast {x | x ∈ linesOf .define lines ∧ x < scanWindow} a.index ∧
      nameAt? .define lines a.index = some a.name := by
  rw [define_eq_some_iff]
  refine and_congr_left fun hname => ?_
  have hmem : a.index ∈ linesOf .define lines :=
    mem_linesOf_iff.mpr ((kindAt?_eq_some_iff (by decide)).mpr ⟨a.name, hname⟩)
  rw [Searched, noDefineBefore_iff]
  constructor
  · rintro ⟨hw, hfirst⟩
    exact ⟨⟨hmem, hw⟩, fun y hy => hfirst hy.1⟩
  · rintro ⟨⟨-, hw⟩, hleast⟩
    refine ⟨hw, fun y hy => ?_⟩
    by_cases hyw : y < scanWindow
    · exact hleast ⟨hy, hyw⟩
    · omega

theorem define_eq_none_iff : (scan lines).define = none ↔
    ∀ x ∈ linesOf .define lines, scanWindow ≤ x := by
  constructor
  · intro hnone x hx
    by_contra hlt
    have hne : {x | x ∈ linesOf .define lines ∧ x < scanWindow}.Nonempty := ⟨x, hx, by omega⟩
    have hleast := isLeast_csInf hne
    obtain ⟨n, hn⟩ := (kindAt?_eq_some_iff (by decide)).mp (mem_linesOf_iff.mp hleast.1.1)
    rw [define_eq_some_iff_isLeast (a := ⟨_, n⟩) |>.mpr ⟨hleast, hn⟩] at hnone
    cases hnone
  · intro h
    rw [Option.eq_none_iff_forall_ne_some]
    intro a ha
    obtain ⟨hmem, hw⟩ := (define_eq_some_iff_isLeast.mp ha).1.1
    have := h a.index hmem
    omega

/-! ### The `#ifndef` anchor -/

theorem searched_iff (hx : x ∈ linesOf .ifndef lines) :
    Searched lines x ↔ x < (scan lines).openingEnd := by
  rw [Searched, noDefineBefore_iff]
  rcases hdefine : (scan lines).define with _ | a
  · have hend : (scan lines).openingEnd = scanWindow := by rw [openingEnd, hdefine]; rfl
    rw [hend]
    refine ⟨fun h => h.1, fun hw => ⟨hw, fun y hy => ?_⟩⟩
    exact hw.le.trans (define_eq_none_iff.mp hdefine y hy)
  · have hend : (scan lines).openingEnd = a.index := by rw [openingEnd, hdefine]; rfl
    rw [hend]
    obtain ⟨⟨⟨hmem, hw⟩, hleast⟩, -⟩ := define_eq_some_iff_isLeast.mp hdefine
    constructor
    · rintro ⟨-, hfirst⟩
      -- no line is an `#ifndef` line and a `#define` line
      have hne : x ≠ a.index := by
        rintro rfl
        exact absurd ((mem_linesOf_iff.mp hx).symm.trans (mem_linesOf_iff.mp hmem)) (by decide)
      exact lt_of_le_of_ne (hfirst hmem) hne
    · intro hlt
      refine ⟨hlt.trans hw, fun y hy => ?_⟩
      by_cases hyw : y < scanWindow
      · exact hlt.le.trans (hleast ⟨hy, hyw⟩)
      · omega

theorem ifndef_eq_some_iff_isGreatest {a : Anchor} : (scan lines).ifndef = some a ↔
    IsGreatest {x | x ∈ linesOf .ifndef lines ∧ x < (scan lines).openingEnd} a.index ∧
      nameAt? .ifndef lines a.index = some a.name := by
  rw [ifndef_eq_some_iff]
  constructor
  · rintro ⟨hs, hname, hlast⟩
    have hkind : a.index ∈ linesOf .ifndef lines :=
      mem_linesOf_iff.mpr ((kindAt?_eq_some_iff (by decide)).mpr ⟨a.name, hname⟩)
    refine ⟨⟨⟨hkind, (searched_iff hkind).mp hs⟩, fun y ⟨hy, hend⟩ => ?_⟩, hname⟩
    by_contra hlt
    exact hlast y (by omega) ((searched_iff hy).mpr hend) (mem_linesOf_iff.mp hy)
  · rintro ⟨⟨⟨hkind, hend⟩, hgreatest⟩, hname⟩
    refine ⟨(searched_iff hkind).mpr hend, hname, fun y hy hs hk => ?_⟩
    have hmem := mem_linesOf_iff.mpr hk
    have := hgreatest ⟨hmem, (searched_iff hmem).mp hs⟩
    omega

theorem ifndef_eq_none_iff : (scan lines).ifndef = none ↔
    ∀ x ∈ linesOf .ifndef lines, (scan lines).openingEnd ≤ x := by
  constructor
  · intro hnone x hx
    by_contra hlt
    obtain ⟨i, hgreatest⟩ :=
      exists_isGreatest (s := {x | x ∈ linesOf .ifndef lines ∧ x < (scan lines).openingEnd})
        ⟨x, hx, by omega⟩ fun y hy => hy.2
    obtain ⟨n, hn⟩ := (kindAt?_eq_some_iff (by decide)).mp (mem_linesOf_iff.mp hgreatest.1.1)
    rw [ifndef_eq_some_iff_isGreatest (a := ⟨i, n⟩) |>.mpr ⟨hgreatest, hn⟩] at hnone
    cases hnone
  · intro h
    rw [Option.eq_none_iff_forall_ne_some]
    intro a ha
    obtain ⟨hmem, hend⟩ := (ifndef_eq_some_iff_isGreatest.mp ha).1.1
    have := h a.index hmem
    omega

/-! ### The `#endif` anchor -/

theorem endif_eq_some_iff_isGreatest :
    (scan lines).endif = some x ↔ IsGreatest (linesOf .endif lines) x := by
  refine indexOf?_endif_iff.trans ?_
  rw [← mem_linesOf_iff]
  refine and_congr_right fun _ => ⟨fun h y hy => ?_, fun h y hy hk => ?_⟩
  · by_contra hlt
    exact h y (by omega) (mem_linesOf_iff.mp hy)
  · have := h (mem_linesOf_iff.mpr hk)
    omega

theorem endif_eq_none_iff : (scan lines).endif = none ↔ linesOf .endif lines = ∅ := by
  rw [Option.eq_none_iff_forall_ne_some, Set.eq_empty_iff_forall_notMem]
  constructor
  · intro h x hx
    obtain ⟨y, hy⟩ := exists_isGreatest ⟨x, hx⟩ fun y hy => lt_length_of_mem_linesOf hy
    exact h y (endif_eq_some_iff_isGreatest.mpr hy)
  · intro h x hx
    exact h x (endif_eq_some_iff_isGreatest.mp hx).1

/-! ### All anchors -/

theorem hasGuard_iff_isLeast : (scan lines).hasGuard = true ↔
    ∃ x, IsLeast (linesOf .define lines) x ∧ x < scanWindow ∧
      ∃ y ∈ linesOf .ifndef lines, y < x := by
  rw [hasGuard_iff_exists]
  simp only [noDefineBefore_iff, ← mem_linesOf_iff]
  constructor
  · rintro ⟨x, hw, hx, hfirst, y, hlt, hy⟩
    exact ⟨x, ⟨hx, hfirst⟩, hw, y, hy, hlt⟩
  · rintro ⟨x, ⟨hx, hfirst⟩, hw, y, hy, hlt⟩
    exact ⟨x, hw, hx, hfirst, y, hlt, hy⟩

/-- **What a scan finds.** The `#define` anchor is the first `#define` line in the window, the
`#ifndef` anchor is the last `#ifndef` line before it or, without one, in the window, and the
`#endif` anchor is the last `#endif` line of all. The opening anchors carry the names on their
lines, and the name of the closing one is that in its comment. So the opening anchors depend on the
lines in the window alone, and there is a guard exactly if an `#ifndef` line stands before the first
`#define` line and that lies in the window. -/
theorem scan_anchors (lines : List Line) :
    (∀ a, (scan lines).define = some a ↔
      IsLeast {x | x ∈ linesOf .define lines ∧ x < scanWindow} a.index ∧
        nameAt? .define lines a.index = some a.name) ∧
    ((scan lines).define = none ↔ ∀ x ∈ linesOf .define lines, scanWindow ≤ x) ∧
    (∀ a, (scan lines).ifndef = some a ↔
      IsGreatest {x | x ∈ linesOf .ifndef lines ∧ x < (scan lines).openingEnd} a.index ∧
        nameAt? .ifndef lines a.index = some a.name) ∧
    ((scan lines).ifndef = none ↔
      ∀ x ∈ linesOf .ifndef lines, (scan lines).openingEnd ≤ x) ∧
    (∀ x, (scan lines).endif = some x ↔ IsGreatest (linesOf .endif lines) x) ∧
    ((scan lines).endif = none ↔ linesOf .endif lines = ∅) ∧
    (scan lines).endifName = (scan lines).endif.bind (nameAt? .endif lines) ∧
    (∀ lines', lines'.take scanWindow = lines.take scanWindow →
      (scan lines').ifndef = (scan lines).ifndef ∧
        (scan lines').define = (scan lines).define) ∧
    ((scan lines).hasGuard = true ↔ ∃ x, IsLeast (linesOf .define lines) x ∧ x < scanWindow ∧
      ∃ y ∈ linesOf .ifndef lines, y < x) := by
  refine ⟨fun a => define_eq_some_iff_isLeast, define_eq_none_iff,
    fun a => ifndef_eq_some_iff_isGreatest, ifndef_eq_none_iff,
    fun x => endif_eq_some_iff_isGreatest, endif_eq_none_iff, endifName_eq lines,
    fun lines' h => ?_, hasGuard_iff_isLeast⟩
  simp only [scan, h, and_self]

/-- The theorem at a guard with two `#ifndef` lines, and lines after the window that look like
anchors. -/
theorem scan_anchors_beyondWindow :
    let window := ["#ifndef A\n".toList, "#ifndef B\r\n".toList, "#define B\n".toList] ++
      List.replicate 7 ['\n']
    let lines := window ++ ["#ifndef C\n".toList, "#define C\n".toList, " #endif // D".toList]
    lines.take scanWindow = window.take scanWindow ∧
    (scan lines).ifndef = (scan window).ifndef ∧ (scan window).ifndef = some ⟨1, ['B']⟩ ∧
    IsGreatest {x | x ∈ linesOf .ifndef lines ∧ x < (scan lines).openingEnd} 1 ∧
    IsGreatest (linesOf .endif lines) 12 ∧ (scan lines).endifName = none := by
  intro window lines
  have htake : lines.take scanWindow = window.take scanWindow := by decide
  have hwindow : (scan window).ifndef = some ⟨1, ['B']⟩ := by decide
  obtain ⟨-, -, -, -, -, -, -, hsame, -⟩ := scan_anchors window
  obtain ⟨-, -, hifndef, -, hendif, -, hname, -, -⟩ := scan_anchors lines
  have hsome : (scan lines).ifndef = some ⟨1, ['B']⟩ := (hsame lines htake).1.trans hwindow
  have hclosing : (scan lines).endif = some 12 := by decide
  refine ⟨htake, (hsame lines htake).1, hwindow, ((hifndef _).mp hsome).1,
    (hendif 12).mp hclosing, ?_⟩
  rw [hname, hclosing]
  decide

end Scan

end IncludeGuard
