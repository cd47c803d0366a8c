import IncludeGuard.Proofs.Convergence
import IncludeGuard.Proofs.Fixing
import IncludeGuard.Proofs.GuardName

/-! # Fixing a header twice

A derived name may be one that no anchor can carry: it can have blanks, full stops or any other
characters, and even line feeds, which break a written line into several. What the scanner then
makes of a repaired text is told by the kinds of its lines. An opening anchor lasts only if what
stands on its first line can be read as a name, and the lines that a line feed adds are of no kind,
since a derived name has no small letters (`map_kind?_splitLines_rewritten`).

So the guard may be gone after a repair, and the next `#ifndef` and `#define` lines may be taken for
one. A second repair changes nothing exactly if no guard is found any more, or if the name can be
read and keeps its line terminators apart (`repair?_repair?_eq_none_iff`). For the two fixes of one
header this is `fixHeader_twice`; with a macro name the second one never writes. -/

namespace IncludeGuard

open Directive Scan

/-- What stands before the first line feed. -/
def Text.headline (t : Text) : Text :=
  t.takeWhile (· != '\n')

/-- Lines of these kinds have a guard: an `#ifndef` line before the first `#define` line, which lies
in the window. -/
def Opens (kinds : List (Option Directive)) : Prop :=
  ∃ d < scanWindow, kinds[d]?.join = some .define ∧ (∀ x < d, kinds[x]?.join ≠ some .define) ∧
    ∃ i < d, kinds[i]?.join = some .ifndef

instance (kinds : List (Option Directive)) : Decidable (Opens kinds) :=
  inferInstanceAs (Decidable (∃ d < scanWindow, _ ∧ _ ∧ _))

/-- The kinds of the lines that stand in place of the anchor of a directive once the name `e` is
written there. -/
def writtenKinds (e : Text) (d : Directive) : List (Option Directive) :=
  (if d = .endif ∨ (soleName? e.headline).isSome then some d else none) ::
    List.replicate (e.count '\n') none

/-- The kinds of the lines of a header once the name `e` is written on its anchors. -/
def kindsAfter (lines : List Line) (e : Text) : List (Option Directive) :=
  lines.zipIdx.flatMap fun p => ((anchorAt? lines p.2).map (writtenKinds e)).getD [kind? p.1]

/-- One repair to the name is enough: no guard is found afterwards, or the name is read on the
anchors and does not end in a carriage return that joins a line feed. -/
def Settles (lines : List Line) (e : Text) : Prop :=
  Opens (kindsAfter lines e) → '\n' ∉ e ∧ (soleName? e).isSome ∧
    (e.getLast? ≠ some '\r' ∨ ∀ d x l, (scan lines).indexOf? d = some x → lines[x]? = some l →
      lineEnding l = ['\r', '\n'])

/-! ### The kinds of the lines -/

theorem hasGuard_iff_opens {lines : List Line} :
    (scan lines).hasGuard = true ↔ Opens (lines.map kind?) := by
  simp only [hasGuard_iff_exists, Opens, join_getElem?_map_kind?, NoDefineBefore]

theorem kind?_eq_none_of_isSmall {l : Line} (h : ∀ c ∈ l, Text.isSmall c = false) :
    kind? l = none := by
  rw [Option.eq_none_iff_forall_ne_some]
  intro d hd
  obtain ⟨t, ht⟩ := exists_dropWhile_of_accepts (kind?_eq_some_iff.mp hd)
  have hmem : d.initial ∈ l := (List.dropWhile_sublist _).mem (by rw [ht]; simp)
  have hsmall : Text.isSmall d.initial = true := by
    cases d <;> decide
  rw [h _ hmem] at hsmall
  exact absurd hsmall (by decide)

theorem isSmall_of_mem_lineEnding {l : Line} {c : Char} (h : c ∈ lineEnding l) :
    Text.isSmall c = false := by
  rcases lineEnding_eq_or l with hl | hl
  · rw [hl, List.mem_pair] at h
    rcases h with rfl | rfl <;> decide
  · rw [hl, List.mem_singleton] at h
    rw [h]
    decide

theorem ne_lf_of_notMem {s : Text} (hs : '\n' ∉ s) : ∀ c ∈ s, (c != '\n') = true := by
  intro c hc
  rw [bne_iff_ne]
  rintro rfl
  exact hs hc

theorem headline_append_lf {s : Text} (hs : '\n' ∉ s) (t : Text) :
    Text.headline (s ++ '\n' :: t) = s := by
  unfold Text.headline
  rw [List.takeWhile_append_of_pos (ne_lf_of_notMem hs)]
  simp

theorem headline_of_notMem {s : Text} (hs : '\n' ∉ s) : s.headline = s := by
  unfold Text.headline
  rw [List.takeWhile_eq_self_iff]
  exact ne_lf_of_notMem hs

section Small
variable {e : Text} (he : ∀ c ∈ e, Text.isSmall c = false)
include he

/-- **What a written line is read as**: its own kind, if the name can be read, and lines of no kind
for the line feeds in the name. -/
theorem map_kind?_splitLines_line (d : Directive) (l : Line) :
    (splitLines (d.line e (lineEnding l))).map kind? = writtenKinds e d := by
  obtain ⟨s, hs, hend⟩ := exists_lineEnding_eq l
  by_cases hlf : '\n' ∈ e
  · -- the name breaks the line: the headline stays with the directive
    obtain ⟨h, rest, rfl, hh⟩ := List.eq_append_cons_of_mem hlf
    have hopening : '\n' ∉ d.opening ++ ' ' :: h := by
      simp [opening_lf_notMem d, hh]
    have hsplit : splitLines (d.line (h ++ '\n' :: rest) (lineEnding l)) =
        d.line h ['\n'] :: splitLines (rest ++ s ++ ['\n']) := by
      rw [line, line, hend, ← splitLines_append_lf hopening]
      simp
    have hrest : (splitLines (rest ++ s ++ ['\n'])).map kind? =
        List.replicate ((h ++ '\n' :: rest).count '\n') none := by
      rw [List.eq_replicate_iff]
      constructor
      · rw [List.length_map, length_splitLines_append_lf]
        simp [List.count_eq_zero.mpr hs, List.count_eq_zero.mpr hh]
      · intro k hk
        obtain ⟨l', hl', rfl⟩ := List.mem_map.mp hk
        refine kind?_eq_none_of_isSmall fun c hc => ?_
        have hc' := mem_of_mem_splitLines hl' hc
        rw [List.append_assoc, ← hend, List.mem_append] at hc'
        rcases hc' with hc' | hc'
        · exact he c (by simp [hc'])
        · exact isSmall_of_mem_lineEnding hc'
    rw [hsplit, List.map_cons, hrest, kind?_line d h (by decide), writtenKinds,
      headline_append_lf hh]
  · have hline : '\n' ∉ d.opening ++ ' ' :: e ++ s := by
      simp [opening_lf_notMem d, hlf, hs]
    have hsplit : splitLines (d.line e (lineEnding l)) = [d.line e (lineEnding l)] := by
      rw [line, hend, ← List.append_assoc, splitLines_append_lf hline, splitLines_nil]
    rw [hsplit, List.map_singleton, kind?_line d e (Text.allBlank_lineEnding l), writtenKinds,
      headline_of_notMem hlf, List.count_eq_zero.mpr hlf, List.replicate_zero]

/-- **The kinds of the lines of a repaired text.** -/
theorem map_kind?_splitLines_rewritten {lines : List Line} (hl : IsLines lines) :
    (splitLines (rewritten lines e).flatten).map kind? = kindsAfter lines e := by
  rw [splitLines_flatten_rewritten_eq_flatMap hl, rewritten, List.mapIdx_eq_zipIdx_map,
    List.flatMap_map, List.map_flatMap, kindsAfter]
  refine List.flatMap_congr fun p hp => ?_
  obtain ⟨l, x⟩ := p
  have hmem : l ∈ lines := List.mem_of_getElem? (List.mem_zipIdx_iff_getElem?.mp hp)
  dsimp only
  rcases anchorAt? lines x with _ | d
  · rw [rewriteLine, hl.splitLines_eq hmem]
    rfl
  · exact map_kind?_splitLines_line he d l

end Small

/-! ### A second repair -/

theorem legible_of_rewritten_eq_self {t e : Text} (hguard : (scan (splitLines t)).hasGuard = true)
    (h : rewritten (splitLines t) e = splitLines t) : '\n' ∉ e ∧ (soleName? e).isSome := by
  obtain ⟨⟨i, hi⟩, -⟩ := hasGuard_iff.mp hguard
  obtain ⟨l, hl⟩ := exists_getElem?_of_indexOf? hi
  have hline : ifndef.line e (lineEnding l) = l := rewritten_eq_iff.mp h .ifndef i l hi hl
  constructor
  · -- the canonical line is one line, so the name in it has no line feed
    intro hlf
    obtain ⟨s, -, hend⟩ := exists_lineEnding_eq l
    have hone := (isLines_splitLines t).splitLines_eq (List.mem_of_getElem? hl)
    have hlf' : '\n' ∈ ifndef.opening ++ ' ' :: e ++ s := by simp [hlf]
    have hpos := List.count_pos_iff.mpr hlf'
    have hlen := length_splitLines_append_lf (ifndef.opening ++ ' ' :: e ++ s)
    rw [List.append_assoc _ s, ← hend, ← line, hline, hone, List.length_singleton] at hlen
    omega
  · have hkind := kindAt?_of_indexOf? hi
    simp only [kindAt?, hl, Option.bind_some] at hkind
    rw [← hline, kind?_line ifndef e (Text.allBlank_lineEnding l)] at hkind
    by_contra hnone
    simp [hnone] at hkind

/-- **When a second repair changes nothing.** -/
theorem repair?_repair?_eq_none_iff {c e t : Text} (he : ∀ c ∈ e, Text.isSmall c = false)
    (h : repair? (splitLines c) e = some t) :
    repair? (splitLines t) e = none ↔ Settles (splitLines c) e := by
  obtain ⟨-, -, rfl⟩ := repair?_eq_some_iff.mp h
  have hl := isLines_splitLines c
  rw [repair?_eq_none_iff, Settles, ← map_kind?_splitLines_rewritten he hl, ← hasGuard_iff_opens]
  refine forall_congr' fun hguard => ?_
  constructor
  · intro hself
    obtain ⟨hlf, hname⟩ := legible_of_rewritten_eq_self hguard hself
    obtain ⟨n, hn⟩ := Option.isSome_iff_exists.mp hname
    rw [splitLines_flatten_rewritten hl hlf] at hself
    exact ⟨hlf, hname, (rewritten_rewritten_iff hn).mp hself⟩
  · rintro ⟨hlf, hname, hcr⟩
    obtain ⟨n, hn⟩ := Option.isSome_iff_exists.mp hname
    rw [splitLines_flatten_rewritten hl hlf]
    exact (rewritten_rewritten_iff hn).mpr hcr

theorem settles_of_isMacroName {lines : List Line} {e : Text} (he : e.IsMacroName) :
    Settles lines e := by
  intro _
  exact ⟨he.lf_notMem, by simp [soleName?_of_isMacroName he], Or.inl he.getLast?_ne_cr⟩

/-! ### Two fixes of one header -/

open Workspace

/-- **Fixing a header twice.** After a fix that ends well a second one ends well, too. It writes
nothing exactly if the first one wrote nothing or the name settles, and so it writes nothing if the
name is a macro name. -/
theorem fixHeader_twice {ws : Workspace} {file root : Path} {r : Option Repaired}
    (h : ws.fixHeader file root = .ok r) :
    ∃ r', (ws.after r).fixHeader file root = .ok r' ∧
      (r' = none ↔ ∀ repaired c, r = some repaired → ws.readHeader file = .ok c →
        Settles (splitLines c) repaired.expected) ∧
      (∀ e, guardName file root = .ok e → e.IsMacroName → r' = none) := by
  obtain ⟨c, hc, hcases⟩ := fixHeader_cases h
  obtain ⟨-, c₁, c', -, -, hc₁, hc', hfix⟩ := fixHeader_fixesTo h
  obtain rfl : c₁ = c := by simpa [hc] using hc₁.symm
  rcases hcases with ⟨-, rfl⟩ | ⟨hlen, e, he, ⟨-, rfl⟩ | ⟨t, ws', ht, hw, rfl⟩⟩
  · exact ⟨none, h, by simp, by simp⟩
  · exact ⟨none, h, by simp, by simp⟩
  · -- the header now holds the repaired text, which is long enough to be fixed again
    obtain rfl : c' = t := by
      rcases hfix with ⟨hshort, -⟩ | ⟨-, e', he', rfl⟩
      · omega
      · obtain rfl : e' = e := by simpa [he] using he'.symm
        simp [ht]
    have hsmall : ∀ ch ∈ e, Text.isSmall ch = false := fun _ hch => isSmall_of_guardName he hch
    have hlen' : minGuardedLines ≤ (splitLines c').length := by
      obtain ⟨-, -, rfl⟩ := repair?_eq_some_iff.mp ht
      exact hlen.trans (length_le_length_splitLines_rewritten (isLines_splitLines c₁) e)
    obtain ⟨r', hr', hwritten⟩ := exists_fixHeader_eq hc' hlen' he
    have hnone : r' = none ↔ Settles (splitLines c₁) e := by
      rw [← repair?_repair?_eq_none_iff hsmall ht, ← Option.map_eq_none_iff, hwritten,
        Option.map_eq_none_iff]
    refine ⟨r', hr', hnone.trans ⟨?_, ?_⟩, ?_⟩
    · rintro hsettles repaired c hrepaired hread
      obtain rfl : ⟨e, ws'⟩ = repaired := by simpa using hrepaired
      obtain rfl : c₁ = c := by simpa [hc] using hread
      exact hsettles
    · exact fun hsettles => hsettles ⟨e, ws'⟩ c₁ rfl hc
    · intro e' he' hmacro
      obtain rfl : e = e' := by simpa [he] using he'
      exact hnone.mpr (settles_of_isMacroName hmacro)

/-- A guard inside a guard. -/
def nestedGuards : Text :=
  "#ifndef A_H\n#define A_H\n#ifndef B\n#define B\n#endif\n#endif\n".toList

/-- The theorem at a header directly below the root. Its name cannot be read on the anchors, so the
second fix goes on with the guard inside the first. -/
theorem fixHeader_twice_nestedGuards :
    ∃ repaired repaired',
      (ofFiles [("w/a.h".toList, nestedGuards)]).fixHeader (.ofText "/w/a.h".toList)
        (.ofText "/w".toList) = .ok (some repaired) ∧
      repaired.expected = "A.H_A_H".toList ∧
      repaired.workspace.fixHeader (.ofText "/w/a.h".toList) (.ofText "/w".toList) =
        .ok (some repaired') := by
  have hc : (ofFiles [("w/a.h".toList, nestedGuards)]).readHeader (.ofText "/w/a.h".toList) =
      .ok nestedGuards := by decide
  have he : guardName (.ofText "/w/a.h".toList) (.ofText "/w".toList) = .ok "A.H_A_H".toList := by
    decide
  have hnot : ¬Settles (splitLines nestedGuards) "A.H_A_H".toList := by
    intro h
    exact absurd (h (by decide)).2.1 (by decide)
  obtain ⟨t, ht⟩ : ∃ t, repair? (splitLines nestedGuards) "A.H_A_H".toList = some t :=
    Option.isSome_iff_exists.mp (by decide)
  obtain ⟨r, hr, hwritten⟩ := exists_fixHeader_eq hc (by decide) he
  rw [ht, Option.map_some, Option.map_eq_some_iff] at hwritten
  obtain ⟨repaired, rfl, hexpected⟩ := hwritten
  obtain ⟨r', hr', hnone, -⟩ := fixHeader_twice hr
  obtain ⟨repaired', rfl⟩ : ∃ repaired', r' = some repaired' := by
    rw [← Option.ne_none_iff_exists']
    intro h
    exact hnot (hexpected ▸ hnone.mp h repaired _ rfl hc)
  exact ⟨repaired, repaired', hr, hexpected, hr'⟩

end IncludeGuard
