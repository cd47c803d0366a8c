import IncludeGuard.Proofs.Repair

/-! # A repair is final

A repair writes its lines in place of the anchors. If the name stands alone in what is written
(`soleName?`), every written line is of the kind of the line it replaces, so the rewritten lines
have their anchors in the same places (`indexOf?_rewritten`), and these carry that name
(`nameAt?_rewritten`). If moreover the name has no line feed, the lines of the repaired text are the
rewritten lines (`splitLines_flatten_rewritten`). A second repair then changes nothing, unless the
name ends in a carriage return that a line feed alone has turned into a part of the terminator
(`rewritten_rewritten_iff`).

For a macro name this makes one repair enough (`repair?_converges`). -/

namespace IncludeGuard

open Directive Scan

/-! ### The lines of the repaired text -/

theorem opening_lf_notMem (d : Directive) : '\n' ∉ d.opening := by
  cases d with
  | ifndef => decide
  | define => decide
  | endif => decide

theorem exists_line_eq_append_lf (d : Directive) (e : Text) (l : Line) :
    ∃ s, d.line e (lineEnding l) = s ++ ['\n'] ∧ ('\n' ∉ e → '\n' ∉ s) := by
  obtain ⟨s, hs, h⟩ := exists_lineEnding_eq l
  refine ⟨d.opening ++ ' ' :: e ++ s, by simp [line, h], fun he => ?_⟩
  simp [opening_lf_notMem d, he, hs]

theorem getLast?_of_getElem?_rewritten {lines : List Line} (hl : IsLines lines) (e : Text) (i : Nat)
    (p : Text) (hi : i + 1 < (rewritten lines e).length) (hp : (rewritten lines e)[i]? = some p) :
    p.getLast? = some '\n' := by
  rw [length_rewritten] at hi
  rw [getElem?_rewritten, Option.map_eq_some_iff] at hp
  obtain ⟨l, hli, rfl⟩ := hp
  rcases anchorAt? lines i with _ | d
  · exact hl.getLast?_eq hi hli
  · obtain ⟨s, hs, -⟩ := exists_line_eq_append_lf d e l
    simp [rewriteLine, hs]

theorem ne_nil_of_mem_rewritten {lines : List Line} (hl : IsLines lines) {e p : Text}
    (hp : p ∈ rewritten lines e) : p ≠ [] := by
  obtain ⟨x, hx⟩ := List.mem_iff_getElem?.mp hp
  rw [getElem?_rewritten, Option.map_eq_some_iff] at hx
  obtain ⟨l, hlx, rfl⟩ := hx
  rcases anchorAt? lines x with _ | d
  · exact hl.ne_nil (List.mem_of_getElem? hlx)
  · simp [rewriteLine, line]

theorem splitLines_flatten_rewritten_eq_flatMap {lines : List Line} (hl : IsLines lines)
    (e : Text) :
    splitLines (rewritten lines e).flatten = (rewritten lines e).flatMap splitLines :=
  splitLines_flatten_eq_flatMap (getLast?_of_getElem?_rewritten hl e)

theorem length_le_length_splitLines_rewritten {lines : List Line} (hl : IsLines lines) (e : Text) :
    lines.length ≤ (splitLines (rewritten lines e).flatten).length := by
  have hne : ∀ p ∈ rewritten lines e, p ≠ [] := fun p hp => ne_nil_of_mem_rewritten hl hp
  have hlen := length_le_length_flatMap_splitLines hne
  rwa [← splitLines_flatten_rewritten_eq_flatMap hl e, length_rewritten] at hlen

/-- **A repair changes the text**, not only the lines it is cut into. -/
theorem repair?_ne {c e t : Text} (h : repair? (splitLines c) e = some t) : t ≠ c := by
  obtain ⟨-, hne, rfl⟩ := repair?_eq_some_iff.mp h
  have hl := isLines_splitLines c
  intro hc
  refine hne (hl.eq_of_flatten_eq (getLast?_of_getElem?_rewritten hl e)
    (fun p hp => ne_nil_of_mem_rewritten hl hp) (length_rewritten _ _).ge ?_)
  rw [hc, flatten_splitLines]

/-- **The lines of the repaired text are the rewritten lines**, if the name has no line feed. -/
theorem splitLines_flatten_rewritten {lines : List Line} (hl : IsLines lines) {e : Text}
    (he : '\n' ∉ e) : splitLines (rewritten lines e).flatten = rewritten lines e := by
  have hone : ∀ p ∈ rewritten lines e, splitLines p = [p] := by
    intro p hp
    obtain ⟨x, hx⟩ := List.mem_iff_getElem?.mp hp
    rw [getElem?_rewritten, Option.map_eq_some_iff] at hx
    obtain ⟨l, hlx, rfl⟩ := hx
    rcases anchorAt? lines x with _ | d
    · exact hl.splitLines_eq (List.mem_of_getElem? hlx)
    · obtain ⟨s, hs, hs'⟩ := exists_line_eq_append_lf d e l
      simp only [rewriteLine, hs]
      rw [splitLines_append_lf (hs' he), splitLines_nil]
  rw [splitLines_flatten_rewritten_eq_flatMap hl, List.flatMap_congr hone]
  simp

/-! ### The anchors of the rewritten lines -/

/-- A line that is written twice is the same, unless the name ends in a carriage return that becomes
part of the terminator. -/
theorem line_lineEnding_line_iff {e : Text} (he : e ≠ []) (d : Directive) (l : Line) :
    d.line e (lineEnding (d.line e (lineEnding l))) = d.line e (lineEnding l) ↔
      e.getLast? ≠ some '\r' ∨ lineEnding l = ['\r', '\n'] := by
  have hlast : (d.opening ++ ' ' :: e).getLast? = e.getLast? := by
    rw [List.append_cons, List.getLast?_append_of_ne_nil _ he]
  rw [← hlast, ← lineEnding_append_lineEnding, line, line, List.append_cancel_left_eq]

section Legible
variable {lines : List Line} {e n : Text} (he : soleName? e = some n)
include he

theorem map_kind?_rewritten : (rewritten lines e).map kind? = lines.map kind? := by
  refine (map_rewritten_eq_iff kind?).mpr fun d x l hd hl => ?_
  have hkind := kindAt?_of_indexOf? hd
  simp only [kindAt?, hl, Option.bind_some] at hkind
  rw [hkind, kind?_line d e (Text.allBlank_lineEnding l), if_pos (by simp [he])]

theorem kindAt?_rewritten (x : Nat) : kindAt? (rewritten lines e) x = kindAt? lines x := by
  rw [← join_getElem?_map_kind?, map_kind?_rewritten he, join_getElem?_map_kind?]

/-- **The anchors stay where they are.** -/
theorem indexOf?_rewritten (d : Directive) :
    (scan (rewritten lines e)).indexOf? d = (scan lines).indexOf? d :=
  indexOf?_congr (kindAt?_rewritten he) d

/-- **Each anchor carries the name** that was written. -/
theorem nameAt?_rewritten {d : Directive} {x : Nat} (h : (scan lines).indexOf? d = some x) :
    nameAt? d (rewritten lines e) x = some n := by
  obtain ⟨l, hl⟩ := exists_getElem?_of_indexOf? h
  unfold nameAt?
  rw [getElem?_rewritten_of_indexOf? h hl, Option.bind_some,
    name?_line d e (Text.allBlank_lineEnding l), he]

/-- What is made of the places and the names of the anchors is made of their old places and the new
name. -/
theorem bind_nameAt?_rewritten {β : Type} (f : Nat → Text → β) (d : Directive) :
    ((scan (rewritten lines e)).indexOf? d).bind
        (fun x => (nameAt? d (rewritten lines e) x).map (f x)) =
      ((scan lines).indexOf? d).map fun x => f x n := by
  rw [indexOf?_rewritten he]
  rcases h : (scan lines).indexOf? d with _ | x
  · rfl
  · rw [Option.bind_some, nameAt?_rewritten he h]
    rfl

/-- **When a second repair changes nothing**: the name does not end in a carriage return, or the
anchors end in one anyway. -/
theorem rewritten_rewritten_iff : rewritten (rewritten lines e) e = rewritten lines e ↔
    e.getLast? ≠ some '\r' ∨ ∀ d x l, (scan lines).indexOf? d = some x → lines[x]? = some l →
      lineEnding l = ['\r', '\n'] := by
  have hne : e ≠ [] := by
    rintro rfl
    simp [soleName?, loneName?] at he
  rw [rewritten_eq_iff]
  constructor
  · intro h
    by_contra hnot
    obtain ⟨hcr, hcrlf⟩ := not_or.mp hnot
    push Not at hcrlf
    obtain ⟨d, x, l, hd, hl, hcrlf⟩ := hcrlf
    have hd' : (scan (rewritten lines e)).indexOf? d = some x := by
      rw [indexOf?_rewritten he, hd]
    have hself := h d x _ hd' (getElem?_rewritten_of_indexOf? hd hl)
    rcases (line_lineEnding_line_iff hne d l).mp hself with h' | h'
    · exact hcr h'
    · exact hcrlf h'
  · intro h d x l' hd' hl'
    rw [indexOf?_rewritten he] at hd'
    obtain ⟨l, hl⟩ := exists_getElem?_of_indexOf? hd'
    obtain rfl : d.line e (lineEnding l) = l' := by
      rw [getElem?_rewritten_of_indexOf? hd' hl] at hl'
      exact Option.some.inj hl'
    exact (line_lineEnding_line_iff hne d l).mpr (h.imp_right fun h => h d x l hd' hl)

end Legible

/-! ### Macro names -/

section MacroName
variable {lines : List Line} {e : Text} (he : e.IsMacroName)
include he

theorem ifndef_scan_rewritten : (scan (rewritten lines e)).ifndef =
    (scan lines).ifndef.map fun a => ⟨a.index, e⟩ := by
  rw [ifndef_eq, bind_nameAt?_rewritten (soleName?_of_isMacroName he), indexOf?, Option.map_map]
  rfl

theorem define_scan_rewritten : (scan (rewritten lines e)).define =
    (scan lines).define.map fun a => ⟨a.index, e⟩ := by
  rw [define_eq, bind_nameAt?_rewritten (soleName?_of_isMacroName he), indexOf?, Option.map_map]
  rfl

theorem endif_scan_rewritten : (scan (rewritten lines e)).endif = (scan lines).endif :=
  indexOf?_rewritten (soleName?_of_isMacroName he) .endif

theorem endifName_scan_rewritten :
    (scan (rewritten lines e)).endifName = (scan lines).endif.map fun _ => e := by
  have hid : nameAt? .endif (rewritten lines e) =
      fun x => (nameAt? .endif (rewritten lines e) x).map fun t => t := by
    simp
  rw [endifName_eq, hid]
  exact bind_nameAt?_rewritten (soleName?_of_isMacroName he) (fun _ t => t) .endif

theorem hasGuard_scan_rewritten :
    (scan (rewritten lines e)).hasGuard = (scan lines).hasGuard := by
  simp [hasGuard, ifndef_scan_rewritten he, define_scan_rewritten he]

theorem agrees_scan_rewritten (hguard : (scan lines).hasGuard = true) :
    (scan (rewritten lines e)).agrees e = (scan lines).endif.isSome := by
  have hguard' : (scan (rewritten lines e)).hasGuard = true :=
    (hasGuard_scan_rewritten he).trans hguard
  simp only [hasGuard, Bool.and_eq_true] at hguard
  obtain ⟨a, ha⟩ := Option.isSome_iff_exists.mp hguard.1
  obtain ⟨b, hb⟩ := Option.isSome_iff_exists.mp hguard.2
  unfold agrees
  rw [hguard', ifndef_scan_rewritten he, define_scan_rewritten he, endifName_scan_rewritten he,
    ha, hb]
  cases (scan lines).endif <;> simp

theorem rewritten_rewritten : rewritten (rewritten lines e) e = rewritten lines e :=
  (rewritten_rewritten_iff (soleName?_of_isMacroName he)).mpr (Or.inl he.getLast?_ne_cr)

end MacroName

/-- **One repair is enough.** A text repaired to a macro name has as many lines as before and its
anchors at the same places, all of them with the name. It agrees with the name exactly if there is a
closing anchor, and a second repair changes nothing. -/
theorem repair?_converges {c e t : Text} (he : e.IsMacroName)
    (h : repair? (splitLines c) e = some t) :
    (splitLines t).length = (splitLines c).length ∧
    (scan (splitLines t)).hasGuard = true ∧
    (scan (splitLines t)).ifndef = (scan (splitLines c)).ifndef.map (fun a => ⟨a.index, e⟩) ∧
    (scan (splitLines t)).define = (scan (splitLines c)).define.map (fun a => ⟨a.index, e⟩) ∧
    (scan (splitLines t)).endif = (scan (splitLines c)).endif ∧
    (scan (splitLines t)).endifName = (scan (splitLines t)).endif.map (fun _ => e) ∧
    (scan (splitLines t)).agrees e = (scan (splitLines t)).endif.isSome ∧
    repair? (splitLines t) e = none := by
  obtain ⟨hguard, -, rfl⟩ := repair?_eq_some_iff.mp h
  rw [splitLines_flatten_rewritten (isLines_splitLines c) he.lf_notMem]
  have hendif : (scan (rewritten (splitLines c) e)).endif = (scan (splitLines c)).endif :=
    endif_scan_rewritten he
  refine ⟨length_rewritten _ _, (hasGuard_scan_rewritten he).trans hguard,
    ifndef_scan_rewritten he, define_scan_rewritten he, hendif, ?_, ?_, ?_⟩
  · rw [hendif]
    exact endifName_scan_rewritten he
  · rw [hendif]
    exact agrees_scan_rewritten he hguard
  · exact repair?_eq_none_iff.mpr fun _ => rewritten_rewritten he

/-- The theorem at a header with two `#ifndef` lines, mixed terminators and none at the end. -/
theorem repair?_converges_nested :
    Text.IsMacroName "N_H".toList ∧
    repair? (splitLines "#ifndef A\n#ifndef B \r\n#define B\n#endif".toList) "N_H".toList =
      some "#ifndef A\n#ifndef N_H\r\n#define N_H\n#endif // N_H\n".toList ∧
    (scan (splitLines "#ifndef A\n#ifndef N_H\r\n#define N_H\n#endif // N_H\n".toList)).agrees
      "N_H".toList = true ∧
    repair? (splitLines "#ifndef A\n#ifndef N_H\r\n#define N_H\n#endif // N_H\n".toList)
      "N_H".toList = none := by
  have he : Text.IsMacroName "N_H".toList := by decide
  have h : repair? (splitLines "#ifndef A\n#ifndef B \r\n#define B\n#endif".toList) "N_H".toList =
      some "#ifndef A\n#ifndef N_H\r\n#define N_H\n#endif // N_H\n".toList := by decide
  obtain ⟨-, -, -, -, hendif, -, hagrees, hnone⟩ := repair?_converges he h
  refine ⟨he, h, ?_, hnone⟩
  rw [hagrees, hendif]
  decide

end IncludeGuard
