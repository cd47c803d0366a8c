import IncludeGuard.Proofs.Convergence

/-! # A repair line by line

`RewritesTo` says of two lists of lines, place by place, that the second is the first with every
anchor in its canonical form. The rewritten lines are of this form (`rewritesTo_rewritten`).

The lines of a repaired text end like the lines of the text before (`crlf_suffix_rewriteLine_iff`,
`lf_suffix_rewriteLine_iff`): a line that is written takes over the terminator of the line it
replaces, and only a last line without one gets a line feed. Here the name must not hold a line
feed, which would end a line of its own, nor a carriage return, which might come to stand before
one.

`repair?_lineByLine` says both of a repair. -/

namespace IncludeGuard

open Directive Scan

/-- The lines `ls` are `lines` with every anchor replaced by the directive, one space, the name and
the terminator that the anchor has, and all other lines as they are. -/
structure RewritesTo (lines : List Line) (e : Text) (ls : List Line) : Prop where
  length_eq : ls.length = lines.length
  anchor : ∀ d x l, (scan lines).indexOf? d = some x → lines[x]? = some l →
    ls[x]? = some (d.line e (lineEnding l))
  other : ∀ x, (∀ d, (scan lines).indexOf? d ≠ some x) → ls[x]? = lines[x]?

theorem anchorAt?_eq_none {lines : List Line} {x : Nat}
    (h : ∀ d, (scan lines).indexOf? d ≠ some x) : anchorAt? lines x = none := by
  rw [Option.eq_none_iff_forall_ne_some]
  exact fun d hd => h d (anchorAt?_eq_some_iff.mp hd)

theorem rewritesTo_rewritten (lines : List Line) (e : Text) :
    RewritesTo lines e (rewritten lines e) where
  length_eq := length_rewritten lines e
  anchor := fun _ _ _ hd hl => getElem?_rewritten_of_indexOf? hd hl
  other := by
    intro x h
    rw [getElem?_rewritten, anchorAt?_eq_none h]
    cases lines[x]? <;> rfl

theorem eq_of_indexOf?_eq {lines : List Line} {d d' : Directive} {x : Nat}
    (h : (scan lines).indexOf? d = some x) (h' : (scan lines).indexOf? d' = some x) : d = d' :=
  Option.some.inj ((kindAt?_of_indexOf? h).symm.trans (kindAt?_of_indexOf? h'))

/-! ### Terminators -/

theorem lineEnding_line {e : Text} (he : '\r' ∉ e) (d : Directive) (l : Line) :
    lineEnding (d.line e (lineEnding l)) = lineEnding l := by
  refine (lineEnding_append_lineEnding (d.opening ++ ' ' :: e) l).mpr (Or.inl ?_)
  rw [List.getLast?_append_of_ne_nil _ (by simp)]
  intro hcr
  have hmem : '\r' ∈ ' ' :: e := List.mem_of_getLast? hcr
  simp [he] at hmem

theorem crlf_suffix_rewriteLine_iff {e : Text} (he : '\r' ∉ e) (o : Option Directive) (l : Line) :
    ['\r', '\n'] <:+ rewriteLine e o l ↔ ['\r', '\n'] <:+ l := by
  cases o with
  | none => rfl
  | some d => rw [rewriteLine, ← lineEnding_eq_crlf_iff, lineEnding_line he, lineEnding_eq_crlf_iff]

theorem lf_suffix_iff {l : Line} : ['\n'] <:+ l ↔ l.getLast? = some '\n' := by
  rw [List.getLast?_eq_some_iff]
  exact exists_congr fun _ => eq_comm

theorem lf_suffix_rewriteLine_iff {lines : List Line} (hlines : IsLines lines) (e : Text) {x : Nat}
    {l : Line} (hl : lines[x]? = some l) :
    ['\n'] <:+ rewriteLine e (anchorAt? lines x) l ↔ ['\n'] <:+ l ∨
      (x + 1 = lines.length ∧ ¬['\n'] <:+ l ∧ ∃ d, (scan lines).indexOf? d = some x) := by
  rcases hd : anchorAt? lines x with _ | d
  · have hnone : ¬∃ d, (scan lines).indexOf? d = some x := by
      rintro ⟨d, hd'⟩
      rw [anchorAt?_eq_some_iff.mpr hd'] at hd
      cases hd
    simp [rewriteLine, hnone]
  · -- a written line has a terminator, and only a last line can have had none
    have hwritten : ['\n'] <:+ rewriteLine e (some d) l := by
      obtain ⟨s, hs, -⟩ := exists_line_eq_append_lf d e l
      exact ⟨s, hs.symm⟩
    refine iff_of_true hwritten ?_
    by_cases hlf : ['\n'] <:+ l
    · exact Or.inl hlf
    · refine Or.inr ⟨?_, hlf, d, anchorAt?_eq_some_iff.mp hd⟩
      have hx := (List.getElem?_eq_some_iff.mp hl).1
      by_contra hne
      exact hlf (lf_suffix_iff.mpr (hlines.getLast?_eq (by omega) hl))

/-! ### Repairs -/

/-- **A repair, line by line.** There is nothing to repair exactly if an opening anchor is missing
or all anchors are canonical. Otherwise the repaired text is made up of the lines with the anchors
in canonical form and all others copied; the anchors are different lines, and the `#ifndef` line
stands before the `#define` line. If the name has neither a carriage return nor a line feed, the
repaired text has as many lines as before, with the terminators they had, except that an anchor on a
last line without terminator gets a line feed. -/
theorem repair?_lineByLine (lines : List Line) (e : Text) :
    (repair? lines e = none ↔ (scan lines).ifndef = none ∨ (scan lines).define = none ∨
      ∀ d x l, (scan lines).indexOf? d = some x → lines[x]? = some l →
        l = d.line e (lineEnding l)) ∧
    (∀ t, repair? lines e = some t → ∃ ls, RewritesTo lines e ls ∧ t = ls.flatten) ∧
    (∀ d d' x, (scan lines).indexOf? d = some x → (scan lines).indexOf? d' = some x → d = d') ∧
    (∀ i j, (scan lines).indexOf? .ifndef = some i → (scan lines).indexOf? .define = some j →
      i < j) ∧
    (∀ c t, lines = splitLines c → '\r' ∉ e → '\n' ∉ e → repair? lines e = some t →
      (splitLines t).length = lines.length ∧
      ∀ x l l', lines[x]? = some l → (splitLines t)[x]? = some l' →
        (['\r', '\n'] <:+ l' ↔ ['\r', '\n'] <:+ l) ∧
        (['\n'] <:+ l' ↔ ['\n'] <:+ l ∨
          (x + 1 = lines.length ∧ ¬['\n'] <:+ l ∧ ∃ d, (scan lines).indexOf? d = some x))) := by
  refine ⟨?_, ?_, fun d d' x => eq_of_indexOf?_eq, fun i j => indexOf?_ifndef_lt_define, ?_⟩
  · have hguard : ¬(scan lines).hasGuard = true ↔
        (scan lines).ifndef = none ∨ (scan lines).define = none := by
      rw [hasGuard, Bool.and_eq_true, not_and_or, Option.not_isSome_iff_eq_none,
        Option.not_isSome_iff_eq_none]
    rw [repair?_eq_none_iff, rewritten_eq_iff, imp_iff_not_or, hguard, or_assoc]
    simp only [eq_comm]
  · intro t ht
    obtain ⟨-, -, rfl⟩ := repair?_eq_some_iff.mp ht
    exact ⟨rewritten lines e, rewritesTo_rewritten lines e, rfl⟩
  · intro c t hc hcr hlf ht
    have hlines : IsLines lines := hc ▸ isLines_splitLines c
    obtain ⟨-, -, rfl⟩ := repair?_eq_some_iff.mp ht
    rw [splitLines_flatten_rewritten hlines hlf]
    refine ⟨length_rewritten lines e, fun x l l' hl hl' => ?_⟩
    obtain rfl : rewriteLine e (anchorAt? lines x) l = l' := by
      rw [getElem?_rewritten, hl] at hl'
      exact Option.some.inj hl'
    exact ⟨crlf_suffix_rewriteLine_iff hcr _ l, lf_suffix_rewriteLine_iff hlines e hl⟩

/-- A header whose last line has no terminator, and whose first has a carriage return in its own. -/
def mixedHeader : Text :=
  "#ifndef A\r\n#define B\nint x;\n#endif".toList

/-- The theorem at that header: it gets no further lines, and the last line gets a line feed. -/
theorem repair?_lineByLine_mixedHeader : ∃ t l,
    repair? (splitLines mixedHeader) "N_H".toList = some t ∧ (splitLines t).length = 4 ∧
      (splitLines t)[3]? = some l ∧ ['\n'] <:+ l := by
  obtain ⟨hnone, -, -, -, hends⟩ := repair?_lineByLine (splitLines mixedHeader) "N_H".toList
  have hanchor : (scan (splitLines mixedHeader)).indexOf? .endif = some 3 := by decide +kernel
  have hline : (splitLines mixedHeader)[3]? = some "#endif".toList := by decide +kernel
  have hopen : ¬((scan (splitLines mixedHeader)).ifndef = none ∨
      (scan (splitLines mixedHeader)).define = none) := by decide +kernel
  rcases ht : repair? (splitLines mixedHeader) "N_H".toList with _ | t
  · exfalso
    have hall := (or_assoc.mpr (hnone.mp ht)).resolve_left hopen .endif 3 _ hanchor hline
    exact absurd hall (by decide +kernel)
  · obtain ⟨hlen, hlines⟩ := hends mixedHeader t rfl (by decide) (by decide) ht
    have hfour : (splitLines t).length = 4 := hlen.trans (by decide +kernel)
    obtain ⟨l, hl⟩ : ∃ l, (splitLines t)[3]? = some l :=
      ⟨_, List.getElem?_eq_getElem (by omega)⟩
    refine ⟨t, l, rfl, hfour, hl, (hlines 3 _ l hline hl).2.mpr (Or.inr ?_)⟩
    exact ⟨by decide +kernel, by decide, .endif, hanchor⟩

end IncludeGuard
