import IncludeGuard.Line

/-! # The lines of a text

What `splitLines` gives is described by `IsLines`: every piece ends in a line feed and has no other,
except that the last one may lack it, and no piece is empty.

* `isLines_splitLines` and `splitLines_flatten`: the lines of a text are such pieces, and such
  pieces are the lines of the text they make up. `CutAfterLf` says of the pieces one by one what
  they are, and `splitLines_flatten_inverse` puts the two together.
* `splitLines_flatten_eq_flatMap`: pieces that end in line feeds are split one by one. If there are
  as many as the lines of the text they make up, they are these lines (`IsLines.eq_of_flatten_eq`).
* `lineEnding_append_lineEnding`: when a new line takes over a terminator, that stays its
  terminator. -/

namespace IncludeGuard

/-! ### Pieces that are lines -/

/-- The pieces are the lines of a text. -/
inductive IsLines : List Line → Prop
  | nil : IsLines []
  | last {s : Text} : s ≠ [] → '\n' ∉ s → IsLines [s]
  | cons {s : Text} {ls : List Line} : '\n' ∉ s → IsLines ls → IsLines ((s ++ ['\n']) :: ls)

theorem splitLines_lf_cons (t : Text) : splitLines ('\n' :: t) = ['\n'] :: splitLines t := by
  simp [splitLines]

theorem splitLines_cons {c : Char} (hc : c ≠ '\n') {t : Text} {l : Line} {ls : List Line}
    (h : splitLines t = l :: ls) : splitLines (c :: t) = (c :: l) :: ls := by
  simp [splitLines, hc, h]

theorem splitLines_append_lf {s : Text} (hs : '\n' ∉ s) (t : Text) :
    splitLines (s ++ '\n' :: t) = (s ++ ['\n']) :: splitLines t := by
  induction s with
  | nil => exact splitLines_lf_cons t
  | cons c s ih =>
    obtain ⟨hc, hs⟩ : '\n' ≠ c ∧ '\n' ∉ s := by simpa using hs
    exact splitLines_cons (Ne.symm hc) (ih hs)

theorem splitLines_of_notMem {s : Text} (hne : s ≠ []) (hs : '\n' ∉ s) : splitLines s = [s] := by
  induction s with
  | nil => exact absurd rfl hne
  | cons c s ih =>
    obtain ⟨hc, hs⟩ : '\n' ≠ c ∧ '\n' ∉ s := by simpa using hs
    cases s with
    | nil => simp [splitLines, Ne.symm hc]
    | cons c' s' => exact splitLines_cons (Ne.symm hc) (ih (by simp) hs)

/-- **The lines of a text are lines.** -/
theorem isLines_splitLines (t : Text) : IsLines (splitLines t) := by
  induction t with
  | nil => exact .nil
  | cons c t ih =>
    by_cases hc : c = '\n'
    · subst hc
      rw [splitLines_lf_cons]
      exact .cons (s := []) (by simp) ih
    · have hne : '\n' ≠ c := Ne.symm hc
      cases h : splitLines t with
      | nil =>
        have : splitLines (c :: t) = [[c]] := by simp [splitLines, hc, h]
        rw [this]
        exact .last (by simp) (by simpa using hne)
      | cons l ls =>
        rw [splitLines_cons hc h]
        rw [h] at ih
        -- the character goes in front of the first line, whichever kind that is
        cases ih with
        | last _ hs => exact .last (by simp) (by simpa [hne] using hs)
        | cons hs hls => exact .cons (s := c :: _) (by simpa [hne] using hs) hls

/-- **Lines are the lines of the text they make up.** -/
theorem splitLines_flatten {ls : List Line} (h : IsLines ls) : splitLines ls.flatten = ls := by
  induction h with
  | nil => rfl
  | last hne hs => simpa using splitLines_of_notMem hne hs
  | cons hs _ ih =>
    rw [List.flatten_cons, List.append_assoc, List.singleton_append, splitLines_append_lf hs, ih]

theorem splitLines_append (s t : Text) :
    splitLines (s ++ '\n' :: t) = splitLines (s ++ ['\n']) ++ splitLines t := by
  induction s with
  | nil => simp [splitLines_lf_cons]
  | cons c s ih =>
    by_cases hc : c = '\n'
    · subst hc
      simp only [List.cons_append, splitLines_lf_cons, ih]
    · have hne : splitLines (s ++ ['\n']) ≠ [] := by
        intro h
        have := flatten_splitLines (s ++ ['\n'])
        simp [h] at this
      obtain ⟨l, ls, h⟩ := List.exists_cons_of_ne_nil hne
      have h' : splitLines (s ++ '\n' :: t) = l :: (ls ++ splitLines t) := by rw [ih, h]; rfl
      rw [List.cons_append, List.cons_append, splitLines_cons hc h', splitLines_cons hc h]
      rfl

theorem length_splitLines_append_lf (s : Text) :
    (splitLines (s ++ ['\n'])).length = s.count '\n' + 1 := by
  induction s with
  | nil => rfl
  | cons c s ih =>
    by_cases hc : c = '\n'
    · subst hc
      rw [List.cons_append, splitLines_lf_cons, List.length_cons, ih, List.count_cons_self]
    · obtain ⟨l, ls, h⟩ := List.exists_cons_of_length_eq_add_one ih
      rw [List.cons_append, splitLines_cons hc h, List.count_cons_of_ne hc, ← ih, h]
      rfl

theorem mem_of_mem_splitLines {t : Text} {l : Line} (hl : l ∈ splitLines t) {c : Char}
    (hc : c ∈ l) : c ∈ t := by
  rw [← flatten_splitLines t]
  exact List.mem_flatten.mpr ⟨l, hl, hc⟩

/-- **Splitting piece by piece.** If all pieces but the last end in a line feed, the lines of the
whole are the lines of the pieces. -/
theorem splitLines_flatten_eq_flatMap {ps : List Text}
    (h : ∀ i p, i + 1 < ps.length → ps[i]? = some p → p.getLast? = some '\n') :
    splitLines ps.flatten = ps.flatMap splitLines := by
  induction ps with
  | nil => rfl
  | cons p ps ih =>
    cases ps with
    | nil => simp
    | cons q qs =>
      have hp : p.getLast? = some '\n' := h 0 p (by simp) rfl
      obtain ⟨s, rfl⟩ := List.getLast?_eq_some_iff.mp hp
      have ih' := ih fun i p' hi hp' => h (i + 1) p' (by simp at hi ⊢; omega) (by simpa using hp')
      rw [List.flatten_cons, List.append_assoc, List.singleton_append, splitLines_append, ih']
      rfl

theorem splitLines_ne_nil {t : Text} (ht : t ≠ []) : splitLines t ≠ [] := by
  intro hnil
  rw [← flatten_splitLines t, hnil] at ht
  exact ht rfl

theorem splitLines_eq_singleton {t : Text} (h : (splitLines t).length = 1) :
    splitLines t = [t] := by
  obtain ⟨l, hl⟩ := List.length_eq_one_iff.mp h
  have ht := flatten_splitLines t
  rw [hl, List.flatten_singleton] at ht
  rw [hl, ht]

theorem length_le_length_flatMap_splitLines {ps : List Text} (hne : ∀ p ∈ ps, p ≠ []) :
    ps.length ≤ (ps.flatMap splitLines).length := by
  induction ps with
  | nil => exact Nat.le_refl _
  | cons p ps ih =>
    have hp := List.length_pos_iff.mpr (splitLines_ne_nil (hne p (by simp)))
    have hps := ih fun q hq => hne q (by simp [hq])
    rw [List.flatMap_cons, List.length_append, List.length_cons]
    omega

theorem flatMap_splitLines_eq_self {ps : List Text} (hne : ∀ p ∈ ps, p ≠ [])
    (hlen : (ps.flatMap splitLines).length ≤ ps.length) : ps.flatMap splitLines = ps := by
  induction ps with
  | nil => rfl
  | cons p ps ih =>
    have hp := List.length_pos_iff.mpr (splitLines_ne_nil (hne p (by simp)))
    have hne' : ∀ q ∈ ps, q ≠ [] := fun q hq => hne q (by simp [hq])
    have hps := length_le_length_flatMap_splitLines hne'
    rw [List.flatMap_cons, List.length_append, List.length_cons] at hlen
    rw [List.flatMap_cons, splitLines_eq_singleton (by omega), ih hne' (by omega)]
    rfl

namespace IsLines

theorem getLast?_eq {ls : List Line} (h : IsLines ls) {i : Nat} {l : Line} (hi : i + 1 < ls.length)
    (hl : ls[i]? = some l) : l.getLast? = some '\n' := by
  induction h generalizing i with
  | nil => simp at hi
  | last => simp at hi
  | cons _ _ ih =>
    cases i with
    | zero => simp at hl; simp [← hl]
    | succ i => exact ih (by simp at hi; omega) (by simpa using hl)

theorem splitLines_eq {ls : List Line} (h : IsLines ls) {l : Line} (hl : l ∈ ls) :
    splitLines l = [l] := by
  induction h with
  | nil => simp at hl
  | last hne hs =>
    rw [List.mem_singleton] at hl
    subst hl
    exact splitLines_of_notMem hne hs
  | cons hs _ ih =>
    rcases List.mem_cons.mp hl with rfl | hl
    · rw [splitLines_append_lf hs, splitLines_nil]
    · exact ih hl

theorem ne_nil {ls : List Line} (h : IsLines ls) {l : Line} (hl : l ∈ ls) : l ≠ [] := by
  rintro rfl
  have hself := h.splitLines_eq hl
  simp at hself

/-- **Lines are determined by their text and their number.** -/
theorem eq_of_flatten_eq {ls : List Line} (h : IsLines ls) {ps : List Text}
    (hends : ∀ i p, i + 1 < ps.length → ps[i]? = some p → p.getLast? = some '\n')
    (hne : ∀ p ∈ ps, p ≠ []) (hlen : ls.length ≤ ps.length) (hflat : ps.flatten = ls.flatten) :
    ps = ls := by
  have hsplit : ps.flatMap splitLines = ls := by
    rw [← splitLines_flatten_eq_flatMap hends, hflat, splitLines_flatten h]
  rw [← hsplit] at hlen ⊢
  exact (flatMap_splitLines_eq_self hne hlen).symm

end IsLines

/-! ### Lines by their line feeds -/

/-- No piece is empty, a line feed stands in a piece only at its end, and all pieces but the last
end in one. -/
structure CutAfterLf (ps : List Text) : Prop where
  ne_nil : ∀ p ∈ ps, p ≠ []
  lf_notMem : ∀ p ∈ ps, '\n' ∉ p.dropLast
  getLast?_eq : ∀ p ∈ ps.dropLast, p.getLast? = some '\n'

theorem IsLines.cutAfterLf {ls : List Line} (h : IsLines ls) : CutAfterLf ls := by
  induction h with
  | nil => exact ⟨by simp, by simp, by simp⟩
  | last hne hs =>
    refine ⟨by simpa using hne, fun p hp hmem => ?_, by simp⟩
    obtain rfl := List.mem_singleton.mp hp
    exact hs ((List.dropLast_sublist p).mem hmem)
  | @cons s ls hs hls ih =>
    refine ⟨fun p hp => ?_, fun p hp => ?_, fun p hp => ?_⟩
    · rcases List.mem_cons.mp hp with rfl | hp
      · simp
      · exact ih.ne_nil p hp
    · rcases List.mem_cons.mp hp with rfl | hp
      · simpa using hs
      · exact ih.lf_notMem p hp
    · cases ls with
      | nil => simp at hp
      | cons l ls =>
        rw [List.dropLast_cons_of_ne_nil (List.cons_ne_nil l ls)] at hp
        rcases List.mem_cons.mp hp with rfl | hp
        · simp
        · exact ih.getLast?_eq p hp

namespace CutAfterLf

variable {p : Text} {ps : List Text}

theorem tail (h : CutAfterLf (p :: ps)) : CutAfterLf ps := by
  refine ⟨fun q hq => h.ne_nil q (by simp [hq]), fun q hq => h.lf_notMem q (by simp [hq]),
    fun q hq => h.getLast?_eq q ?_⟩
  cases ps with
  | nil => simp at hq
  | cons p' ps =>
    rw [List.dropLast_cons_of_ne_nil (List.cons_ne_nil p' ps)]
    exact List.mem_cons_of_mem p hq

theorem eq_nil (h : CutAfterLf (p :: ps)) (hp : p.getLast? ≠ some '\n') : ps = [] := by
  cases ps with
  | nil => rfl
  | cons p' ps => exact absurd (h.getLast?_eq p (by simp)) hp

theorem isLines (h : CutAfterLf ps) : IsLines ps := by
  induction ps with
  | nil => exact .nil
  | cons p ps ih =>
    have hp : p.dropLast ++ [p.getLast (h.ne_nil p (by simp))] = p :=
      List.dropLast_concat_getLast _
    have hs : '\n' ∉ p.dropLast := h.lf_notMem p (by simp)
    generalize p.dropLast = s at hp hs
    generalize p.getLast _ = c at hp
    subst hp
    by_cases hc : c = '\n'
    · subst hc
      exact .cons hs (ih h.tail)
    · obtain rfl := h.eq_nil (by simpa using hc)
      exact .last (by simp) (by simpa [Ne.symm hc] using hs)

end CutAfterLf

/-- **Cutting into lines and putting together undo each other.** The lines of a text make it up, and
they are cut after its line feeds; pieces that are cut so are the lines of what they make up. -/
theorem splitLines_flatten_inverse :
    (∀ t, (splitLines t).flatten = t ∧ CutAfterLf (splitLines t)) ∧
    ∀ ps, CutAfterLf ps → splitLines ps.flatten = ps :=
  ⟨fun t => ⟨flatten_splitLines t, (isLines_splitLines t).cutAfterLf⟩,
    fun _ h => splitLines_flatten h.isLines⟩

/-- The theorem at an empty line between two others, of which the last one lacks its line feed. -/
theorem splitLines_flatten_inverse_unterminated :
    let pieces := ["a\r\n".toList, "\n".toList, "b\r".toList]
    CutAfterLf pieces ∧ splitLines "a\r\n\nb\r".toList = pieces ∧
    CutAfterLf (splitLines "a\r\n\nb\r".toList) := by
  intro pieces
  have hcut : CutAfterLf pieces := ⟨by decide, by decide, by decide⟩
  obtain ⟨hsplit, hjoin⟩ := splitLines_flatten_inverse
  exact ⟨hcut, hjoin pieces hcut, (hsplit _).2⟩

/-! ### Terminators -/

theorem lineEnding_append_crlf (s : Text) : lineEnding (s ++ ['\r', '\n']) = ['\r', '\n'] := by
  rw [lineEnding, if_pos (by simp)]

theorem lineEnding_append_singleton (s : Text) :
    lineEnding (s ++ ['\n']) = if s.getLast? = some '\r' then ['\r', '\n'] else ['\n'] := by
  have h : ['\r', '\n'].isSuffixOf (s ++ ['\n']) = true ↔ s.getLast? = some '\r' := by
    rw [List.isSuffixOf_iff_suffix, List.getLast?_eq_some_iff]
    constructor
    · rintro ⟨u, hu⟩
      refine ⟨u, ?_⟩
      have : (u ++ ['\r']) ++ ['\n'] = s ++ ['\n'] := by simpa using hu
      exact (List.append_cancel_right this).symm
    · rintro ⟨u, rfl⟩
      exact ⟨u, by simp⟩
  unfold lineEnding
  by_cases hs : s.getLast? = some '\r'
  · rw [if_pos (h.mpr hs), if_pos hs]
  · rw [if_neg fun h' => hs (h.mp h'), if_neg hs]

theorem lineEnding_eq_or (l : Line) : lineEnding l = ['\r', '\n'] ∨ lineEnding l = ['\n'] := by
  unfold lineEnding
  split
  · exact Or.inl rfl
  · exact Or.inr rfl

theorem lineEnding_eq_crlf_iff {l : Line} :
    lineEnding l = ['\r', '\n'] ↔ ['\r', '\n'] <:+ l := by
  rw [← List.isSuffixOf_iff_suffix, lineEnding]
  split
  · next h => simp [h]
  · next h => simp [h]

theorem exists_lineEnding_eq (l : Line) : ∃ s, '\n' ∉ s ∧ lineEnding l = s ++ ['\n'] := by
  rcases lineEnding_eq_or l with h | h
  · exact ⟨['\r'], by simp, by simp [h]⟩
  · exact ⟨[], by simp, by simp [h]⟩

/-- **A line that takes over a terminator keeps it**, unless what stands before the terminator ends
in a carriage return, which then counts as part of it. -/
theorem lineEnding_append_lineEnding (s : Text) (l : Line) :
    lineEnding (s ++ lineEnding l) = lineEnding l ↔
      s.getLast? ≠ some '\r' ∨ lineEnding l = ['\r', '\n'] := by
  rcases lineEnding_eq_or l with h | h
  · simp [h, lineEnding_append_crlf]
  · rw [h, lineEnding_append_singleton]
    split <;> simp_all

end IncludeGuard
