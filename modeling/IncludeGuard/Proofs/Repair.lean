import IncludeGuard.Proofs.Scan

/-! # What a repair writes

`rewritten` gives every anchor of a header its canonical line and leaves the other lines alone. A
repair is exactly that (`repair?_eq`): it gives nothing if there is no guard or if no line changes,
and otherwise the text of the rewritten lines. Searching the stale anchors in a list of numbered
replacements therefore never meets two replacements for one line. What rewriting does to the lines
is what it does to the anchors (`map_rewritten_eq_iff`). -/

namespace IncludeGuard

open Directive Scan

/-- The directive whose anchor line `x` is. -/
def anchorAt? (lines : List Line) (x : Nat) : Option Directive :=
  (kindAt? lines x).filter fun d => (scan lines).indexOf? d = some x

/-- A line in its canonical form, if it is the anchor of a directive. -/
def rewriteLine (e : Text) : Option Directive → Line → Line
  | some d, l => d.line e (lineEnding l)
  | none, l => l

/-- The lines of a header with every anchor in its canonical form. -/
def rewritten (lines : List Line) (e : Text) : List Line :=
  lines.mapIdx fun x l => rewriteLine e (anchorAt? lines x) l

theorem anchorAt?_eq_some_iff {lines : List Line} {x : Nat} {d : Directive} :
    anchorAt? lines x = some d ↔ (scan lines).indexOf? d = some x := by
  unfold anchorAt?
  rw [Option.filter_eq_some_iff]
  constructor
  · rintro ⟨-, h⟩
    exact of_decide_eq_true h
  · intro h
    exact ⟨kindAt?_of_indexOf? h, decide_eq_true h⟩

@[simp] theorem length_rewritten (lines : List Line) (e : Text) :
    (rewritten lines e).length = lines.length := by
  simp [rewritten]

theorem getElem?_rewritten (lines : List Line) (e : Text) (x : Nat) :
    (rewritten lines e)[x]? = lines[x]?.map (rewriteLine e (anchorAt? lines x)) := by
  simp [rewritten]

theorem getElem?_rewritten_of_indexOf? {lines : List Line} {e : Text} {d : Directive} {x : Nat}
    (hd : (scan lines).indexOf? d = some x) {l : Line} (hl : lines[x]? = some l) :
    (rewritten lines e)[x]? = some (d.line e (lineEnding l)) := by
  rw [getElem?_rewritten, anchorAt?_eq_some_iff.mpr hd, hl]
  rfl

/-- **Rewriting keeps a feature of the lines** exactly if it keeps that of the anchors. -/
theorem map_rewritten_eq_iff {β : Type} (f : Line → β) {lines : List Line} {e : Text} :
    (rewritten lines e).map f = lines.map f ↔ ∀ d x l, (scan lines).indexOf? d = some x →
      lines[x]? = some l → f (d.line e (lineEnding l)) = f l := by
  constructor
  · intro h d x l hd hl
    have hx : ((rewritten lines e).map f)[x]? = (lines.map f)[x]? := by rw [h]
    rw [List.getElem?_map, List.getElem?_map, getElem?_rewritten_of_indexOf? hd hl, hl] at hx
    exact Option.some.inj hx
  · intro h
    refine List.ext_getElem? fun x => ?_
    rw [List.getElem?_map, List.getElem?_map, getElem?_rewritten]
    rcases hl : lines[x]? with _ | l
    · rfl
    · rcases hd : anchorAt? lines x with _ | d
      · rfl
      · simp only [Option.map_some, rewriteLine, h d x l (anchorAt?_eq_some_iff.mp hd) hl]

theorem rewritten_eq_iff {lines : List Line} {e : Text} : rewritten lines e = lines ↔
    ∀ d x l, (scan lines).indexOf? d = some x → lines[x]? = some l →
      d.line e (lineEnding l) = l := by
  have h : (rewritten lines e).map id = lines.map id ↔ _ := map_rewritten_eq_iff id
  rwa [List.map_id, List.map_id] at h

/-! ### The list of replacements -/

theorem lookup_eq_of_forall (f : Nat → Line) {rs : List (Nat × Line)} (h : ∀ r ∈ rs, r.2 = f r.1)
    (x : Nat) : rs.lookup x = if x ∈ rs.map (·.1) then some (f x) else none := by
  induction rs with
  | nil => simp
  | cons r rs ih =>
    have ih' := ih fun r' hr' => h r' (by simp [hr'])
    obtain ⟨k, w⟩ := r
    by_cases hx : x = k
    · have hw : w = f x := by rw [hx]; exact h (k, w) (by simp)
      simp [hx, hw]
    · have hne : (x == k) = false := by simpa using hx
      have hlookup : ((k, w) :: rs).lookup x = rs.lookup x := by rw [List.lookup_cons, hne]
      have hmem : x ∈ ((k, w) :: rs).map (·.1) ↔ x ∈ rs.map (·.1) := by simp [hx]
      rw [hlookup, ih']
      exact (if_congr hmem rfl rfl).symm

section Replacements
variable {lines : List Line} {e : Text} {a b : Anchor}

theorem mem_canonicalLines_iff (ha : (scan lines).ifndef = some a)
    (hb : (scan lines).define = some b) {r : Nat × Line} :
    r ∈ canonicalLines lines e a.index b.index (scan lines).endif ↔
      ∃ d, (scan lines).indexOf? d = some r.1 ∧
        r.2 = d.line e (lineEnding (lines.getD r.1 [])) := by
  have hi : (scan lines).indexOf? .ifndef = some a.index := by simp [indexOf?, ha]
  have hd : (scan lines).indexOf? .define = some b.index := by simp [indexOf?, hb]
  have he : (scan lines).indexOf? .endif = (scan lines).endif := rfl
  obtain ⟨x, w⟩ := r
  simp only [canonicalLines, canonicalLine, List.mem_cons, Prod.mk.injEq, Option.mem_toList,
    Option.map_eq_some_iff]
  constructor
  · rintro (⟨rfl, rfl⟩ | ⟨rfl, rfl⟩ | ⟨z, hz, rfl, rfl⟩)
    · exact ⟨.ifndef, hi, rfl⟩
    · exact ⟨.define, hd, rfl⟩
    · exact ⟨.endif, hz, rfl⟩
  · rintro ⟨d, hx, rfl⟩
    cases d with
    | ifndef => rw [hi] at hx; cases hx; exact Or.inl ⟨rfl, rfl⟩
    | define => rw [hd] at hx; cases hx; exact Or.inr (Or.inl ⟨rfl, rfl⟩)
    | endif => exact Or.inr (Or.inr ⟨x, hx, rfl, rfl⟩)

/-- The replacements of the lines that are not canonical yet. -/
def staleLines (lines : List Line) (e : Text) (a b : Anchor) : List (Nat × Line) :=
  (canonicalLines lines e a.index b.index (scan lines).endif).filter
    fun r => lines.getD r.1 [] != r.2

theorem mem_staleLines_iff (ha : (scan lines).ifndef = some a) (hb : (scan lines).define = some b)
    {r : Nat × Line} : r ∈ staleLines lines e a b ↔
      ∃ d, anchorAt? lines r.1 = some d ∧ r.2 = d.line e (lineEnding (lines.getD r.1 [])) ∧
        lines.getD r.1 [] ≠ r.2 := by
  unfold staleLines
  rw [List.mem_filter, mem_canonicalLines_iff ha hb]
  simp only [anchorAt?_eq_some_iff, bne_iff_ne]
  constructor
  · rintro ⟨⟨d, hd, hr⟩, hne⟩
    exact ⟨d, hd, hr, hne⟩
  · rintro ⟨d, hd, hr, hne⟩
    exact ⟨⟨d, hd, hr⟩, hne⟩

theorem replaceLines_staleLines (ha : (scan lines).ifndef = some a)
    (hb : (scan lines).define = some b) :
    replaceLines (staleLines lines e a b) lines = rewritten lines e := by
  refine List.ext_getElem? fun x => ?_
  rw [getElem?_rewritten, replaceLines, List.getElem?_mapIdx]
  rcases hx : lines[x]? with _ | l
  · rfl
  · have hl : lines.getD x [] = l := by simp [List.getD_eq_getElem?_getD, hx]
    have hgraph : ∀ r ∈ staleLines lines e a b,
        r.2 = rewriteLine e (anchorAt? lines r.1) (lines.getD r.1 []) := by
      intro r hr
      obtain ⟨d, hd, hr2, -⟩ := (mem_staleLines_iff ha hb).mp hr
      rw [hd]
      exact hr2
    rw [Option.map_some, Option.map_some, lookup_eq_of_forall
      (fun x => rewriteLine e (anchorAt? lines x) (lines.getD x [])) hgraph x, hl]
    split_ifs with hmem
    · rfl
    · -- a line without a replacement is no anchor, or is canonical already
      rw [Option.getD_none]
      rcases hd : anchorAt? lines x with _ | d
      · rfl
      · by_contra hne
        refine hmem (List.mem_map.mpr ⟨(x, d.line e (lineEnding l)), ?_, rfl⟩)
        refine (mem_staleLines_iff ha hb).mpr ⟨d, hd, by rw [hl], ?_⟩
        rw [hl]
        exact fun h => hne (congrArg some h)

theorem staleLines_eq_nil_iff (ha : (scan lines).ifndef = some a)
    (hb : (scan lines).define = some b) :
    staleLines lines e a b = [] ↔ rewritten lines e = lines := by
  constructor
  · intro h
    rw [← replaceLines_staleLines ha hb, h]
    refine List.ext_getElem? fun x => ?_
    simp [replaceLines]
  · intro h
    rw [List.eq_nil_iff_forall_not_mem]
    intro r hr
    obtain ⟨d, hd, hr2, hne⟩ := (mem_staleLines_iff ha hb).mp hr
    rw [anchorAt?_eq_some_iff] at hd
    obtain ⟨l, hl⟩ := exists_getElem?_of_indexOf? hd
    have hgetD : lines.getD r.1 [] = l := by simp [List.getD_eq_getElem?_getD, hl]
    rw [hgetD] at hr2 hne
    exact hne (by rw [hr2, rewritten_eq_iff.mp h d r.1 l hd hl])

end Replacements

/-- **A repair gives the rewritten lines**, if there is a guard and some line changes. -/
theorem repair?_eq (lines : List Line) (e : Text) : repair? lines e =
    if (scan lines).hasGuard = true ∧ rewritten lines e ≠ lines then
      some (rewritten lines e).flatten else none := by
  unfold repair?
  dsimp only
  split
  · next a b ha hb =>
    have hguard : (scan lines).hasGuard = true := by simp [hasGuard, ha, hb]
    have hstale := staleLines_eq_nil_iff (e := e) ha hb
    have hreplace := replaceLines_staleLines (e := e) ha hb
    unfold staleLines at hstale hreplace
    rw [hreplace]
    by_cases h : rewritten lines e = lines
    · rw [if_pos (hstale.mpr h), if_neg (by simp [h])]
    · rw [if_neg fun h' => h (hstale.mp h'), if_pos ⟨hguard, h⟩]
  · next hnot =>
    have hguard : ¬ (scan lines).hasGuard = true := by
      intro h
      simp only [hasGuard, Bool.and_eq_true, Option.isSome_iff_exists] at h
      obtain ⟨⟨a, ha⟩, b, hb⟩ := h
      exact hnot a b ha hb
    rw [if_neg fun h => hguard h.1]

theorem repair?_eq_some_iff {lines : List Line} {e t : Text} : repair? lines e = some t ↔
    (scan lines).hasGuard = true ∧ rewritten lines e ≠ lines ∧
      t = (rewritten lines e).flatten := by
  rw [repair?_eq]
  split_ifs with h
  · simp [h, eq_comm]
  · simp only [false_iff]
    exact fun ⟨h1, h2, _⟩ => h ⟨h1, h2⟩

theorem repair?_eq_none_iff {lines : List Line} {e : Text} : repair? lines e = none ↔
    ((scan lines).hasGuard = true → rewritten lines e = lines) := by
  rw [repair?_eq]
  split_ifs with h
  · simp [h]
  · simp only [true_iff]
    intro hguard
    by_contra hne
    exact h ⟨hguard, hne⟩

end IncludeGuard
