import IncludeGuard.Directive
import IncludeGuard.Proofs.Lines
import Mathlib.Data.List.Basic
import Mathlib.Data.List.TakeWhile

/-! # What directive lines read

The readers of `Directive` are described by the lines they accept: `nameAfter?_eq_some_iff`,
`endifName?_eq_some_iff` and `isEndif_iff` say that a line is the keyword, blanks, a name and blanks
again. This rests on the two classes of characters being disjoint (`isBlank_eq_false_of_isWord`).

No line is read by two of the readers, so a line has a kind, `kind?`, or none. A line that is
written by `Directive.line` is read back as the name that stands alone in what was written
(`name?_line`), and is then of the kind that was written (`kind?_line`). -/

namespace IncludeGuard

namespace Text

/-- The text is made of blanks alone. -/
def AllBlank (t : Text) : Prop :=
  ∀ c ∈ t, isBlank c = true

/-- The text is a non-empty text of word characters, as the names on anchors are. -/
def IsMacroName (t : Text) : Prop :=
  t ≠ [] ∧ ∀ c ∈ t, isWord c = true

instance (t : Text) : Decidable t.AllBlank :=
  List.decidableBAll (fun c => isBlank c = true) t

instance (t : Text) : Decidable t.IsMacroName :=
  @instDecidableAnd (t ≠ []) (∀ c ∈ t, isWord c = true) inferInstance
    (List.decidableBAll (fun c => isWord c = true) t)

/-! ### Blanks and word characters -/

theorem blankRanges_disjoint : ∀ r ∈ blankRanges, ∀ s ∈ asciiWordRanges ++ wideWordRanges,
    r.2 < s.1 ∨ s.2 < r.1 := by
  decide +kernel

theorem isBlank_eq_false_of_isWord {c : Char} (h : isWord c = true) : isBlank c = false := by
  have hw : inRanges (asciiWordRanges ++ wideWordRanges) c.toNat = true := by
    unfold isWord at h
    unfold inRanges at h ⊢
    rw [List.any_append, Bool.or_eq_true]
    split at h
    · exact Or.inl h
    · exact Or.inr h
  obtain ⟨s, hs, hs1, hs2⟩ := inRanges_eq_true_iff.mp hw
  rw [Bool.eq_false_iff]
  intro hb
  obtain ⟨r, hr, hr1, hr2⟩ := inRanges_eq_true_iff.mp hb
  have := blankRanges_disjoint r hr s hs
  omega

theorem isWord_eq_false_of_isBlank {c : Char} (h : isBlank c = true) : isWord c = false := by
  rw [Bool.eq_false_iff]
  intro hw
  rw [isBlank_eq_false_of_isWord hw] at h
  exact absurd h (by decide)

theorem allBlank_append {s t : Text} : (s ++ t).AllBlank ↔ s.AllBlank ∧ t.AllBlank := by
  simp [AllBlank, or_imp, forall_and]

theorem allBlank_lineEnding (l : Line) : (lineEnding l).AllBlank := by
  rcases lineEnding_eq_or l with h | h <;> rw [h] <;> decide

theorem allBlank_takeWhile (t : Text) : AllBlank (t.takeWhile isBlank) :=
  fun _ hc => List.mem_takeWhile_imp hc

theorem takeWhile_isWord_of_allBlank {w : Text} (hw : w.AllBlank) : w.takeWhile isWord = [] := by
  cases w with
  | nil => rfl
  | cons c w =>
    have hc := isWord_eq_false_of_isBlank (hw c (by simp))
    simp [hc]

theorem dropWhile_isWord_of_allBlank {w : Text} (hw : w.AllBlank) : w.dropWhile isWord = w := by
  cases w with
  | nil => rfl
  | cons c w =>
    have hc := isWord_eq_false_of_isBlank (hw c (by simp))
    simp [hc]

theorem dropWhile_isBlank_append {w n : Text} (hw : w.AllBlank) (hn : n.IsMacroName) (t : Text) :
    (w ++ n ++ t).dropWhile isBlank = n ++ t := by
  rw [List.append_assoc, List.dropWhile_append_of_pos hw]
  obtain ⟨c, n', rfl⟩ := List.exists_cons_of_ne_nil hn.1
  have hc := isBlank_eq_false_of_isWord (hn.2 c (by simp))
  simp [hc]

theorem IsMacroName.lf_notMem {n : Text} (h : n.IsMacroName) : '\n' ∉ n := by
  intro hm
  exact absurd (h.2 _ hm) (by decide)

theorem IsMacroName.getLast?_ne_cr {n : Text} (h : n.IsMacroName) : n.getLast? ≠ some '\r' := by
  intro hm
  exact absurd (h.2 _ (List.mem_of_getLast? hm)) (by decide)

end Text

namespace Directive

open Text

/-! ### Names alone in a text -/

/-- The name that stands alone between blanks. -/
def soleName? (t : Text) : Option Text :=
  loneName? (t.dropWhile isBlank)

theorem loneName?_eq_some_iff {t n : Text} :
    loneName? t = some n ↔ n.IsMacroName ∧ ∃ w, AllBlank w ∧ t = n ++ w := by
  have hsplit : t.takeWhile isWord ++ t.dropWhile isWord = t := List.takeWhile_append_dropWhile
  unfold loneName?
  constructor
  · intro h
    dsimp only at h
    split at h
    · simp at h
    · next hne =>
      split at h
      · next hall =>
        cases h
        exact ⟨⟨hne, fun c hc => List.mem_takeWhile_imp hc⟩, t.dropWhile isWord,
          by simpa [AllBlank] using hall, hsplit.symm⟩
      · simp at h
  · rintro ⟨⟨hne, hn⟩, w, hw, rfl⟩
    have h1 : (n ++ w).takeWhile isWord = n := by
      rw [List.takeWhile_append_of_pos hn, takeWhile_isWord_of_allBlank hw, List.append_nil]
    have h2 : (n ++ w).dropWhile isWord = w := by
      rw [List.dropWhile_append_of_pos hn, dropWhile_isWord_of_allBlank hw]
    dsimp only
    rw [h1, h2, if_neg hne, if_pos (by simpa [AllBlank] using hw)]

theorem soleName?_eq_some_iff {t n : Text} : soleName? t = some n ↔
    n.IsMacroName ∧ ∃ w w', AllBlank w ∧ AllBlank w' ∧ t = w ++ n ++ w' := by
  unfold soleName?
  rw [loneName?_eq_some_iff]
  constructor
  · rintro ⟨hn, w', hw', h⟩
    refine ⟨hn, t.takeWhile isBlank, w', allBlank_takeWhile t, hw', ?_⟩
    rw [List.append_assoc, ← h, List.takeWhile_append_dropWhile]
  · rintro ⟨hn, w, w', hw, hw', rfl⟩
    exact ⟨hn, w', hw', dropWhile_isBlank_append hw hn w'⟩

theorem soleName?_of_isMacroName {n : Text} (h : n.IsMacroName) : soleName? n = some n :=
  soleName?_eq_some_iff.mpr ⟨h, [], [], by simp [AllBlank], by simp [AllBlank], by simp⟩

theorem soleName?_append {t w : Text} (hw : w.AllBlank) : soleName? (t ++ w) = soleName? t := by
  ext n
  rw [soleName?_eq_some_iff, soleName?_eq_some_iff]
  constructor
  · rintro ⟨hn, u, u', hu, hu', h⟩
    refine ⟨hn, ?_⟩
    rcases List.append_eq_append_iff.mp h with ⟨v, hv, rfl⟩ | ⟨v, rfl, rfl⟩
    · -- a blank at the end of the name would be in both classes
      rcases List.eq_nil_or_concat v with rfl | ⟨v, c, rfl⟩
      · exact ⟨u, [], hu, by simp [AllBlank], by simpa using hv.symm⟩
      · have hc : n.getLast? = some c := by
          have : (u ++ n).getLast? = some c := by rw [hv]; simp
          rwa [List.getLast?_append_of_ne_nil _ hn.1] at this
        have hb := isBlank_eq_false_of_isWord (hn.2 c (List.mem_of_getLast? hc))
        rw [hw c (by simp)] at hb
        exact absurd hb (by decide)
    · exact ⟨u, v, hu, (allBlank_append.mp hu').1, rfl⟩
  · rintro ⟨hn, u, u', hu, hu', rfl⟩
    exact ⟨hn, u, u' ++ w, hu, allBlank_append.mpr ⟨hu', hw⟩, by simp⟩

/-! ### The readers -/

theorem nameAfter?_append_cons (keyword : Text) {c : Char} (hc : isBlank c = true) (t : Text) :
    nameAfter? keyword (keyword ++ c :: t) = soleName? t := by
  have h : keyword.isPrefixOf? (keyword ++ c :: t) = some (c :: t) :=
    List.isPrefixOf?_eq_some_iff_append_eq.mpr rfl
  unfold nameAfter?
  rw [h]
  simp only [hc, if_true]
  rfl

/-- **Lines with a name after a keyword.** -/
theorem nameAfter?_eq_some_iff {keyword n : Text} {l : Line} :
    nameAfter? keyword l = some n ↔ n.IsMacroName ∧
      ∃ w w', w ≠ [] ∧ AllBlank w ∧ AllBlank w' ∧ l = keyword ++ w ++ n ++ w' := by
  constructor
  · intro h
    unfold nameAfter? at h
    split at h
    · simp at h
    · simp at h
    · next c rest hk =>
      have hl : keyword ++ c :: rest = l := List.isPrefixOf?_eq_some_iff_append_eq.mp hk
      split at h
      · next hc =>
        obtain ⟨hn, w, w', hw, hw', rfl⟩ := soleName?_eq_some_iff.mp h
        refine ⟨hn, c :: w, w', by simp, ?_, hw', by rw [← hl]; simp⟩
        intro d hd
        rcases List.mem_cons.mp hd with rfl | hd
        · exact hc
        · exact hw d hd
      · simp at h
  · rintro ⟨hn, w, w', hne, hw, hw', rfl⟩
    obtain ⟨c, w, rfl⟩ := List.exists_cons_of_ne_nil hne
    have hl : keyword ++ c :: w ++ n ++ w' = keyword ++ c :: (w ++ n ++ w') := by simp
    rw [hl, nameAfter?_append_cons keyword (hw c (by simp)), soleName?_eq_some_iff]
    exact ⟨hn, w, w', fun d hd => hw d (by simp [hd]), hw', rfl⟩

theorem endifName?_append (w : Text) (hw : w.AllBlank) (t : Text) :
    endifName? ("#endif".toList ++ w ++ "//".toList ++ t) = soleName? t := by
  have h : "#endif".toList.isPrefixOf? ("#endif".toList ++ w ++ "//".toList ++ t) =
      some (w ++ "//".toList ++ t) :=
    List.isPrefixOf?_eq_some_iff_append_eq.mpr (by simp)
  have hd : (w ++ "//".toList ++ t).dropWhile isBlank = "//".toList ++ t := by
    rw [List.append_assoc, List.dropWhile_append_of_pos hw]
    have : isBlank '/' = false := by decide
    simp [this]
  have h' : "//".toList.isPrefixOf? ("//".toList ++ t) = some t :=
    List.isPrefixOf?_eq_some_iff_append_eq.mpr rfl
  unfold endifName?
  rw [h]
  dsimp only
  rw [hd, h']
  rfl

/-- **Closing lines with a name alone in their comment.** -/
theorem endifName?_eq_some_iff {n : Text} {l : Line} :
    endifName? l = some n ↔ n.IsMacroName ∧ ∃ w w' w'', AllBlank w ∧ AllBlank w' ∧ AllBlank w'' ∧
      l = "#endif".toList ++ w ++ "//".toList ++ w' ++ n ++ w'' := by
  constructor
  · intro h
    unfold endifName? at h
    split at h
    · simp at h
    · next rest hk =>
      have hl : "#endif".toList ++ rest = l := List.isPrefixOf?_eq_some_iff_append_eq.mp hk
      split at h
      · simp at h
      · next comment hc =>
        have hr : "//".toList ++ comment = rest.dropWhile isBlank :=
          List.isPrefixOf?_eq_some_iff_append_eq.mp hc
        obtain ⟨hn, w', w'', hw', hw'', rfl⟩ := soleName?_eq_some_iff.mp h
        have hsplit : rest.takeWhile isBlank ++ rest.dropWhile isBlank = rest :=
          List.takeWhile_append_dropWhile
        refine ⟨hn, rest.takeWhile isBlank, w', w'', allBlank_takeWhile rest, hw', hw'', ?_⟩
        rw [← hr] at hsplit
        rw [← hl]
        nth_rewrite 1 [← hsplit]
        simp
  · rintro ⟨hn, w, w', w'', hw, hw', hw'', rfl⟩
    have hl : "#endif".toList ++ w ++ "//".toList ++ w' ++ n ++ w'' =
        "#endif".toList ++ w ++ "//".toList ++ (w' ++ n ++ w'') := by simp
    rw [hl, endifName?_append w hw, soleName?_eq_some_iff]
    exact ⟨hn, w', w'', hw', hw'', rfl⟩

/-- **Closing lines.** -/
theorem isEndif_iff {l : Line} :
    isEndif l = true ↔ ∃ w rest, AllBlank w ∧ l = w ++ "#endif".toList ++ rest := by
  unfold isEndif
  rw [List.isPrefixOf_iff_prefix]
  constructor
  · rintro ⟨rest, h⟩
    refine ⟨l.takeWhile isBlank, rest, allBlank_takeWhile l, ?_⟩
    rw [List.append_assoc, h, List.takeWhile_append_dropWhile]
  · rintro ⟨w, rest, hw, rfl⟩
    refine ⟨rest, ?_⟩
    rw [List.append_assoc, List.dropWhile_append_of_pos hw]
    have : isBlank '#' = false := by decide
    simp [this]

/-! ### The kind of a line -/

/-- The line is a line of the directive. A closing line need not have a name. -/
def accepts : Directive → Line → Bool
  | ifndef, l => (ifndefName? l).isSome
  | define, l => (defineName? l).isSome
  | endif, l => isEndif l

/-- The directive whose line it is. -/
def kind? (l : Line) : Option Directive :=
  [ifndef, define, endif].find? (·.accepts l)

/-- The letter by which a directive is told from the others. -/
def initial : Directive → Char
  | ifndef => 'i'
  | define => 'd'
  | endif => 'e'

theorem initial_injective {d d' : Directive} (h : d.initial = d'.initial) : d = d' := by
  cases d <;> cases d' <;> first | rfl | exact absurd h (by decide)

theorem dropWhile_isBlank_hash (t : Text) : ('#' :: t).dropWhile isBlank = '#' :: t := by
  have : isBlank '#' = false := by decide
  simp [this]

theorem exists_eq_append_of_nameAfter? {keyword : Text} {l : Line}
    (h : (nameAfter? keyword l).isSome) : ∃ t, l = keyword ++ t := by
  obtain ⟨n, hn⟩ := Option.isSome_iff_exists.mp h
  obtain ⟨-, w, w', -, -, -, rfl⟩ := nameAfter?_eq_some_iff.mp hn
  exact ⟨w ++ n ++ w', by simp⟩

theorem exists_dropWhile_of_accepts {d : Directive} {l : Line} (h : d.accepts l = true) :
    ∃ t, l.dropWhile isBlank = '#' :: d.initial :: t := by
  cases d with
  | ifndef =>
    obtain ⟨t, rfl⟩ := exists_eq_append_of_nameAfter? h
    exact ⟨"fndef".toList ++ t, dropWhile_isBlank_hash _⟩
  | define =>
    obtain ⟨t, rfl⟩ := exists_eq_append_of_nameAfter? h
    exact ⟨"efine".toList ++ t, dropWhile_isBlank_hash _⟩
  | endif =>
    obtain ⟨w, t, hw, rfl⟩ := isEndif_iff.mp h
    refine ⟨"ndif".toList ++ t, ?_⟩
    rw [List.append_assoc, List.dropWhile_append_of_pos hw]
    exact dropWhile_isBlank_hash _

/-- **No line is a line of two directives.** -/
theorem eq_of_accepts {d d' : Directive} {l : Line} (h : d.accepts l = true)
    (h' : d'.accepts l = true) : d = d' := by
  obtain ⟨t, ht⟩ := exists_dropWhile_of_accepts h
  obtain ⟨t', ht'⟩ := exists_dropWhile_of_accepts h'
  rw [ht] at ht'
  have hi : d.initial = d'.initial := by
    simp at ht'
    exact ht'.1
  exact initial_injective hi

theorem kind?_eq_some_iff {d : Directive} {l : Line} : kind? l = some d ↔ d.accepts l = true := by
  unfold kind?
  constructor
  · intro h
    exact List.find?_some (p := fun d : Directive => d.accepts l) h
  · intro h
    obtain ⟨d', hd'⟩ : ∃ d', [ifndef, define, endif].find? (·.accepts l) = some d' := by
      rw [← Option.isSome_iff_exists, List.find?_isSome]
      exact ⟨d, by cases d <;> simp, h⟩
    have hacc := List.find?_some (p := fun d : Directive => d.accepts l) hd'
    rw [hd', eq_of_accepts hacc h]

/-! ### Reading what was written -/

/-- The reader of the name of each directive. -/
def name? : Directive → Line → Option Text
  | ifndef => ifndefName?
  | define => defineName?
  | endif => endifName?

theorem accepts_of_name? {d : Directive} {n : Text} {l : Line} (h : d.name? l = some n) :
    d.accepts l = true := by
  cases d with
  | ifndef => exact Option.isSome_iff_exists.mpr ⟨n, h⟩
  | define => exact Option.isSome_iff_exists.mpr ⟨n, h⟩
  | endif =>
    obtain ⟨-, w, w', w'', -, -, -, rfl⟩ := endifName?_eq_some_iff.mp h
    refine isEndif_iff.mpr ⟨[], w ++ "//".toList ++ w' ++ n ++ w'', by simp [AllBlank], ?_⟩
    simp only [List.nil_append, List.append_assoc]

theorem accepts_iff_exists_name? {d : Directive} (hd : d ≠ endif) {l : Line} :
    d.accepts l = true ↔ ∃ n, d.name? l = some n := by
  cases d with
  | ifndef => exact Option.isSome_iff_exists
  | define => exact Option.isSome_iff_exists
  | endif => exact absurd rfl hd

theorem name?_eq_none {d d' : Directive} {l : Line} (h : d'.accepts l = true) (hne : d ≠ d') :
    d.name? l = none := by
  rw [Option.eq_none_iff_forall_ne_some]
  intro n hn
  exact hne (eq_of_accepts (accepts_of_name? hn) h)

theorem soleName?_space_cons (t : Text) : soleName? (' ' :: t) = soleName? t := by
  have : isBlank ' ' = true := by decide
  simp [soleName?, this]

theorem exists_line_eq (d : Directive) (e ending : Text) :
    ∃ t, d.line e ending = '#' :: d.initial :: t := by
  cases d with
  | ifndef => exact ⟨_, rfl⟩
  | define => exact ⟨_, rfl⟩
  | endif => exact ⟨_, rfl⟩

/-- **A written line is read back** as the name that stands alone in what was written. -/
theorem name?_line (d : Directive) (e : Text) {ending : Text} (h : ending.AllBlank) :
    d.name? (d.line e ending) = soleName? e := by
  rw [← soleName?_append h]
  cases d with
  | ifndef =>
    rw [ifndef_line, List.append_assoc, List.cons_append]
    exact nameAfter?_append_cons "#ifndef".toList (c := ' ') (by decide) (e ++ ending)
  | define =>
    rw [define_line, List.append_assoc, List.cons_append]
    exact nameAfter?_append_cons "#define".toList (c := ' ') (by decide) (e ++ ending)
  | endif =>
    have hl : endif.line e ending =
        "#endif".toList ++ [' '] ++ "//".toList ++ ' ' :: (e ++ ending) := by
      rw [endif_line]
      simp
    rw [hl, ← soleName?_space_cons]
    exact endifName?_append [' '] (by decide) (' ' :: (e ++ ending))

theorem accepts_line_iff (d : Directive) (e : Text) {ending : Text} (h : ending.AllBlank) :
    d.accepts (d.line e ending) = true ↔ d = .endif ∨ (soleName? e).isSome := by
  have hn := name?_line d e h
  cases d with
  | ifndef => rw [← hn]; simp [accepts, name?]
  | define => rw [← hn]; simp [accepts, name?]
  | endif =>
    have : isEndif (endif.line e ending) = true :=
      isEndif_iff.mpr ⟨[], " //".toList ++ ' ' :: e ++ ending, by simp [AllBlank], by
        rw [endif_line]
        simp⟩
    simpa [accepts] using this

/-- **The kind of a written line** is what was written, or none if the name is not read back. A
closing line is one whatever its comment says. -/
theorem kind?_line (d : Directive) (e : Text) {ending : Text} (h : ending.AllBlank) :
    kind? (d.line e ending) =
      if d = .endif ∨ (soleName? e).isSome then some d else none := by
  split_ifs with hd
  · exact kind?_eq_some_iff.mpr ((accepts_line_iff d e h).mpr hd)
  · rw [Option.eq_none_iff_forall_ne_some]
    intro d' hd'
    -- the line starts like a line of `d`, so it can be no other
    obtain ⟨t, ht⟩ := exists_dropWhile_of_accepts (kind?_eq_some_iff.mp hd')
    obtain ⟨t', ht'⟩ := exists_line_eq d e ending
    rw [ht', dropWhile_isBlank_hash] at ht
    have hi : d.initial = d'.initial := by
      simp at ht
      exact ht.1
    have hdd : d = d' := initial_injective hi
    rw [← hdd] at hd'
    exact hd ((accepts_line_iff d e h).mp (kind?_eq_some_iff.mp hd'))

end Directive

end IncludeGuard
