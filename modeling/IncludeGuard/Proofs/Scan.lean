import IncludeGuard.Proofs.Directive
import IncludeGuard.Guard
import Mathlib.Data.List.Induction
import Mathlib.Data.Nat.Find

/-! # What a scan finds

A scan is described by the kinds of the lines (`kindAt?`). The search for the opening anchors comes
to a line if it lies in the window and no `#define` line stands before it (`Searched`). The anchors
are then

* the `#define` line that the search comes to (`indexOf?_define_iff`),
* the last `#ifndef` line that it comes to (`indexOf?_ifndef_iff`),
* the last `#endif` line of all (`indexOf?_endif_iff`).

So the places of the anchors depend on the kinds of the lines alone (`indexOf?_congr`). The names
are those on the lines (`ifndef_eq`, `define_eq`, `endifName_eq`). There is a guard if an `#ifndef`
line stands before the first `#define` line in the window (`hasGuard_iff_exists`), and it agrees
with a name if each directive has an anchor with that name (`agrees_iff`). -/

namespace IncludeGuard

open Directive

/-- The kind of line `x`. -/
def kindAt? (lines : List Line) (x : Nat) : Option Directive :=
  lines[x]?.bind kind?

/-- The name on line `x`, read as a line of the directive. -/
def nameAt? (d : Directive) (lines : List Line) (x : Nat) : Option Text :=
  lines[x]?.bind d.name?

/-- No `#define` line stands before line `x`. -/
def NoDefineBefore (lines : List Line) (x : Nat) : Prop :=
  ∀ y < x, kindAt? lines y ≠ some .define

/-- The search for the opening anchors comes to line `x`. -/
def Searched (lines : List Line) (x : Nat) : Prop :=
  x < scanWindow ∧ NoDefineBefore lines x

/-- Where the anchor of a directive stands. -/
def Scan.indexOf? (s : Scan) : Directive → Option Nat
  | .ifndef => s.ifndef.map (·.index)
  | .define => s.define.map (·.index)
  | .endif => s.endif

/-! ### The opening anchors -/

theorem join_getElem?_map_kind? (lines : List Line) (x : Nat) :
    (lines.map kind?)[x]?.join = kindAt? lines x := by
  rw [List.getElem?_map, kindAt?]
  rcases lines[x]? with _ | l <;> rfl

theorem kindAt?_eq_some_iff {d : Directive} (hd : d ≠ .endif) {lines : List Line} {x : Nat} :
    kindAt? lines x = some d ↔ ∃ n, nameAt? d lines x = some n := by
  unfold kindAt? nameAt?
  rcases lines[x]? with _ | l
  · simp
  · simp [kind?_eq_some_iff, accepts_iff_exists_name? hd]

theorem noDefineBefore_cons_succ {l : Line} {ls : List Line} {x : Nat} :
    NoDefineBefore (l :: ls) (x + 1) ↔ kind? l ≠ some .define ∧ NoDefineBefore ls x := by
  unfold NoDefineBefore
  rw [Nat.forall_lt_succ_left]
  rfl

theorem openingAnchors_cons_ifndef {l : Line} {n : Text} (h : ifndefName? l = some n) (i : Nat)
    (seen : Option Anchor) (ls : List Line) :
    openingAnchors i seen (l :: ls) = openingAnchors (i + 1) (some ⟨i, n⟩) ls := by
  rw [openingAnchors, h]

theorem openingAnchors_cons_define {l : Line} {n : Text} (h : defineName? l = some n) (i : Nat)
    (seen : Option Anchor) (ls : List Line) :
    openingAnchors i seen (l :: ls) = (seen, some ⟨i, n⟩) := by
  have hacc : define.accepts l = true := by simp [accepts, h]
  have hi : ifndefName? l = none := name?_eq_none (d := ifndef) hacc (by decide)
  rw [openingAnchors, hi, h]

theorem openingAnchors_cons_other {l : Line} (hi : ifndefName? l = none)
    (hd : defineName? l = none) (i : Nat) (seen : Option Anchor) (ls : List Line) :
    openingAnchors i seen (l :: ls) = openingAnchors (i + 1) seen ls := by
  rw [openingAnchors, hi, hd]

/-- The three ways in which the search goes on at a line. -/
theorem name_cases (l : Line) : (∃ n, ifndefName? l = some n ∧ kind? l = some .ifndef) ∨
    (∃ n, defineName? l = some n ∧ kind? l = some .define) ∨
      (ifndefName? l = none ∧ defineName? l = none ∧ kind? l ≠ some .ifndef ∧
        kind? l ≠ some .define) := by
  have hi : kind? l = some .ifndef ↔ (ifndefName? l).isSome := kind?_eq_some_iff
  have hd : kind? l = some .define ↔ (defineName? l).isSome := kind?_eq_some_iff
  rcases h : ifndefName? l with _ | n
  · rcases h' : defineName? l with _ | n
    · exact Or.inr (Or.inr ⟨rfl, rfl, by rw [Ne, hi, h]; simp, by rw [Ne, hd, h']; simp⟩)
    · exact Or.inr (Or.inl ⟨n, rfl, by rw [hd, h']; rfl⟩)
  · exact Or.inl ⟨n, rfl, by rw [hi, h]; rfl⟩

theorem openingAnchors_snd_eq_some_iff {i : Nat} {seen : Option Anchor} {ls : List Line}
    {a : Anchor} : (openingAnchors i seen ls).2 = some a ↔
      ∃ d, a.index = i + d ∧ NoDefineBefore ls d ∧ nameAt? .define ls d = some a.name := by
  induction ls generalizing i seen with
  | nil => simp [openingAnchors, nameAt?]
  | cons l ls ih =>
    -- a line that is no `#define` line only shifts the numbers
    have hshift (hd : defineName? l = none) (hk : kind? l ≠ some .define) :
        (∃ d, a.index = i + 1 + d ∧ NoDefineBefore ls d ∧ nameAt? .define ls d = some a.name) ↔
          ∃ d, a.index = i + d ∧ NoDefineBefore (l :: ls) d ∧
            nameAt? .define (l :: ls) d = some a.name := by
      constructor
      · rintro ⟨d, hi, hn, ha⟩
        exact ⟨d + 1, by omega, noDefineBefore_cons_succ.mpr ⟨hk, hn⟩, ha⟩
      · rintro ⟨d, hi, hn, ha⟩
        cases d with
        | zero => simp [nameAt?, name?, hd] at ha
        | succ d => exact ⟨d, by omega, (noDefineBefore_cons_succ.mp hn).2, ha⟩
    rcases name_cases l with ⟨n, h, hk⟩ | ⟨n, h, hk⟩ | ⟨hi, hd, hki, hkd⟩
    · have hd : defineName? l = none :=
        name?_eq_none (d := define) (kind?_eq_some_iff.mp hk) (by decide)
      rw [openingAnchors_cons_ifndef h, ih, hshift hd (by rw [hk]; decide)]
    · rw [openingAnchors_cons_define h]
      constructor
      · intro ha
        cases ha
        exact ⟨0, rfl, fun y hy => absurd hy (by omega), h⟩
      · rintro ⟨d, hi, hn, ha⟩
        cases d with
        | zero =>
          have hname : n = a.name := by
            simpa [nameAt?, name?, h] using ha
          have hindex : i = a.index := by omega
          rw [hname, hindex]
        | succ d => exact absurd hk (noDefineBefore_cons_succ.mp hn).1
    · rw [openingAnchors_cons_other hi hd, ih, hshift hd hkd]

/-- From line `x` on, the search comes to no `#ifndef` line. -/
def NoIfndefFrom (lines : List Line) (x : Nat) : Prop :=
  ∀ y ≥ x, NoDefineBefore lines y → kindAt? lines y ≠ some .ifndef

theorem noIfndefFrom_cons_succ {l : Line} (hk : kind? l ≠ some .define) {ls : List Line} {x : Nat} :
    NoIfndefFrom (l :: ls) (x + 1) ↔ NoIfndefFrom ls x := by
  constructor
  · intro h y hy hn
    exact h (y + 1) (by omega) (noDefineBefore_cons_succ.mpr ⟨hk, hn⟩)
  · intro h y hy hn
    obtain ⟨y, rfl⟩ : ∃ y', y = y' + 1 := ⟨y - 1, by omega⟩
    exact h y (by omega) (noDefineBefore_cons_succ.mp hn).2

theorem noIfndefFrom_cons_zero {l : Line} (hk : kind? l ≠ some .define)
    (hi : kind? l ≠ some .ifndef) {ls : List Line} :
    NoIfndefFrom (l :: ls) 0 ↔ NoIfndefFrom ls 0 := by
  constructor
  · intro h y _ hn
    exact h (y + 1) (by omega) (noDefineBefore_cons_succ.mpr ⟨hk, hn⟩)
  · intro h y _ hn
    cases y with
    | zero => exact hi
    | succ y => exact h y (by omega) (noDefineBefore_cons_succ.mp hn).2

theorem openingAnchors_fst_eq_some_iff {i : Nat} {seen : Option Anchor} {ls : List Line}
    {a : Anchor} : (openingAnchors i seen ls).1 = some a ↔
      (∃ x, a.index = i + x ∧ NoDefineBefore ls x ∧ nameAt? .ifndef ls x = some a.name ∧
        NoIfndefFrom ls (x + 1)) ∨ (seen = some a ∧ NoIfndefFrom ls 0) := by
  induction ls generalizing i seen with
  | nil => simp [openingAnchors, nameAt?, NoIfndefFrom, kindAt?]
  | cons l ls ih =>
    -- the anchor is the first line, or the search finds it after that line
    have hsplit (hk : kind? l ≠ some .define) :
        (∃ x, a.index = i + x ∧ NoDefineBefore (l :: ls) x ∧
          nameAt? .ifndef (l :: ls) x = some a.name ∧ NoIfndefFrom (l :: ls) (x + 1)) ↔
        (a.index = i ∧ ifndefName? l = some a.name ∧ NoIfndefFrom ls 0) ∨
          ∃ x, a.index = i + 1 + x ∧ NoDefineBefore ls x ∧ nameAt? .ifndef ls x = some a.name ∧
            NoIfndefFrom ls (x + 1) := by
      constructor
      · rintro ⟨x, hx, hn, hname, hf⟩
        rw [noIfndefFrom_cons_succ hk] at hf
        cases x with
        | zero => exact Or.inl ⟨hx, hname, hf⟩
        | succ x => exact Or.inr ⟨x, by omega, (noDefineBefore_cons_succ.mp hn).2, hname, hf⟩
      · rintro (⟨hx, hname, hf⟩ | ⟨x, hx, hn, hname, hf⟩)
        · exact ⟨0, hx, fun y hy => absurd hy (by omega), hname,
            (noIfndefFrom_cons_succ hk).mpr hf⟩
        · exact ⟨x + 1, by omega, noDefineBefore_cons_succ.mpr ⟨hk, hn⟩, hname,
            (noIfndefFrom_cons_succ hk).mpr hf⟩
    rcases name_cases l with ⟨n, h, hk⟩ | ⟨n, h, hk⟩ | ⟨hi, hd, hki, hkd⟩
    · have hkd : kind? l ≠ some .define := by rw [hk]; decide
      have hfrom : ¬ NoIfndefFrom (l :: ls) 0 := fun hf =>
        hf 0 le_rfl (fun y hy => absurd hy (by omega)) hk
      have hfirst : some (Anchor.mk i n) = some a ↔ a.index = i ∧ ifndefName? l = some a.name := by
        rw [h]
        constructor
        · rintro ⟨⟩
          exact ⟨rfl, rfl⟩
        · rintro ⟨hx, hname⟩
          cases hname
          rw [← hx]
      rw [openingAnchors_cons_ifndef h, ih, hsplit hkd, hfirst]
      simp only [hfrom, and_false, or_false, and_assoc]
      exact or_comm
    · have hnone : nameAt? .ifndef (l :: ls) 0 = none :=
        name?_eq_none (d := ifndef) (kind?_eq_some_iff.mp hk) (by decide)
      have hfrom : NoIfndefFrom (l :: ls) 0 := by
        intro y _ hn
        cases y with
        | zero => exact fun hy => absurd (hk.symm.trans hy) (by decide)
        | succ y => exact absurd hk (noDefineBefore_cons_succ.mp hn).1
      rw [openingAnchors_cons_define h]
      constructor
      · intro hseen
        exact Or.inr ⟨hseen, hfrom⟩
      · rintro (⟨x, -, hn, hname, -⟩ | ⟨hseen, -⟩)
        · cases x with
          | zero => rw [hnone] at hname; exact absurd hname (by simp)
          | succ x => exact absurd hk (noDefineBefore_cons_succ.mp hn).1
        · exact hseen
    · rw [openingAnchors_cons_other hi hd, ih, hsplit hkd, noIfndefFrom_cons_zero hkd hki]
      simp [hi]

/-! ### The anchors in the window -/

theorem kindAt?_take {lines : List Line} {w x : Nat} (hx : x < w) :
    kindAt? (lines.take w) x = kindAt? lines x := by
  unfold kindAt?
  rw [List.getElem?_take_of_lt hx]

theorem nameAt?_take_eq_some_iff {d : Directive} {lines : List Line} {w x : Nat} {n : Text} :
    nameAt? d (lines.take w) x = some n ↔ x < w ∧ nameAt? d lines x = some n := by
  unfold nameAt?
  rw [List.getElem?_take]
  split_ifs with h <;> simp [h]

theorem noDefineBefore_take {lines : List Line} {w x : Nat} (hx : x ≤ w) :
    NoDefineBefore (lines.take w) x ↔ NoDefineBefore lines x := by
  unfold NoDefineBefore
  refine forall₂_congr fun y hy => ?_
  rw [kindAt?_take (by omega)]

namespace Scan

theorem define_eq_some_iff {lines : List Line} {a : Anchor} : (scan lines).define = some a ↔
    Searched lines a.index ∧ nameAt? .define lines a.index = some a.name := by
  have h : (scan lines).define = (openingAnchors 0 none (lines.take scanWindow)).2 := rfl
  rw [h, openingAnchors_snd_eq_some_iff]
  constructor
  · rintro ⟨d, hd, hn, hname⟩
    obtain ⟨hw, hname⟩ := nameAt?_take_eq_some_iff.mp hname
    rw [noDefineBefore_take hw.le] at hn
    rw [show a.index = d by omega]
    exact ⟨⟨hw, hn⟩, hname⟩
  · rintro ⟨⟨hw, hn⟩, hname⟩
    exact ⟨a.index, by omega, (noDefineBefore_take hw.le).mpr hn,
      nameAt?_take_eq_some_iff.mpr ⟨hw, hname⟩⟩

theorem noIfndefFrom_take_iff {lines : List Line} {x : Nat} :
    NoIfndefFrom (lines.take scanWindow) (x + 1) ↔
      ∀ y > x, Searched lines y → kindAt? lines y ≠ some .ifndef := by
  constructor
  · intro h y hy ⟨hw, hn⟩
    rw [← kindAt?_take hw]
    exact h y hy ((noDefineBefore_take hw.le).mpr hn)
  · intro h y hy hn
    by_cases hw : y < scanWindow
    · rw [kindAt?_take hw]
      exact h y hy ⟨hw, (noDefineBefore_take hw.le).mp hn⟩
    · unfold kindAt?
      rw [List.getElem?_take_eq_none (by omega)]
      simp

theorem ifndef_eq_some_iff {lines : List Line} {a : Anchor} : (scan lines).ifndef = some a ↔
    Searched lines a.index ∧ nameAt? .ifndef lines a.index = some a.name ∧
      ∀ y > a.index, Searched lines y → kindAt? lines y ≠ some .ifndef := by
  have h : (scan lines).ifndef = (openingAnchors 0 none (lines.take scanWindow)).1 := rfl
  rw [h, openingAnchors_fst_eq_some_iff]
  constructor
  · rintro (⟨x, hx, hn, hname, hf⟩ | ⟨hseen, -⟩)
    · obtain ⟨hw, hname⟩ := nameAt?_take_eq_some_iff.mp hname
      rw [noDefineBefore_take hw.le] at hn
      rw [show a.index = x by omega]
      exact ⟨⟨hw, hn⟩, hname, noIfndefFrom_take_iff.mp hf⟩
    · simp at hseen
  · rintro ⟨⟨hw, hn⟩, hname, hf⟩
    exact Or.inl ⟨a.index, by omega, (noDefineBefore_take hw.le).mpr hn,
      nameAt?_take_eq_some_iff.mpr ⟨hw, hname⟩, noIfndefFrom_take_iff.mpr hf⟩

theorem indexOf?_define_iff {lines : List Line} {x : Nat} :
    (scan lines).indexOf? .define = some x ↔
      Searched lines x ∧ kindAt? lines x = some .define := by
  simp only [indexOf?, Option.map_eq_some_iff, define_eq_some_iff]
  rw [kindAt?_eq_some_iff (d := .define) (by decide)]
  constructor
  · rintro ⟨a, ⟨hs, hname⟩, rfl⟩
    exact ⟨hs, a.name, hname⟩
  · rintro ⟨hs, n, hname⟩
    exact ⟨⟨x, n⟩, ⟨hs, hname⟩, rfl⟩

theorem indexOf?_ifndef_iff {lines : List Line} {x : Nat} :
    (scan lines).indexOf? .ifndef = some x ↔
      Searched lines x ∧ kindAt? lines x = some .ifndef ∧
        ∀ y > x, Searched lines y → kindAt? lines y ≠ some .ifndef := by
  simp only [indexOf?, Option.map_eq_some_iff, ifndef_eq_some_iff]
  rw [kindAt?_eq_some_iff (d := .ifndef) (by decide)]
  constructor
  · rintro ⟨a, ⟨hs, hname, hf⟩, rfl⟩
    exact ⟨hs, ⟨a.name, hname⟩, hf⟩
  · rintro ⟨hs, ⟨n, hname⟩, hf⟩
    exact ⟨⟨x, n⟩, ⟨hs, hname, hf⟩, rfl⟩

/-! ### The closing anchor -/

theorem closingLine?_concat (lines : List Line) (l : Line) :
    closingLine? (lines ++ [l]) =
      if isEndif l then some (l, lines.length) else closingLine? lines := by
  unfold closingLine?
  rw [List.zipIdx_append, List.reverse_append]
  by_cases h : isEndif l = true
  · simp [h]
  · simp [h]

theorem kindAt?_concat (lines : List Line) (l : Line) (x : Nat) : kindAt? (lines ++ [l]) x =
    if x < lines.length then kindAt? lines x else if x = lines.length then kind? l else none := by
  unfold kindAt?
  split_ifs with h h'
  · rw [List.getElem?_append_left h]
  · rw [h']
    simp
  · rw [List.getElem?_eq_none (by simp; omega)]
    rfl

theorem kindAt?_eq_none_of_le {lines : List Line} {x : Nat} (h : lines.length ≤ x) :
    kindAt? lines x = none := by
  unfold kindAt?
  rw [List.getElem?_eq_none h]
  rfl

theorem indexOf?_endif_iff {lines : List Line} {x : Nat} :
    (scan lines).indexOf? .endif = some x ↔
      kindAt? lines x = some .endif ∧ ∀ y > x, kindAt? lines y ≠ some .endif := by
  have h (ls : List Line) : (scan ls).indexOf? .endif = (closingLine? ls).map (·.2) := rfl
  rw [h]
  -- from the last line back, as the search goes
  induction lines using List.reverseRecOn with
  | nil => simp [closingLine?, kindAt?]
  | append_singleton ls l ih =>
    have hl : kind? l = some .endif ↔ isEndif l = true := kind?_eq_some_iff
    rw [closingLine?_concat]
    split_ifs with hend
    · simp only [Option.map_some, Option.some.injEq, kindAt?_concat]
      constructor
      · rintro rfl
        refine ⟨by simp [hl.mpr hend], fun y hy => ?_⟩
        rw [if_neg (by omega), if_neg (by omega)]
        simp
      · rintro ⟨hx, hy⟩
        by_contra hne
        have hlt : x < ls.length := by
          by_contra hge
          rw [if_neg hge, if_neg (Ne.symm hne)] at hx
          simp at hx
        exact hy ls.length hlt (by simp [hl.mpr hend])
    · have hkind (y : Nat) : kindAt? (ls ++ [l]) y = some .endif ↔ kindAt? ls y = some .endif := by
        rw [kindAt?_concat]
        split_ifs with h1 h2
        · rfl
        · rw [kindAt?_eq_none_of_le (by omega), hl]
          simp [hend]
        · rw [kindAt?_eq_none_of_le (by omega)]
          simp
      refine ih.trans ?_
      rw [hkind]
      refine and_congr Iff.rfl (forall₂_congr fun y _ => ?_)
      rw [Ne, Ne, hkind]

/-! ### The scan as a whole -/

theorem kindAt?_of_indexOf? {lines : List Line} {d : Directive} {x : Nat}
    (h : (scan lines).indexOf? d = some x) : kindAt? lines x = some d := by
  cases d with
  | ifndef => exact (indexOf?_ifndef_iff.mp h).2.1
  | define => exact (indexOf?_define_iff.mp h).2
  | endif => exact (indexOf?_endif_iff.mp h).1

theorem exists_getElem?_of_indexOf? {lines : List Line} {d : Directive} {x : Nat}
    (h : (scan lines).indexOf? d = some x) : ∃ l, lines[x]? = some l := by
  have hkind := kindAt?_of_indexOf? h
  rcases hx : lines[x]? with _ | l
  · simp [kindAt?, hx] at hkind
  · exact ⟨l, rfl⟩

/-- **The places of the anchors** depend on the kinds of the lines alone. -/
theorem indexOf?_congr {lines lines' : List Line} (h : ∀ x, kindAt? lines x = kindAt? lines' x)
    (d : Directive) : (scan lines).indexOf? d = (scan lines').indexOf? d := by
  have hs (x : Nat) : Searched lines x ↔ Searched lines' x := by
    simp only [Searched, NoDefineBefore, h]
  ext x
  cases d with
  | ifndef => simp only [indexOf?_ifndef_iff, hs, h]
  | define => simp only [indexOf?_define_iff, hs, h]
  | endif => simp only [indexOf?_endif_iff, h]

theorem ifndef_eq (lines : List Line) : (scan lines).ifndef =
    ((scan lines).indexOf? .ifndef).bind fun x => (nameAt? .ifndef lines x).map (Anchor.mk x) := by
  unfold indexOf?
  rcases h : (scan lines).ifndef with _ | a
  · rfl
  · simp [(ifndef_eq_some_iff.mp h).2.1]

theorem define_eq (lines : List Line) : (scan lines).define =
    ((scan lines).indexOf? .define).bind fun x => (nameAt? .define lines x).map (Anchor.mk x) := by
  unfold indexOf?
  rcases h : (scan lines).define with _ | a
  · rfl
  · simp [(define_eq_some_iff.mp h).2]

theorem endifName_eq (lines : List Line) : (scan lines).endifName =
    ((scan lines).indexOf? .endif).bind (nameAt? .endif lines) := by
  have h1 : (scan lines).endifName = (closingLine? lines).bind fun p => endifName? p.1 := rfl
  have h2 : (scan lines).indexOf? .endif = (closingLine? lines).map (·.2) := rfl
  rw [h1, h2]
  rcases h : closingLine? lines with _ | p
  · rfl
  · have hmem : p ∈ lines.zipIdx := List.mem_reverse.mp (List.mem_of_find?_eq_some h)
    have hp : lines[p.2]? = some p.1 := List.mk_mem_zipIdx_iff_getElem?.mp hmem
    simp [nameAt?, hp, name?]

theorem hasGuard_iff {lines : List Line} : (scan lines).hasGuard = true ↔
    (∃ i, (scan lines).indexOf? .ifndef = some i) ∧
      ∃ d, (scan lines).indexOf? .define = some d := by
  simp [hasGuard, indexOf?, Option.isSome_iff_exists]

/-- **The opening anchors stand in order.** -/
theorem indexOf?_ifndef_lt_define {lines : List Line} {i d : Nat}
    (hi : (scan lines).indexOf? .ifndef = some i) (hd : (scan lines).indexOf? .define = some d) :
    i < d := by
  obtain ⟨⟨-, hbefore⟩, hkind, -⟩ := indexOf?_ifndef_iff.mp hi
  have hkind' := kindAt?_of_indexOf? hd
  rcases Nat.lt_trichotomy i d with h | rfl | h
  · exact h
  · simp [hkind] at hkind'
  · exact absurd hkind' (hbefore d h)

/-- **There is a guard** exactly if an `#ifndef` line stands before the first `#define` line, and
that lies in the window. -/
theorem hasGuard_iff_exists {lines : List Line} : (scan lines).hasGuard = true ↔
    ∃ d < scanWindow, kindAt? lines d = some .define ∧ NoDefineBefore lines d ∧
      ∃ i < d, kindAt? lines i = some .ifndef := by
  rw [hasGuard_iff]
  constructor
  · rintro ⟨⟨i, hi⟩, d, hd⟩
    obtain ⟨⟨hw, hbefore⟩, hkind⟩ := indexOf?_define_iff.mp hd
    exact ⟨d, hw, hkind, hbefore, i, indexOf?_ifndef_lt_define hi hd, kindAt?_of_indexOf? hi⟩
  · rintro ⟨d, hw, hkind, hbefore, i, hi, hkind'⟩
    refine ⟨?_, d, indexOf?_define_iff.mpr ⟨⟨hw, hbefore⟩, hkind⟩⟩
    -- the anchor is the last of the `#ifndef` lines that are searched
    classical
    let P (x : Nat) : Prop := Searched lines x ∧ kindAt? lines x = some .ifndef
    have hPi : P i := ⟨⟨by omega, fun y hy => hbefore y (by omega)⟩, hkind'⟩
    obtain ⟨hs, hk⟩ := Nat.findGreatest_spec (P := P) (by omega : i ≤ scanWindow) hPi
    refine ⟨Nat.findGreatest P scanWindow, indexOf?_ifndef_iff.mpr ⟨hs, hk, fun y hy hsy hky => ?_⟩⟩
    exact Nat.findGreatest_is_greatest hy hsy.1.le ⟨hsy, hky⟩

/-- **Agreement with a name**: each directive has an anchor, and that carries the name. -/
theorem agrees_iff {lines : List Line} {e : Text} (h : (scan lines).hasGuard = true) :
    (scan lines).agrees e = true ↔
      ∀ d, ∃ x, (scan lines).indexOf? d = some x ∧ nameAt? d lines x = some e := by
  obtain ⟨⟨i, hi⟩, d, hd⟩ := hasGuard_iff.mp h
  have hall (P : Directive → Prop) : (∀ d, P d) ↔ P .ifndef ∧ P .define ∧ P .endif :=
    ⟨fun h => ⟨h _, h _, h _⟩, fun ⟨h1, h2, h3⟩ d => by cases d <;> assumption⟩
  have hany (x : Nat) (o : Option Text) :
      (o.map (Anchor.mk x)).any (·.name == e) = true ↔ o = some e := by
    cases o <;> simp
  unfold agrees
  rw [h, hall, ifndef_eq, define_eq, endifName_eq, hi, hd]
  simp [hany, and_assoc, Option.bind_eq_some_iff]

end Scan

end IncludeGuard
