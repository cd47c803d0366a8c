import IncludeGuard.GuardName
import IncludeGuard.Proofs.Relative
import Mathlib.Tactic.SplitIfs

/-! # Derived names

All parts of a derived name are in upper case, so it has no letter from `a` to `z`
(`isSmall_of_guardName`). For the full mapping this is a fact about its two tables: no expansion
holds such a letter, and no run of letters is moved onto one.

A file has a name as soon as it lies below the root and is called something (`guardName_eq`). -/

namespace IncludeGuard

/-! ### Small letters -/

namespace Text

/-- The character is a letter from `a` to `z`. -/
def isSmall (c : Char) : Bool :=
  decide (0x61 ≤ c.toNat) && decide (c.toNat ≤ 0x7A)

theorem isSmall_upperExpansions :
    ∀ p ∈ upperExpansions, ∀ n ∈ p.2, isSmall (Char.ofNat n) = false := by
  decide +kernel

theorem upperRuns_shift : ∀ r ∈ upperRuns, 0x7A < r.first + r.shift ∨ r.last + r.shift < 0x61 := by
  decide +kernel

theorem isSmall_ofNat {n : Nat} (h : n < 0x61 ∨ 0x7A < n) : isSmall (Char.ofNat n) = false := by
  have hcode : (Char.ofNat n).toNat = n ∨ (Char.ofNat n).toNat = 0 := by
    unfold Char.ofNat
    by_cases hn : n.isValidChar
    · rw [dif_pos hn]
      exact Or.inl rfl
    · rw [dif_neg hn]
      exact Or.inr rfl
  unfold isSmall
  rw [Bool.and_eq_false_iff, decide_eq_false_iff_not, decide_eq_false_iff_not]
  omega

/-- **Upper case has no small letters.** -/
theorem isSmall_of_mem_upperChar {c d : Char} (h : d ∈ upperChar c) : isSmall d = false := by
  unfold upperChar at h
  dsimp only at h
  split_ifs at h with hascii hsmall
  · rw [List.mem_singleton] at h
    exact h ▸ isSmall_ofNat (by omega)
  · rw [List.mem_singleton] at h
    rw [h, isSmall, Bool.and_eq_false_iff, decide_eq_false_iff_not, decide_eq_false_iff_not]
    omega
  · split at h
    · next codes hcodes =>
      obtain ⟨n, hn, rfl⟩ := List.mem_map.mp h
      obtain ⟨p, hp, rfl⟩ : ∃ p ∈ upperExpansions, p.2 = codes := by
        obtain ⟨l₁, l₂, heq, -⟩ := List.lookup_eq_some_iff.mp hcodes
        exact ⟨(c.toNat, codes), by rw [heq]; simp, rfl⟩
      exact isSmall_upperExpansions p hp n hn
    · split at h
      · next r hr =>
        rw [List.mem_singleton] at h
        have hholds := List.find?_some hr
        simp only [CaseRun.holds, Bool.and_eq_true, decide_eq_true_eq] at hholds
        have hshift := upperRuns_shift r (List.mem_of_find?_eq_some hr)
        exact h ▸ isSmall_ofNat (by omega)
      · rw [List.mem_singleton] at h
        rw [h, isSmall, Bool.and_eq_false_iff, decide_eq_false_iff_not, decide_eq_false_iff_not]
        omega

theorem isSmall_of_mem_upper {t : Text} {c : Char} (h : c ∈ t.upper) : isSmall c = false := by
  obtain ⟨d, -, hd⟩ := List.mem_flatMap.mp h
  exact isSmall_of_mem_upperChar hd

end Text

/-! ### Names -/

open Text

theorem isSmall_of_mem_nameSegment {t : Text} {c : Char} (h : c ∈ nameSegment t) :
    isSmall c = false := by
  obtain ⟨d, hd, rfl⟩ := List.mem_map.mp h
  split_ifs
  · decide
  · exact isSmall_of_mem_upper hd

theorem mem_intercalate_lowLine {ss : List Text} {c : Char} (h : c ∈ ['_'].intercalate ss) :
    c = '_' ∨ ∃ s ∈ ss, c ∈ s := by
  induction ss with
  | nil => simp at h
  | cons s ss ih =>
    cases ss with
    | nil => exact Or.inr ⟨s, by simp, by simpa using h⟩
    | cons s' ss =>
      rw [List.intercalate_cons_cons, List.mem_append, List.mem_append] at h
      rcases h with (h | h) | h
      · exact Or.inr ⟨s, by simp, h⟩
      · exact Or.inl (List.mem_singleton.mp h)
      · exact (ih h).imp_right fun ⟨u, hu, hc⟩ => ⟨u, List.mem_cons_of_mem s hu, hc⟩

theorem mem_intercalate_of_mem {sep : Text} {ss : List Text} {s : Text} {c : Char} (hs : s ∈ ss)
    (hc : c ∈ s) : c ∈ sep.intercalate ss := by
  induction ss with
  | nil => exact absurd hs List.not_mem_nil
  | cons u ss ih =>
    rcases ss with _ | ⟨u', ss⟩
    · obtain rfl := List.mem_singleton.mp hs
      simpa using hc
    · rw [List.intercalate_cons_cons]
      rcases List.mem_cons.mp hs with rfl | hs
      · simp [hc]
      · exact List.mem_append_right _ (ih hs)

theorem exists_nameSegments_of_guardName {file root : Path} {e : Text}
    (h : guardName file root = .ok e) : ∃ below first rest name,
      file.relativeTo? root = some below ∧ below.components = first :: rest ∧
        e = ['_'].intercalate (nameSegments first rest name) := by
  unfold guardName at h
  split at h
  · cases h
  · next below hbelow =>
    split at h
    · cases h
    · next first rest hcomponents =>
      split at h
      · cases h
      · next name _ =>
        exact ⟨below, first, rest, name, hbelow, hcomponents, by simpa using h.symm⟩

/-- **A derived name has no small letters.** -/
theorem isSmall_of_guardName {file root : Path} {e : Text} (h : guardName file root = .ok e)
    {c : Char} (hc : c ∈ e) : isSmall c = false := by
  obtain ⟨-, first, rest, name, -, -, rfl⟩ := exists_nameSegments_of_guardName h
  rcases mem_intercalate_lowLine hc with rfl | ⟨s, hs, hcs⟩
  · decide
  · unfold nameSegments at hs
    simp only [List.cons_append, List.mem_cons, List.mem_append, List.mem_map, List.not_mem_nil,
      or_false] at hs
    rcases hs with rfl | ⟨_, -, rfl⟩ | rfl | rfl
    · exact isSmall_of_mem_nameSegment hcs
    · exact isSmall_of_mem_nameSegment hcs
    · exact isSmall_of_mem_nameSegment hcs
    · exact isSmall_of_mem_upper hcs

/-- **The name of a file** is made of its components below the root, of which the last is the name
of the file. -/
theorem guardName_eq {file root : Path} {first : Path.Component} {rest : List Path.Component}
    {name : Bytes} (h : file.components = root.components ++ first :: rest)
    (hlast : (first :: rest).getLast? = some (.normal name)) :
    guardName file root = .ok (['_'].intercalate (nameSegments first rest name)) := by
  obtain ⟨below, hbelow⟩ := Path.exists_relativeTo?_iff.mpr ⟨first :: rest, h.symm⟩
  have hcomponents : below.components = first :: rest := by
    rw [Path.components_relativeTo? hbelow] at h
    exact List.append_cancel_left h
  have hname : below.fileName? = some name := by
    rw [Path.fileName?, hcomponents, hlast]
  simp only [guardName, hbelow, hcomponents, hname]

end IncludeGuard
