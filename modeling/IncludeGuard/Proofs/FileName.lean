import IncludeGuard.Path
import Mathlib.Data.List.TakeWhile

/-! # Stem and extension

A file name has a stem and an extension exactly if a full stop stands in it anywhere but at the
start, and it is the last full stop that divides the two (`splitExtension_eq_iff`). A header is
called by a stem, a full stop and one of the extensions of headers (`isHeader_iff`). -/

namespace IncludeGuard.Path

variable {name stem ext : Bytes}

theorem splitExtension_append (hstem : stem ≠ []) (hext : dot ∉ ext) :
    splitExtension (stem ++ dot :: ext) = (stem, some ext) := by
  have hrev : (stem ++ dot :: ext).reverse = ext.reverse ++ dot :: stem.reverse := by simp
  have hbefore : ∀ b ∈ ext.reverse, (b != dot) = true := by
    intro b hb
    rw [bne_iff_ne]
    rintro rfl
    exact hext (List.mem_reverse.mp hb)
  have htake : (stem ++ dot :: ext).reverse.takeWhile (· != dot) = ext.reverse := by
    rw [hrev, List.takeWhile_append_of_pos hbefore, List.takeWhile_cons_of_neg (by simp),
      List.append_nil]
  obtain ⟨b, before, hb⟩ := List.exists_cons_of_ne_nil (List.reverse_ne_nil_iff.mpr hstem)
  have hdrop : (stem ++ dot :: ext).reverse.dropWhile (· != dot) = dot :: b :: before := by
    rw [hrev, List.dropWhile_append_of_pos hbefore, hb, List.dropWhile_cons_of_neg (by simp)]
  rw [splitExtension, hdrop, htake, List.reverse_reverse]
  dsimp only
  rw [← hb, List.reverse_reverse]

/-- **Stem and extension.** -/
theorem splitExtension_eq_iff : splitExtension name = (stem, some ext) ↔
    name = stem ++ dot :: ext ∧ stem ≠ [] ∧ dot ∉ ext := by
  constructor
  · intro h
    unfold splitExtension at h
    split at h
    · next c b before hdrop =>
      simp only [Prod.mk.injEq, Option.some.injEq] at h
      obtain ⟨hstem, hext⟩ := h
      have hc : c = dot := by
        have hhead := List.head?_dropWhile_not (· != dot) name.reverse
        rw [hdrop] at hhead
        simpa using hhead
      have hrev : ext.reverse ++ dot :: stem.reverse = name.reverse :=
        calc ext.reverse ++ dot :: stem.reverse
            = name.reverse.takeWhile (· != dot) ++ name.reverse.dropWhile (· != dot) := by
              rw [← hext, ← hstem, List.reverse_reverse, List.reverse_reverse, hdrop, hc]
          _ = name.reverse := List.takeWhile_append_dropWhile
      refine ⟨?_, by simp [← hstem], ?_⟩
      · rw [← List.reverse_inj, ← hrev]
        simp
      · intro hmem
        rw [← hext, List.mem_reverse] at hmem
        exact absurd (List.mem_takeWhile_imp hmem) (by decide)
    · simp at h
  · rintro ⟨rfl, hstem, hext⟩
    exact splitExtension_append hstem hext

theorem dot_notMem_headerExtensions : ∀ ext ∈ headerExtensions, dot ∉ ext := by
  decide

/-- **Headers** are called by a stem, a full stop and an extension of headers. -/
theorem isHeader_iff {p : Path} : p.isHeader = true ↔
    ∃ stem ext, p.components.getLast? = some (.normal (stem ++ dot :: ext)) ∧ stem ≠ [] ∧
      ext ∈ headerExtensions := by
  have hname (name : Bytes) : p.fileName? = some name ↔
      p.components.getLast? = some (.normal name) := by
    unfold fileName?
    split <;> simp_all
  simp only [isHeader, extension?, Option.any_eq_true, Option.bind_eq_some_iff,
    List.contains_iff_mem, hname]
  constructor
  · rintro ⟨ext, ⟨name, hlast, hsplit⟩, hext⟩
    obtain ⟨heq, hstem, -⟩ := splitExtension_eq_iff.mp (Prod.ext rfl hsplit)
    exact ⟨_, ext, heq ▸ hlast, hstem, hext⟩
  · rintro ⟨stem, ext, hlast, hstem, hext⟩
    refine ⟨ext, ⟨stem ++ dot :: ext, hlast, ?_⟩, hext⟩
    rw [splitExtension_append hstem (dot_notMem_headerExtensions ext hext)]

end IncludeGuard.Path
