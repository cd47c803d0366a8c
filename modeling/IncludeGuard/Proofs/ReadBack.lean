import IncludeGuard.Proofs.AsciiName
import IncludeGuard.Proofs.Directive

/-! # Names that are read back

The lines of a guard are read back as the name they were written for exactly if that is a macro
name (`name?_line_eq_some_iff`). The name of a header is put together from the names on its path,
so it depends on these whether it is one. For ASCII names this is so if the header lies in a
directory and there are only letters, digits, low lines and hyphens before the extension
(`name?_line_guardName_iff`): all other characters, full stops among them, stay what they are, and
without a directory the file name is a part of the name with its full stop. -/

namespace IncludeGuard

open Directive Text

/-! ### Lines for a name -/

/-- **A name is read back** if it is a macro name. -/
theorem name?_line_eq_some_iff {e ending : Text} (h : ending.AllBlank) (d : Directive) :
    d.name? (d.line e ending) = some e ↔ e.IsMacroName := by
  rw [name?_line d e h]
  exact ⟨fun he => (soleName?_eq_some_iff.mp he).1, soleName?_of_isMacroName⟩

theorem isMacroName_intercalate_iff {ss : List Text} (hss : 2 ≤ ss.length) :
    IsMacroName (['_'].intercalate ss) ↔ ∀ s ∈ ss, ∀ c ∈ s, isWord c = true := by
  have hne : ['_'].intercalate ss ≠ [] := by
    obtain ⟨s, s', ss, rfl⟩ : ∃ s s' ss', ss = s :: s' :: ss' := by
      match ss, hss with
      | s :: s' :: ss, _ => exact ⟨s, s', ss, rfl⟩
    rw [List.intercalate_cons_cons]
    simp
  constructor
  · intro h s hs c hc
    exact h.2 c (mem_intercalate_of_mem hs hc)
  · intro h
    refine ⟨hne, fun c hc => ?_⟩
    rcases mem_intercalate_lowLine hc with rfl | ⟨s, hs, hcs⟩
    · decide
    · exact h s hs c hcs

/-! ### Plain names -/

/-- The byte is a letter or a digit of ASCII, a low line or a hyphen. -/
def IsPlain (b : UInt8) : Prop :=
  (0x61 ≤ b.toNat ∧ b.toNat ≤ 0x7A) ∨ (0x41 ≤ b.toNat ∧ b.toNat ≤ 0x5A) ∨
    (0x30 ≤ b.toNat ∧ b.toNat ≤ 0x39) ∨ b.toNat = 0x5F ∨ b.toNat = 0x2D

instance (b : UInt8) : Decidable (IsPlain b) := by
  unfold IsPlain; infer_instance

/-- The character is a capital letter or a digit of ASCII, or a low line. -/
def IsUpperWord (c : Char) : Prop :=
  ('A' ≤ c ∧ c ≤ 'Z') ∨ ('0' ≤ c ∧ c ≤ '9') ∨ c = '_'

instance (c : Char) : Decidable (IsUpperWord c) := by
  unfold IsUpperWord; infer_instance

theorem isWord_nameChar_iff {b : UInt8} (h : IsAscii b) : isWord (nameChar b) = true ↔ IsPlain b :=
  IsAscii.of_forall (P := fun b => isWord (nameChar b) = true ↔ IsPlain b) (by decide +kernel) h

theorem isUpperWord_nameChar {b : UInt8} (hb : IsAscii b) (h : IsPlain b) :
    IsUpperWord (nameChar b) :=
  IsAscii.of_forall (P := fun b => IsPlain b → IsUpperWord (nameChar b)) (by decide +kernel) hb h

theorem isPlain_headerExtensions : ∀ ext ∈ Path.headerExtensions, ∀ b ∈ ext, IsPlain b := by
  decide +kernel

/-- There is a directory among the names below the root, and everything before the extension of the
last name is plain. -/
structure IsPlainPlace (names : List Bytes) : Prop where
  two_le_length : 2 ≤ names.length
  dirs : ∀ n ∈ names.dropLast, ∀ b ∈ n, IsPlain b
  stem : ∀ name ∈ names.getLast?, ∀ b ∈ (Path.splitExtension name).1, IsPlain b

section Place
variable {dirs : List Bytes} {stem ext : Bytes} (hstem : stem ≠ [])
  (hext : ext ∈ Path.headerExtensions)
include hstem hext

theorem isPlainPlace_append_iff : IsPlainPlace (dirs ++ [stem ++ Path.dot :: ext]) ↔
    ∀ n ∈ nameParts dirs stem ext, ∀ b ∈ n, IsPlain b := by
  unfold nameParts
  have hsplit := Path.splitExtension_append hstem (Path.dot_notMem_headerExtensions ext hext)
  by_cases hdirs : dirs = []
  · -- the full stop of the file name is not plain
    subst hdirs
    constructor
    · rintro ⟨hlen, -, -⟩
      simp at hlen
    · intro h
      exact absurd (h (stem ++ Path.dot :: ext) (by simp) Path.dot (by simp)) (by decide)
  · rw [if_neg hdirs]
    constructor
    · rintro ⟨-, hd, hs⟩ n hn
      rcases List.mem_append.mp hn with hn | hn
      · exact hd n (by simpa using hn)
      · rcases List.mem_pair.mp hn with rfl | rfl
        · have hplain := hs (n ++ Path.dot :: ext) (by simp)
          rwa [hsplit] at hplain
        · exact isPlain_headerExtensions n hext
    · intro h
      refine ⟨?_, fun n hn => h n ?_, fun name hname => ?_⟩
      · have := List.length_pos_iff.mpr hdirs
        simp
        omega
      · exact List.mem_append_left _ (by simpa using hn)
      · obtain rfl : stem ++ Path.dot :: ext = name := by simpa using hname
        rw [hsplit]
        exact h stem (by simp)

end Place

/-- **Which names are read back.** A header that has ASCII names below the root has a name for its
guard. Each line that is written for it, with either terminator, is read back as that name exactly
if the header lies in a directory and only letters, digits, low lines and hyphens stand in the names
of the directories and in the stem; the name is then made of capitals, digits and low lines. -/
theorem name?_line_guardName_iff {file root : Path} {names : List Bytes}
    (h : IsAsciiHeader file root names) (hne : names ≠ []) :
    ∃ e, guardName file root = .ok e ∧
      (∀ d : Directive, ∀ ending ∈ ["\n".toList, "\r\n".toList],
        d.name? (d.line e ending) = some e ↔ IsPlainPlace names) ∧
      (IsPlainPlace names → ∀ c ∈ e, IsUpperWord c) := by
  obtain ⟨dirs, stem, ext, rfl, hstem, hext⟩ := h.exists_eq_append hne
  have hascii := forall_mem_nameParts h.isAscii
  have hblank : ∀ ending ∈ ["\n".toList, "\r\n".toList], AllBlank ending := by decide
  have hlen : 2 ≤ ((nameParts dirs stem ext).map (·.map nameChar)).length := by simp [nameParts]
  have hmacro : IsMacroName (['_'].intercalate ((nameParts dirs stem ext).map (·.map nameChar))) ↔
      IsPlainPlace (dirs ++ [stem ++ Path.dot :: ext]) := by
    rw [isMacroName_intercalate_iff hlen, isPlainPlace_append_iff hstem hext, List.forall_mem_map]
    refine forall₂_congr fun n hn => ?_
    rw [List.forall_mem_map]
    exact forall₂_congr fun b hb => isWord_nameChar_iff (hascii n hn b hb)
  refine ⟨_, h.guardName_eq hstem hext, fun d ending hending => ?_, fun hplain c hc => ?_⟩
  · rw [name?_line_eq_some_iff (hblank ending hending), hmacro]
  · rcases mem_intercalate_lowLine hc with rfl | ⟨s, hs, hcs⟩
    · decide
    · obtain ⟨n, hn, rfl⟩ := List.mem_map.mp hs
      obtain ⟨b, hb, rfl⟩ := List.mem_map.mp hcs
      exact isUpperWord_nameChar (hascii n hn b hb)
        ((isPlainPlace_append_iff hstem hext).mp hplain n hn b hb)

/-- The theorem at a header whose name is read back, and at one with a full stop in the name of a
directory. -/
theorem name?_line_guardName_iff_versions :
    let root := Path.ofText "/p".toList
    let file := Path.ofText "/p/net-io//a_B2.hpp".toList
    let dotted := Path.ofText "/p/v1.2/a.h".toList
    let names := [Utf8.encode "net-io".toList, Utf8.encode "a_B2.hpp".toList]
    let dottedNames := [Utf8.encode "v1.2".toList, Utf8.encode "a.h".toList]
    IsAsciiHeader file root names ∧ IsAsciiHeader dotted root dottedNames ∧
    guardName file root = .ok "NET_IO_A_B2_HPP".toList ∧
    endif.name? (endif.line "NET_IO_A_B2_HPP".toList "\r\n".toList) =
      some "NET_IO_A_B2_HPP".toList ∧
    guardName dotted root = .ok "V1.2_A_H".toList ∧
    ifndef.name? (ifndef.line "V1.2_A_H".toList "\n".toList) ≠ some "V1.2_A_H".toList := by
  intro root file dotted names dottedNames
  have h : IsAsciiHeader file root names := ⟨by decide, by decide, by decide +kernel⟩
  have h' : IsAsciiHeader dotted root dottedNames := ⟨by decide, by decide, by decide +kernel⟩
  have hname : guardName file root = .ok "NET_IO_A_B2_HPP".toList := by decide
  have hname' : guardName dotted root = .ok "V1.2_A_H".toList := by decide
  obtain ⟨e, he, hread, -⟩ := name?_line_guardName_iff h (List.cons_ne_nil _ _)
  obtain ⟨e', he', hread', -⟩ := name?_line_guardName_iff h' (List.cons_ne_nil _ _)
  obtain rfl : e = "NET_IO_A_B2_HPP".toList := Except.ok.inj (he.symm.trans hname)
  obtain rfl : e' = "V1.2_A_H".toList := Except.ok.inj (he'.symm.trans hname')
  have hplace : IsPlainPlace names := ⟨by decide, by decide +kernel, by decide +kernel⟩
  refine ⟨h, h', hname, (hread endif _ (by simp)).mpr hplace, hname', fun hback => ?_⟩
  have hplace' := (hread' ifndef _ (by simp)).mp hback
  exact absurd (hplace'.dirs (Utf8.encode "v1.2".toList) (by decide)) (by decide)

end IncludeGuard
