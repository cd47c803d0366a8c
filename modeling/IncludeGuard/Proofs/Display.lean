import IncludeGuard.Failure
import IncludeGuard.Proofs.NameBelow
import IncludeGuard.Proofs.Utf8

/-! # Paths in reports

A report shows a file by the part of its path below the root, decoded as text. For a path that is
text itself nothing is lost by this: it is cut at slashes only, and the byte of a slash is no part
of another character, so what is cut out is text again (`wellFormed_relativeTo?`). Read as a path,
the shown text has the components of the file that come after those of the root
(`relativeDisplay_components`). -/

namespace IncludeGuard

namespace Utf8

/-! ### Slashes in text -/

theorem encode_append (t u : Text) : encode (t ++ u) = encode t ++ encode u :=
  List.flatMap_append

theorem encode_slash_cons (t : Text) : encode ('/' :: t) = Path.slash :: encode t :=
  rfl

theorem WellFormed.slash_cons {bs : Bytes} (h : WellFormed bs) :
    WellFormed (Path.slash :: bs) := by
  obtain ⟨t, rfl⟩ := wellFormed_iff.mp h
  exact wellFormed_encode ('/' :: t)

theorem toNat_of_mem_encodeChar {c : Char} {b : UInt8} (h : b ∈ encodeChar c) :
    b.toNat = c.toNat ∨ 0x80 ≤ b.toNat := by
  have hlt := (toNat_bounds c).1
  have habove {n : Nat} (hn : n < 256) (hn' : 0x80 ≤ n) (hb : b = n.toUInt8) : 0x80 ≤ b.toNat := by
    rw [hb, toNat_toUInt8 hn]
    exact hn'
  unfold encodeChar at h
  dsimp only at h
  split_ifs at h with h1 h2 h3
  · left
    rw [List.mem_singleton.mp h, toNat_toUInt8 (by omega)]
  · right
    rcases List.mem_pair.mp h with hb | hb <;> exact habove (by omega) (by omega) hb
  · right
    simp only [List.mem_cons, List.not_mem_nil, or_false] at h
    rcases h with hb | hb | hb <;> exact habove (by omega) (by omega) hb
  · right
    simp only [List.mem_cons, List.not_mem_nil, or_false] at h
    rcases h with hb | hb | hb | hb <;> exact habove (by omega) (by omega) hb

theorem slash_notMem_encodeChar {c : Char} (h : c ≠ '/') : Path.slash ∉ encodeChar c := by
  intro hmem
  rcases toNat_of_mem_encodeChar hmem with hcode | habove
  · refine h ?_
    rw [← Char.ofNat_toNat c, ← hcode]
    rfl
  · exact absurd habove (by decide)

theorem wellFormed_of_mem_segments {bs s : Bytes} (h : WellFormed bs) (hs : s ∈ Path.segments bs) :
    WellFormed s := by
  obtain ⟨t, rfl⟩ := wellFormed_iff.mp h
  rw [wellFormed_iff]
  induction t generalizing s with
  | nil =>
    obtain rfl : s = [] := by simpa [encode, Path.segments] using hs
    exact ⟨[], rfl⟩
  | cons c t ih =>
    by_cases hc : c = '/'
    · subst hc
      rw [encode_slash_cons, Path.segments_slash_cons] at hs
      rcases List.mem_cons.mp hs with rfl | hs
      · exact ⟨[], rfl⟩
      · exact ih (wellFormed_encode t) hs
    · obtain ⟨u, us, hu⟩ := List.exists_cons_of_ne_nil (Path.segments_ne_nil (encode t))
      rw [show encode (c :: t) = encodeChar c ++ encode t from rfl,
        Path.segments_append_left (slash_notMem_encodeChar hc) hu] at hs
      rcases List.mem_cons.mp hs with rfl | hs
      · obtain ⟨v, rfl⟩ := ih (s := u) (wellFormed_encode t) (by simp [hu])
        exact ⟨c :: v, rfl⟩
      · exact ih (wellFormed_encode t) (by simp [hu, hs])

theorem wellFormed_join {ss : List Bytes} (h : ∀ s ∈ ss, WellFormed s) :
    WellFormed (Path.join ss) := by
  induction ss with
  | nil => exact wellFormed_encode []
  | cons s ss ih =>
    cases ss with
    | nil =>
      rw [Path.join_singleton]
      exact h s List.mem_cons_self
    | cons s' ss =>
      obtain ⟨t, ht⟩ := wellFormed_iff.mp (h s List.mem_cons_self)
      obtain ⟨u, hu⟩ := wellFormed_iff.mp (ih fun v hv => h v (List.mem_cons_of_mem s hv))
      rw [Path.join_cons_cons, ← ht, ← hu, ← encode_slash_cons, ← encode_append]
      exact wellFormed_encode _

end Utf8

open Utf8

namespace Path

/-! ### The part below -/

variable {p base below : Path}

theorem wellFormed_join_dropIdleEnd {ss : List Bytes} (h : ∀ s ∈ ss, WellFormed s) :
    WellFormed (join (dropIdleEnd ss)) :=
  wellFormed_join fun s hs => h s (mem_of_mem_dropIdleEnd hs)

theorem wellFormed_trimEnd (h : WellFormed p.bytes) : WellFormed p.trimEnd.bytes := by
  have hsegments : ∀ s ∈ segments p.bytes, WellFormed s := fun s hs =>
    wellFormed_of_mem_segments h hs
  have htail : ∀ s ∈ (segments p.bytes).tail, WellFormed s := fun s hs =>
    hsegments s (List.mem_of_mem_tail hs)
  unfold trimEnd
  split
  · exact (wellFormed_join_dropIdleEnd htail).slash_cons
  · refine wellFormed_join fun s hs => ?_
    rcases List.mem_cons.mp hs with rfl | hs
    · decide
    · exact htail s (mem_of_mem_dropIdleEnd hs)
  · exact wellFormed_join_dropIdleEnd hsegments

theorem wellFormed_below (h : WellFormed p.bytes) (n : Nat) : WellFormed (p.below n).bytes :=
  wellFormed_join_dropIdleEnd fun _ hs =>
    wellFormed_of_mem_segments h (mem_of_mem_dropNames ((List.dropWhile_sublist _).mem hs))

/-- **What is cut out of a text is text.** -/
theorem wellFormed_relativeTo? (h : WellFormed p.bytes) (hbelow : p.relativeTo? base = some below) :
    WellFormed below.bytes := by
  unfold relativeTo? at hbelow
  split_ifs at hbelow
  · cases hbelow
    exact wellFormed_trimEnd h
  · cases hbelow
    exact wellFormed_below h _

end Path

/-! ### What is shown -/

variable {file file' root : Path} {s : Text}

theorem relativeDisplay_eq_ok_iff :
    relativeDisplay file root = .ok s ↔ ∃ below, file.relativeTo? root = some below ∧
      below.display = s := by
  unfold relativeDisplay
  cases file.relativeTo? root <;> simp

theorem exists_relativeDisplay_iff :
    (∃ s, relativeDisplay file root = .ok s) ↔ root.components <+: file.components := by
  rw [← Path.exists_relativeTo?_iff]
  simp [relativeDisplay_eq_ok_iff]

/-- **The shown text has the components below the root.** -/
theorem components_ofText_of_relativeDisplay (hfile : WellFormed file.bytes)
    (h : relativeDisplay file root = .ok s) :
    root.components ++ (Path.ofText s).components = file.components := by
  obtain ⟨below, hbelow, rfl⟩ := relativeDisplay_eq_ok_iff.mp h
  have hback : Path.ofText below.display = below := by
    rw [Path.ofText, Path.display, (Path.wellFormed_relativeTo? hfile hbelow).encode_decodeLossy]
  rw [hback, Path.components_relativeTo? hbelow]

theorem exists_relativeDisplay_iff_guardName : (∃ s, relativeDisplay file root = .ok s) ↔
    ∀ p r, guardName file root ≠ .error (.notUnderRoot p r) := by
  rw [exists_relativeDisplay_iff]
  constructor
  · rintro ⟨below, hbelow⟩ p r h
    rw [guardName_of_below hbelow.symm] at h
    split at h <;> cases h
  · intro h
    by_contra hnot
    exact h file root (guardName_of_not_below hnot)

/-- **What is shown identifies the file.** A file can be shown exactly if its components begin with
those of the root, and this is also what its guard needs to have a name or to fail to have one for
another reason. For a path that is text, the shown text read as a path has the components of the
file after those of the root. So files that are shown alike below the same root have the same
components. -/
theorem relativeDisplay_components (file root : Path) :
    ((∃ s, relativeDisplay file root = .ok s) ↔ root.components <+: file.components) ∧
    ((∃ s, relativeDisplay file root = .ok s) ↔
      ∀ p r, guardName file root ≠ .error (.notUnderRoot p r)) ∧
    (WellFormed file.bytes → ∀ s, relativeDisplay file root = .ok s →
      root.components ++ (Path.ofText s).components = file.components) ∧
    (∀ file' s, WellFormed file.bytes → WellFormed file'.bytes →
      relativeDisplay file root = .ok s → relativeDisplay file' root = .ok s →
        file'.components = file.components) := by
  refine ⟨exists_relativeDisplay_iff, exists_relativeDisplay_iff_guardName,
    fun hfile s => components_ofText_of_relativeDisplay hfile, ?_⟩
  intro file' s hfile hfile' h h'
  rw [← components_ofText_of_relativeDisplay hfile h,
    ← components_ofText_of_relativeDisplay hfile' h']

/-- The theorem at two spellings of a file that are shown alike. -/
theorem relativeDisplay_components_twoSpellings :
    let root := Path.ofText "/p/.".toList
    let file := Path.ofText "//p/./n\u00E8t//.//\u20AC.h/./".toList
    let file' := Path.ofText "/p/n\u00E8t//.//\u20AC.h".toList
    let s := "n\u00E8t//.//\u20AC.h".toList
    WellFormed file.bytes ∧ WellFormed file'.bytes ∧ root.components <+: file.components ∧
    relativeDisplay file root = .ok s ∧ relativeDisplay file' root = .ok s ∧
    (∀ p r, guardName file root ≠ .error (.notUnderRoot p r)) ∧
    root.components ++ (Path.ofText s).components = file.components ∧
    file'.components = file.components := by
  intro root file file' s
  have hfile : WellFormed file.bytes := wellFormed_encode _
  have hfile' : WellFormed file'.bytes := wellFormed_encode _
  have h : relativeDisplay file root = .ok s := by decide +kernel
  have h' : relativeDisplay file' root = .ok s := by decide +kernel
  obtain ⟨hbegins, hname, hcomponents, hsame⟩ := relativeDisplay_components file root
  exact ⟨hfile, hfile', hbegins.mp ⟨s, h⟩, h, h', hname.mp ⟨s, h⟩, hcomponents hfile s h,
    hsame file' s hfile hfile' h h'⟩

/-- Paths that are no text may be shown alike and yet differ. -/
example :
    let root := Path.ofText ['/']
    let file : Path := ⟨[Path.slash, 0xFE]⟩
    let file' : Path := ⟨[Path.slash, 0xFF]⟩
    relativeDisplay file root = relativeDisplay file' root ∧
      file.components ≠ file'.components := by
  decide

end IncludeGuard
