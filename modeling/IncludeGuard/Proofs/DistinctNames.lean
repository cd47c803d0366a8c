import IncludeGuard.Proofs.AsciiName
import Mathlib.Data.List.Forall2

/-! # Names that tell headers apart

The low lines in a name come from the joints between its parts, and from low lines and hyphens on
the path. If there are none of the latter, the parts can be read off the name, and from them the
path, but for the case of its letters: two headers in directories have the same name exactly if
they have the same names below the root up to case (`guardName_eq_guardName_iff`). Full stops do
not stand in the way, since the extension of a header has none. -/

namespace IncludeGuard

/-! ### Up to case -/

/-- The byte is a capital letter of ASCII, and the other one is its small letter. -/
def IsCapitalOf (b c : UInt8) : Prop :=
  0x41 ≤ b.toNat ∧ b.toNat ≤ 0x5A ∧ c.toNat = b.toNat + 0x20

/-- The bytes are the same, or the two cases of a letter of ASCII. -/
def SameLetter (b c : UInt8) : Prop :=
  b = c ∨ IsCapitalOf b c ∨ IsCapitalOf c b

instance (b c : UInt8) : Decidable (SameLetter b c) := by
  unfold SameLetter IsCapitalOf; infer_instance

/-- The byte is one of those that become low lines: a low line or a hyphen. -/
def IsJoint (b : UInt8) : Prop :=
  b.toNat = 0x5F ∨ b.toNat = 0x2D

instance (b : UInt8) : Decidable (IsJoint b) := by
  unfold IsJoint; infer_instance

theorem nameChar_ne_lowLine {b : UInt8} (hb : IsAscii b) (h : ¬ IsJoint b) : nameChar b ≠ '_' :=
  IsAscii.of_forall (P := fun b => ¬ IsJoint b → nameChar b ≠ '_') (by decide +kernel) hb h

theorem toNat_nameChar {b : UInt8} (hb : IsAscii b) (h : ¬ IsJoint b) :
    (nameChar b).toNat = if 0x61 ≤ b.toNat ∧ b.toNat ≤ 0x7A then b.toNat - 0x20 else b.toNat :=
  IsAscii.of_forall (P := fun b => ¬ IsJoint b → (nameChar b).toNat =
    if 0x61 ≤ b.toNat ∧ b.toNat ≤ 0x7A then b.toNat - 0x20 else b.toNat) (by decide +kernel) hb h

theorem sameLetter_iff {b c : UInt8} (hb : IsAscii b) (hb' : ¬ IsJoint b) (hc : IsAscii c)
    (hc' : ¬ IsJoint c) : SameLetter b c ↔ nameChar b = nameChar c := by
  rw [← Char.toNat_inj, toNat_nameChar hb hb', toNat_nameChar hc hc', SameLetter,
    ← UInt8.toNat_inj]
  unfold IsCapitalOf
  split_ifs <;> omega

theorem forall₂_iff_map_eq {α β : Type} {R : α → α → Prop} {f : α → β} {l l' : List α}
    (h : ∀ a ∈ l, ∀ b ∈ l', R a b ↔ f a = f b) : List.Forall₂ R l l' ↔ l.map f = l'.map f := by
  induction l generalizing l' with
  | nil => simp [eq_comm]
  | cons a l ih =>
    cases l' with
    | nil => simp
    | cons b l' =>
      rw [List.forall₂_cons, List.map_cons, List.map_cons, List.cons.injEq,
        h a List.mem_cons_self b List.mem_cons_self,
        ih fun c hc d hd => h c (List.mem_cons_of_mem a hc) d (List.mem_cons_of_mem b hd)]

/-! ### The parts of a name -/

theorem intercalate_lowLine_inj {ss ss' : List Text} (hne : ss ≠ []) (hne' : ss' ≠ [])
    (h : ∀ s ∈ ss, '_' ∉ s) (h' : ∀ s ∈ ss', '_' ∉ s) :
    ['_'].intercalate ss = ['_'].intercalate ss' ↔ ss = ss' := by
  constructor
  · intro heq
    rw [← List.splitOn_intercalate '_' h hne, heq, List.splitOn_intercalate '_' h' hne']
  · rintro rfl
    rfl

theorem append_cons_inj_of_notMem_right {α : Type} {x : α} {s s' t t' : List α} (h : x ∉ t)
    (h' : x ∉ t') : s ++ x :: t = s' ++ x :: t' ↔ s = s' ∧ t = t' := by
  constructor
  · intro heq
    -- if one front is longer than the other, it takes an `x` from the other's rest
    rcases List.append_eq_append_iff.mp heq with ⟨_ | ⟨y, u⟩, rfl, hu⟩ | ⟨_ | ⟨y, u⟩, rfl, hu⟩
    · simpa using hu
    · exact absurd (by rw [(List.cons.inj hu).2]; simp) h
    · simpa using hu.symm
    · exact absurd (by rw [(List.cons.inj hu).2]; simp) h'
  · rintro ⟨rfl, rfl⟩
    rfl

theorem dot_notMem_map_nameChar : ∀ ext ∈ Path.headerExtensions, '.' ∉ ext.map nameChar := by
  decide +kernel

theorem map_nameParts_eq_iff {dirs dirs' : List Bytes} {stem stem' ext ext' : Bytes}
    (hdirs : dirs ≠ []) (hdirs' : dirs' ≠ []) (hext : ext ∈ Path.headerExtensions)
    (hext' : ext' ∈ Path.headerExtensions) :
    (nameParts dirs stem ext).map (·.map nameChar) =
        (nameParts dirs' stem' ext').map (·.map nameChar) ↔
      (dirs ++ [stem ++ Path.dot :: ext]).map (·.map nameChar) =
        (dirs' ++ [stem' ++ Path.dot :: ext']).map (·.map nameChar) := by
  have hdot : nameChar Path.dot = '.' := by decide
  have hfile : (stem ++ Path.dot :: ext).map nameChar = (stem' ++ Path.dot :: ext').map nameChar ↔
      stem.map nameChar = stem'.map nameChar ∧ ext.map nameChar = ext'.map nameChar := by
    rw [List.map_append, List.map_append, List.map_cons, List.map_cons, hdot]
    exact append_cons_inj_of_notMem_right (dot_notMem_map_nameChar ext hext)
      (dot_notMem_map_nameChar ext' hext')
  rw [nameParts, nameParts, if_neg hdirs, if_neg hdirs', List.map_append, List.map_append,
    List.map_append, List.map_append]
  constructor
  · intro h
    obtain ⟨hd, hlast⟩ := List.append_inj' h rfl
    obtain ⟨hs, he⟩ : stem.map nameChar = stem'.map nameChar ∧
        ext.map nameChar = ext'.map nameChar := by simpa using hlast
    rw [hd, List.map_singleton, List.map_singleton, hfile.mpr ⟨hs, he⟩]
  · intro h
    obtain ⟨hd, hlast⟩ := List.append_inj' h rfl
    obtain ⟨hs, he⟩ := hfile.mp (by simpa using hlast)
    simp [hd, hs, he]

theorem ne_nil_of_two_le_length {dirs : List Bytes} {name : Bytes}
    (h : 2 ≤ (dirs ++ [name]).length) : dirs ≠ [] := by
  rintro rfl
  simp at h

/-- **Headers with the same name.** Two headers that lie in directories, with ASCII names below the
root in which there is no low line and no hyphen, have the same name exactly if they have as many
names below the root and these are the same one by one, up to the case of letters. -/
theorem guardName_eq_guardName_iff {file file' root : Path} {names names' : List Bytes}
    (h : IsAsciiHeader file root names) (h' : IsAsciiHeader file' root names')
    (hlen : 2 ≤ names.length) (hlen' : 2 ≤ names'.length)
    (hjoint : ∀ n ∈ names, ∀ b ∈ n, ¬ IsJoint b) (hjoint' : ∀ n ∈ names', ∀ b ∈ n, ¬ IsJoint b) :
    ∃ e e', guardName file root = .ok e ∧ guardName file' root = .ok e' ∧
      (e = e' ↔ List.Forall₂ (List.Forall₂ SameLetter) names names') := by
  obtain ⟨dirs, stem, ext, rfl, hstem, hext⟩ := h.exists_eq_append (by rintro rfl; simp at hlen)
  obtain ⟨dirs', stem', ext', rfl, hstem', hext'⟩ :=
    h'.exists_eq_append (by rintro rfl; simp at hlen')
  have hlowLine {n : Bytes} (ha : ∀ b ∈ n, IsAscii b) (hj : ∀ b ∈ n, ¬ IsJoint b) :
      '_' ∉ n.map nameChar := by
    intro hmem
    obtain ⟨b, hb, heq⟩ := List.mem_map.mp hmem
    exact nameChar_ne_lowLine (ha b hb) (hj b hb) heq
  have hparts : ∀ s ∈ (nameParts dirs stem ext).map (·.map nameChar), '_' ∉ s :=
    List.forall_mem_map.mpr fun n hn => hlowLine (forall_mem_nameParts h.isAscii n hn)
      (forall_mem_nameParts hjoint n hn)
  have hparts' : ∀ s ∈ (nameParts dirs' stem' ext').map (·.map nameChar), '_' ∉ s :=
    List.forall_mem_map.mpr fun n hn => hlowLine (forall_mem_nameParts h'.isAscii n hn)
      (forall_mem_nameParts hjoint' n hn)
  have hne (dirs : List Bytes) (stem ext : Bytes) :
      (nameParts dirs stem ext).map (·.map nameChar) ≠ [] := by
    simp [nameParts]
  refine ⟨_, _, h.guardName_eq hstem hext, h'.guardName_eq hstem' hext', ?_⟩
  rw [intercalate_lowLine_inj (hne _ _ _) (hne _ _ _) hparts hparts',
    map_nameParts_eq_iff (ne_nil_of_two_le_length hlen) (ne_nil_of_two_le_length hlen') hext hext']
  symm
  refine forall₂_iff_map_eq fun n hn n' hn' => forall₂_iff_map_eq fun b hb b' hb' => ?_
  exact sameLetter_iff (h.isAscii n hn b hb) (hjoint n hn b hb) (h'.isAscii n' hn' b' hb')
    (hjoint' n' hn' b' hb')

/-- The theorem at two headers whose names below the root differ in case, and at one that differs
from them in the place of a full stop. -/
theorem guardName_eq_guardName_iff_cases :
    let root := Path.ofText "/p".toList
    let file := Path.ofText "/p/net/A.b.h".toList
    let file' := Path.ofText "/p//NET/a.B.h".toList
    let other := Path.ofText "/p/net/A/b.h".toList
    let names := [Utf8.encode "net".toList, Utf8.encode "A.b.h".toList]
    let names' := [Utf8.encode "NET".toList, Utf8.encode "a.B.h".toList]
    let otherNames := [Utf8.encode "net".toList, Utf8.encode "A".toList, Utf8.encode "b.h".toList]
    IsAsciiHeader file root names ∧ IsAsciiHeader file' root names' ∧
    IsAsciiHeader other root otherNames ∧
    (∀ n ∈ names ++ names' ++ otherNames, ∀ b ∈ n, ¬ IsJoint b) ∧
    guardName file root = guardName file' root ∧ guardName file root ≠ guardName other root := by
  intro root file file' other names names' otherNames
  have h : IsAsciiHeader file root names := ⟨by decide, by decide, by decide +kernel⟩
  have h' : IsAsciiHeader file' root names' := ⟨by decide, by decide, by decide +kernel⟩
  have hother : IsAsciiHeader other root otherNames := ⟨by decide, by decide, by decide +kernel⟩
  have hjoint : ∀ n ∈ names ++ names' ++ otherNames, ∀ b ∈ n, ¬ IsJoint b := by
    decide +kernel
  obtain ⟨e, e', he, he', hiff⟩ := guardName_eq_guardName_iff h h' (by decide) (by decide)
    (by decide +kernel) (by decide +kernel)
  obtain ⟨e₁, e₂, he₁, he₂, hiff₂⟩ := guardName_eq_guardName_iff h hother (by decide) (by decide)
    (by decide +kernel) (by decide +kernel)
  refine ⟨h, h', hother, hjoint, ?_, fun heq => ?_⟩
  · rw [he, he', hiff.mpr (by decide)]
  · rw [he₁, he₂] at heq
    exact absurd (hiff₂.mp (Except.ok.inj heq)).length_eq (by decide)

end IncludeGuard
