import IncludeGuard.Text.Utf8
import Mathlib.Tactic.SplitIfs

/-! # Well-formed data

Data is well formed if each of its pieces is a character. A character is read from no other bytes
than those it is written as, so well-formed data is what a text is written as
(`decode?_eq_some_iff`), and it is shown as that text (`WellFormed.encode_decodeLossy`).

The reading is followed byte by byte: `exists_inner_of_begun` and `exists_last_of_begun` say what
has to come next in a character that has begun, and `encodeChar_one` to `encodeChar_four` give the
bytes back from the value that was put together from them. -/

namespace IncludeGuard.Utf8

/-- The data is read as a text without replacements. -/
def WellFormed (bs : Bytes) : Prop :=
  (decode? bs).isSome = true

instance (bs : Bytes) : Decidable (WellFormed bs) :=
  inferInstanceAs (Decidable ((decode? bs).isSome = true))

theorem eq_map_some_of_mapM_id {α : Type} {l : List (Option α)} {as : List α}
    (h : l.mapM id = some as) : l = as.map some := by
  induction l generalizing as with
  | nil =>
    cases h
    rfl
  | cons o l ih =>
    rw [List.mapM_cons] at h
    obtain ⟨a, ha, h⟩ := Option.bind_eq_some_iff.mp h
    obtain ⟨as', has', h⟩ := Option.bind_eq_some_iff.mp h
    cases h
    rw [ih has', List.map_cons, ← ha]
    rfl

/-! ### After the first byte -/

section Begun
variable {s : Begun} {bs : Bytes} {t : Text} (h : piecesFrom (some s) bs = t.map some)
include h

theorem exists_cons_of_begun :
    ∃ b bs', bs = b :: bs' ∧ s.low ≤ b.toNat ∧ b.toNat ≤ s.high := by
  cases bs with
  | nil => cases t <;> simp [piecesFrom] at h
  | cons b bs =>
    by_cases hb : s.low ≤ b.toNat ∧ b.toNat ≤ s.high
    · exact ⟨b, bs, rfl, hb⟩
    · rw [piecesFrom_cons, step, if_neg hb] at h
      cases t <;> simp at h

theorem exists_last_of_begun (hs : s.after = 0) :
    ∃ b bs' t', bs = b :: bs' ∧ s.low ≤ b.toNat ∧ b.toNat ≤ s.high ∧
      t = Char.ofNat (s.value * 0x40 + (b.toNat - 0x80)) :: t' ∧
      piecesFrom none bs' = t'.map some := by
  obtain ⟨b, bs', rfl, hlow, hhigh⟩ := exists_cons_of_begun h
  rw [piecesFrom_cons, step, if_pos ⟨hlow, hhigh⟩, hs] at h
  cases t with
  | nil => simp at h
  | cons c t' =>
    obtain ⟨hc, ht'⟩ : Char.ofNat (s.value * 0x40 + (b.toNat - 0x80)) = c ∧
        piecesFrom none bs' = t'.map some := by simpa using h
    exact ⟨b, bs', t', rfl, hlow, hhigh, by rw [hc], ht'⟩

theorem exists_inner_of_begun {k : Nat} (hs : s.after = k + 1) :
    ∃ b bs', bs = b :: bs' ∧ s.low ≤ b.toNat ∧ b.toNat ≤ s.high ∧
      piecesFrom (some ⟨s.value * 0x40 + (b.toNat - 0x80), k, 0x80, 0xBF⟩) bs' = t.map some := by
  obtain ⟨b, bs', rfl, hlow, hhigh⟩ := exists_cons_of_begun h
  rw [piecesFrom_cons, step, if_pos ⟨hlow, hhigh⟩, hs] at h
  exact ⟨b, bs', rfl, hlow, hhigh, h⟩

end Begun

/-! ### The bytes of a value -/

section Bytes
variable {a b c d : UInt8}

theorem toNat_ofNat {n : Nat} (h : n.isValidChar) : (Char.ofNat n).toNat = n := by
  rw [Char.ofNat, dif_pos h]
  rfl

theorem toUInt8_eq {n : Nat} (h : n = a.toNat) : n.toUInt8 = a := by
  rw [h]
  exact UInt8.ofNat_toNat

theorem encodeChar_one (ha : a.toNat < 0x80) : encodeChar (Char.ofNat a.toNat) = [a] := by
  have hcode : (Char.ofNat a.toNat).toNat = a.toNat := toNat_ofNat (Or.inl (by omega))
  simp only [encodeChar, hcode]
  rw [if_pos ha, toUInt8_eq rfl]

theorem encodeChar_two (ha : 0xC2 ≤ a.toNat) (ha' : a.toNat < 0xE0) (hb : 0x80 ≤ b.toNat)
    (hb' : b.toNat ≤ 0xBF) :
    encodeChar (Char.ofNat ((a.toNat - 0xC0) * 0x40 + (b.toNat - 0x80))) = [a, b] := by
  generalize hv : (a.toNat - 0xC0) * 0x40 + (b.toNat - 0x80) = v
  have hcode : (Char.ofNat v).toNat = v := toNat_ofNat (Or.inl (by omega))
  simp only [encodeChar, hcode]
  rw [if_neg (by omega), if_pos (by omega), toUInt8_eq (a := a) (by omega),
    toUInt8_eq (a := b) (by omega)]

theorem encodeChar_three (ha : 0xE0 ≤ a.toNat) (ha' : a.toNat < 0xF0)
    (hb : (if a.toNat = 0xE0 then 0xA0 else 0x80) ≤ b.toNat)
    (hb' : b.toNat ≤ if a.toNat = 0xED then 0x9F else 0xBF) (hc : 0x80 ≤ c.toNat)
    (hc' : c.toNat ≤ 0xBF) :
    encodeChar (Char.ofNat (((a.toNat - 0xE0) * 0x40 + (b.toNat - 0x80)) * 0x40 +
      (c.toNat - 0x80))) = [a, b, c] := by
  generalize hv : ((a.toNat - 0xE0) * 0x40 + (b.toNat - 0x80)) * 0x40 + (c.toNat - 0x80) = v
  have hb2 : 0x80 ≤ b.toNat ∧ b.toNat ≤ 0xBF := by split_ifs at hb hb' <;> omega
  -- the two restricted first bytes keep out long forms and surrogates
  have hlow : 0x800 ≤ v := by split_ifs at hb <;> omega
  have hvalid : v.isValidChar := by
    split_ifs at hb'
    · exact Or.inl (by omega)
    · by_cases hed : a.toNat < 0xED
      · exact Or.inl (by omega)
      · exact Or.inr ⟨by omega, by omega⟩
  have hcode : (Char.ofNat v).toNat = v := toNat_ofNat hvalid
  simp only [encodeChar, hcode]
  rw [if_neg (by omega), if_neg (by omega), if_pos (by omega), toUInt8_eq (a := a) (by omega),
    toUInt8_eq (a := b) (by omega), toUInt8_eq (a := c) (by omega)]

theorem encodeChar_four (ha : 0xF0 ≤ a.toNat) (ha' : a.toNat < 0xF5)
    (hb : (if a.toNat = 0xF0 then 0x90 else 0x80) ≤ b.toNat)
    (hb' : b.toNat ≤ if a.toNat = 0xF4 then 0x8F else 0xBF) (hc : 0x80 ≤ c.toNat)
    (hc' : c.toNat ≤ 0xBF) (hd : 0x80 ≤ d.toNat) (hd' : d.toNat ≤ 0xBF) :
    encodeChar (Char.ofNat ((((a.toNat - 0xF0) * 0x40 + (b.toNat - 0x80)) * 0x40 +
      (c.toNat - 0x80)) * 0x40 + (d.toNat - 0x80))) = [a, b, c, d] := by
  generalize hv : (((a.toNat - 0xF0) * 0x40 + (b.toNat - 0x80)) * 0x40 + (c.toNat - 0x80)) * 0x40 +
    (d.toNat - 0x80) = v
  have hb2 : 0x80 ≤ b.toNat ∧ b.toNat ≤ 0xBF := by split_ifs at hb hb' <;> omega
  have hlow : 0x10000 ≤ v := by split_ifs at hb <;> omega
  have hhigh : v < 0x110000 := by split_ifs at hb' <;> omega
  have hcode : (Char.ofNat v).toNat = v := toNat_ofNat (Or.inr ⟨by omega, hhigh⟩)
  simp only [encodeChar, hcode]
  rw [if_neg (by omega), if_neg (by omega), if_neg (by omega), toUInt8_eq (a := a) (by omega),
    toUInt8_eq (a := b) (by omega), toUInt8_eq (a := c) (by omega), toUInt8_eq (a := d) (by omega)]

end Bytes

/-! ### One character -/

theorem lead?_cases {a : UInt8} {s : Begun} (h : lead? a = some s) :
    (0xC2 ≤ a.toNat ∧ a.toNat < 0xE0 ∧ s = ⟨a.toNat - 0xC0, 0, 0x80, 0xBF⟩) ∨
    (0xE0 ≤ a.toNat ∧ a.toNat < 0xF0 ∧ s = ⟨a.toNat - 0xE0, 1,
      if a.toNat = 0xE0 then 0xA0 else 0x80, if a.toNat = 0xED then 0x9F else 0xBF⟩) ∨
    (0xF0 ≤ a.toNat ∧ a.toNat < 0xF5 ∧ s = ⟨a.toNat - 0xF0, 2,
      if a.toNat = 0xF0 then 0x90 else 0x80, if a.toNat = 0xF4 then 0x8F else 0xBF⟩) := by
  unfold lead? at h
  dsimp only at h
  by_cases h2 : a.toNat < 0xC2
  · simp [h2] at h
  by_cases h3 : a.toNat < 0xE0
  · rw [if_neg h2, if_pos h3, Option.some.injEq] at h
    exact Or.inl ⟨by omega, h3, h.symm⟩
  by_cases h4 : a.toNat < 0xF0
  · rw [if_neg h2, if_neg h3, if_pos h4, Option.some.injEq] at h
    exact Or.inr (Or.inl ⟨by omega, h4, h.symm⟩)
  by_cases h5 : a.toNat < 0xF5
  · rw [if_neg h2, if_neg h3, if_neg h4, if_pos h5, Option.some.injEq] at h
    exact Or.inr (Or.inr ⟨by omega, h5, h.symm⟩)
  · simp [h2, h3, h4, h5] at h

theorem exists_cons_of_piecesFrom {a : UInt8} {bs : Bytes} {t : Text}
    (h : piecesFrom none (a :: bs) = t.map some) :
    ∃ x t' bs', t = x :: t' ∧ a :: bs = encodeChar x ++ bs' ∧
      piecesFrom none bs' = t'.map some := by
  rw [piecesFrom_cons, step, start] at h
  by_cases hascii : a.toNat < 0x80
  · rw [if_pos hascii] at h
    cases t with
    | nil => simp at h
    | cons x t =>
      obtain ⟨rfl, ht⟩ : Char.ofNat a.toNat = x ∧ piecesFrom none bs = t.map some := by
        simpa using h
      exact ⟨_, t, bs, rfl, by rw [encodeChar_one hascii]; rfl, ht⟩
  rw [if_neg hascii] at h
  cases hlead : lead? a with
  | none =>
    rw [hlead] at h
    cases t <;> simp at h
  | some s =>
    rw [hlead] at h
    rcases lead?_cases hlead with ⟨ha, ha', rfl⟩ | ⟨ha, ha', rfl⟩ | ⟨ha, ha', rfl⟩
    · obtain ⟨b, bs, t, rfl, hb, hb', rfl, ht⟩ := exists_last_of_begun h rfl
      exact ⟨_, t, bs, rfl, by rw [encodeChar_two ha ha' hb hb']; rfl, ht⟩
    · obtain ⟨b, bs, rfl, hb, hb', h⟩ := exists_inner_of_begun h rfl
      obtain ⟨c, bs, t, rfl, hc, hc', rfl, ht⟩ := exists_last_of_begun h rfl
      exact ⟨_, t, bs, rfl, by rw [encodeChar_three ha ha' hb hb' hc hc']; rfl, ht⟩
    · obtain ⟨b, bs, rfl, hb, hb', h⟩ := exists_inner_of_begun h rfl
      obtain ⟨c, bs, rfl, hc, hc', h⟩ := exists_inner_of_begun h rfl
      obtain ⟨d, bs, t, rfl, hd, hd', rfl, ht⟩ := exists_last_of_begun h rfl
      exact ⟨_, t, bs, rfl, by rw [encodeChar_four ha ha' hb hb' hc hc' hd hd']; rfl, ht⟩

/-! ### Well-formed data -/

theorem encode_of_piecesFrom {bs : Bytes} {t : Text} (h : piecesFrom none bs = t.map some) :
    encode t = bs := by
  induction t generalizing bs with
  | nil =>
    cases bs with
    | nil => rfl
    | cons a bs =>
      obtain ⟨x, t', bs', ht, -, -⟩ := exists_cons_of_piecesFrom h
      cases ht
  | cons x t ih =>
    cases bs with
    | nil => simp [piecesFrom] at h
    | cons a bs =>
      obtain ⟨x', t', bs', ht, hbytes, h'⟩ := exists_cons_of_piecesFrom h
      cases ht
      rw [hbytes, ← ih h']
      rfl

/-- **Reading and writing texts.** Data is read as a text exactly if the text is written so. -/
theorem decode?_eq_some_iff {bs : Bytes} {t : Text} : decode? bs = some t ↔ encode t = bs := by
  constructor
  · intro h
    exact encode_of_piecesFrom (eq_map_some_of_mapM_id h)
  · rintro rfl
    exact decode?_encode t

theorem wellFormed_iff {bs : Bytes} : WellFormed bs ↔ ∃ t, encode t = bs := by
  rw [WellFormed, Option.isSome_iff_exists]
  exact exists_congr fun _ => decode?_eq_some_iff

theorem wellFormed_encode (t : Text) : WellFormed (encode t) :=
  wellFormed_iff.mpr ⟨t, rfl⟩

theorem WellFormed.encode_decodeLossy {bs : Bytes} (h : WellFormed bs) :
    encode (decodeLossy bs) = bs := by
  obtain ⟨t, rfl⟩ := wellFormed_iff.mp h
  rw [decodeLossy_encode]

end IncludeGuard.Utf8
