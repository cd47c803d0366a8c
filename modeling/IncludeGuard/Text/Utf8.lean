import IncludeGuard.Text.Basic

/-! # UTF-8

Texts are stored as UTF-8. Reading goes byte by byte (`step`) and cuts the data into pieces
(`pieces`): a piece is a character, or `none` for a longest run of bytes that begins a character
and does not complete it. Both readers are views of the pieces:

* `decode?` accepts the data when every piece is a character;
* `decodeLossy` writes the replacement character for each piece that is none.

Both give a text back from its own bytes (`decode?_encode`, `decodeLossy_encode`). -/

namespace IncludeGuard.Utf8

/-! ### Writing -/

/-- The bytes of one character. -/
def encodeChar (c : Char) : Bytes :=
  let n := c.toNat
  if n < 0x80 then [n.toUInt8]
  else if n < 0x800 then [(0xC0 + n / 0x40).toUInt8, (0x80 + n % 0x40).toUInt8]
  else if n < 0x10000 then
    [(0xE0 + n / 0x1000).toUInt8, (0x80 + n / 0x40 % 0x40).toUInt8, (0x80 + n % 0x40).toUInt8]
  else
    [(0xF0 + n / 0x40000).toUInt8, (0x80 + n / 0x1000 % 0x40).toUInt8,
      (0x80 + n / 0x40 % 0x40).toUInt8, (0x80 + n % 0x40).toUInt8]

/-- The bytes of a text. -/
def encode (t : Text) : Bytes :=
  t.flatMap encodeChar

/-! ### Reading -/

/-- A character of which at least one byte has been read and at least one is still to come. -/
structure Begun where
  /-- The bits read so far. -/
  value : Nat
  /-- How many bytes follow the next one. -/
  after : Nat
  /-- The least value of the next byte. -/
  low : Nat
  /-- The greatest value of the next byte. -/
  high : Nat

/-- What a first byte of several announces. The next byte of some is restricted, so that no
character has a second, longer form and no surrogate has a form at all. -/
def lead? (b : UInt8) : Option Begun :=
  let n := b.toNat
  if n < 0xC2 then none
  else if n < 0xE0 then some ⟨n - 0xC0, 0, 0x80, 0xBF⟩
  else if n < 0xF0 then
    some ⟨n - 0xE0, 1, if n = 0xE0 then 0xA0 else 0x80, if n = 0xED then 0x9F else 0xBF⟩
  else if n < 0xF5 then
    some ⟨n - 0xF0, 2, if n = 0xF0 then 0x90 else 0x80, if n = 0xF4 then 0x8F else 0xBF⟩
  else none

/-- Reads the first byte of a piece: the pieces it completes and the character it begins. -/
def start (b : UInt8) : List (Option Char) × Option Begun :=
  if b.toNat < 0x80 then ([some (Char.ofNat b.toNat)], none)
  else
    match lead? b with
    | some s => ([], some s)
    | none => ([none], none)

/-- Reads a byte after the character begun, if any. A byte that cannot continue it ends the piece
and is read again as a first byte. -/
def step : Option Begun → UInt8 → List (Option Char) × Option Begun
  | none, b => start b
  | some s, b =>
    if s.low ≤ b.toNat ∧ b.toNat ≤ s.high then
      let value := s.value * 0x40 + (b.toNat - 0x80)
      match s.after with
      | 0 => ([some (Char.ofNat value)], none)
      | k + 1 => ([], some ⟨value, k, 0x80, 0xBF⟩)
    else
      let (out, next) := start b
      (none :: out, next)

/-- The pieces of the data that follows what was begun. -/
def piecesFrom : Option Begun → Bytes → List (Option Char)
  | none, [] => []
  | some _, [] => [none]
  | s, b :: bs => (step s b).1 ++ piecesFrom (step s b).2 bs

/-- The pieces of the data. -/
def pieces (bs : Bytes) : List (Option Char) :=
  piecesFrom none bs

/-- The text the data stands for, if it is well formed. -/
def decode? (bs : Bytes) : Option Text :=
  (pieces bs).mapM id

/-- The text the data stands for, with U+FFFD in place of each ill-formed piece. -/
def decodeLossy (bs : Bytes) : Text :=
  (pieces bs).map (·.getD (Char.ofNat 0xFFFD))

/-! ### Reading back what was written -/

theorem piecesFrom_cons (s : Option Begun) (b : UInt8) (bs : Bytes) :
    piecesFrom s (b :: bs) = (step s b).1 ++ piecesFrom (step s b).2 bs := by
  cases s <;> rfl

theorem toNat_toUInt8 {n : Nat} (h : n < 256) : n.toUInt8.toNat = n := by
  simp [Nat.toUInt8]; omega

theorem start_ascii {n : Nat} (h : n < 0x80) :
    start n.toUInt8 = ([some (Char.ofNat n)], none) := by
  simp [start, toNat_toUInt8 (show n < 256 by omega), h]

theorem start_lead {n : Nat} {s : Begun} (hn : 0x80 ≤ n) (h : n < 256)
    (hs : lead? n.toUInt8 = some s) : start n.toUInt8 = ([], some s) := by
  have : ¬ n < 0x80 := by omega
  simp [start, toNat_toUInt8 h, this, hs]

theorem step_last {s : Begun} {n : Nat} (h : n < 256) (hlow : s.low ≤ n) (hhigh : n ≤ s.high)
    (hs : s.after = 0) :
    step (some s) n.toUInt8 = ([some (Char.ofNat (s.value * 0x40 + (n - 0x80)))], none) := by
  simp [step, toNat_toUInt8 h, hlow, hhigh, hs]

theorem step_inner {s : Begun} {n k : Nat} (h : n < 256) (hlow : s.low ≤ n) (hhigh : n ≤ s.high)
    (hs : s.after = k + 1) :
    step (some s) n.toUInt8 = ([], some ⟨s.value * 0x40 + (n - 0x80), k, 0x80, 0xBF⟩) := by
  simp [step, toNat_toUInt8 h, hlow, hhigh, hs]

theorem toNat_bounds (c : Char) :
    c.toNat < 0x110000 ∧ ¬ (0xD800 ≤ c.toNat ∧ c.toNat < 0xE000) := by
  rcases c.valid with h | h
  · have h' : c.toNat < 0xD800 := h
    omega
  · have h' : 0xDFFF < c.toNat ∧ c.toNat < 0x110000 := h
    omega

theorem lead?_two {k : Nat} (h : 2 ≤ k) (h' : k < 0x20) :
    lead? (0xC0 + k).toUInt8 = some ⟨k, 0, 0x80, 0xBF⟩ := by
  have e : ((0xC0 + k).toUInt8).toNat = 0xC0 + k := toNat_toUInt8 (by omega)
  unfold lead?
  simp only [e]
  rw [if_neg (by omega), if_pos (by omega), Nat.add_sub_cancel_left]

theorem lead?_three {k : Nat} (h : k < 0x10) :
    lead? (0xE0 + k).toUInt8 =
      some ⟨k, 1, if k = 0 then 0xA0 else 0x80, if k = 0xD then 0x9F else 0xBF⟩ := by
  have e : ((0xE0 + k).toUInt8).toNat = 0xE0 + k := toNat_toUInt8 (by omega)
  unfold lead?
  simp only [e]
  have h0 : 0xE0 + k = 0xE0 ↔ k = 0 := by omega
  have hD : 0xE0 + k = 0xED ↔ k = 0xD := by omega
  rw [if_neg (by omega), if_neg (by omega), if_pos (by omega), Nat.add_sub_cancel_left]
  simp only [h0, hD]

theorem lead?_four {k : Nat} (h : k < 5) :
    lead? (0xF0 + k).toUInt8 =
      some ⟨k, 2, if k = 0 then 0x90 else 0x80, if k = 4 then 0x8F else 0xBF⟩ := by
  have e : ((0xF0 + k).toUInt8).toNat = 0xF0 + k := toNat_toUInt8 (by omega)
  unfold lead?
  simp only [e]
  have h0 : 0xF0 + k = 0xF0 ↔ k = 0 := by omega
  have h4 : 0xF0 + k = 0xF4 ↔ k = 4 := by omega
  rw [if_neg (by omega), if_neg (by omega), if_neg (by omega), if_pos (by omega),
    Nat.add_sub_cancel_left]
  simp only [h0, h4]

/-- The bytes of a character are read back as that character. -/
theorem piecesFrom_encodeChar (c : Char) (bs : Bytes) :
    piecesFrom none (encodeChar c ++ bs) = some c :: piecesFrom none bs := by
  obtain ⟨hlt, hsur⟩ := toNat_bounds c
  have hv : Char.ofNat c.toNat = c := Char.ofNat_toNat c
  unfold encodeChar
  generalize c.toNat = n at *
  dsimp only
  split
  · next h =>
    rw [List.cons_append, piecesFrom_cons, step, start_ascii h, hv]
    rfl
  split
  · next h1 h2 =>
    simp only [List.cons_append, List.nil_append, piecesFrom_cons]
    rw [step, start_lead (by omega) (by omega) (lead?_two (by omega) (by omega)),
      step_last (by omega) (by simp) (by simp; omega) rfl]
    rw [show n / 0x40 * 0x40 + (0x80 + n % 0x40 - 0x80) = n by omega, hv]
    rfl
  split
  · next h1 h2 h3 =>
    simp only [List.cons_append, List.nil_append, piecesFrom_cons]
    rw [step, start_lead (by omega) (by omega) (lead?_three (by omega)),
      step_inner (k := 0) (by omega) (by dsimp only; split <;> omega)
        (by dsimp only; split <;> omega) rfl,
      step_last (by omega) (by simp) (by simp; omega) rfl]
    dsimp only
    rw [show (n / 0x1000 * 0x40 + (0x80 + n / 0x40 % 0x40 - 0x80)) * 0x40 +
      (0x80 + n % 0x40 - 0x80) = n by omega, hv]
    rfl
  · next h1 h2 h3 =>
    simp only [List.cons_append, List.nil_append, piecesFrom_cons]
    rw [step, start_lead (by omega) (by omega) (lead?_four (by omega)),
      step_inner (k := 1) (by omega) (by dsimp only; split <;> omega)
        (by dsimp only; split <;> omega) rfl,
      step_inner (k := 0) (by omega) (by simp) (by simp; omega) rfl,
      step_last (by omega) (by simp) (by simp; omega) rfl]
    dsimp only
    rw [show ((n / 0x40000 * 0x40 + (0x80 + n / 0x1000 % 0x40 - 0x80)) * 0x40 +
      (0x80 + n / 0x40 % 0x40 - 0x80)) * 0x40 + (0x80 + n % 0x40 - 0x80) = n by omega, hv]
    rfl

theorem pieces_encode (t : Text) : pieces (encode t) = t.map some := by
  induction t with
  | nil => rfl
  | cons c cs ih =>
    have : encode (c :: cs) = encodeChar c ++ encode cs := rfl
    rw [pieces, this, piecesFrom_encodeChar, ← pieces, ih]
    rfl

/-- Stored text is read back. -/
theorem decode?_encode (t : Text) : decode? (encode t) = some t := by
  rw [decode?, pieces_encode]
  induction t with
  | nil => rfl
  | cons c cs ih => simp [List.mapM_cons, ih]

theorem decodeLossy_encode (t : Text) : decodeLossy (encode t) = t := by
  rw [decodeLossy, pieces_encode, List.map_map]
  exact List.map_id _

end IncludeGuard.Utf8
