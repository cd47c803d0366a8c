/-! # Text and bytes

A text is a list of characters and raw data is a list of bytes. File contents, paths and command
line arguments are raw data; everything that is matched, compared or printed is text.

A class of characters is given by a table of ranges of code points, `inRanges`. The blank characters
are such a class: the code points with the Unicode property `White_Space`, which are the five
controls from tabulation to carriage return, the space, the next-line control and the spaces and
separators of the other scripts. -/

namespace IncludeGuard

/-- A text is the list of its characters. -/
abbrev Text := List Char

/-- Raw data is the list of its bytes. -/
abbrev Bytes := List UInt8

namespace Text

/-! ### Numbers and truth values -/

/-- A number in decimal digits. -/
def ofNat (n : Nat) : Text :=
  Nat.toDigits 10 n

/-- A truth value as `true` or `false`. -/
def ofBool (b : Bool) : Text :=
  if b then "true".toList else "false".toList

/-! ### Classes of characters -/

/-- Some range of the table, both ends included, holds the code point `n`. -/
def inRanges (table : List (Nat × Nat)) (n : Nat) : Bool :=
  table.any fun r => decide (r.1 ≤ n) && decide (n ≤ r.2)

theorem inRanges_eq_true_iff {table : List (Nat × Nat)} {n : Nat} :
    inRanges table n = true ↔ ∃ r ∈ table, r.1 ≤ n ∧ n ≤ r.2 := by
  simp [inRanges]

/-! ### Blank characters -/

/-- The code points with the property `White_Space`. -/
def blankRanges : List (Nat × Nat) :=
  [(0x9, 0xD), (0x20, 0x20), (0x85, 0x85), (0xA0, 0xA0), (0x1680, 0x1680), (0x2000, 0x200A),
    (0x2028, 0x2029), (0x202F, 0x202F), (0x205F, 0x205F), (0x3000, 0x3000)]

/-- The character is blank. -/
def isBlank (c : Char) : Bool :=
  inRanges blankRanges c.toNat

/-- The text without the blanks at its end. -/
def trimEnd (t : Text) : Text :=
  (t.reverse.dropWhile isBlank).reverse

end Text

end IncludeGuard
