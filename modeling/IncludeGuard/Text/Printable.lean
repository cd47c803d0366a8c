import IncludeGuard.Text.Utf8

/-! # Printable text

Messages that quote an argument leave out what would act on a terminal: control characters other
than white space, and whole control sequences. A sequence starts with the escape character. What
follows says of which kind it is, and the kind says where it ends:

* a bracket starts a control sequence, up to a character from `@` to `~`;
* a closing bracket starts an operating system command, up to the bell character;
* `X`, `^` and `_` start a string, up to the string terminator, the byte `0x9C`;
* `P` starts a device control string, which is a string after its introducer of parameters and
  intermediate characters;
* anything else is a short sequence of at most some intermediate characters and a final one.

A further escape character starts anew, and the cancel and substitute characters end any sequence.

White space inside a sequence that is no string or command is printed. What is left of the sequence
is then read in one of two ways (`Interruption`): it is plain text, or it is read on as a sequence
from the next character on that is not printable.

Either way nothing but printable characters is left (`isPrintable_of_mem_printable`), and a text of
printable characters is left as it is (`printable_eq_self`). -/

namespace IncludeGuard.Text

/-! ### The kinds of sequences -/

/-- Where in a control sequence the reading stands. -/
inductive SequenceState
  | ground
  | escape
  | intermediate
  | control
  | device
  | deviceParameter
  | deviceIntermediate
  | command
  | string
deriving DecidableEq

/-- The white space controls that are printed. -/
def isLayout (c : Char) : Bool :=
  c.toNat == 0x9 || c.toNat == 0xA || c.toNat == 0xC || c.toNat == 0xD

/-- The character is printed outside of sequences: it is white space or no control of ASCII. -/
def isPrintable (c : Char) : Bool :=
  isLayout c || (decide (0x20 ≤ c.toNat) && c.toNat != 0x7F)

/-- The character ends a string: its UTF-8 form holds the byte of the string terminator. -/
def endsString (c : Char) : Bool :=
  decide (0x80 ≤ c.toNat) && (Utf8.encodeChar c).contains 0x9C

namespace SequenceState

/-- The state after the escape character and the code point `n`. -/
def opened (n : Nat) : SequenceState :=
  if n = 0x5B then .control
  else if n = 0x5D then .command
  else if n = 0x50 then .device
  else if n = 0x58 ∨ n = 0x5E ∨ n = 0x5F then .string
  else if 0x20 ≤ n ∧ n ≤ 0x2F then .intermediate
  else if 0x30 ≤ n ∧ n ≤ 0x7E then .ground
  else .escape

/-- The state after a character that is not printed and is neither an escape nor a cancel or
substitute character. -/
def skip (s : SequenceState) (c : Char) : SequenceState :=
  let n := c.toNat
  match s with
  | .ground => .ground
  | .escape => opened n
  | .intermediate => if 0x30 ≤ n ∧ n ≤ 0x7E then .ground else .intermediate
  | .control => if 0x40 ≤ n ∧ n ≤ 0x7E then .ground else .control
  | .device =>
    if 0x20 ≤ n ∧ n ≤ 0x2F then .deviceIntermediate
    else if 0x30 ≤ n ∧ n ≤ 0x3F then .deviceParameter
    else if 0x40 ≤ n ∧ n ≤ 0x7E then .string
    else .device
  | .deviceParameter =>
    if 0x20 ≤ n ∧ n ≤ 0x2F then .deviceIntermediate
    else if 0x3C ≤ n ∧ n ≤ 0x7E then .string
    else .deviceParameter
  | .deviceIntermediate =>
    if 0x30 ≤ n ∧ n ≤ 0x7E then .string else .deviceIntermediate
  | .command => if n = 0x7 then .ground else .command
  | .string => if endsString c then .ground else .string

/-- The character is printed in this state. -/
def shows (s : SequenceState) (c : Char) : Bool :=
  match s with
  | .ground => isPrintable c
  | .escape | .intermediate | .control => isLayout c
  | .device | .deviceParameter | .deviceIntermediate | .command | .string => false

/-- The state after a character that is not printed. -/
def next (s : SequenceState) (c : Char) : SequenceState :=
  if c.toNat = 0x1B then .escape
  else if c.toNat = 0x18 ∨ c.toNat = 0x1A then .ground
  else s.skip c

end SequenceState

/-! ### The printed part of a text -/

/-- How a sequence goes on that a printed white space character interrupts. -/
inductive Interruption
  /-- The white space ends the sequence. -/
  | ends
  /-- The sequence goes on at the next character that is not printable. -/
  | pauses
deriving DecidableEq

/-- The state that is left after a printed character. A character beyond ASCII ends what was
paused. -/
def Interruption.left (i : Interruption) (s : SequenceState) (c : Char) : SequenceState :=
  match i with
  | .ends => .ground
  | .pauses => if c.toNat < 0x80 then s else .ground

/-- The printed part of a text that is read from the state `s`. While `paused` holds, every
printable character is printed. -/
def printableFrom (i : Interruption) (s : SequenceState) (paused : Bool) : Text → Text
  | [] => []
  | c :: cs =>
    if (paused && isPrintable c) || s.shows c then c :: printableFrom i (i.left s c) true cs
    else printableFrom i (s.next c) false cs

/-- The printed part of a text. -/
def printable (i : Interruption) (t : Text) : Text :=
  printableFrom i .ground false t

theorem SequenceState.isPrintable_of_shows {s : SequenceState} {c : Char} (h : s.shows c = true) :
    isPrintable c = true := by
  cases s <;> simp_all [shows, isPrintable]

theorem isPrintable_of_mem_printableFrom {i : Interruption} {s : SequenceState} {paused : Bool}
    {t : Text} {c : Char} (h : c ∈ printableFrom i s paused t) : isPrintable c = true := by
  induction t generalizing s paused with
  | nil => simp [printableFrom] at h
  | cons d t ih =>
    rw [printableFrom] at h
    split at h
    · next hd =>
      rcases List.mem_cons.1 h with rfl | h
      · rcases Bool.or_eq_true_iff.1 hd with hd | hd
        · exact (Bool.and_eq_true_iff.1 hd).2
        · exact SequenceState.isPrintable_of_shows hd
      · exact ih h
    · exact ih h

/-- What is left is printable. -/
theorem isPrintable_of_mem_printable {i : Interruption} {t : Text} {c : Char}
    (h : c ∈ printable i t) : isPrintable c = true :=
  isPrintable_of_mem_printableFrom h

theorem printableFrom_ground {i : Interruption} {paused : Bool} {t : Text}
    (h : ∀ c ∈ t, isPrintable c = true) : printableFrom i .ground paused t = t := by
  induction t generalizing paused with
  | nil => rfl
  | cons c t ih =>
    have hc : SequenceState.ground.shows c = true := h c (by simp)
    have hleft : i.left .ground c = .ground := by cases i <;> simp [Interruption.left]
    rw [printableFrom, if_pos (by simp [hc]), hleft, ih fun d hd => h d (by simp [hd])]

/-- A text of printable characters is left as it is. -/
theorem printable_eq_self {i : Interruption} {t : Text} (h : ∀ c ∈ t, isPrintable c = true) :
    printable i t = t :=
  printableFrom_ground h

end IncludeGuard.Text
