import IncludeGuard.Text.Basic

/-! # Lines

A line is a piece of a text together with its terminator: the text is the concatenation of its
lines (`flatten_splitLines`), and a line feed occurs only at the end of a line. The last line may
lack a terminator. A line that is replaced keeps its kind of terminator
(`lineEnding`). -/

namespace IncludeGuard

/-- A line of a text, terminator included. -/
abbrev Line := Text

/-- The lines of a text. A text that ends in a line feed has no empty last line. -/
def splitLines : Text → List Line
  | [] => []
  | c :: cs =>
    if c = '\n' then ['\n'] :: splitLines cs
    else
      match splitLines cs with
      | [] => [[c]]
      | l :: ls => (c :: l) :: ls

/-- The terminator to write after a line: carriage return and line feed if the line ends so, a line
feed alone otherwise. -/
def lineEnding (l : Line) : Text :=
  if ['\r', '\n'].isSuffixOf l then ['\r', '\n'] else ['\n']

@[simp] theorem splitLines_nil : splitLines [] = [] := rfl

theorem flatten_splitLines (t : Text) : (splitLines t).flatten = t := by
  induction t with
  | nil => rfl
  | cons c cs ih =>
    unfold splitLines
    split
    · next h => simp [ih, h]
    · split
      · next h => rw [h] at ih; simpa using ih
      · next l ls h => rw [h] at ih; simpa using ih

end IncludeGuard
