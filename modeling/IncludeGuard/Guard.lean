import IncludeGuard.Directive

/-! # Finding and repairing the guard

The include guard of a header is found by its anchors (`scan`). The opening anchors are searched for
in the first `scanWindow` lines: the first `#define` line that only defines a name, and the last
`#ifndef` line before it. The closing anchor is the last `#endif` line of the whole file, even when
a nested block ends after the guard.

A repair (`repair?`) gives every anchor of a guard its canonical line: the directive, one space, the
expected name and the terminator the line already has. Only the anchors that read otherwise are
replaced, and all other lines are copied. There is nothing to repair without a guard, or when every
anchor is canonical already. -/

namespace IncludeGuard

/-! ### Scanning -/

/-- How many leading lines are searched for the opening anchors. -/
def scanWindow : Nat := 10

/-- An opening line of the guard: where it stands and the name on it. -/
structure Anchor where
  index : Nat
  name : Text
deriving DecidableEq

/-- What a scan finds. -/
structure Scan where
  ifndef : Option Anchor
  define : Option Anchor
  /-- Where the closing line stands. -/
  endif : Option Nat
  /-- The name in the comment of the closing line. -/
  endifName : Option Text
deriving DecidableEq

/-- The opening anchors of lines numbered from `i` on, when `seen` is the last `#ifndef` anchor
before them. -/
def openingAnchors (i : Nat) (seen : Option Anchor) :
    List Line → Option Anchor × Option Anchor
  | [] => (seen, none)
  | l :: ls =>
    match Directive.ifndefName? l with
    | some name => openingAnchors (i + 1) (some ⟨i, name⟩) ls
    | none =>
      match Directive.defineName? l with
      | some name => (seen, some ⟨i, name⟩)
      | none => openingAnchors (i + 1) seen ls

/-- The last `#endif` line and its number. -/
def closingLine? (lines : List Line) : Option (Line × Nat) :=
  lines.zipIdx.reverse.find? fun p => Directive.isEndif p.1

/-- Scans the lines of a header. -/
def scan (lines : List Line) : Scan :=
  let opening := openingAnchors 0 none (lines.take scanWindow)
  let closing := closingLine? lines
  { ifndef := opening.1
    define := opening.2
    endif := closing.map (·.2)
    endifName := closing.bind fun p => Directive.endifName? p.1 }

namespace Scan

/-- Both opening anchors were found. -/
def hasGuard (s : Scan) : Bool :=
  s.ifndef.isSome && s.define.isSome

/-- All three anchors carry the name `expected`. A header without a guard agrees with every name. -/
def agrees (s : Scan) (expected : Text) : Bool :=
  !s.hasGuard ||
    (s.ifndef.any (·.name == expected) && s.define.any (·.name == expected) &&
      s.endifName == some expected)

end Scan

/-! ### Repairing -/

/-- The canonical line for the directive `d` in place of line `i`, with that number. -/
def canonicalLine (lines : List Line) (expected : Text) (d : Directive) (i : Nat) : Nat × Line :=
  (i, d.line expected (lineEnding (lines.getD i [])))

/-- The canonical lines of the anchors of a guard opened at the lines `ifndef` and `define`. -/
def canonicalLines (lines : List Line) (expected : Text) (ifndef define : Nat)
    (endif : Option Nat) : List (Nat × Line) :=
  canonicalLine lines expected .ifndef ifndef :: canonicalLine lines expected .define define ::
    (endif.map (canonicalLine lines expected .endif)).toList

/-- The lines with some of them replaced by number. -/
def replaceLines (replacements : List (Nat × Line)) (lines : List Line) : List Line :=
  lines.mapIdx fun i l => (replacements.lookup i).getD l

/-- The text with its guard repaired to the name `expected`, if that changes a line. -/
def repair? (lines : List Line) (expected : Text) : Option Text :=
  let s := scan lines
  match s.ifndef, s.define with
  | some ifndef, some define =>
    let stale := (canonicalLines lines expected ifndef.index define.index s.endif).filter
      fun r => lines.getD r.1 [] != r.2
    if stale = [] then none else some (replaceLines stale lines).flatten
  | _, _ => none

end IncludeGuard
