import IncludeGuard.Failure
import IncludeGuard.Guard

/-! # Checking and fixing one header

Both read the header and leave it alone if it has fewer than `minGuardedLines` lines. Only then is
the expected name derived, so that a short header outside the root is no failure. A check compares
the names on the anchors (`Scan.agrees`); a fix compares their whole lines (`repair?`) and writes
the header back if one of them changes. -/

namespace IncludeGuard

/-- Headers with fewer lines are neither checked nor repaired. -/
def minGuardedLines : Nat := 3

/-- What a check finds. Only a mismatch makes a header invalid. -/
inductive Verdict
  | short
  | unguarded
  | correct
  | mismatch (expected : Text)
deriving DecidableEq

/-- The name that an invalid header should have on its anchors. -/
def Verdict.expected? : Verdict → Option Text
  | mismatch expected => some expected
  | _ => none

/-- The verdict on the lines of a header that should have the name `expected`. -/
def Verdict.ofLines (lines : List Line) (expected : Text) : Verdict :=
  let s := scan lines
  if s.agrees expected then
    if s.hasGuard then .correct else .unguarded
  else .mismatch expected

/-- A header that was repaired: the name it has now and the workspace that holds it. -/
structure Repaired where
  expected : Text
  workspace : Workspace

namespace Workspace

/-- The text of a header. -/
def readHeader (ws : Workspace) (path : Path) : Except Failure Text :=
  (ws.read path).mapError (.read path)

/-- Writes a header. -/
def writeHeader (ws : Workspace) (path : Path) (content : Text) : Except Failure Workspace :=
  (ws.write path content).mapError (.write path)

/-- Checks the guard of a header. -/
def checkHeader (ws : Workspace) (file root : Path) : Except Failure Verdict :=
  match ws.readHeader file with
  | .error e => .error e
  | .ok content =>
    let lines := splitLines content
    if lines.length < minGuardedLines then .ok .short
    else
      match guardName file root with
      | .error e => .error (.naming e)
      | .ok expected => .ok (.ofLines lines expected)

/-- Repairs the guard of a header, if that changes it. -/
def fixHeader (ws : Workspace) (file root : Path) : Except Failure (Option Repaired) :=
  match ws.readHeader file with
  | .error e => .error e
  | .ok content =>
    let lines := splitLines content
    if lines.length < minGuardedLines then .ok none
    else
      match guardName file root with
      | .error e => .error (.naming e)
      | .ok expected =>
        match repair? lines expected with
        | none => .ok none
        | some fixed =>
          match ws.writeHeader file fixed with
          | .error e => .error e
          | .ok ws' => .ok (some ⟨expected, ws'⟩)

end Workspace

end IncludeGuard
