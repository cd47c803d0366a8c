import IncludeGuard.Candidates
import IncludeGuard.Header
import IncludeGuard.Log
import IncludeGuard.Options.Parser
import IncludeGuard.Report.Basic

/-! # Runs

A run resolves the root, collects the candidate headers of all arguments, and then checks or fixes
them one after the other. The first failure ends it: nothing is reported then, but what was written
before stays written. An outcome therefore holds the workspace and the events up to the end of the
run beside its result. -/

namespace IncludeGuard

/-! ### Checking headers -/

/-- A header that was checked. An invalid one comes with its violation. -/
structure Checked where
  file : Path
  verdict : Verdict
  violation : Option Violation
deriving DecidableEq

/-- What is logged about a checked header. -/
def Checked.event? (c : Checked) : Option Event :=
  match c.verdict with
  | .short => some (.short c.file)
  | .unguarded => some (.unguarded c.file)
  | .correct => none
  | .mismatch expected => some (.mismatch c.file expected)

namespace Workspace

/-- Checks a header for a report. -/
def checkOne (ws : Workspace) (root file : Path) : Except Failure Checked :=
  match ws.checkHeader file root with
  | .error e => .error e
  | .ok verdict =>
    match verdict.expected? with
    | none => .ok ⟨file, verdict, none⟩
    | some expected =>
      match relativeDisplay file root with
      | .error e => .error e
      | .ok path => .ok ⟨file, verdict, some ⟨path, expected⟩⟩

/-- Checks headers up to the first failure. -/
def checkEach (ws : Workspace) (root : Path) (files : List Path) :
    List Checked × Option Failure :=
  untilFailure (ws.checkOne root) files

end Workspace

/-- The report on headers that were all checked. -/
def CheckReport.of (checked : List Checked) : CheckReport :=
  ⟨checked.length, checked.filterMap Checked.violation⟩

/-- The report on the check of some headers. -/
def Workspace.checkAll (ws : Workspace) (root : Path) (files : List Path) :
    Except Failure CheckReport :=
  match ws.checkEach root files with
  | (_, some e) => .error e
  | (checked, none) => .ok (.of checked)

/-! ### Fixing headers -/

/-- A header that was gone through. A repaired one comes with the name it has now. -/
structure Fixed where
  file : Path
  expected : Option Text
deriving DecidableEq

/-- What is logged about it. -/
def Fixed.event? (f : Fixed) : Option Event :=
  f.expected.map (.repaired f.file)

/-- How far a fix run came. -/
structure FixProgress where
  workspace : Workspace
  /-- The headers gone through. -/
  done : List Fixed
  /-- The relative paths of the repaired ones. -/
  shown : List Text
  failure : Option Failure

/-- Fixes headers up to the first failure. -/
def Workspace.fixEach (root : Path) : Workspace → List Path → FixProgress
  | ws, [] => ⟨ws, [], [], none⟩
  | ws, file :: files =>
    match ws.fixHeader file root with
    | .error e => ⟨ws, [], [], some e⟩
    | .ok none =>
      let p := fixEach root ws files
      { p with done := ⟨file, none⟩ :: p.done }
    | .ok (some repaired) =>
      let here : Fixed := ⟨file, some repaired.expected⟩
      match relativeDisplay file root with
      | .error e => ⟨repaired.workspace, [here], [], some e⟩
      | .ok path =>
        let p := fixEach root repaired.workspace files
        { p with done := here :: p.done, shown := path :: p.shown }

/-- The report on headers that were all gone through, or the failure. -/
def FixProgress.report (p : FixProgress) : Except Failure FixReport :=
  match p.failure with
  | some e => .error e
  | none => .ok ⟨p.done.length, p.shown⟩

/-! ### The whole run -/

/-- What is logged about an argument. -/
def Expansion.event? : Expansion → Option Event
  | header _ => none
  | skipped path => some (.skipped path)
  | directory path headers => some (.expanded path headers.length)

/-- What a run prints and whether it found something wrong. -/
structure Answer where
  stdout : Text
  violated : Bool
deriving DecidableEq

/-- How a run ends. -/
structure Outcome where
  workspace : Workspace
  events : List Event
  result : Except Failure Answer

/-- The exit code of an answer. -/
def Answer.exitCode (a : Answer) : Nat :=
  if a.violated then 1 else 0

namespace Workspace

/-- The resolved root: the current directory if no other is given. -/
def resolveRoot (ws : Workspace) (root : Option Path) : Except Failure Path :=
  let root := root.getD ws.cwd.path
  match ws.resolve root with
  | .ok a => .ok a.path
  | .error e => .error (.resolveRoot root e)

/-- Checks the candidates and reports. -/
def runCheck (ws : Workspace) (json : Bool) (root : Path) (files : List Path) : Outcome :=
  let (checked, failure) := ws.checkEach root files
  let events := checked.filterMap Checked.event?
  match failure with
  | some e => ⟨ws, events, .error e⟩
  | none =>
    let report := CheckReport.of checked
    ⟨ws, events ++ [.checked report.checked report.violations.length],
      .ok ⟨report.render json, !report.ok⟩⟩

/-- Fixes the candidates and reports. -/
def runFix (ws : Workspace) (json : Bool) (root : Path) (files : List Path) : Outcome :=
  let progress := fixEach root ws files
  let events := progress.done.filterMap Fixed.event?
  match progress.report with
  | .error e => ⟨progress.workspace, events, .error e⟩
  | .ok report =>
    ⟨progress.workspace, events ++ [.fixed report.checked report.fixed.length],
      .ok ⟨report.render json, false⟩⟩

/-- Runs what the options ask for. -/
def run (ws : Workspace) (o : Options) : Outcome :=
  match ws.resolveRoot o.root with
  | .error e => ⟨ws, [], .error e⟩
  | .ok root =>
    let (expansions, failure) := ws.expandAll o.paths
    let found := expansions.filterMap Expansion.event?
    match failure with
    | some e => ⟨ws, found, .error e⟩
    | none =>
      let files := expansions.flatMap Expansion.headers
      let outcome :=
        if o.check then ws.runCheck o.json root files else ws.runFix o.json root files
      { outcome with events := found ++ .started root files.length o.check :: outcome.events }

end Workspace

/-! ### The program -/

/-- What the program leaves behind besides the workspace. -/
structure Output where
  exitCode : Nat
  stdout : Text
  stderr : Text
deriving DecidableEq

/-- The program: reads the arguments, runs what they ask for and words the outcome. -/
def Workspace.program (ws : Workspace) (t : Threshold) (arguments : List Bytes) :
    Workspace × Output :=
  match Options.parse arguments with
  | .error e => (ws, if e.isRequest then ⟨0, e.notice, []⟩ else ⟨2, [], e.notice⟩)
  | .ok o =>
    let outcome := ws.run o
    let log := logText t outcome.events
    match outcome.result with
    | .ok answer => (outcome.workspace, ⟨answer.exitCode, answer.stdout, log⟩)
    | .error e => (outcome.workspace, ⟨1, [], log ++ e.notice⟩)

end IncludeGuard
