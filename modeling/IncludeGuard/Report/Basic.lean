import IncludeGuard.Report.Json

/-! # Reports

What a run tells about the headers it went through, as lines of text or as JSON. A check report is
in order if it lists no violation; a fix report always is. -/

namespace IncludeGuard

/-- A header with a wrong guard: its path relative to the root and the name it should have. -/
structure Violation where
  path : Text
  expected : Text
deriving DecidableEq

/-- The outcome of a check run. -/
structure CheckReport where
  checked : Nat
  violations : List Violation
deriving DecidableEq

/-- The outcome of a fix run: the relative paths of the repaired headers. -/
structure FixReport where
  checked : Nat
  fixed : List Text
deriving DecidableEq

/-- One line of output. -/
def outputLine (t : Text) : Text :=
  t ++ ['\n']

/-- A headline with the number of the rows between `before` and `after`, and below it a line for each
row. Without rows there is the line `nothing` alone. -/
def countedRows (nothing before after : Text) (rows : List Text) : Text :=
  outputLine (if rows = [] then nothing else before ++ Text.ofNat rows.length ++ after) ++
    rows.flatMap fun row => outputLine ("  ".toList ++ row)

/-- The JSON document around a report. -/
def envelope (ok : Bool) (data : List (Text × Text)) : Text :=
  outputLine (Json.object 0 [("ok".toList, Text.ofBool ok), ("data".toList, Json.object 2 data)])

/-! ### Check reports -/

/-- No header has a wrong guard. -/
def CheckReport.ok (r : CheckReport) : Bool :=
  r.violations.isEmpty

/-- A violation as a JSON object. -/
def Violation.json (v : Violation) : Text :=
  Json.object 6 [("path".toList, Json.quote v.path), ("expected".toList, Json.quote v.expected)]

/-- The report as JSON. -/
def CheckReport.json (r : CheckReport) : Text :=
  envelope r.ok [("checked".toList, Text.ofNat r.checked),
    ("violations".toList, Json.array 4 (r.violations.map Violation.json))]

/-- A violation as a row of text. -/
def Violation.row (v : Violation) : Text :=
  v.path ++ ": expected ".toList ++ v.expected

/-- The report as text. -/
def CheckReport.text (r : CheckReport) : Text :=
  countedRows "All header guards are correct.".toList "Found ".toList
    " files with incorrect guards:".toList (r.violations.map Violation.row)

/-- The report as printed. -/
def CheckReport.render (json : Bool) (r : CheckReport) : Text :=
  if json then r.json else r.text

/-! ### Fix reports -/

/-- The report as JSON. -/
def FixReport.json (r : FixReport) : Text :=
  envelope true [("checked".toList, Text.ofNat r.checked),
    ("fixed".toList, Json.array 4 (r.fixed.map Json.quote))]

/-- The report as text. -/
def FixReport.text (r : FixReport) : Text :=
  countedRows "No header guards needed fixing.".toList "Fixed ".toList " files:".toList r.fixed

/-- The report as printed. -/
def FixReport.render (json : Bool) (r : FixReport) : Text :=
  if json then r.json else r.text

end IncludeGuard
