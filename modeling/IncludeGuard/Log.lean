import IncludeGuard.Path

/-! # Log events

What a run does on the way is logged as events. An event has a level and is shown when the
threshold takes in that level. By default only warnings and errors are shown, and no event is one.
A threshold is chosen by name (`Threshold.ofName?`); filters by part of the program are left out.
An event is written in one line: its level, the part of the program it comes from, a message and
its fields. -/

namespace IncludeGuard

/-- Levels from the gravest to the most detailed. -/
inductive Level
  | error
  | warn
  | info
  | debug
  | trace
deriving DecidableEq

/-- How many levels a threshold at the level takes in. -/
def Level.rank : Level → Nat
  | error => 1
  | warn => 2
  | info => 3
  | debug => 4
  | trace => 5

/-- The most detailed level that is shown, if any is. -/
abbrev Threshold := Option Level

/-- The threshold if none is chosen. -/
def Threshold.standard : Threshold :=
  some .warn

/-- The threshold of a name. -/
def Threshold.ofName? (name : Text) : Option Threshold :=
  [("off", none), ("error", some Level.error), ("warn", some .warn), ("info", some .info),
    ("debug", some .debug), ("trace", some .trace)].findSome? fun p =>
      if p.1.toList = name then some p.2 else none

/-- The threshold takes in the level. -/
def Threshold.admits (t : Threshold) (l : Level) : Bool :=
  t.any fun most => decide (l.rank ≤ most.rank)

/-- What is logged. -/
inductive Event
  | expanded (directory : Path) (headers : Nat)
  | skipped (path : Path)
  | started (root : Path) (files : Nat) (check : Bool)
  | short (path : Path)
  | unguarded (path : Path)
  | mismatch (path : Path) (expected : Text)
  | repaired (path : Path) (expected : Text)
  | checked (files violations : Nat)
  | fixed (files changed : Nat)
deriving DecidableEq

namespace Event

/-- The level of an event. -/
def level : Event → Level
  | started .. => .info
  | checked .. => .info
  | fixed .. => .info
  | _ => .debug

/-- The part of the program an event comes from. -/
def origin : Event → Text
  | expanded .. => "header_guard::services::discovery".toList
  | skipped .. => "header_guard::services::discovery".toList
  | started .. => "header_guard::commands::runtime".toList
  | short .. => "header_guard::services::checker".toList
  | unguarded .. => "header_guard::services::checker".toList
  | mismatch .. => "header_guard::services::checker".toList
  | repaired .. => "header_guard::services::fixer".toList
  | checked .. => "header_guard::commands::runtime".toList
  | fixed .. => "header_guard::commands::runtime".toList

/-- The message of an event. -/
def message : Event → Text
  | expanded .. => "expanded directory".toList
  | skipped .. => "skipping non-header file".toList
  | started .. => "starting run".toList
  | short .. => "too short to carry a guard".toList
  | unguarded .. => "no include guard found".toList
  | mismatch .. => "guard mismatch".toList
  | repaired .. => "rewrote guard".toList
  | checked .. => "check finished".toList
  | fixed .. => "fix finished".toList

/-- The fields of an event in the order they are written. -/
def fields : Event → List (Text × Text)
  | expanded directory headers =>
    [("dir".toList, directory.display), ("headers".toList, .ofNat headers)]
  | skipped path => [("path".toList, path.display)]
  | started root files check =>
    [("root".toList, root.display), ("files".toList, .ofNat files), ("check".toList, .ofBool check)]
  | short path => [("path".toList, path.display)]
  | unguarded path => [("path".toList, path.display)]
  | mismatch path expected => [("path".toList, path.display), ("expected".toList, expected)]
  | repaired path expected => [("path".toList, path.display), ("expected".toList, expected)]
  | checked files violations =>
    [("checked".toList, .ofNat files), ("violations".toList, .ofNat violations)]
  | fixed files changed =>
    [("checked".toList, .ofNat files), ("fixed".toList, .ofNat changed)]

end Event

/-- The name of a level. -/
def Level.name : Level → Text
  | error => "ERROR".toList
  | warn => "WARN".toList
  | info => "INFO".toList
  | debug => "DEBUG".toList
  | trace => "TRACE".toList

/-- The line of an event. -/
def Event.line (e : Event) : Text :=
  e.level.name ++ ' ' :: e.origin ++ ": ".toList ++ e.message ++
    e.fields.flatMap (fun field => ' ' :: field.1 ++ '=' :: field.2) ++ ['\n']

/-- The lines of the events that the threshold takes in. -/
def logText (t : Threshold) (events : List Event) : Text :=
  (events.filter fun e => t.admits e.level).flatMap Event.line

end IncludeGuard
