import IncludeGuard.Failure

/-! # Candidate headers

Each path argument stands for the headers it names. An argument that leads to a file is that file,
under its resolved path and if that is the path of a header. An argument that leads to a directory
is every header below it, depth first and in order of names. Linked directories are not entered,
and a link to a file counts under its own name.

The walk below a directory never fails, as a walk on disk may. It is a walk over the tree and not
over paths, so it also goes through directories with paths that are too long to be looked up, which
on disk cannot be listed; it finds no header there, as no such path leads to a file
(`Workspace.isFile`). -/

namespace IncludeGuard

/-- What an argument stands for. -/
inductive Expansion
  | header (path : Path)
  | skipped (path : Path)
  | directory (path : Path) (headers : List Path)
deriving DecidableEq

/-- The headers among it. -/
def Expansion.headers : Expansion → List Path
  | header path => [path]
  | skipped _ => []
  | directory _ headers => headers

namespace Workspace

/-- The headers below the directory at an address. -/
def headersBelow (ws : Workspace) (a : Address) : List Path :=
  ((ws.tree.leaves a).map fun leaf => leaf.1.path).filter fun p => ws.isFile p && p.isHeader

/-- What an argument stands for. -/
def expand (ws : Workspace) (argument : Path) : Except Failure Expansion :=
  match ws.resolve argument with
  | .error e => .error (.resolvePath argument e)
  | .ok a =>
    if ws.isFile a.path then
      .ok (if a.path.isHeader then .header a.path else .skipped a.path)
    else .ok (.directory a.path (ws.headersBelow a))

/-- What each argument stands for, up to the first that cannot be resolved. -/
def expandAll (ws : Workspace) (arguments : List Path) : List Expansion × Option Failure :=
  untilFailure ws.expand arguments

/-- The headers that the arguments name, in the order of the arguments. -/
def candidates (ws : Workspace) (arguments : List Path) : Except Failure (List Path) :=
  match ws.expandAll arguments with
  | (_, some e) => .error e
  | (expansions, none) => .ok (expansions.flatMap Expansion.headers)

end Workspace

end IncludeGuard
