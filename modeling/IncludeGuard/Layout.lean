import IncludeGuard.Workspace

/-! # Laying out workspaces

A workspace is laid out entry by entry (`Workspace.layOut`). An entry is given by its path, and the
directories on the way to it that are missing are made (`Tree.makeWay`). The way may go through
links to directories, but nothing is made behind a link that leads nowhere. -/

namespace IncludeGuard

/-- Goes along segments from the directory `here` and makes the directories that are missing. The
address is that of the directory at the end of the way. -/
def Tree.makeWay : Tree → Address → List Bytes → Except Fault (Tree × Address)
  | t, here, [] => .ok (t, here)
  | t, here, s :: rest =>
    if Path.isIdle s then t.makeWay here rest
    else if s = [Path.dot, Path.dot] then t.makeWay here.dropLast rest
    else
      match t.locate .find maxLinks here [s] with
      | .ok (.directory a) => t.makeWay a rest
      | .ok (.file _) => .error .notDirectory
      | .ok (.vacant a) =>
        if a = here ++ [s] then (t.place a .dir).makeWay a rest else .error .notFound
      | .error e => .error e

namespace Workspace

/-- The workspace with a directory at a path. -/
def layOutDirectory (ws : Workspace) (p : Path) : Except Fault Workspace :=
  match ws.tree.makeWay (ws.start p) (Path.segments p.bytes) with
  | .ok (tree, _) => .ok { ws with tree }
  | .error e => .error e

/-- The workspace with an entry at a path. A file or a link that stands there already gives way to
it, a directory does not. -/
def layOut (ws : Workspace) (p : Path) (e : Entry) : Except Fault Workspace :=
  let segments := Path.segments p.bytes
  let name := segments.getLastD []
  if e = .dir then ws.layOutDirectory p
  else if Path.isIdle name ∨ name = [Path.dot, Path.dot] then .error .isDirectory
  else
    match ws.tree.makeWay (ws.start p) segments.dropLast with
    | .error e => .error e
    | .ok (tree, here) =>
      if tree.entryAt? (here ++ [name]) = some .dir then .error .isDirectory
      else .ok { ws with tree := tree.place (here ++ [name]) e }

end Workspace

end IncludeGuard
