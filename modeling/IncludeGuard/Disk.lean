import IncludeGuard.Options.Basic
import IncludeGuard.Path
import IncludeGuard.Workspace

/-! # Workspaces on disk

A run works on a workspace in memory. Here the part of the disk that a command line can reach is
taken into one (`Disk.take`), and the files that a run changed are written back (`Disk.keep`). The
target of a link is taken in its resolved form; a link that leads nowhere is taken as one without a
target, and a link that leads in a circle as one to itself.

The disk is asked for a path under the form in which the path is shown (`location`). For a name that
is not UTF-8 this is another name, with replacement characters, so such a name is taken as missing
unless the other one is there. -/

namespace IncludeGuard.Disk

/-- The address as the operating system spells it. -/
def location (a : Address) : String :=
  String.ofList a.path.display

/-- The kind of what stands at an address, links not followed. -/
def kind? (a : Address) : IO (Option IO.FS.FileType) := do
  let base ← IO.currentDir
  match ← (base / location a).symlinkMetadata.toBaseIO with
  | .ok m => return some m.type
  | .error _ => return none

/-- Takes what is met on the way along segments from a directory. The address is that of the
directory at the end of the way, if it ends in one. -/
partial def takeWay (t : Tree) (here : Address) : List Bytes → IO (Tree × Option Address)
  | [] => return (t, some here)
  | s :: rest => do
    if Path.isIdle s then takeWay t here rest
    else if s = [Path.dot, Path.dot] then takeWay t here.dropLast rest
    else
      let a := here ++ [s]
      match ← kind? a with
      | some .dir => takeWay (t.place a .dir) a rest
      | some .file =>
        let content ← IO.FS.readBinFile (location a)
        return (t.place a (.file content.toList), none)
      | some .symlink =>
        match ← ((← IO.currentDir) / location a).metadata.toBaseIO with
        | .ok _ =>
          let target := Utf8.encode (← IO.FS.realPath (location a)).toString.toList
          takeWay (t.place a (.link ⟨target⟩)) [] (Path.segments target ++ rest)
        | .error (.noFileOrDirectory ..) => return (t.place a (.link ⟨[]⟩), none)
        | .error _ => return (t.place a (.link a.path), none)
      | _ => return (t, none)

/-- Takes the headers below a directory. -/
partial def takeBelow (t : Tree) (a : Address) : IO Tree := do
  let base ← IO.currentDir
  let mut t := t
  for entry in ← (base / location a).readDir do
    let name := Utf8.encode entry.fileName.toList
    let b := a ++ [name]
    match ← kind? b with
    | some .dir => t ← takeBelow (t.place b .dir) b
    | _ => if b.path.isHeader then t := (← takeWay t a [name]).1
  return t

/-- Takes the part of the disk that a run with the options can reach. -/
def take (o : Options) : IO Workspace := do
  let cwd := Utf8.encode (← IO.FS.realPath (← IO.currentDir)).toString.toList
  let (tree, here) ← takeWay .empty [] (Path.segments cwd)
  let ws : Workspace := ⟨tree, here.getD []⟩
  let mut t := tree
  for p in o.root do
    t := (← takeWay t (ws.start p) (Path.segments p.bytes)).1
  for p in o.paths do
    let (t', below) ← takeWay t (ws.start p) (Path.segments p.bytes)
    t := t'
    for a in below do
      t ← takeBelow t a
  return { ws with tree := t }

/-- Writes back the files that are not the same as before. -/
def keep (before after : Tree) : IO Unit := do
  for (a, content) in after.changes before do
    IO.FS.writeBinFile (location a) ⟨content.toArray⟩

end IncludeGuard.Disk
