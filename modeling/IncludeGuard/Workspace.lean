import IncludeGuard.Tree.Basic

/-! # Workspaces

A workspace is a directory tree seen from a current directory. Paths are followed segment by segment
(`Tree.locate`): `..` goes to the parent directory, a symbolic link goes on with its target, and at
most `maxLinks` links are followed. What a path leads to is a `Place`: a directory, a file, or a
vacant name in a directory. A path is followed for a purpose (`Purpose`):

* resolving spells the way out, so each name is looked up under its full path, which must not be
  too long;
* finding goes from directory to directory, and only the path itself must not be too long;
* writing may have to create the last name, and refuses it before it is looked up when a slash
  follows it.

The tree holds directories, regular files and links, and nothing else: there are no special files,
such as devices and pipes. There are no permissions either, and the disk is never full. So every
file can be read as bytes and every directory be entered, and what can be read can be written. -/

namespace IncludeGuard

/-- Why a file operation fails. -/
inductive Fault
  | notFound
  | notDirectory
  | isDirectory
  | tooManyLinks
  | nameTooLong
  | nulByte
  | invalidText
deriving DecidableEq

/-- The wording of each fault. -/
def Fault.message : Fault → Text
  | notFound => "No such file or directory (os error 2)".toList
  | notDirectory => "Not a directory (os error 20)".toList
  | isDirectory => "Is a directory (os error 21)".toList
  | tooManyLinks => "Too many levels of symbolic links (os error 40)".toList
  | nameTooLong => "File name too long (os error 36)".toList
  | nulByte => "file name contained an unexpected NUL byte".toList
  | invalidText => "stream did not contain valid UTF-8".toList

/-- What a path leads to. A vacant place is a name that its directory does not hold. -/
inductive Place
  | directory (address : Address)
  | file (address : Address)
  | vacant (address : Address)
deriving DecidableEq

/-- What a path is followed for: to spell out where it leads, to find what is there, or to write a
file there. -/
inductive Purpose
  | resolve
  | find
  | write
deriving DecidableEq

/-- How many links are followed on one path. -/
def maxLinks : Nat := 40

/-- The greatest length of a name. -/
def maxNameLength : Nat := 255

/-- The length from which on nothing can be looked up under a path. -/
def pathLimit : Nat := 4096

namespace Purpose

/-- An address that has to be looked up under its full path has a path that is too long. -/
def outgrows (purpose : Purpose) (a : Address) : Bool :=
  purpose == resolve && decide (pathLimit ≤ a.path.bytes.length)

/-- What is wrong with segments after the file at an address. A name among them is looked up first
of all, and it may be too long for that. -/
def faultBeyondFile (purpose : Purpose) (a : Address) (rest : List Bytes) : Fault :=
  match rest.find? fun s => !Path.isIdle s with
  | some s =>
    if s ≠ [Path.dot, Path.dot] ∧ purpose.outgrows (a ++ [s]) then .nameTooLong
    else .notDirectory
  | none => .notDirectory

end Purpose

/-- The segments after a name are those of slashes alone, so the name is the last one and asks for a
directory. -/
def asksDirectory (rest : List Bytes) : Bool :=
  !rest.isEmpty && rest.all List.isEmpty

namespace Tree

/-- Follows segments from the directory `here`. At a link, `follow` goes on with the target. A last
name that asks for a directory cannot be written to, whatever stands there. -/
def locateWith (t : Tree) (purpose : Purpose)
    (follow : Address → List Bytes → Except Fault Place) :
    Address → List Bytes → Except Fault Place
  | here, [] => .ok (.directory here)
  | here, s :: rest =>
    if Path.isIdle s then t.locateWith purpose follow here rest
    else if s = [Path.dot, Path.dot] then t.locateWith purpose follow here.dropLast rest
    else if purpose.outgrows (here ++ [s]) then .error .nameTooLong
    else if purpose = .write ∧ asksDirectory rest then .error .isDirectory
    else
      match t.entryAt? (here ++ [s]) with
      | some .dir => t.locateWith purpose follow (here ++ [s]) rest
      | some (.file _) =>
        if rest = [] then .ok (.file (here ++ [s]))
        else .error (purpose.faultBeyondFile (here ++ [s]) rest)
      | some (.link target) =>
        if target.bytes = [] then .error .notFound
        else follow (if target.isAbsolute then [] else here) (Path.segments target.bytes ++ rest)
      | none =>
        if maxNameLength < s.length then .error .nameTooLong
        else if rest = [] then .ok (.vacant (here ++ [s]))
        else .error .notFound

/-- Follows segments from a directory through at most `links` links. -/
def locate (t : Tree) (purpose : Purpose) :
    (links : Nat) → Address → List Bytes → Except Fault Place
  | 0 => t.locateWith purpose fun _ _ => .error .tooManyLinks
  | links + 1 => t.locateWith purpose (t.locate purpose links)

end Tree

/-- A directory tree and the address of the current directory. -/
structure Workspace where
  tree : Tree
  cwd : Address

namespace Workspace

/-- The directory that a path starts from. -/
def start (ws : Workspace) (p : Path) : Address :=
  if p.isAbsolute then [] else ws.cwd

/-- What a path leads to. -/
def locate (ws : Workspace) (purpose : Purpose) (p : Path) : Except Fault Place :=
  if 0 ∈ p.bytes then .error .nulByte
  else if p.bytes = [] then .error .notFound
  else ws.tree.locate purpose maxLinks (ws.start p) (Path.segments p.bytes)

/-- The address a path leads to, if something is there. -/
def resolve (ws : Workspace) (p : Path) : Except Fault Address :=
  match ws.locate .resolve p with
  | .ok (.directory a) => .ok a
  | .ok (.file a) => .ok a
  | .ok (.vacant _) => .error .notFound
  | .error e => .error e

/-- Why nothing can be looked up under a path whatever the tree is. -/
def pathFault? (p : Path) : Option Fault :=
  if 0 ∈ p.bytes then some .nulByte
  else if pathLimit ≤ p.bytes.length then some .nameTooLong
  else none

/-- What a path that is looked up as a whole leads to. -/
def reach (ws : Workspace) (purpose : Purpose) (p : Path) : Except Fault Place :=
  match pathFault? p with
  | some e => .error e
  | none => ws.locate purpose p

/-- The path leads to a regular file. -/
def isFile (ws : Workspace) (p : Path) : Bool :=
  match ws.reach .find p with
  | .ok (.file _) => true
  | _ => false

/-- The text of the file a path leads to. -/
def read (ws : Workspace) (p : Path) : Except Fault Text :=
  match ws.reach .find p with
  | .error e => .error e
  | .ok (.directory _) => .error .isDirectory
  | .ok (.vacant _) => .error .notFound
  | .ok (.file a) =>
    match (ws.tree.content? a).bind Utf8.decode? with
    | some t => .ok t
    | none => .error .invalidText

/-- The address of the file that writing to a path changes or creates. -/
def writable (ws : Workspace) (p : Path) : Except Fault Address :=
  match ws.reach .write p with
  | .error e => .error e
  | .ok (.directory _) => .error .isDirectory
  | .ok (.file a) => .ok a
  | .ok (.vacant a) => .ok a

/-- Writes a text to the file a path leads to. -/
def write (ws : Workspace) (p : Path) (content : Text) : Except Fault Workspace :=
  match ws.writable p with
  | .ok a => .ok { ws with tree := ws.tree.place a (.file (Utf8.encode content)) }
  | .error e => .error e

end Workspace

end IncludeGuard
