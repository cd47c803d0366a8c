import IncludeGuard.Path
import IncludeGuard.Text.Upper

/-! # Guard names

The name of a guard is derived from where the header lies below the root: the first component, the
directories between it and the file, the stem and the extension of the file, all in upper case and
joined by low lines. Hyphens become low lines everywhere but in the extension. A header directly
below the root has only one component, which is then both the first one and the file. -/

namespace IncludeGuard

/-- Why no name can be derived. -/
inductive NameError
  | notUnderRoot (file root : Path)
  | emptyRelativePath (file : Path)
  | missingFileName (file : Path)
deriving DecidableEq

/-- The wording of each cause. -/
def NameError.message : NameError → Text
  | notUnderRoot file root => file.display ++ " is not under root ".toList ++ root.display
  | emptyRelativePath file => file.display ++ " has no path components below the root".toList
  | missingFileName file => file.display ++ " has no file name".toList

/-- A part of a name: upper case with low lines for hyphens. -/
def nameSegment (t : Text) : Text :=
  t.upper.map fun c => if c = '-' then '_' else c

/-- The segments of the name of a file called `name` whose components below the root are
`first :: rest`. -/
def nameSegments (first : Path.Component) (rest : List Path.Component) (name : Bytes) :
    List Text :=
  let (stem, extension?) := Path.splitExtension name
  nameSegment first.text :: rest.dropLast.map (fun c => nameSegment c.text) ++
    [nameSegment (Utf8.decodeLossy stem), (Utf8.decodeLossy (extension?.getD [])).upper]

/-- The name the guard of `file` should have. -/
def guardName (file root : Path) : Except NameError Text :=
  match file.relativeTo? root with
  | none => .error (.notUnderRoot file root)
  | some below =>
    match below.components with
    | [] => .error (.emptyRelativePath file)
    | first :: rest =>
      match below.fileName? with
      | none => .error (.missingFileName file)
      | some name => .ok (['_'].intercalate (nameSegments first rest name))

end IncludeGuard
