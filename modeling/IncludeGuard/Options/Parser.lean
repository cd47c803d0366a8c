import IncludeGuard.Options.Basic
import IncludeGuard.Text.Utf8

/-! # Reading a command line

The arguments are read from left to right. Each is first classified by its leading hyphens
(`Word`), and then taken into account (`Reading.word`). Two things may be open after an argument
(`Pending`): `--root` may still wait for its value, and a row of paths may go on. What is open is
settled when something else comes, and only then are its values looked at: an empty value is a
missing value. An argument that is not known, or a value for an option that takes none, is reported
at once, before anything is settled. After `--` every argument is a path. -/

namespace IncludeGuard

/-- The hyphen. -/
def hyphen : UInt8 := 0x2D

/-- The equals sign. -/
def equals : UInt8 := 0x3D

/-- An argument by its leading hyphens. -/
inductive Word
  | separator
  | long (name : Bytes) (value : Option Bytes)
  | short (letters : Bytes)
  | plain (value : Bytes)
deriving DecidableEq

/-- Classifies an argument. -/
def Word.ofBytes (a : Bytes) : Word :=
  match a with
  | b :: c :: rest =>
    if b ≠ hyphen then .plain a
    else if c ≠ hyphen then .short (c :: rest)
    else if rest = [] then .separator
    else
      match rest.dropWhile (· != equals) with
      | [] => .long rest none
      | _ :: value => .long (rest.takeWhile (· != equals)) (some value)
  | _ => .plain a

/-- The parameter of a long option. -/
def Parameter.ofName? (name : Bytes) : Option Parameter :=
  [("check", Parameter.check), ("root", .root), ("json", .json), ("help", .help),
    ("version", .version)].findSome? fun p =>
      if Utf8.encode p.1.toList = name then some p.2 else none

/-- What the last argument left open. -/
inductive Pending
  | nothing
  | root (value : Option Bytes)
  | paths (values : List Bytes)
deriving DecidableEq

/-- What has been read so far. -/
structure Reading where
  options : Options
  pending : Pending
deriving DecidableEq

/-- The options with a root, which can be given once. -/
def Options.withRoot (o : Options) (value : Bytes) : Except UsageError Options :=
  if o.root.isSome then .error (.repeated .root)
  else if value = [] then .error (.missingValue .root)
  else .ok { o with root := some ⟨value⟩ }

/-- The options with more paths. -/
def Options.withPaths (o : Options) (values : List Bytes) : Except UsageError Options :=
  if [] ∈ values then .error (.missingValue .paths)
  else .ok { o with paths := o.paths ++ values.map Path.mk }

/-- The options with `--check`, which can be given once. -/
def Options.withCheck (o : Options) : Except UsageError Options :=
  if o.check then .error (.repeated .check) else .ok { o with check := true }

/-- The options with `--json`, which can be given once. -/
def Options.withJson (o : Options) : Except UsageError Options :=
  if o.json then .error (.repeated .json) else .ok { o with json := true }

namespace Reading

/-- Nothing read yet. -/
def initial : Reading :=
  ⟨.initial, .nothing⟩

/-- The options with what was left open. -/
def settle (r : Reading) : Except UsageError Options :=
  match r.pending with
  | .nothing => .ok r.options
  | .root none => .error (.missingValue .root)
  | .root (some value) => r.options.withRoot value
  | .paths values => r.options.withPaths values

/-- Settles what was left open and goes on from there. -/
def andThen (r : Reading) (f : Options → Except UsageError Options) : Except UsageError Reading :=
  match r.settle with
  | .error e => .error e
  | .ok o =>
    match f o with
    | .error e => .error e
    | .ok o' => .ok ⟨o', .nothing⟩

/-- Takes a path. -/
def path (r : Reading) (value : Bytes) : Except UsageError Reading :=
  match r.pending with
  | .paths values => .ok ⟨r.options, .paths (values ++ [value])⟩
  | _ =>
    match r.settle with
    | .error e => .error e
    | .ok o => .ok ⟨o, .paths [value]⟩

/-- Takes an option without a value of its own. -/
def option (r : Reading) (p : Parameter) : Except UsageError Reading :=
  match p with
  | .check => r.andThen Options.withCheck
  | .json => r.andThen Options.withJson
  | .help => r.andThen fun _ => .error .help
  | .version => r.andThen fun _ => .error .version
  | .root =>
    match r.settle with
    | .error e => .error e
    | .ok o => .ok ⟨o, .root none⟩
  | .paths => .ok r

/-- Takes letters after a single hyphen. The known ones end the reading, so only the first letter
matters. -/
def letters (r : Reading) (bs : Bytes) : Except UsageError Reading :=
  match Utf8.pieces bs with
  | some c :: _ =>
    if c = 'h' then r.option .help
    else if c = 'V' then r.option .version
    else .error (.unknownArgument ['-', c])
  | _ => .error (.unknownArgument ('-' :: Utf8.decodeLossy bs))

/-- Takes an argument that is not the separator. -/
def word (r : Reading) : Word → Except UsageError Reading
  | .separator => .ok r
  | .long name value =>
    match Parameter.ofName? name with
    | none => .error (.unknownArgument ('-' :: '-' :: Utf8.decodeLossy name))
    | some p =>
      match p, value with
      | .root, some v => r.andThen (·.withRoot v)
      | p, some v => .error (.unexpectedValue (Utf8.decodeLossy v) p)
      | p, none => r.option p
  | .short bs => r.letters bs
  | .plain value =>
    match r.pending with
    | .root none => .ok ⟨r.options, .root (some value)⟩
    | _ => r.path value

/-- Takes paths only. -/
def trailing (r : Reading) : List Bytes → Except UsageError Reading
  | [] => .ok r
  | a :: rest =>
    match r.path a with
    | .error e => .error e
    | .ok r' => r'.trailing rest

/-- Takes the arguments from left to right. -/
def words (r : Reading) : List Bytes → Except UsageError Reading
  | [] => .ok r
  | a :: rest =>
    match Word.ofBytes a with
    | .separator => r.trailing rest
    | w =>
      match r.word w with
      | .error e => .error e
      | .ok r' => r'.words rest

end Reading

/-- Reads the arguments of a command line. At least one path is required. -/
def Options.parse (arguments : List Bytes) : Except UsageError Options :=
  match Reading.initial.words arguments with
  | .error e => .error e
  | .ok r =>
    match r.settle with
    | .error e => .error e
    | .ok o => if o.paths = [] then .error .missingPaths else .ok o

end IncludeGuard
