import IncludeGuard.Path
import IncludeGuard.Text.Printable

/-! # Options

What a command line asks for, and what can be wrong with it. Messages quote arguments without
control sequences and stop at the first blank line. -/

namespace IncludeGuard

/-- What a command line asks for. -/
structure Options where
  paths : List Path
  check : Bool
  root : Option Path
  json : Bool
deriving DecidableEq

/-- Nothing asked for. -/
def Options.initial : Options :=
  { paths := [], check := false, root := none, json := false }

/-- What can stand on a command line. -/
inductive Parameter
  | paths
  | check
  | root
  | json
  | help
  | version
deriving DecidableEq

/-- The parameter as messages show it. -/
def Parameter.usage : Parameter → Text
  | paths => "<PATHS>...".toList
  | check => "--check".toList
  | root => "--root <ROOT>".toList
  | json => "--json".toList
  | help => "--help".toList
  | version => "--version".toList

/-- Why a command line asks for nothing that can be run. -/
inductive UsageError
  | help
  | version
  | missingPaths
  | unknownArgument (argument : Text)
  | missingValue (parameter : Parameter)
  | repeated (parameter : Parameter)
  | unexpectedValue (value : Text) (parameter : Parameter)
deriving DecidableEq

/-- The help text. -/
def helpText : Text :=
  ("Check/fix header guards in C/C++ header files\n\n" ++
    "Usage: header-guard [OPTIONS] <PATHS>...\n\n" ++
    "Arguments:\n" ++
    "  <PATHS>...  Files or directories\n\n" ++
    "Options:\n" ++
    "      --check        Check only, do not rewrite files\n" ++
    "      --root <ROOT>  Root path used to derive guard names " ++
    "(defaults to the current directory)\n" ++
    "      --json         Output machine-readable JSON\n" ++
    "  -h, --help         Print help\n" ++
    "  -V, --version      Print version\n").toList

/-- The version text. -/
def versionText : Text :=
  "header-guard 0.1.0\n".toList

/-- The text before the first blank line, without blanks at its end. -/
def firstParagraph (t : Text) : Text :=
  Text.trimEnd (go t)
where
  /-- The text before the first two line feeds in a row. -/
  go : Text → Text
    | [] => []
    | c :: cs => if c = '\n' ∧ cs.head? = some '\n' then [] else c :: go cs

namespace UsageError

/-- What is wrong, in one sentence. -/
def sentence (i : Text.Interruption) : UsageError → Text
  | help => []
  | version => []
  | missingPaths =>
    "the following required arguments were not provided:\n  ".toList ++ Parameter.paths.usage
  | unknownArgument argument =>
    "unexpected argument '".toList ++ argument.printable i ++ "' found".toList
  | missingValue parameter =>
    "a value is required for '".toList ++ parameter.usage ++ "' but none was supplied".toList
  | repeated parameter =>
    "the argument '".toList ++ parameter.usage ++ "' cannot be used multiple times".toList
  | unexpectedValue value parameter =>
    "unexpected value '".toList ++ value.printable i ++ "' for '".toList ++ parameter.usage ++
      "' found; no more were expected".toList

/-- What is told about it. -/
def wording (i : Text.Interruption) : UsageError → Text
  | help => helpText
  | version => versionText
  | e => firstParagraph ("error: ".toList ++ e.sentence i)

/-- The error as a text of its own. White space in a quoted control sequence ends the sequence. -/
def message (e : UsageError) : Text :=
  e.wording .ends

/-- The error as the program prints it. A quoted control sequence goes on after white space. -/
def notice (e : UsageError) : Text :=
  e.wording .pauses

/-- The help and the version were asked for and are no mistakes. -/
def isRequest (e : UsageError) : Bool :=
  e == help || e == version

end UsageError

end IncludeGuard
