import IncludeGuard.Line
import IncludeGuard.Text.Word

/-! # Directive lines

The lines an include guard is made of. Each is read by a function of its own:

* `ifndefName?` and `defineName?` read the keyword at the very start of the line, blanks, a name,
  and nothing but blanks after it;
* `endifName?` reads the keyword, a comment mark, and a name alone in the comment;
* `isEndif` asks only for the keyword at the start of the line, after blanks if need be.

Blanks take in the line terminator, and also line feeds inside the text. `Directive.line` is the
form in which each directive is written. -/

namespace IncludeGuard

/-- The directives of an include guard. -/
inductive Directive
  | ifndef
  | define
  | endif
deriving DecidableEq

namespace Directive

/-! ### Reading -/

/-- The name at the start of the text, if it is followed by nothing but blanks. -/
def loneName? (t : Text) : Option Text :=
  let name := t.takeWhile Text.isWord
  if name = [] then none
  else if (t.dropWhile Text.isWord).all Text.isBlank then some name
  else none

/-- The name after a keyword and at least one blank. -/
def nameAfter? (keyword : Text) (l : Line) : Option Text :=
  match keyword.isPrefixOf? l with
  | none => none
  | some [] => none
  | some (c :: rest) =>
    if Text.isBlank c then loneName? (rest.dropWhile Text.isBlank) else none

/-- The name that an `#ifndef` line tests. -/
def ifndefName? (l : Line) : Option Text :=
  nameAfter? "#ifndef".toList l

/-- The name that a `#define` line without a value defines. -/
def defineName? (l : Line) : Option Text :=
  nameAfter? "#define".toList l

/-- The name alone in the comment of an `#endif` line. -/
def endifName? (l : Line) : Option Text :=
  match "#endif".toList.isPrefixOf? l with
  | none => none
  | some rest =>
    match "//".toList.isPrefixOf? (rest.dropWhile Text.isBlank) with
    | none => none
    | some comment => loneName? (comment.dropWhile Text.isBlank)

/-- The line is an `#endif` line, whatever follows the keyword. -/
def isEndif (l : Line) : Bool :=
  "#endif".toList.isPrefixOf (l.dropWhile Text.isBlank)

/-! ### Writing -/

/-- What stands before the name. -/
def opening : Directive → Text
  | ifndef => "#ifndef".toList
  | define => "#define".toList
  | endif => "#endif //".toList

/-- The line of the directive for a name, with the terminator `ending`. -/
def line (d : Directive) (name ending : Text) : Line :=
  d.opening ++ ' ' :: name ++ ending

theorem ifndef_line (e ending : Text) :
    ifndef.line e ending = "#ifndef".toList ++ ' ' :: e ++ ending := rfl

theorem define_line (e ending : Text) :
    define.line e ending = "#define".toList ++ ' ' :: e ++ ending := rfl

theorem endif_line (e ending : Text) :
    endif.line e ending = "#endif //".toList ++ ' ' :: e ++ ending := rfl

end Directive

end IncludeGuard
