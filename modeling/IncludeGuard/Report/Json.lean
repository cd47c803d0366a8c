import IncludeGuard.Text.Basic

/-! # JSON layout

JSON text with one field or element a line, two spaces deeper than the bracket around it. Values
are handed over as text that is already laid out. Strings are quoted, with the short escapes where
there is one, four hexadecimal digits for the other controls, and everything else as it is. -/

namespace IncludeGuard.Json

/-! ### Strings -/

/-- A hexadecimal digit in lower case. -/
def hexDigit (n : Nat) : Char :=
  if n < 10 then Char.ofNat (0x30 + n) else Char.ofNat (0x57 + n)

/-- A character inside a quoted string. -/
def escape (c : Char) : Text :=
  if c = '"' then "\\\"".toList
  else if c = '\\' then "\\\\".toList
  else if c.toNat = 0x8 then "\\b".toList
  else if c.toNat = 0x9 then "\\t".toList
  else if c.toNat = 0xA then "\\n".toList
  else if c.toNat = 0xC then "\\f".toList
  else if c.toNat = 0xD then "\\r".toList
  else if c.toNat < 0x20 then
    "\\u00".toList ++ [hexDigit (c.toNat / 0x10), hexDigit (c.toNat % 0x10)]
  else [c]

/-- A quoted string. -/
def quote (t : Text) : Text :=
  '"' :: t.flatMap escape ++ ['"']

/-! ### Layout -/

/-- The start of a line at a depth. -/
def indent (depth : Nat) : Text :=
  List.replicate depth ' '

/-- Items on lines of their own between two brackets that stand at a depth. -/
def block (opening closing : Char) (depth : Nat) (items : List Text) : Text :=
  if items = [] then [opening, closing]
  else
    opening :: '\n' :: ",\n".toList.intercalate (items.map (indent (depth + 2) ++ ·)) ++
      '\n' :: indent depth ++ [closing]

/-- A list at a depth. -/
def array (depth : Nat) (items : List Text) : Text :=
  block '[' ']' depth items

/-- An object at a depth, with its fields in the given order. -/
def object (depth : Nat) (fields : List (Text × Text)) : Text :=
  block (Char.ofNat 0x7B) (Char.ofNat 0x7D) depth
    (fields.map fun field => quote field.1 ++ ": ".toList ++ field.2)

end IncludeGuard.Json
