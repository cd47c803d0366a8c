import IncludeGuard.Report.Json
import Mathlib.Data.List.Forall2

/-! # Reading JSON

A reader of JSON text, to compare the layout with. It takes any white space between the parts of a
document, and the short and the hexadecimal escapes in strings. Numbers are natural numbers, there
is no `null`, and values are nested at most `maxDepth` deep.

A reader takes something off the start of a text. `Reads reader t a` says that it takes the text `t`
for `a` wherever `t` stands: after white space, and before anything that does not go on with a
digit. What is laid out piece by piece is read piece by piece:

* `reads_quote`: a quoted string is read as the string, whatever characters it has;
* `reads_ofNat`, `reads_ofBool`: so are numbers and truth values;
* `reads_array`, `reads_object`: a list or an object is read as what its parts are read as.

`read?` reads a whole document, with nothing but white space after the value. -/

namespace IncludeGuard.Json

/-- A JSON value. -/
inductive Value
  | bool (b : Bool)
  | number (n : Nat)
  | string (t : Text)
  | array (items : List Value)
  | object (fields : List (Text × Value))

/-- What takes something off the start of a text. -/
abbrev Reader (α : Type) : Type :=
  Text → Option (α × Text)

/-! ### White space -/

/-- The white space between the parts of a document. -/
def isSpace (c : Char) : Bool :=
  c == ' ' || c == '\n' || c == '\r' || c == '\t'

/-- The text without the white space at its start. -/
def skipSpace (t : Text) : Text :=
  t.dropWhile isSpace

/-- The text is white space. -/
def AllSpace (t : Text) : Prop :=
  ∀ c ∈ t, isSpace c = true

theorem allSpace_indent (depth : Nat) : AllSpace (indent depth) := by
  intro c hc
  rw [List.eq_of_mem_replicate hc]
  rfl

theorem AllSpace.cons {c : Char} (hc : isSpace c = true) {w : Text} (hw : AllSpace w) :
    AllSpace (c :: w) :=
  List.forall_mem_cons.mpr ⟨hc, hw⟩

theorem skipSpace_append {w : Text} (hw : AllSpace w) {c : Char} (hc : isSpace c = false)
    (t : Text) : skipSpace (w ++ c :: t) = c :: t := by
  unfold skipSpace
  rw [List.dropWhile_append_of_pos hw, List.dropWhile_cons_of_neg (by simp [hc])]

theorem skipSpace_cons {c : Char} (hc : isSpace c = false) (t : Text) :
    skipSpace (c :: t) = c :: t :=
  skipSpace_append (w := []) (by simp [AllSpace]) hc t

/-! ### Strings -/

/-- What a letter after a backslash stands for. -/
def unescape? : Char → Option Char
  | '"' => some '"'
  | '\\' => some '\\'
  | '/' => some '/'
  | 'b' => some (Char.ofNat 0x8)
  | 't' => some (Char.ofNat 0x9)
  | 'n' => some (Char.ofNat 0xA)
  | 'f' => some (Char.ofNat 0xC)
  | 'r' => some (Char.ofNat 0xD)
  | _ => none

/-- The value of a hexadecimal digit. -/
def hexValue? (c : Char) : Option Nat :=
  if '0' ≤ c ∧ c ≤ '9' then some (c.toNat - 0x30)
  else if 'a' ≤ c ∧ c ≤ 'f' then some (c.toNat - 0x57)
  else if 'A' ≤ c ∧ c ≤ 'F' then some (c.toNat - 0x37)
  else none

/-- The character of a code in hexadecimal digits. A surrogate is no character. -/
def charOfHex? (digits : List Char) : Option Char :=
  match digits.mapM hexValue? with
  | none => none
  | some values =>
    let n := values.foldl (fun n d => 0x10 * n + d) 0
    if n.isValidChar then some (Char.ofNat n) else none

/-- Reads a string after its opening quotation mark. -/
def string? : Reader Text
  | [] => none
  | '"' :: t => some ([], t)
  | '\\' :: 'u' :: a :: b :: c :: d :: t =>
    (charOfHex? [a, b, c, d]).bind fun e => (string? t).map fun p => (e :: p.1, p.2)
  | '\\' :: c :: t => (unescape? c).bind fun e => (string? t).map fun p => (e :: p.1, p.2)
  | c :: t => (string? t).map fun p => (c :: p.1, p.2)

theorem hexValue?_hexDigit {n : Nat} (h : n < 0x10) : hexValue? (hexDigit n) = some n := by
  have hall : ∀ n < 0x10, hexValue? (hexDigit n) = some n := by decide
  exact hall n h

theorem charOfHex?_hexDigit {c : Char} (h : c.toNat < 0x20) :
    charOfHex? ['0', '0', hexDigit (c.toNat / 0x10), hexDigit (c.toNat % 0x10)] = some c := by
  have hzero : hexValue? '0' = some 0 := by decide
  have hvalues : ['0', '0', hexDigit (c.toNat / 0x10), hexDigit (c.toNat % 0x10)].mapM hexValue? =
      some [0, 0, c.toNat / 0x10, c.toNat % 0x10] := by
    simp [List.mapM_cons, hzero, hexValue?_hexDigit (n := c.toNat / 0x10) (by omega),
      hexValue?_hexDigit (n := c.toNat % 0x10) (by omega)]
  have hcode : [0, 0, c.toNat / 0x10, c.toNat % 0x10].foldl (fun n d => 0x10 * n + d) 0 =
      c.toNat := by
    simp only [List.foldl_cons, List.foldl_nil]
    omega
  unfold charOfHex?
  simp only [hvalues, hcode]
  rw [if_pos (Or.inl (by omega)), Char.ofNat_toNat]

/-- **A character is read back from its escape**, and the string goes on after it. -/
theorem string?_escape (c : Char) (t : Text) :
    string? (escape c ++ t) = (string? t).map fun p => (c :: p.1, p.2) := by
  have hchar {n : Nat} (h : c.toNat = n) : Char.ofNat n = c := by
    rw [← h, Char.ofNat_toNat]
  unfold escape
  split_ifs with h1 h2 h3 h4 h5 h6 h7 h8
  · rw [h1]
    rfl
  · rw [h2]
    rfl
  · rw [← hchar h3]
    rfl
  · rw [← hchar h4]
    rfl
  · rw [← hchar h5]
    rfl
  · rw [← hchar h6]
    rfl
  · rw [← hchar h7]
    rfl
  · have hstring : string? ("\\u00".toList ++
        [hexDigit (c.toNat / 0x10), hexDigit (c.toNat % 0x10)] ++ t) =
        (charOfHex? ['0', '0', hexDigit (c.toNat / 0x10), hexDigit (c.toNat % 0x10)]).bind
          fun e => (string? t).map fun p => (e :: p.1, p.2) := rfl
    rw [hstring, charOfHex?_hexDigit h8, Option.bind_some]
  · -- any other character stands for itself
    rw [List.singleton_append, string?]
    · exact h1
    · exact fun _ _ _ _ _ hc _ => h2 hc
    · exact fun _ _ hc _ => h2 hc

theorem string?_flatMap_escape (t rest : Text) :
    string? (t.flatMap escape ++ '"' :: rest) = some (t, rest) := by
  induction t with
  | nil => rfl
  | cons c t ih => rw [List.flatMap_cons, List.append_assoc, string?_escape, ih, Option.map_some]

/-! ### Lists and objects -/

section Block
variable {α : Type}

/-- Reads at most `count` items with commas between them, up to a closing bracket. -/
def items? (item : Reader α) (closing : Char) : (count : Nat) → Reader (List α)
  | 0, _ => none
  | count + 1, t =>
    match item t with
    | none => none
    | some (a, rest) =>
      match skipSpace rest with
      | [] => none
      | c :: rest =>
        if c = ',' then (items? item closing count rest).map fun p => (a :: p.1, p.2)
        else if c = closing then some ([a], rest)
        else none

/-- Reads what stands between two brackets, after the opening one. There are no more items than the
text has characters. -/
def block? (item : Reader α) (closing : Char) : Reader (List α) := fun t =>
  match items? item closing t.length t with
  | some p => some p
  | none =>
    match skipSpace t with
    | [] => none
    | c :: rest => if c = closing then some ([], rest) else none

/-- The reader takes the text `t` for `a`, after white space and before anything that does not go on
with a digit. -/
def Reads (reader : Reader α) (t : Text) (a : α) : Prop :=
  ∀ w rest, AllSpace w → (∀ c ∈ rest.head?, c.isDigit = false) →
    reader (w ++ t ++ rest) = some (a, rest)

/-- Items on lines of their own, as `block` lays them out. -/
def itemLines (depth : Nat) (texts : List Text) : Text :=
  ",\n".toList.intercalate (texts.map (indent depth ++ ·))

theorem itemLines_singleton (depth : Nat) (t : Text) : itemLines depth [t] = indent depth ++ t :=
  List.intercalate_singleton

theorem itemLines_cons_cons (depth : Nat) (t t' : Text) (texts : List Text) :
    itemLines depth (t :: t' :: texts) =
      indent depth ++ (t ++ ',' :: '\n' :: itemLines depth (t' :: texts)) := by
  have h : itemLines depth (t :: t' :: texts) =
      indent depth ++ t ++ ",\n".toList ++ itemLines depth (t' :: texts) :=
    List.intercalate_cons_cons
  simp [h]

section Items
variable {item : Reader α} {closing : Char} {texts : List Text} {as : List α}

/-- **Items are read one after the other.** -/
theorem items?_itemLines (hcomma : closing ≠ ',') (hspace : isSpace closing = false)
    (h : List.Forall₂ (Reads item) texts as) (hne : texts ≠ []) (inner outer : Nat) (rest : Text)
    {count : Nat} (hcount : (itemLines inner texts).length < count) :
    items? item closing count
        ('\n' :: (itemLines inner texts ++ '\n' :: (indent outer ++ closing :: rest))) =
      some (as, rest) := by
  have hindent := AllSpace.cons (c := '\n') rfl (allSpace_indent inner)
  induction h generalizing count with
  | nil => exact absurd rfl hne
  | @cons t a texts as ht hlater ih =>
    obtain ⟨count, rfl⟩ : ∃ k, count = k + 1 := ⟨count - 1, by omega⟩
    cases hlater with
    | nil =>
      -- the last item: the closing bracket follows
      have hitem := ht _ ('\n' :: (indent outer ++ closing :: rest)) hindent
        (by simp [Char.isDigit])
      have hskip : skipSpace ('\n' :: (indent outer ++ closing :: rest)) = closing :: rest :=
        skipSpace_append (AllSpace.cons rfl (allSpace_indent outer)) hspace rest
      rw [itemLines_singleton, List.append_assoc, items?]
      simp only [List.cons_append, List.append_assoc] at hitem
      simp only [hitem, hskip, if_neg hcomma, if_true]
    | @cons t' a' texts as =>
      -- a comma follows, and then the later items
      have hitem := ht _ (',' :: '\n' :: (itemLines inner (t' :: texts) ++
        '\n' :: (indent outer ++ closing :: rest))) hindent (by simp [Char.isDigit])
      rw [itemLines_cons_cons] at hcount ⊢
      have hlater : (itemLines inner (t' :: texts)).length < count := by
        simp only [List.length_append, List.length_cons] at hcount
        omega
      have hrest := ih (by simp) hlater
      simp only [List.append_assoc, List.cons_append] at hitem ⊢
      rw [items?]
      simp only [hitem, skipSpace_cons (c := ',') rfl, if_true, hrest, Option.map_some]

/-- **What stands between two brackets is read** as the items it was laid out from. -/
theorem exists_block?_eq (hcomma : closing ≠ ',') (hspace : isSpace closing = false)
    (hclosing : ∀ rest, item (closing :: rest) = none)
    (h : List.Forall₂ (Reads item) texts as) (opening : Char) (depth : Nat) (rest : Text) :
    ∃ t, block opening closing depth texts ++ rest = opening :: t ∧
      block? item closing t = some (as, rest) := by
  unfold block
  split_ifs with hnil
  · subst hnil
    cases h
    exact ⟨closing :: rest, rfl, by simp [block?, items?, hclosing, skipSpace_cons hspace]⟩
  · refine ⟨'\n' :: (itemLines (depth + 2) texts ++ '\n' :: (indent depth ++ closing :: rest)),
      by simp [itemLines], ?_⟩
    unfold block?
    rw [items?_itemLines hcomma hspace h hnil]
    simp only [List.length_cons, List.length_append]
    omega

end Items

end Block

/-- Reads a field of an object. -/
def field? (value : Reader Value) : Reader (Text × Value) := fun t =>
  match skipSpace t with
  | [] => none
  | c :: rest =>
    if c = '"' then
      (string? rest).bind fun p =>
        match skipSpace p.2 with
        | [] => none
        | c :: rest => if c = ':' then (value rest).map fun q => ((p.1, q.1), q.2) else none
    else none

/-! ### Values -/

/-- Reads a truth value. -/
def bool? : Reader Bool := fun t =>
  match "true".toList.isPrefixOf? t with
  | some rest => some (true, rest)
  | none => ("false".toList.isPrefixOf? t).map fun rest => (false, rest)

/-- Reads a value with at most `depth` levels. -/
def value? : (depth : Nat) → Reader Value
  | 0, _ => none
  | depth + 1, t =>
    match skipSpace t with
    | [] => none
    | c :: rest =>
      if c = '"' then (string? rest).map fun p => (.string p.1, p.2)
      else if c = '[' then (block? (value? depth) ']' rest).map fun p => (.array p.1, p.2)
      else if c = Char.ofNat 0x7B then
        (block? (field? (value? depth)) (Char.ofNat 0x7D) rest).map fun p => (.object p.1, p.2)
      else if c.isDigit then
        some (.number (Nat.ofDigitChars 10 ((c :: rest).takeWhile Char.isDigit) 0),
          (c :: rest).dropWhile Char.isDigit)
      else (bool? (c :: rest)).map fun p => (.bool p.1, p.2)

/-- How many levels a document may have. -/
def maxDepth : Nat := 128

/-- Reads a document. -/
def read? (t : Text) : Option Value :=
  match value? maxDepth t with
  | some (v, rest) => if rest.all isSpace then some v else none
  | none => none

section Reads
variable {depth : Nat}

theorem reads_quote (t : Text) : Reads (value? (depth + 1)) (quote t) (.string t) := by
  intro w rest hw _
  have hskip : skipSpace (w ++ quote t ++ rest) = '"' :: (t.flatMap escape ++ '"' :: rest) := by
    rw [List.append_assoc]
    exact (skipSpace_append hw rfl _).trans (by simp)
  rw [value?, hskip]
  simp only [if_true, string?_flatMap_escape, Option.map_some]

theorem isDigit_of_mem_ofNat {n : Nat} {c : Char} (h : c ∈ Text.ofNat n) : c.isDigit = true :=
  Nat.isDigit_of_mem_toDigits (by decide) (by decide) h

theorem reads_ofNat (n : Nat) : Reads (value? (depth + 1)) (Text.ofNat n) (.number n) := by
  intro w rest hw hrest
  have hdigits : ∀ c ∈ Text.ofNat n, c.isDigit = true := fun _ hc => isDigit_of_mem_ofNat hc
  have hstop : rest.takeWhile Char.isDigit = [] ∧ rest.dropWhile Char.isDigit = rest := by
    cases rest with
    | nil => simp
    | cons c rest => simp [hrest c rfl]
  have htake : (Text.ofNat n ++ rest).takeWhile Char.isDigit = Text.ofNat n := by
    rw [List.takeWhile_append_of_pos hdigits, hstop.1, List.append_nil]
  have hdrop : (Text.ofNat n ++ rest).dropWhile Char.isDigit = rest := by
    rw [List.dropWhile_append_of_pos hdigits, hstop.2]
  have hvalue : Nat.ofDigitChars 10 (Text.ofNat n) 0 = n := Nat.ofDigitChars_ten_toDigits
  obtain ⟨d, ds, hds⟩ := List.exists_cons_of_ne_nil (Nat.toDigits_ne_nil (b := 10) (n := n))
  have hofNat : Text.ofNat n = d :: ds := hds
  -- a digit is none of the characters that start something else
  have hd : d.isDigit = true := hdigits d (by simp [hofNat])
  have hne {c : Char} (hc : c.isDigit = false) : d ≠ c := by
    rintro rfl
    simp [hd] at hc
  have hspace : isSpace d = false := by
    simp [isSpace, hne (c := ' ') rfl, hne (c := '\n') rfl, hne (c := '\r') rfl,
      hne (c := '\t') rfl]
  have hskip : skipSpace (w ++ Text.ofNat n ++ rest) = d :: (ds ++ rest) := by
    rw [hofNat, List.append_assoc]
    exact skipSpace_append hw hspace _
  rw [value?, hskip]
  simp only [if_neg (hne (c := '"') rfl), if_neg (hne (c := '[') rfl),
    if_neg (hne (c := Char.ofNat 0x7B) rfl), hd, if_true]
  rw [← List.cons_append, ← hofNat, htake, hdrop, hvalue]

theorem reads_ofBool (b : Bool) : Reads (value? (depth + 1)) (Text.ofBool b) (.bool b) := by
  intro w rest hw _
  cases b with
  | true =>
    have hskip : skipSpace (w ++ Text.ofBool true ++ rest) = "true".toList ++ rest := by
      rw [List.append_assoc]
      exact skipSpace_append hw rfl _
    rw [value?, hskip]
    rfl
  | false =>
    have hskip : skipSpace (w ++ Text.ofBool false ++ rest) = "false".toList ++ rest := by
      rw [List.append_assoc]
      exact skipSpace_append hw rfl _
    rw [value?, hskip]
    rfl

/-- **A list is read** as what its items are read as. -/
theorem reads_array {texts : List Text} {vs : List Value}
    (h : List.Forall₂ (Reads (value? depth)) texts vs) (n : Nat) :
    Reads (value? (depth + 1)) (array n texts) (.array vs) := by
  intro w rest hw _
  have hclosing : ∀ rest, value? depth (']' :: rest) = none := by
    intro rest
    cases depth <;> rfl
  obtain ⟨t, ht, hblock⟩ := exists_block?_eq (by decide) (by decide) hclosing h '[' n rest
  have hskip : skipSpace (w ++ array n texts ++ rest) = '[' :: t := by
    rw [List.append_assoc, array, ht]
    exact skipSpace_append hw rfl t
  rw [value?, hskip]
  simp [hblock]

theorem reads_field {text : Text} {v : Value} (h : Reads (value? depth) text v) (name : Text) :
    Reads (field? (value? depth)) (quote name ++ ": ".toList ++ text) (name, v) := by
  intro w rest hw hrest
  have hskip : skipSpace (w ++ (quote name ++ ": ".toList ++ text) ++ rest) =
      '"' :: (name.flatMap escape ++ '"' :: (':' :: ([' '] ++ text ++ rest))) := by
    rw [List.append_assoc]
    exact (skipSpace_append hw rfl _).trans (by simp)
  have hvalue := h [' '] rest (by simp [AllSpace, isSpace]) hrest
  rw [field?, hskip]
  simp only [if_true, string?_flatMap_escape, Option.bind_some, skipSpace_cons (c := ':') rfl,
    hvalue, Option.map_some]

/-- **An object is read** as what its fields are read as. -/
theorem reads_object {fields : List (Text × Text)} {vs : List (Text × Value)}
    (h : List.Forall₂ (fun f v => f.1 = v.1 ∧ Reads (value? depth) f.2 v.2) fields vs) (n : Nat) :
    Reads (value? (depth + 1)) (object n fields) (.object vs) := by
  intro w rest hw _
  have hfields : List.Forall₂ (Reads (field? (value? depth)))
      (fields.map fun field => quote field.1 ++ ": ".toList ++ field.2) vs := by
    rw [List.forall₂_map_left_iff]
    refine h.imp ?_
    rintro ⟨name, text⟩ ⟨name', v⟩ ⟨hname, htext⟩
    obtain rfl : name = name' := hname
    exact reads_field htext name
  have hclosing : ∀ rest, field? (value? depth) (Char.ofNat 0x7D :: rest) = none := fun _ => rfl
  obtain ⟨t, ht, hblock⟩ :=
    exists_block?_eq (by decide) (by decide) hclosing hfields (Char.ofNat 0x7B) n rest
  have hskip : skipSpace (w ++ object n fields ++ rest) = Char.ofNat 0x7B :: t := by
    rw [List.append_assoc, object, ht]
    exact skipSpace_append hw rfl t
  rw [value?, hskip]
  simp [hblock]

end Reads

theorem read?_append {t : Text} {v : Value} (h : Reads (value? maxDepth) t v) {w : Text}
    (hw : AllSpace w) : read? (t ++ w) = some v := by
  have hend : ∀ c ∈ w.head?, c.isDigit = false := by
    intro c hc
    have hspace := hw c (List.mem_of_mem_head? hc)
    rw [Bool.eq_false_iff]
    intro hdigit
    simp only [isSpace, Bool.or_eq_true, beq_iff_eq] at hspace
    rcases hspace with ((rfl | rfl) | rfl) | rfl <;> exact absurd hdigit (by decide)
  have hvalue := h [] w (by simp [AllSpace]) hend
  rw [List.nil_append] at hvalue
  unfold read?
  rw [hvalue]
  simp only [List.all_eq_true.mpr hw, if_true]

end IncludeGuard.Json
