import IncludeGuard.Proofs.Directive

/-! # The grammar of directive lines

The lines that carry a name are given by one rule for each directive (`Spells`): the keyword, blanks,
the name, and blanks again, with the comment mark between the blanks of an `#endif` line. The readers
of `Directive` scan a line once from the left, skip all blanks and take all word characters they can;
nevertheless they accept the lines of the rules and no others (`name?_eq_some_iff`), because no
character is both blank and a word character.

A line is thus a line of one directive at most, with one name (`Spells.unique`). `readers_grammar`
puts this together with what `isEndif` accepts. -/

namespace IncludeGuard.Directive

open Text

/-- The lines of a directive with a name. The blanks may hold line feeds, and all but those after
the keyword of an `#ifndef` or `#define` line may be missing. -/
inductive Spells : Directive → Text → Line → Prop
  | ifndef {w n w' : Text} : w ≠ [] → w.AllBlank → n.IsMacroName → w'.AllBlank →
      Spells .ifndef n ("#ifndef".toList ++ w ++ n ++ w')
  | define {w n w' : Text} : w ≠ [] → w.AllBlank → n.IsMacroName → w'.AllBlank →
      Spells .define n ("#define".toList ++ w ++ n ++ w')
  | endif {w w' n w'' : Text} : w.AllBlank → w'.AllBlank → n.IsMacroName → w''.AllBlank →
      Spells .endif n ("#endif".toList ++ w ++ "//".toList ++ w' ++ n ++ w'')

variable {d d' : Directive} {n n' : Text} {l : Line}

theorem name?_eq_some_iff : d.name? l = some n ↔ d.Spells n l := by
  cases d with
  | ifndef =>
    refine nameAfter?_eq_some_iff.trans ⟨?_, fun h => ?_⟩
    · rintro ⟨hn, w, w', hne, hw, hw', rfl⟩
      exact .ifndef hne hw hn hw'
    · cases h with
      | ifndef hne hw hn hw' => exact ⟨hn, _, _, hne, hw, hw', rfl⟩
  | define =>
    refine nameAfter?_eq_some_iff.trans ⟨?_, fun h => ?_⟩
    · rintro ⟨hn, w, w', hne, hw, hw', rfl⟩
      exact .define hne hw hn hw'
    · cases h with
      | define hne hw hn hw' => exact ⟨hn, _, _, hne, hw, hw', rfl⟩
  | endif =>
    refine endifName?_eq_some_iff.trans ⟨?_, fun h => ?_⟩
    · rintro ⟨hn, w, w', w'', hw, hw', hw'', rfl⟩
      exact .endif hw hw' hn hw''
    · cases h with
      | endif hw hw' hn hw'' => exact ⟨hn, _, _, _, hw, hw', hw'', rfl⟩

theorem Spells.unique (h : d.Spells n l) (h' : d'.Spells n' l) : d = d' ∧ n = n' := by
  have hn := name?_eq_some_iff.mpr h
  have hn' := name?_eq_some_iff.mpr h'
  obtain rfl := eq_of_accepts (accepts_of_name? hn) (accepts_of_name? hn')
  exact ⟨rfl, Option.some.inj (hn.symm.trans hn')⟩

/-- **What the readers accept.** A name is read from the lines of the grammar and from no others, and
a closing line is any line that starts with its keyword after blanks. No line can be read as two
directives or with two names, none is accepted as two of an `#ifndef` line, a `#define` line and a
closing line, and a line with a name in the comment of its `#endif` is a closing line. -/
theorem readers_grammar (l : Line) :
    (∀ n, ifndefName? l = some n ↔ Spells .ifndef n l) ∧
    (∀ n, defineName? l = some n ↔ Spells .define n l) ∧
    (∀ n, endifName? l = some n ↔ Spells .endif n l) ∧
    (isEndif l = true ↔ ∃ w rest, AllBlank w ∧ l = w ++ "#endif".toList ++ rest) ∧
    (∀ d d' n n', Spells d n l → Spells d' n' l → d = d' ∧ n = n') ∧
    (∀ d d' : Directive, d.accepts l = true → d'.accepts l = true → d = d') ∧
    (∀ n, endifName? l = some n → isEndif l = true) :=
  ⟨fun _ => name?_eq_some_iff (d := ifndef), fun _ => name?_eq_some_iff (d := define),
    fun _ => name?_eq_some_iff (d := endif), isEndif_iff, fun _ _ _ _ => Spells.unique,
    fun _ _ => eq_of_accepts, fun _ => accepts_of_name? (d := endif)⟩

/-- The theorem at a line whose blanks are line feeds and wide spaces. -/
theorem readers_grammar_wideSpaces :
    let l := "#endif\u2003//\n\u3000\u0100\u0663_\r\n\n".toList
    let n := "\u0100\u0663_".toList
    Spells .endif n l ∧ endifName? l = some n ∧ isEndif l = true ∧
    (∀ d : Directive, d.accepts l = true → d = endif) ∧ ∀ n', Spells .endif n' l → n' = n := by
  intro l n
  have hname : endifName? l = some n := by decide +kernel
  obtain ⟨-, -, hread, -, hunique, haccepts, hclosing⟩ := readers_grammar l
  have hspells := (hread n).mp hname
  have hendif := hclosing n hname
  exact ⟨hspells, hname, hendif, fun d hd => haccepts d endif hd hendif,
    fun n' h => (hunique endif endif n' n h hspells).2⟩

end IncludeGuard.Directive
