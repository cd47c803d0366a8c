import IncludeGuard.Proofs.Convergence

/-! # Agreement and canonical form

A check asks whether the anchors carry a name (`Scan.agrees`), a repair whether they are canonical
lines for it. The two differ in two ways only (`disagreement`):

* without a closing anchor a guard never agrees, though there may be nothing to repair;
* a guard that agrees may still be repaired, but then only in its blanks.

The second holds because a line that reads as a name is the line that would be written, blanks
aside (`withoutBlanks_line`). -/

namespace IncludeGuard

open Directive Scan

/-- The text without its blanks. -/
def Text.withoutBlanks (t : Text) : Text :=
  t.filter fun c => !isBlank c

/-- The anchor of the directive is canonical for the name: the directive, one space, the name and
the terminator that the line has. -/
def CanonicalAnchor (lines : List Line) (e : Text) (d : Directive) : Prop :=
  ∃ x l, (scan lines).indexOf? d = some x ∧ lines[x]? = some l ∧ l = d.line e (lineEnding l)

/-! ### Blanks -/

namespace Text

theorem withoutBlanks_append (s t : Text) :
    (s ++ t).withoutBlanks = s.withoutBlanks ++ t.withoutBlanks :=
  List.filter_append ..

theorem withoutBlanks_of_allBlank {w : Text} (hw : w.AllBlank) : w.withoutBlanks = [] := by
  unfold withoutBlanks
  rw [List.filter_eq_nil_iff]
  intro c hc
  simp [hw c hc]

theorem withoutBlanks_flatten (ls : List Line) :
    withoutBlanks ls.flatten = (ls.map withoutBlanks).flatten :=
  List.filter_flatten ..

end Text

open Text in
/-- **A line that reads as a name is the canonical one**, blanks aside. -/
theorem withoutBlanks_line {d : Directive} {l : Line} {e : Text} (h : d.name? l = some e)
    {ending : Text} (hend : ending.AllBlank) :
    withoutBlanks (d.line e ending) = withoutBlanks l := by
  have hline : withoutBlanks (d.line e ending) = d.opening.withoutBlanks ++ e.withoutBlanks := by
    have hspace : withoutBlanks (' ' :: e) = e.withoutBlanks := rfl
    rw [line, withoutBlanks_append, withoutBlanks_append, withoutBlanks_of_allBlank hend, hspace,
      List.append_nil]
  rw [hline]
  cases d with
  | ifndef =>
    obtain ⟨-, w, w', -, hw, hw', rfl⟩ := nameAfter?_eq_some_iff.mp h
    simp only [withoutBlanks_append, withoutBlanks_of_allBlank hw, withoutBlanks_of_allBlank hw',
      List.append_nil]
    rfl
  | define =>
    obtain ⟨-, w, w', -, hw, hw', rfl⟩ := nameAfter?_eq_some_iff.mp h
    simp only [withoutBlanks_append, withoutBlanks_of_allBlank hw, withoutBlanks_of_allBlank hw',
      List.append_nil]
    rfl
  | endif =>
    obtain ⟨-, w, w', w'', hw, hw', hw'', rfl⟩ := endifName?_eq_some_iff.mp h
    simp only [withoutBlanks_append, withoutBlanks_of_allBlank hw, withoutBlanks_of_allBlank hw',
      withoutBlanks_of_allBlank hw'', List.append_nil]
    rfl

/-! ### Nothing to repair -/

/-- **Nothing is rewritten** exactly if every anchor there is is canonical. -/
theorem rewritten_eq_self_iff {lines : List Line} {e : Text} : rewritten lines e = lines ↔
    ∀ d, ((scan lines).indexOf? d).isSome → CanonicalAnchor lines e d := by
  constructor
  · intro h d hd
    obtain ⟨x, hx⟩ := Option.isSome_iff_exists.mp hd
    obtain ⟨l, hl⟩ := exists_getElem?_of_indexOf? hx
    exact ⟨x, l, hx, hl, (rewritten_eq_iff.mp h d x l hx hl).symm⟩
  · intro h
    refine rewritten_eq_iff.mpr fun d x l hx hl => ?_
    obtain ⟨x', l', hx', hl', hline⟩ := h d (by simp [hx])
    obtain rfl : x' = x := Option.some.inj (hx'.symm.trans hx)
    obtain rfl : l' = l := Option.some.inj (hl'.symm.trans hl)
    exact hline.symm

/-! ### Only blanks to repair -/

theorem withoutBlanks_flatten_rewritten {lines : List Line} {e : Text}
    (hguard : (scan lines).hasGuard = true) (h : (scan lines).agrees e = true) :
    Text.withoutBlanks (rewritten lines e).flatten = Text.withoutBlanks lines.flatten := by
  have hlines : (rewritten lines e).map Text.withoutBlanks = lines.map Text.withoutBlanks := by
    refine (map_rewritten_eq_iff Text.withoutBlanks).mpr fun d x l hx hl => ?_
    obtain ⟨x', hx', hname⟩ := (agrees_iff hguard).mp h d
    obtain rfl : x = x' := Option.some.inj (hx.symm.trans hx')
    simp only [nameAt?, hl, Option.bind_some] at hname
    exact withoutBlanks_line hname (Text.allBlank_lineEnding l)
  rw [Text.withoutBlanks_flatten, hlines, Text.withoutBlanks_flatten]

/-- **Where agreement and repair part.** Of a text with a guard and a macro name: it does not agree
and yet there is nothing to repair exactly if it has no closing anchor and both opening anchors are
canonical; if it agrees, a repair changes only blanks; and with a closing anchor, a text that there
is nothing to repair in agrees. -/
theorem disagreement {c e : Text} (he : e.IsMacroName)
    (hguard : (scan (splitLines c)).hasGuard = true) :
    (((scan (splitLines c)).agrees e = false ∧ repair? (splitLines c) e = none) ↔
      (scan (splitLines c)).endif = none ∧ CanonicalAnchor (splitLines c) e .ifndef ∧
        CanonicalAnchor (splitLines c) e .define) ∧
    (∀ t, (scan (splitLines c)).agrees e = true → repair? (splitLines c) e = some t →
      t.withoutBlanks = c.withoutBlanks) ∧
    ((scan (splitLines c)).endif.isSome = true → repair? (splitLines c) e = none →
      (scan (splitLines c)).agrees e = true) := by
  -- with nothing to rewrite, the lines are the rewritten ones, which agree if they are closed
  have hagrees (h : rewritten (splitLines c) e = splitLines c) :
      (scan (splitLines c)).agrees e = (scan (splitLines c)).endif.isSome := by
    have := agrees_scan_rewritten he hguard
    rwa [h] at this
  refine ⟨⟨?_, ?_⟩, ?_, ?_⟩
  · rintro ⟨hfalse, hnone⟩
    have h := repair?_eq_none_iff.mp hnone hguard
    rw [hagrees h, Option.isSome_eq_false_iff, Option.isNone_iff_eq_none] at hfalse
    obtain ⟨⟨i, hi⟩, d, hd⟩ := hasGuard_iff.mp hguard
    exact ⟨hfalse, rewritten_eq_self_iff.mp h .ifndef (by simp [hi]),
      rewritten_eq_self_iff.mp h .define (by simp [hd])⟩
  · rintro ⟨hendif, hi, hd⟩
    have h : rewritten (splitLines c) e = splitLines c := by
      refine rewritten_eq_self_iff.mpr fun d hsome => ?_
      cases d with
      | ifndef => exact hi
      | define => exact hd
      | endif => simp [indexOf?, hendif] at hsome
    rw [hagrees h, hendif]
    exact ⟨rfl, repair?_eq_none_iff.mpr fun _ => h⟩
  · intro t h ht
    obtain ⟨-, -, rfl⟩ := repair?_eq_some_iff.mp ht
    rw [withoutBlanks_flatten_rewritten hguard h, flatten_splitLines]
  · intro hendif hnone
    rw [hagrees (repair?_eq_none_iff.mp hnone hguard), hendif]

/-- The theorem at a guard that agrees in spite of its blanks, and at one without an end. -/
theorem disagreement_blanks :
    Text.IsMacroName "A_H".toList ∧
    (scan (splitLines "#ifndef\tA_H \r\n#define A_H\n#endif//A_H".toList)).agrees "A_H".toList ∧
    (∃ t, repair? (splitLines "#ifndef\tA_H \r\n#define A_H\n#endif//A_H".toList) "A_H".toList =
      some t ∧ t.withoutBlanks =
        Text.withoutBlanks "#ifndef\tA_H \r\n#define A_H\n#endif//A_H".toList) ∧
    (scan (splitLines "#ifndef A_H\n#define A_H\nint x;\n".toList)).agrees "A_H".toList = false ∧
    repair? (splitLines "#ifndef A_H\n#define A_H\nint x;\n".toList) "A_H".toList = none := by
  have he : Text.IsMacroName "A_H".toList := by decide
  have hagrees : (scan (splitLines "#ifndef\tA_H \r\n#define A_H\n#endif//A_H".toList)).agrees
      "A_H".toList = true := by decide
  obtain ⟨t, ht⟩ : ∃ t, repair? (splitLines "#ifndef\tA_H \r\n#define A_H\n#endif//A_H".toList)
      "A_H".toList = some t := Option.isSome_iff_exists.mp (by decide)
  refine ⟨he, hagrees, ⟨t, ht, (disagreement he (by decide)).2.1 t hagrees ht⟩, ?_⟩
  refine (disagreement he (by decide)).1.mpr ⟨by decide, ?_, ?_⟩
  · exact ⟨0, "#ifndef A_H\n".toList, by decide, by decide, by decide⟩
  · exact ⟨1, "#define A_H\n".toList, by decide, by decide, by decide⟩

end IncludeGuard
