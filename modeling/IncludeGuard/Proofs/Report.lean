import IncludeGuard.Proofs.Json
import IncludeGuard.Proofs.Lines
import IncludeGuard.Report.Basic

/-! # Reading reports

The JSON form of a report is a document, and the report can be read from it. The value of the
document is written down for each report (`CheckReport.value`, `FixReport.value`), and the printed
text is read as that value (`read?_checkReport`, `read?_fixReport`). `Envelope.read?` goes on from
the value to the report, looking fields up by name.

So nothing is lost in print (`Envelope.read?_render`): the flag, the number of headers and all paths
and names are read back, in their order and character by character.

The text form has a headline with the length of the list, and then the rows of the list
(`CheckReport.splitLines_text`, `FixReport.splitLines_text`). A row is one line, unless the path in
it holds a line feed. -/

namespace IncludeGuard

open Json

/-! ### Values of reports -/

/-- The value of a violation. -/
def Violation.value (v : Violation) : Value :=
  .object [("path".toList, .string v.path), ("expected".toList, .string v.expected)]

/-- The value of the data of a check report. -/
def CheckReport.value (r : CheckReport) : Value :=
  .object [("checked".toList, .number r.checked),
    ("violations".toList, .array (r.violations.map Violation.value))]

/-- The value of the data of a fix report. -/
def FixReport.value (r : FixReport) : Value :=
  .object [("checked".toList, .number r.checked),
    ("fixed".toList, .array (r.fixed.map Value.string))]

/-- The value of the document around a report. -/
def envelopeValue (ok : Bool) (data : Value) : Value :=
  .object [("ok".toList, .bool ok), ("data".toList, data)]

theorem reads_violation (depth : Nat) (v : Violation) :
    Reads (value? (depth + 2)) v.json v.value := by
  refine reads_object (.cons ⟨rfl, ?_⟩ (.cons ⟨rfl, ?_⟩ .nil)) 6
  · exact reads_quote v.path
  · exact reads_quote v.expected

theorem reads_data {depth : Nat} (checked : Nat) (name : Text) {texts : List Text}
    {vs : List Value} (h : List.Forall₂ (Reads (value? (depth + 1))) texts vs) :
    Reads (value? (depth + 3))
      (object 2 [("checked".toList, Text.ofNat checked), (name, array 4 texts)])
      (.object [("checked".toList, .number checked), (name, .array vs)]) := by
  refine reads_object (.cons ⟨rfl, ?_⟩ (.cons ⟨rfl, ?_⟩ .nil)) 2
  · exact reads_ofNat checked
  · exact reads_array h 4

theorem read?_envelope (ok : Bool) {data : List (Text × Text)} {v : Value}
    (h : Reads (value? (maxDepth - 1)) (object 2 data) v) :
    read? (envelope ok data) = some (envelopeValue ok v) := by
  refine read?_append ?_ (by simp [AllSpace, isSpace])
  refine reads_object (.cons ⟨rfl, ?_⟩ (.cons ⟨rfl, ?_⟩ .nil)) 0
  · exact reads_ofBool ok
  · exact h

/-- **A check report is printed as a document** of its value. -/
theorem read?_checkReport (r : CheckReport) :
    read? r.json = some (envelopeValue r.ok r.value) := by
  refine read?_envelope r.ok (reads_data r.checked _ ?_)
  rw [List.forall₂_map_left_iff, List.forall₂_map_right_iff, List.forall₂_same]
  exact fun v _ => reads_violation _ v

/-- **A fix report is printed as a document** of its value. -/
theorem read?_fixReport (r : FixReport) : read? r.json = some (envelopeValue true r.value) := by
  refine read?_envelope true (reads_data r.checked _ ?_)
  rw [List.forall₂_map_left_iff, List.forall₂_map_right_iff, List.forall₂_same]
  exact fun t _ => reads_quote t

/-! ### Reports from values -/

namespace Json.Value

/-- The field of an object. -/
def field? (name : Text) : Value → Option Value
  | object fields => fields.lookup name
  | _ => none

/-- The truth value. -/
def bool? : Value → Option Bool
  | bool b => some b
  | _ => none

/-- The number. -/
def number? : Value → Option Nat
  | number n => some n
  | _ => none

/-- The string. -/
def string? : Value → Option Text
  | string t => some t
  | _ => none

/-- The items of a list. -/
def items? : Value → Option (List Value)
  | array items => some items
  | _ => none

end Json.Value

/-- The violation with a value. -/
def Violation.ofValue? (v : Value) : Option Violation := do
  let path ← (v.field? "path".toList).bind Value.string?
  let expected ← (v.field? "expected".toList).bind Value.string?
  return ⟨path, expected⟩

/-- The check report with a value. -/
def CheckReport.ofValue? (v : Value) : Option CheckReport := do
  let checked ← (v.field? "checked".toList).bind Value.number?
  let items ← (v.field? "violations".toList).bind Value.items?
  let violations ← items.mapM Violation.ofValue?
  return ⟨checked, violations⟩

/-- The fix report with a value. -/
def FixReport.ofValue? (v : Value) : Option FixReport := do
  let checked ← (v.field? "checked".toList).bind Value.number?
  let items ← (v.field? "fixed".toList).bind Value.items?
  let fixed ← items.mapM Value.string?
  return ⟨checked, fixed⟩

/-- A report of either kind. -/
inductive Report
  | check (r : CheckReport)
  | fix (r : FixReport)
deriving DecidableEq

/-- A report with the flag of the document around it. -/
structure Envelope where
  ok : Bool
  report : Report
deriving DecidableEq

/-- The report of either kind with a value. -/
def Report.ofValue? (v : Value) : Option Report :=
  match CheckReport.ofValue? v with
  | some r => some (.check r)
  | none => (FixReport.ofValue? v).map .fix

/-- The report in a printed document. -/
def Envelope.read? (t : Text) : Option Envelope := do
  let v ← Json.read? t
  let ok ← (v.field? "ok".toList).bind Value.bool?
  let report ← (v.field? "data".toList).bind Report.ofValue?
  return ⟨ok, report⟩

theorem mapM_map_eq_some {α β : Type} {f : α → β} {g : β → Option α}
    (h : ∀ a, g (f a) = some a) (as : List α) : (as.map f).mapM g = some as := by
  have hcomp : g ∘ f = pure ∘ id := funext h
  rw [List.mapM_map, hcomp]
  exact List.mapM_pure.trans (by simp)

theorem Violation.ofValue?_value (v : Violation) : ofValue? v.value = some v := rfl

theorem CheckReport.ofValue?_value (r : CheckReport) : ofValue? r.value = some r := by
  have hviolations : (r.violations.map Violation.value).mapM Violation.ofValue? =
      some r.violations := mapM_map_eq_some Violation.ofValue?_value r.violations
  have hitems : ofValue? r.value =
      ((r.violations.map Violation.value).mapM Violation.ofValue?).bind
        fun violations => some ⟨r.checked, violations⟩ := rfl
  rw [hitems, hviolations]
  rfl

theorem FixReport.ofValue?_value (r : FixReport) : ofValue? r.value = some r := by
  have hstring (t : Text) : (Value.string t).string? = some t := rfl
  have hfixed : (r.fixed.map Value.string).mapM Value.string? = some r.fixed :=
    mapM_map_eq_some hstring r.fixed
  have hitems : ofValue? r.value = ((r.fixed.map Value.string).mapM Value.string?).bind
      fun fixed => some ⟨r.checked, fixed⟩ := rfl
  rw [hitems, hfixed]
  rfl

/-! ### Nothing is lost in print -/

theorem Envelope.read?_eq {t : Text} {ok : Bool} {data : Value} {report : Report}
    (ht : Json.read? t = some (envelopeValue ok data))
    (hdata : Report.ofValue? data = some report) : Envelope.read? t = some ⟨ok, report⟩ := by
  have hread : Envelope.read? t = (Json.read? t).bind fun v =>
      ((v.field? "ok".toList).bind Value.bool?).bind fun ok =>
        ((v.field? "data".toList).bind Report.ofValue?).bind fun report =>
          some ⟨ok, report⟩ := rfl
  have hfield : (envelopeValue ok data).field? "data".toList = some data := rfl
  have hok : ((envelopeValue ok data).field? "ok".toList).bind Value.bool? = some ok := rfl
  rw [hread, ht, Option.bind_some, hok, Option.bind_some, hfield, Option.bind_some, hdata]
  rfl

/-- **A report is read back from its JSON form.** The flag is false exactly for a check report that
lists violations. So different reports of one kind are never printed alike. -/
theorem Envelope.read?_render :
    (∀ r : CheckReport, Envelope.read? (r.render true) =
      some ⟨decide (r.violations = []), .check r⟩) ∧
    (∀ r : FixReport, Envelope.read? (r.render true) = some ⟨true, .fix r⟩) ∧
    Function.Injective (CheckReport.render true) ∧
    Function.Injective (FixReport.render true) := by
  have hcheck (r : CheckReport) : Envelope.read? (r.render true) =
      some ⟨decide (r.violations = []), .check r⟩ := by
    have hok : r.ok = decide (r.violations = []) := by
      rw [CheckReport.ok, Bool.eq_iff_iff]
      simp
    have hdata : Report.ofValue? r.value = some (.check r) := by
      simp only [Report.ofValue?, CheckReport.ofValue?_value]
    rw [← hok]
    exact Envelope.read?_eq (read?_checkReport r) hdata
  have hfix (r : FixReport) : Envelope.read? (r.render true) = some ⟨true, .fix r⟩ := by
    -- the data has no violations, so it is not taken for a check report
    have hnone : CheckReport.ofValue? r.value = none := rfl
    have hdata : Report.ofValue? r.value = some (.fix r) := by
      simp only [Report.ofValue?, hnone, FixReport.ofValue?_value, Option.map_some]
    exact Envelope.read?_eq (read?_fixReport r) hdata
  refine ⟨hcheck, hfix, fun r r' h => ?_, fun r r' h => ?_⟩
  · have hr := hcheck r
    rw [h, hcheck r'] at hr
    simp only [Option.some.injEq, Envelope.mk.injEq, Report.check.injEq] at hr
    exact hr.2.symm
  · have hr := hfix r
    rw [h, hfix r'] at hr
    simp only [Option.some.injEq, Envelope.mk.injEq, Report.fix.injEq, true_and] at hr
    exact hr.symm

/-! ### Reports as text -/

theorem lf_notMem_ofNat (n : Nat) : '\n' ∉ Text.ofNat n := fun h =>
  absurd (isDigit_of_mem_ofNat h) (by decide)

/-- **The lines of a report as text** are the headline and, row by row, the lines of the rows. -/
theorem splitLines_countedRows {nothing before after : Text} (hnothing : '\n' ∉ nothing)
    (hbefore : '\n' ∉ before) (hafter : '\n' ∉ after) (rows : List Text) :
    splitLines (countedRows nothing before after rows) =
      outputLine (if rows = [] then nothing else before ++ Text.ofNat rows.length ++ after) ::
        rows.flatMap fun row => splitLines (outputLine ("  ".toList ++ row)) := by
  have hheadline :
      '\n' ∉ if rows = [] then nothing else before ++ Text.ofNat rows.length ++ after := by
    split_ifs
    · exact hnothing
    · simp [hbefore, lf_notMem_ofNat, hafter]
  have hrows (rows : List Text) :
      splitLines (rows.flatMap fun row => outputLine ("  ".toList ++ row)) =
        rows.flatMap fun row => splitLines (outputLine ("  ".toList ++ row)) := by
    induction rows with
    | nil => rfl
    | cons row rows ih =>
      rw [List.flatMap_cons, List.flatMap_cons, outputLine, List.append_assoc,
        List.singleton_append, splitLines_append, ih]
  rw [countedRows, outputLine, List.append_assoc, List.singleton_append,
    splitLines_append_lf hheadline, hrows]

theorem CheckReport.splitLines_text (r : CheckReport) : splitLines r.text =
    outputLine (if r.violations = [] then "All header guards are correct.".toList
      else "Found ".toList ++ Text.ofNat r.violations.length ++
        " files with incorrect guards:".toList) ::
      r.violations.flatMap fun v =>
        splitLines (outputLine ("  ".toList ++ v.path ++ ": expected ".toList ++ v.expected)) := by
  rw [text, splitLines_countedRows (by decide) (by decide) (by decide), List.flatMap_map]
  simp only [Violation.row, List.map_eq_nil_iff, List.length_map, List.append_assoc]

theorem FixReport.splitLines_text (r : FixReport) : splitLines r.text =
    outputLine (if r.fixed = [] then "No header guards needed fixing.".toList
      else "Fixed ".toList ++ Text.ofNat r.fixed.length ++ " files:".toList) ::
      r.fixed.flatMap fun path => splitLines (outputLine ("  ".toList ++ path)) :=
  splitLines_countedRows (by decide) (by decide) (by decide) r.fixed

end IncludeGuard
