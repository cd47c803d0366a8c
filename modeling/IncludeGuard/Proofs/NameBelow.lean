import IncludeGuard.Proofs.FileName
import IncludeGuard.Proofs.GuardName
import Mathlib.Data.List.Basic

/-! # Names and components

The name of a file is derived from a part of its spelling, but it only depends on the components
of the file below the root. If the components are those of the root and then `below`, the last
component of `below` decides what comes of it (`guardName_of_below`): there is none, or it is no
name, or the file has the name with the parts `segmentsBelow`.

So the three causes of failure can be told from the components, and files at the same components
below whatever root have the same name (`guardName_components`). -/

namespace IncludeGuard

/-- The parts of the name of a file that is called `name` and has the components `below` below the
root: the first component, those strictly between the first and the last, the stem of the file and
its extension. -/
def segmentsBelow (below : List Path.Component) (name : Bytes) : List Text :=
  let (stem, extension?) := Path.splitExtension name
  (below.take 1 ++ below.tail.dropLast).map (fun c => nameSegment c.text) ++
    [nameSegment (Utf8.decodeLossy stem), (Utf8.decodeLossy (extension?.getD [])).upper]

variable {file root : Path} {below : List Path.Component}

theorem guardName_of_not_below (h : ¬ root.components <+: file.components) :
    guardName file root = .error (.notUnderRoot file root) := by
  have hnone : file.relativeTo? root = none := by
    rw [Option.eq_none_iff_forall_ne_some]
    intro below hbelow
    exact h (Path.exists_relativeTo?_iff.mp ⟨below, hbelow⟩)
  rw [guardName, hnone]

/-- **The components below the root** decide on the name. -/
theorem guardName_of_below (h : file.components = root.components ++ below) :
    guardName file root =
      match below.getLast? with
      | none => .error (.emptyRelativePath file)
      | some (.normal name) => .ok (['_'].intercalate (segmentsBelow below name))
      | some _ => .error (.missingFileName file) := by
  obtain ⟨rel, hrel⟩ := Path.exists_relativeTo?_iff.mpr ⟨below, h.symm⟩
  have hcomponents : rel.components = below := by
    rw [Path.components_relativeTo? hrel] at h
    exact List.append_cancel_left h
  rcases below with _ | ⟨first, rest⟩
  · simp only [guardName, hrel, hcomponents, List.getLast?_nil]
  · obtain ⟨last, hlast⟩ : ∃ last, (first :: rest).getLast? = some last :=
      ⟨_, List.getLast?_eq_some_getLast (List.cons_ne_nil first rest)⟩
    have hmissing (hname : rel.fileName? = none) :
        guardName file root = .error (.missingFileName file) := by
      simp only [guardName, hrel, hcomponents, hname]
    rw [hlast]
    -- only a last component that is a name is the name of the file
    cases last with
    | normal name => exact guardName_eq h hlast
    | root => exact hmissing (by rw [Path.fileName?, hcomponents, hlast])
    | current => exact hmissing (by rw [Path.fileName?, hcomponents, hlast])
    | parent => exact hmissing (by rw [Path.fileName?, hcomponents, hlast])

theorem guardName_of_getLast? {name : Bytes} (h : file.components = root.components ++ below)
    (hlast : below.getLast? = some (.normal name)) :
    guardName file root = .ok (['_'].intercalate (segmentsBelow below name)) := by
  rw [guardName_of_below h, hlast]

/-! ### Causes of failure -/

theorem guardName_eq_notUnderRoot_iff : guardName file root = .error (.notUnderRoot file root) ↔
    ¬ root.components <+: file.components := by
  constructor
  · rintro h ⟨below, hbelow⟩
    rw [guardName_of_below hbelow.symm] at h
    split at h <;> cases h
  · exact guardName_of_not_below

theorem guardName_eq_emptyRelativePath_iff :
    guardName file root = .error (.emptyRelativePath file) ↔
      file.components = root.components := by
  constructor
  · intro h
    by_cases hprefix : root.components <+: file.components
    · obtain ⟨below, hbelow⟩ := hprefix
      rw [guardName_of_below hbelow.symm] at h
      split at h
      · next hnone =>
        rw [← hbelow, List.getLast?_eq_none_iff.mp hnone, List.append_nil]
      · cases h
      · cases h
    · rw [guardName_of_not_below hprefix] at h
      cases h
  · intro h
    have hnil : file.components = root.components ++ [] := by rw [h, List.append_nil]
    rw [guardName_of_below hnil]
    rfl

theorem guardName_eq_missingFileName_iff {p : Path} :
    guardName file root = .error (.missingFileName p) ↔ p = file ∧ ∃ below, below ≠ [] ∧
      file.components = root.components ++ below ∧
        ∀ name, below.getLast? ≠ some (.normal name) := by
  constructor
  · intro h
    by_cases hprefix : root.components <+: file.components
    · obtain ⟨below, hbelow⟩ := hprefix
      rw [guardName_of_below hbelow.symm] at h
      split at h
      · cases h
      · cases h
      · next last hname hlast =>
        cases h
        refine ⟨rfl, below, ?_, hbelow.symm, fun name hn => ?_⟩
        · rintro rfl
          cases hlast
        · rw [hlast] at hn
          exact hname name (Option.some.inj hn)
    · rw [guardName_of_not_below hprefix] at h
      cases h
  · rintro ⟨rfl, below, hne, hbelow, hname⟩
    rw [guardName_of_below hbelow, List.getLast?_eq_some_getLast hne]
    split
    · next hnone => cases hnone
    · next name hlast =>
      rw [← List.getLast?_eq_some_getLast hne] at hlast
      exact absurd hlast (hname name)
    · rfl

theorem toOption_guardName_congr {file' root' : Path}
    (h : file.components = root.components ++ below)
    (h' : file'.components = root'.components ++ below) :
    (guardName file' root').toOption = (guardName file root).toOption := by
  rw [guardName_of_below h, guardName_of_below h']
  split <;> rfl

/-! ### What the name ends in -/

theorem lowLine_suffix_intercalate {ss : List Text} (hss : ss ≠ []) (t : Text) :
    '_' :: t <:+ ['_'].intercalate (ss ++ [t]) := by
  induction ss with
  | nil => exact absurd rfl hss
  | cons s ss ih =>
    rcases ss with _ | ⟨s', ss⟩
    · exact ⟨s, by simp⟩
    · rw [List.cons_append, List.cons_append, List.intercalate_cons_cons, ← List.cons_append]
      exact (ih (List.cons_ne_nil s' ss)).trans (List.suffix_append _ _)

theorem upper_headerExtensions : ∀ ext ∈ Path.headerExtensions,
    (Utf8.decodeLossy ext).upper = "H".toList ∨ (Utf8.decodeLossy ext).upper = "HPP".toList := by
  decide

theorem suffix_intercalate_segmentsBelow {stem ext : Bytes} (hstem : stem ≠ [])
    (hext : ext ∈ Path.headerExtensions) :
    let e := ['_'].intercalate (segmentsBelow below (stem ++ Path.dot :: ext))
    "_H".toList <:+ e ∨ "_HPP".toList <:+ e := by
  intro e
  have he : e = ['_'].intercalate (((below.take 1 ++ below.tail.dropLast).map
      (fun c => nameSegment c.text) ++ [nameSegment (Utf8.decodeLossy stem)]) ++
        [(Utf8.decodeLossy ext).upper]) := by
    have hsplit := Path.splitExtension_append hstem (Path.dot_notMem_headerExtensions ext hext)
    simp only [e, segmentsBelow, hsplit, Option.getD_some, List.append_assoc, List.cons_append,
      List.nil_append]
  have hsuffix : '_' :: (Utf8.decodeLossy ext).upper <:+ e := by
    rw [he]
    exact lowLine_suffix_intercalate (by simp) _
  rcases upper_headerExtensions ext hext with h | h
  · rw [h] at hsuffix
    exact Or.inl hsuffix
  · rw [h] at hsuffix
    exact Or.inr hsuffix

theorem suffix_of_guardName {e : Text} (hheader : file.isHeader = true)
    (h : guardName file root = .ok e) : "_H".toList <:+ e ∨ "_HPP".toList <:+ e := by
  obtain ⟨stem, ext, hlast, hstem, hext⟩ := Path.isHeader_iff.mp hheader
  by_cases hprefix : root.components <+: file.components
  · obtain ⟨below, hbelow⟩ := hprefix
    rw [guardName_of_below hbelow.symm] at h
    split at h
    · cases h
    · next name hname =>
      cases h
      obtain rfl : stem ++ Path.dot :: ext = name := by
        rw [← hbelow, List.getLast?_append, hname, Option.some_or] at hlast
        simpa using hlast.symm
      exact suffix_intercalate_segmentsBelow hstem hext
    · cases h
  · rw [guardName_of_not_below hprefix] at h
    cases h

/-- **The name depends on the components below the root alone.** There is no name if the file does
not lie below the root, is the root, or has no name as its last component; otherwise the name is
made of the components below the root. It is thus the same for all spellings of the file and of the
root, and for all roots that these components lie below. A header always has a last component that
is a name, and its extension is the end of the name. -/
theorem guardName_components (file root : Path) :
    (guardName file root = .error (.notUnderRoot file root) ↔
      ¬ root.components <+: file.components) ∧
    (guardName file root = .error (.emptyRelativePath file) ↔
      file.components = root.components) ∧
    (guardName file root = .error (.missingFileName file) ↔ ∃ below, below ≠ [] ∧
      file.components = root.components ++ below ∧
        ∀ name, below.getLast? ≠ some (.normal name)) ∧
    (∀ below name, file.components = root.components ++ below →
      below.getLast? = some (.normal name) →
        guardName file root = .ok (['_'].intercalate (segmentsBelow below name))) ∧
    (∀ file' root', file'.components = file.components → root'.components = root.components →
      (guardName file' root').toOption = (guardName file root).toOption) ∧
    (∀ file' root' below, file.components = root.components ++ below →
      file'.components = root'.components ++ below →
        (guardName file' root').toOption = (guardName file root).toOption) ∧
    (file.isHeader = true → (∀ p, guardName file root ≠ .error (.missingFileName p)) ∧
      ∀ e, guardName file root = .ok e → "_H".toList <:+ e ∨ "_HPP".toList <:+ e) := by
  refine ⟨guardName_eq_notUnderRoot_iff, guardName_eq_emptyRelativePath_iff, ?missing,
    fun _ _ => guardName_of_getLast?, ?respelled, fun _ _ _ => toOption_guardName_congr, ?header⟩
  case missing => simp [guardName_eq_missingFileName_iff]
  case respelled =>
    intro file' root' hfile hroot
    by_cases hprefix : root.components <+: file.components
    · obtain ⟨below, hbelow⟩ := hprefix
      exact toOption_guardName_congr hbelow.symm (by rw [hfile, hroot, hbelow])
    · have hprefix' : ¬ root'.components <+: file'.components := by rwa [hfile, hroot]
      rw [guardName_of_not_below hprefix, guardName_of_not_below hprefix']
      rfl
  case header =>
    refine fun hheader => ⟨fun p h => ?_, fun e => suffix_of_guardName hheader⟩
    obtain ⟨-, below, hne, hbelow, hname⟩ := guardName_eq_missingFileName_iff.mp h
    obtain ⟨stem, ext, hlast, -, -⟩ := Path.isHeader_iff.mp hheader
    rw [hbelow, List.getLast?_append_of_ne_nil _ hne] at hlast
    exact hname _ hlast

/-- The theorem at a header in two spellings below two roots. -/
theorem guardName_components_twoRoots :
    let below := [Path.Component.normal (Utf8.encode "net-io".toList),
      Path.Component.normal (Utf8.encode "a.b.hpp".toList)]
    let file := Path.ofText "/p/./net-io//a.b.hpp/".toList
    let root := Path.ofText "//p/".toList
    let file' := Path.ofText "./net-io/a.b.hpp".toList
    let root' := Path.ofText ".".toList
    file.components = root.components ++ below ∧ file'.components = root'.components ++ below ∧
    file.isHeader = true ∧ guardName file root = .ok "NET_IO_A.B_HPP".toList ∧
    (guardName file' root').toOption = some "NET_IO_A.B_HPP".toList ∧
    "_HPP".toList <:+ "NET_IO_A.B_HPP".toList := by
  intro below file root file' root'
  have hbelow : file.components = root.components ++ below := by decide
  have hbelow' : file'.components = root'.components ++ below := by decide
  have hheader : file.isHeader = true := by decide
  obtain ⟨-, -, -, hname, -, hsame, hends⟩ := guardName_components file root
  have hok : guardName file root = .ok "NET_IO_A.B_HPP".toList :=
    (hname below (Utf8.encode "a.b.hpp".toList) hbelow rfl).trans (by decide)
  refine ⟨hbelow, hbelow', hheader, hok, ?_, ?_⟩
  · rw [hsame file' root' below hbelow hbelow', hok]
    rfl
  · exact ((hends hheader).2 _ hok).resolve_left (by decide)

end IncludeGuard
