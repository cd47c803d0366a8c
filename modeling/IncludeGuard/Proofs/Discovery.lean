import IncludeGuard.Candidates
import IncludeGuard.Proofs.Address
import Mathlib.Data.List.Basic

/-! # What arguments stand for

`HeaderBelow d ns` says which headers are below a directory `d`, for a path of names `ns` and not
for a walk: all but the last of the names are those of directories, and the last one is the name of
a header, at which a file stands or a link that leads to one. Linked directories are not entered, as
an address never goes through a link.

* `expand_eq_directory`: an argument that leads to a directory stands for exactly these headers,
  each once, in increasing order of their names. Lists of names are compared name by name and the
  names byte by byte, so that all below `a` comes before `a-b`, although `/` comes after `-`.
* `mem_headersOf_iff`: whether an argument leads to a directory or to a file, it names the headers
  that stand at or below the place it leads to.
* `exists_candidates_iff`: the arguments stand for something exactly if all of them lead somewhere,
  and they name their headers one argument after the other (`candidates_eq_flatMap`).
* `exists_of_mem_candidates`: every candidate is a file that an argument leads to, or a header below
  a directory that an argument leads to. -/

namespace IncludeGuard

namespace Workspace

/-- A file or a link stands at the address, and its path leads to a regular file. A link to nothing
or to itself leads nowhere, and so does a path that is too long to be followed. -/
def HoldsFile (ws : Workspace) (a : Address) : Prop :=
  (∃ b, ws.reach .find a.path = .ok (.file b)) ∧
    ((∃ c, ws.tree.entryAt? a = some (.file c)) ∨
      ∃ target, ws.tree.entryAt? a = some (.link target))

/-- The names are those of a header below the directory at `d`. -/
structure HeaderBelow (ws : Workspace) (d ns : Address) : Prop where
  ne_nil : ns ≠ []
  /-- The way to the header goes through directories only. -/
  way : ∀ ms, ms <+: ns → ms ≠ ns → ws.tree.entryAt? (d ++ ms) = some .dir
  holdsFile : ws.HoldsFile (d ++ ns)
  isHeader : Address.IsHeader ns

/-- The headers that an argument names, none if it leads nowhere. -/
def headersOf (ws : Workspace) (argument : Path) : List Path :=
  match ws.expand argument with
  | .ok x => x.headers
  | .error _ => []

/-! ### The headers below a directory -/

section Below
variable {ws : Workspace} {a d ns : Address}

theorem HoldsFile.exists_entryAt?_eq (h : ws.HoldsFile a) :
    ∃ e, ws.tree.entryAt? a = some e ∧ e ≠ .dir := by
  rcases h.2 with ⟨c, hc⟩ | ⟨target, htarget⟩
  · exact ⟨.file c, hc, by simp⟩
  · exact ⟨.link target, htarget, by simp⟩

theorem HoldsFile.isName (h : ws.HoldsFile a) : ∀ n ∈ a, IsName n := by
  obtain ⟨e, he, -⟩ := h.exists_entryAt?_eq
  exact Listing.isName_of_entryAt? ws.tree.wellFormed he

theorem headerBelow_iff (hd : ws.tree.entryAt? d = some .dir) :
    ws.HeaderBelow d ns ↔ (∃ e, ws.tree.entryAt? (d ++ ns) = some e ∧ e ≠ .dir) ∧
      ws.isFile (Address.path (d ++ ns)) = true ∧ (Address.path (d ++ ns)).isHeader = true := by
  constructor
  · rintro ⟨hne, -, hholds, hheader⟩
    refine ⟨hholds.exists_entryAt?_eq, isFile_iff.mpr hholds.1, ?_⟩
    rw [Address.isHeader_path hholds.isName, Address.isHeader_append hne]
    exact hheader
  · rintro ⟨⟨e, he, hdir⟩, hfile, hheader⟩
    have hne : ns ≠ [] := by
      rintro rfl
      rw [List.append_nil, hd] at he
      exact hdir (by simpa using he.symm)
    refine ⟨hne, ?_, ⟨isFile_iff.mp hfile, ?_⟩, ?_⟩
    · rintro ms ⟨rest, rfl⟩ hms
      rw [← List.append_assoc] at he
      refine Tree.entryAt?_eq_dir_of_append he ?_
      rintro rfl
      exact hms (List.append_nil ms).symm
    · cases e with
      | file c => exact Or.inl ⟨c, he⟩
      | link target => exact Or.inr ⟨target, he⟩
      | dir => exact absurd rfl hdir
    · rw [Address.isHeader_path (Listing.isName_of_entryAt? ws.tree.wellFormed he),
        Address.isHeader_append hne] at hheader
      exact hheader

theorem headerBelow_of_holdsFile (hd : ws.tree.entryAt? d = some .dir)
    (hholds : ws.HoldsFile (d ++ ns)) (hheader : Address.IsHeader (d ++ ns)) :
    ws.HeaderBelow d ns :=
  (headerBelow_iff hd).mpr ⟨hholds.exists_entryAt?_eq, isFile_iff.mpr hholds.1,
    (Address.isHeader_path hholds.isName).mpr hheader⟩

theorem HoldsFile.eq_nil_of_file (h : ws.HoldsFile (d ++ ns)) {c : Bytes}
    (hc : ws.tree.entryAt? d = some (.file c)) : ns = [] := by
  by_contra hne
  obtain ⟨e, he, -⟩ := h.exists_entryAt?_eq
  simp [Tree.entryAt?_eq_dir_of_append he hne] at hc

/-- The headers below a directory, in order. -/
theorem exists_headersBelow_eq (hd : ws.tree.entryAt? d = some .dir) : ∃ found : List Address,
    ws.headersBelow d = found.map (fun ns => Address.path (d ++ ns)) ∧
      (∀ ns, ns ∈ found ↔ ws.HeaderBelow d ns) ∧ found.Pairwise (· < ·) := by
  obtain ⟨leaves, hleaves, hordered, hmem⟩ := Tree.exists_leaves_eq hd
  let keep : Address → Bool := fun ns =>
    ws.isFile (Address.path (d ++ ns)) && (Address.path (d ++ ns)).isHeader
  refine ⟨(leaves.map Prod.fst).filter keep, ?_, fun ns => ?_, hordered.filter keep⟩
  · rw [headersBelow, hleaves, List.map_map, List.filter_map, List.filter_map, List.map_map]
    rfl
  · rw [headerBelow_iff hd, List.mem_filter, List.mem_map, Bool.and_eq_true]
    refine and_congr_left fun _ => ?_
    constructor
    · rintro ⟨⟨ms, e⟩, hleaf, rfl⟩
      exact ⟨e, (hmem ms e).mp hleaf⟩
    · rintro ⟨e, he⟩
      exact ⟨(ns, e), (hmem ns e).mpr he, rfl⟩

theorem nodup_headersBelow (hd : ws.tree.entryAt? d = some .dir) : (ws.headersBelow d).Nodup := by
  obtain ⟨found, hfound, hmem, hordered⟩ := exists_headersBelow_eq hd
  rw [hfound, List.Nodup, List.pairwise_map]
  refine hordered.imp_of_mem fun hms hns hlt heq => ?_
  have happend := Address.path_injective ((hmem _).mp hms).holdsFile.isName
    ((hmem _).mp hns).holdsFile.isName heq
  rw [List.append_cancel_left happend] at hlt
  exact Std.lt_irrefl hlt

end Below

theorem isFile_path_of_dir {ws : Workspace} {d : Address} (hd : ws.tree.entryAt? d = some .dir) :
    ws.isFile d.path = false := by
  rw [Bool.eq_false_iff, ne_eq, isFile_iff, reach_find_path hd]
  rintro ⟨b, hb⟩
  split_ifs at hb
  cases hb

theorem expand_of_dir {ws : Workspace} {argument : Path} {d : Address}
    (h : ws.resolve argument = .ok d) (hd : ws.tree.entryAt? d = some .dir) :
    ws.expand argument = .ok (.directory d.path (ws.headersBelow d)) := by
  have hfile : ¬ws.isFile d.path = true := by simp [isFile_path_of_dir hd]
  simp only [expand, h, if_neg hfile]

/-- **An argument that leads to a directory** stands for the headers below the directory, each once
and in order of their names. -/
theorem expand_eq_directory {ws : Workspace} {argument : Path} {d : Address}
    (h : ws.resolve argument = .ok d) (hd : ws.tree.entryAt? d = some .dir) :
    ∃ found : List Address,
      ws.expand argument = .ok (.directory d.path (found.map fun ns => Address.path (d ++ ns))) ∧
        (∀ ns, ns ∈ found ↔ ws.HeaderBelow d ns) ∧ found.Pairwise (· < ·) ∧
          (found.map fun ns => Address.path (d ++ ns)).Nodup := by
  obtain ⟨found, hfound, hmem, hordered⟩ := exists_headersBelow_eq hd
  refine ⟨found, ?_, hmem, hordered, ?_⟩
  · rw [expand_of_dir h hd, hfound]
  · rw [← hfound]
    exact nodup_headersBelow hd

/-- A directory with a header in a directory `a`, a header `a-b.h` beside it, a link to that header,
and much that looks like a header: a directory, a link to a directory, and a link to itself. -/
def mixed : Workspace :=
  ofEntries [("inc/a/x.h".toList, .file []), ("inc/a-b.h".toList, .file []),
    ("inc/c.cpp".toList, .file []), ("inc/d.h/y.txt".toList, .file []),
    ("inc/k.hpp".toList, .link (.ofText "a-b.h".toList)),
    ("inc/l.h".toList, .link (.ofText "a".toList)),
    ("inc/m.h".toList, .link (.ofText "m.h".toList))]

/-- The theorem at that directory. -/
theorem expand_eq_directory_mixed : ∃ found : List Address,
    mixed.expand (.ofText "inc/a/..".toList) = .ok (.directory (.ofText "/inc".toList)
      (found.map fun ns => Address.path (Utf8.encode "inc".toList :: ns))) ∧
    (∀ ns, ns ∈ found ↔ mixed.HeaderBelow [Utf8.encode "inc".toList] ns) ∧
    found.Pairwise (· < ·) ∧
    (found.map fun ns => Address.path (Utf8.encode "inc".toList :: ns)) =
      [.ofText "/inc/a/x.h".toList, .ofText "/inc/a-b.h".toList, .ofText "/inc/k.hpp".toList] := by
  have hresolve : mixed.resolve (.ofText "inc/a/..".toList) = .ok [Utf8.encode "inc".toList] := by
    decide +kernel
  have hdir : mixed.tree.entryAt? [Utf8.encode "inc".toList] = some .dir := by decide +kernel
  obtain ⟨found, hexpand, hmem, hordered, -⟩ := expand_eq_directory hresolve hdir
  have hfound : mixed.expand (.ofText "inc/a/..".toList) = .ok (.directory (.ofText "/inc".toList)
      [.ofText "/inc/a/x.h".toList, .ofText "/inc/a-b.h".toList, .ofText "/inc/k.hpp".toList]) := by
    decide +kernel
  refine ⟨found, hexpand, hmem, hordered, ?_⟩
  rw [hexpand, Except.ok.injEq, Expansion.directory.injEq] at hfound
  exact hfound.2

/-! ### Candidates -/

section Candidates
variable {ws : Workspace} {argument : Path} {arguments files : List Path} {a : Address}

theorem exists_expand_iff :
    (∃ x, ws.expand argument = .ok x) ↔ ∃ a, ws.resolve argument = .ok a := by
  unfold expand
  rcases ws.resolve argument with fault | a
  · simp
  · simp only [Except.ok.injEq, exists_eq', iff_true]
    split_ifs <;> simp

theorem exists_candidates_iff :
    (∃ files, ws.candidates arguments = .ok files) ↔
      ∀ argument ∈ arguments, ∃ a, ws.resolve argument = .ok a := by
  simp only [← exists_expand_iff, ← exists_untilFailure_iff, candidates, expandAll]
  rcases untilFailure ws.expand arguments with ⟨expansions, _ | e⟩ <;> simp

theorem candidates_eq_flatMap (h : ws.candidates arguments = .ok files) :
    files = arguments.flatMap ws.headersOf := by
  unfold candidates expandAll at h
  split at h
  · cases h
  · next expansions hexpand =>
    cases h
    have hnamed := congrArg (List.flatMap fun r : Except Failure Expansion =>
      match r with
      | .ok x => x.headers
      | .error _ => []) (untilFailure_eq_none_iff.mp hexpand)
    rw [List.flatMap_map, List.flatMap_map] at hnamed
    exact hnamed.symm

theorem headersOf_of_dir (h : ws.resolve argument = .ok a)
    (hdir : ws.tree.entryAt? a = some .dir) : ws.headersOf argument = ws.headersBelow a := by
  simp only [headersOf, expand_of_dir h hdir, Expansion.headers]

theorem headersOf_of_file (h : ws.resolve argument = .ok a) {c : Bytes}
    (hc : ws.tree.entryAt? a = some (.file c)) :
    ws.headersOf argument = if ws.isFile a.path ∧ a.path.isHeader then [a.path] else [] := by
  have hnone : ws.headersBelow a = [] := by rw [headersBelow, Tree.leaves_of_file hc]; rfl
  cases hfile : ws.isFile a.path <;> cases hheader : a.path.isHeader <;>
    simp [headersOf, expand, h, hfile, hheader, hnone, Expansion.headers]

/-- **The headers that an argument names** stand at or below the place it leads to. The current
directory is one, so that this place is a directory or a file. -/
theorem mem_headersOf_iff (hcwd : ws.tree.entryAt? ws.cwd = some .dir)
    (ha : ws.resolve argument = .ok a) {p : Path} : p ∈ ws.headersOf argument ↔
      ∃ b, a <+: b ∧ ws.HoldsFile b ∧ Address.IsHeader b ∧ p = Address.path b := by
  rcases entryAt?_of_resolve hcwd ha with hdir | ⟨c, hc⟩
  · obtain ⟨found, hfound, hmem, -⟩ := exists_headersBelow_eq hdir
    rw [headersOf_of_dir ha hdir, hfound, List.mem_map]
    constructor
    · rintro ⟨ns, hns, rfl⟩
      have hbelow := (hmem ns).mp hns
      exact ⟨a ++ ns, List.prefix_append a ns, hbelow.holdsFile,
        (Address.isHeader_append hbelow.ne_nil).mpr hbelow.isHeader, rfl⟩
    · rintro ⟨_, ⟨ns, rfl⟩, hholds, hheader, rfl⟩
      exact ⟨ns, (hmem ns).mpr (headerBelow_of_holdsFile hdir hholds hheader), rfl⟩
  · have hisHeader := Address.isHeader_path (Listing.isName_of_entryAt? ws.tree.wellFormed hc)
    rw [headersOf_of_file ha hc, List.mem_ite_nil_right, List.mem_singleton, isFile_iff, hisHeader]
    constructor
    · rintro ⟨⟨hreach, hheader⟩, rfl⟩
      exact ⟨a, List.prefix_rfl, ⟨hreach, Or.inl ⟨c, hc⟩⟩, hheader, rfl⟩
    · rintro ⟨_, ⟨ns, rfl⟩, hholds, hheader, rfl⟩
      obtain rfl := hholds.eq_nil_of_file hc
      rw [List.append_nil] at hholds hheader ⊢
      exact ⟨⟨hholds.1, hheader⟩, rfl⟩

/-- **Where candidates come from.** -/
theorem exists_of_mem_candidates (hcwd : ws.tree.entryAt? ws.cwd = some .dir)
    (h : ws.candidates arguments = .ok files) {p : Path} (hp : p ∈ files) :
    ∃ argument ∈ arguments, ∃ d ns, ws.resolve argument = .ok d ∧ p = Address.path (d ++ ns) ∧
      Address.IsHeader (d ++ ns) ∧ ws.HoldsFile (d ++ ns) ∧
        ((ns = [] ∧ ∃ c, ws.tree.entryAt? d = some (.file c)) ∨ ws.HeaderBelow d ns) := by
  have hresolve := exists_candidates_iff.mp ⟨files, h⟩
  rw [candidates_eq_flatMap h, List.mem_flatMap] at hp
  obtain ⟨argument, hargument, hp⟩ := hp
  obtain ⟨d, hd⟩ := hresolve argument hargument
  obtain ⟨_, ⟨ns, rfl⟩, hholds, hheader, rfl⟩ := (mem_headersOf_iff hcwd hd).mp hp
  refine ⟨argument, hargument, d, ns, hd, rfl, hheader, hholds, ?_⟩
  rcases entryAt?_of_resolve hcwd hd with hdir | ⟨c, hc⟩
  · exact Or.inr (headerBelow_of_holdsFile hdir hholds hheader)
  · exact Or.inl ⟨hholds.eq_nil_of_file hc, c, hc⟩

end Candidates

end Workspace

end IncludeGuard
