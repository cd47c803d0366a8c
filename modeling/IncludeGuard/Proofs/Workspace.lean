import IncludeGuard.Proofs.Leaves
import IncludeGuard.Workspace
import Mathlib.Tactic.SplitIfs

/-! # Writing to a file that is there

Where a path leads depends on the directories, the links and the names of the files, and not on what
the files hold. `ChangesOnly as` relates two workspaces that differ at most in the contents of the
files at the addresses `as`.

* `reach_eq`: in such workspaces every path leads to the same place.
* `read_eq`: a file that is not among the changed ones reads the same.
* `exists_write_eq`: a path that leads to a file can be written to. This changes that file only, and
  reading then gives what was written. The point is that a path is followed in another way for
  writing than for reading, but a file that is found is the file that is written
  (`locate_write_of_find`). -/

namespace IncludeGuard

/-! ### The way to a file -/

theorem Listing.find?_isName {l : Listing} (hl : l.WellFormed) {n : Name} {node : Node}
    (h : l.find? n = some node) : IsName n := by
  induction l using consInduction with
  | nil => simp [find?] at h
  | cons k first rest ih _ =>
    obtain ⟨hk, -, -, hrest⟩ := wellFormed_cons.mp hl
    rw [find?_cons] at h
    split_ifs at h with hkn
    · exact hkn ▸ hk
    · exact ih hrest h

theorem Listing.isName_of_entryAt? {l : Listing} (hl : l.WellFormed) {a : Address} {e : Entry}
    (h : l.entryAt? a = some e) : ∀ n ∈ a, IsName n := by
  induction a generalizing l with
  | nil => simp
  | cons n ns ih =>
    intro m hm
    have hfind : ∃ node, l.find? n = some node := by
      rw [entryAt?_cons, Option.bind_eq_some_iff] at h
      obtain ⟨node, hnode, -⟩ := h
      exact ⟨node, hnode⟩
    obtain ⟨node, hnode⟩ := hfind
    rcases List.mem_cons.mp hm with rfl | hm
    · exact find?_isName hl hnode
    · obtain ⟨es, hes⟩ := exists_dir_of_entryAt? h (Or.inl (List.ne_nil_of_mem hm))
      rw [entryAt?_cons_of_dir hes] at h
      exact ih (nodeWellFormed_of_find? hl hes) h m hm

theorem Listing.entryAt?_dropLast {l : Listing} {a : Address} {e : Entry} (ha : a ≠ [])
    (h : l.entryAt? a = some e) : l.entryAt? a.dropLast = some .dir := by
  rw [← List.dropLast_concat_getLast ha] at h
  exact entryAt?_eq_dir_of_append h (by simp)

namespace Tree

/-- **Replacing a file** changes what stands at its address and nothing else. -/
theorem entryAt?_place_file {t : Tree} {a : Address} {c : Bytes} (h : t.entryAt? a = some (.file c))
    (e : Entry) (b : Address) :
    (t.place a e).entryAt? b = if b = a then some e else t.entryAt? b := by
  have ha : a ≠ [] := by
    rintro rfl
    simp [entryAt?] at h
  exact entryAt?_place ha (Listing.isName_of_entryAt? t.wellFormed h)
    (Listing.entryAt?_dropLast ha h) (by simp [h]) b

/-- The trees differ at most in the contents of the files at some addresses. -/
def ChangesOnly (as : List Address) (t t' : Tree) : Prop :=
  ∀ a, t'.entryAt? a = t.entryAt? a ∨
    a ∈ as ∧ ∃ c c', t.entryAt? a = some (.file c) ∧ t'.entryAt? a = some (.file c')

/-! ### Following a path -/

section Follow
variable {t t' : Tree} {purpose : Purpose}
  {follow follow' : Address → List Bytes → Except Fault Place}

theorem locateWith_congr {as : List Address} (h : ChangesOnly as t t')
    (hfollow : ∀ here ss, follow' here ss = follow here ss) (here : Address) (ss : List Bytes) :
    t'.locateWith purpose follow' here ss = t.locateWith purpose follow here ss := by
  induction ss generalizing here with
  | nil => rfl
  | cons s rest ih =>
    unfold locateWith
    simp only [ih, hfollow]
    rcases h (here ++ [s]) with heq | ⟨-, c, c', hc, hc'⟩
    · rw [heq]
    · rw [hc, hc']

/-- The ways in which segments lead to a file. -/
theorem locateWith_cons_eq_file_iff {here a : Address} {s : Bytes} {rest : List Bytes} :
    t.locateWith purpose follow here (s :: rest) = .ok (.file a) ↔
      (Path.isIdle s = true ∧ t.locateWith purpose follow here rest = .ok (.file a)) ∨
      (s = [Path.dot, Path.dot] ∧
        t.locateWith purpose follow here.dropLast rest = .ok (.file a)) ∨
      (Path.isIdle s = false ∧ s ≠ [Path.dot, Path.dot] ∧
        purpose.outgrows (here ++ [s]) = false ∧ ¬(purpose = .write ∧ asksDirectory rest = true) ∧
        ((t.entryAt? (here ++ [s]) = some .dir ∧
            t.locateWith purpose follow (here ++ [s]) rest = .ok (.file a)) ∨
          (∃ c, t.entryAt? (here ++ [s]) = some (.file c) ∧ rest = [] ∧ here ++ [s] = a) ∨
          ∃ target, t.entryAt? (here ++ [s]) = some (.link target) ∧ target.bytes ≠ [] ∧
            follow (if target.isAbsolute then [] else here) (Path.segments target.bytes ++ rest) =
              .ok (.file a))) := by
  have hdots : Path.isIdle [Path.dot, Path.dot] = false := by decide
  rw [locateWith]
  by_cases hidle : Path.isIdle s = true
  · have hne : s ≠ [Path.dot, Path.dot] := by
      rintro rfl
      simp [hdots] at hidle
    simp [hidle, hne]
  by_cases hdot : s = [Path.dot, Path.dot]
  · simp [hdot, hdots]
  by_cases hlong : purpose.outgrows (here ++ [s]) = true
  · simp [hidle, hdot, hlong]
  by_cases hask : purpose = .write ∧ asksDirectory rest = true
  · rw [if_neg hidle, if_neg hdot, if_neg hlong, if_pos hask]
    simp [hidle, hdot, hask]
  rw [if_neg hidle, if_neg hdot, if_neg hlong, if_neg hask]
  rcases t.entryAt? (here ++ [s]) with _ | ⟨c⟩ | ⟨target⟩ | _
  · dsimp only
    split_ifs <;> simp [hidle, hdot]
  · have hnil : asksDirectory [] = false := rfl
    by_cases hrest : rest = [] <;> simp [hidle, hdot, hlong, hrest, hnil]
  · by_cases htarget : target.bytes = [] <;> simp [hidle, hdot, hlong, hask, htarget]
  · simp [hidle, hdot, hlong, hask]

theorem locateWith_append_nil_ne_file
    (hfollow : ∀ here ss a, follow here (ss ++ [[]]) ≠ .ok (.file a)) (here : Address)
    (ss : List Bytes) (a : Address) :
    t.locateWith purpose follow here (ss ++ [[]]) ≠ .ok (.file a) := by
  induction ss generalizing here with
  | nil => simp [locateWith, Path.isIdle]
  | cons s rest ih =>
    intro h
    rw [List.cons_append, locateWith_cons_eq_file_iff] at h
    rcases h with ⟨-, h⟩ | ⟨-, h⟩ | ⟨-, -, -, -, ⟨-, h⟩ | ⟨_, -, h, -⟩ | ⟨target, -, -, h⟩⟩
    · exact ih _ h
    · exact ih _ h
    · exact ih _ h
    · simp at h
    · rw [← List.append_assoc] at h
      exact hfollow _ _ _ h

theorem exists_file_of_locateWith {a : Address}
    (hfollow : ∀ here ss, follow here ss = .ok (.file a) →
      (∃ c, t.entryAt? a = some (.file c)) ∧ purpose.outgrows a = false)
    {here : Address} {ss : List Bytes} (h : t.locateWith purpose follow here ss = .ok (.file a)) :
    (∃ c, t.entryAt? a = some (.file c)) ∧ purpose.outgrows a = false := by
  induction ss generalizing here with
  | nil => simp [locateWith] at h
  | cons s rest ih =>
    rw [locateWith_cons_eq_file_iff] at h
    rcases h with ⟨-, h⟩ | ⟨-, h⟩ | ⟨-, -, hlong, -, ⟨-, h⟩ | ⟨c, hc, -, rfl⟩ | ⟨target, -, -, h⟩⟩
    · exact ih h
    · exact ih h
    · exact ih h
    · exact ⟨⟨c, hc⟩, hlong⟩
    · exact hfollow _ _ h

theorem exists_append_nil_of_asksDirectory {rest : List Bytes} (h : asksDirectory rest = true) :
    ∃ ss, rest = ss ++ [[]] := by
  simp only [asksDirectory, Bool.and_eq_true, Bool.not_eq_true', List.isEmpty_eq_false_iff,
    List.all_eq_true, List.isEmpty_iff] at h
  obtain ⟨hne, hall⟩ := h
  refine ⟨rest.dropLast, ?_⟩
  rw [← hall _ (List.getLast_mem hne), List.dropLast_concat_getLast hne]

theorem locateWith_write_of_find {a : Address}
    (hslash : ∀ here ss a, follow here (ss ++ [[]]) ≠ .ok (.file a))
    (hfollow : ∀ here ss, follow here ss = .ok (.file a) → follow' here ss = .ok (.file a))
    {here : Address} {ss : List Bytes} (h : t.locateWith .find follow here ss = .ok (.file a)) :
    t.locateWith .write follow' here ss = .ok (.file a) := by
  induction ss generalizing here with
  | nil => simp [locateWith] at h
  | cons s rest ih =>
    -- what writing refuses ends in a slash, and so is no file for reading either
    have hrest : asksDirectory rest = false := by
      rw [Bool.eq_false_iff]
      intro hask
      obtain ⟨ss, rfl⟩ := exists_append_nil_of_asksDirectory hask
      rw [← List.cons_append] at h
      exact locateWith_append_nil_ne_file hslash here (s :: ss) a h
    rw [locateWith_cons_eq_file_iff] at h ⊢
    rcases h with ⟨hs, h⟩ | ⟨hs, h⟩ | ⟨hs, hs', -, -, h⟩
    · exact Or.inl ⟨hs, ih h⟩
    · exact Or.inr (Or.inl ⟨hs, ih h⟩)
    · refine Or.inr (Or.inr ⟨hs, hs', rfl, by simp [hrest], ?_⟩)
      rcases h with ⟨hdir, h⟩ | hfile | ⟨target, hlink, hne, h⟩
      · exact Or.inl ⟨hdir, ih h⟩
      · exact Or.inr (Or.inl hfile)
      · exact Or.inr (Or.inr ⟨target, hlink, hne, hfollow _ _ h⟩)

end Follow

section Links
variable {t t' : Tree}

theorem locate_congr {as : List Address} (h : ChangesOnly as t t') (purpose : Purpose)
    (links : Nat) (here : Address) (ss : List Bytes) :
    t'.locate purpose links here ss = t.locate purpose links here ss := by
  induction links generalizing here ss with
  | zero => exact locateWith_congr h (fun _ _ => rfl) here ss
  | succ links ih => exact locateWith_congr h ih here ss

theorem locate_append_nil_ne_file (purpose : Purpose) (links : Nat) (here : Address)
    (ss : List Bytes) (a : Address) : t.locate purpose links here (ss ++ [[]]) ≠ .ok (.file a) := by
  induction links generalizing here ss a with
  | zero => exact locateWith_append_nil_ne_file (by simp) here ss a
  | succ links ih => exact locateWith_append_nil_ne_file ih here ss a

theorem exists_file_of_locate {purpose : Purpose} {links : Nat} {here a : Address}
    {ss : List Bytes} (h : t.locate purpose links here ss = .ok (.file a)) :
    (∃ c, t.entryAt? a = some (.file c)) ∧ purpose.outgrows a = false := by
  induction links generalizing here ss with
  | zero => exact exists_file_of_locateWith (by simp) h
  | succ links ih => exact exists_file_of_locateWith (fun _ _ => ih) h

/-- **A file that is found is the one that is written.** -/
theorem locate_write_of_find {links : Nat} {here a : Address} {ss : List Bytes}
    (h : t.locate .find links here ss = .ok (.file a)) :
    t.locate .write links here ss = .ok (.file a) := by
  induction links generalizing here ss with
  | zero => exact locateWith_write_of_find (by simp) (by simp) h
  | succ links ih =>
    exact locateWith_write_of_find (locate_append_nil_ne_file .find links) (fun _ _ => ih) h

end Links

end Tree

/-! ### Reading and writing -/

namespace Workspace

/-- The workspace that holds files of the given paths and texts, seen from the root directory. -/
def ofFiles (files : List (Text × Text)) : Workspace :=
  ⟨files.foldl (fun t f => t.place (Path.segments (Utf8.encode f.1)) (.file (Utf8.encode f.2)))
    .empty, []⟩

/-- The workspace that holds entries at the given paths, seen from the root directory. -/
def ofEntries (entries : List (Text × Entry)) : Workspace :=
  ⟨entries.foldl (fun t e => t.place (Path.segments (Utf8.encode e.1)) e.2) .empty, []⟩

/-- The workspaces differ at most in the contents of the files at some addresses. -/
structure ChangesOnly (as : List Address) (ws ws' : Workspace) : Prop where
  cwd : ws'.cwd = ws.cwd
  tree : ws.tree.ChangesOnly as ws'.tree

namespace ChangesOnly

variable {as bs : List Address} {ws ws' ws'' : Workspace}

theorem refl (as : List Address) (ws : Workspace) : ChangesOnly as ws ws :=
  ⟨rfl, fun _ => Or.inl rfl⟩

theorem mono (h : ChangesOnly as ws ws') (hsub : as ⊆ bs) : ChangesOnly bs ws ws' :=
  ⟨h.cwd, fun a => (h.tree a).imp_right fun ⟨ha, hc⟩ => ⟨hsub ha, hc⟩⟩

theorem trans (h : ChangesOnly as ws ws') (h' : ChangesOnly as ws' ws'') :
    ChangesOnly as ws ws'' := by
  refine ⟨h'.cwd.trans h.cwd, fun a => ?_⟩
  rcases h.tree a with heq | ⟨ha, c, c', hc, hc'⟩
  · rw [← heq]
    exact h'.tree a
  · refine Or.inr ⟨ha, c, ?_⟩
    rcases h'.tree a with heq' | ⟨-, -, d, -, hd⟩
    · exact ⟨c', hc, heq'.trans hc'⟩
    · exact ⟨d, hc, hd⟩

/-- **Every path leads to the same place.** -/
theorem reach_eq (h : ChangesOnly as ws ws') (purpose : Purpose) (p : Path) :
    ws'.reach purpose p = ws.reach purpose p := by
  unfold reach Workspace.locate start
  rw [h.cwd]
  simp only [Tree.locate_congr h.tree]

theorem read_eq (h : ChangesOnly as ws ws') {p : Path} {a : Address}
    (hp : ws.reach .find p = .ok (.file a)) (ha : a ∉ as) : ws'.read p = ws.read p := by
  have hentry : ws'.tree.entryAt? a = ws.tree.entryAt? a :=
    (h.tree a).resolve_right fun ⟨hmem, _⟩ => ha hmem
  unfold read
  rw [h.reach_eq, hp]
  simp only [Tree.content?, hentry]

end ChangesOnly

variable {ws : Workspace} {p : Path} {a : Address}

theorem exists_file_of_reach {purpose : Purpose} (h : ws.reach purpose p = .ok (.file a)) :
    ∃ c, ws.tree.entryAt? a = some (.file c) := by
  unfold reach Workspace.locate at h
  split at h
  · cases h
  · split_ifs at h
    exact (Tree.exists_file_of_locate h).1

theorem reach_write_of_find (h : ws.reach .find p = .ok (.file a)) :
    ws.reach .write p = .ok (.file a) := by
  unfold reach Workspace.locate at h ⊢
  split at h
  · cases h
  · split_ifs at h ⊢
    exact Tree.locate_write_of_find h

theorem exists_file_of_read {t : Text} (h : ws.read p = .ok t) :
    ∃ a, ws.reach .find p = .ok (.file a) := by
  unfold read at h
  split at h
  · cases h
  · cases h
  · cases h
  · next a ha => exact ⟨a, ha⟩

theorem exists_content?_of_read {t : Text} (h : ws.read p = .ok t) : ∃ a bytes,
    ws.reach .find p = .ok (.file a) ∧ ws.tree.content? a = some bytes ∧
      Utf8.decode? bytes = some t := by
  obtain ⟨a, ha⟩ := exists_file_of_read h
  obtain ⟨bytes, hfile⟩ := exists_file_of_reach ha
  have hbytes : ws.tree.content? a = some bytes := by simp [Tree.content?, hfile]
  refine ⟨a, bytes, ha, hbytes, ?_⟩
  unfold read at h
  rcases hd : Utf8.decode? bytes with _ | t'
  · simp [ha, hbytes, hd] at h
  · simpa [ha, hbytes, hd] using h

theorem write_eq (h : ws.reach .find p = .ok (.file a)) (content : Text) :
    ws.write p content =
      .ok { ws with tree := ws.tree.place a (.file (Utf8.encode content)) } := by
  simp [write, writable, reach_write_of_find h]

theorem entryAt?_of_write {ws' : Workspace} {content : Text} (h : ws.reach .find p = .ok (.file a))
    (hw : ws.write p content = .ok ws') (b : Address) : ws'.tree.entryAt? b =
      if b = a then some (.file (Utf8.encode content)) else ws.tree.entryAt? b := by
  rw [write_eq h] at hw
  cases hw
  obtain ⟨c, hc⟩ := exists_file_of_reach h
  exact Tree.entryAt?_place_file hc _ b

/-- **A file that is there can be written**, as there are no permissions and the disk is never full.
This changes that file only, and the path then reads as what was written. -/
theorem exists_write_eq (h : ws.reach .find p = .ok (.file a)) (content : Text) :
    ∃ ws', ws.write p content = .ok ws' ∧ ChangesOnly [a] ws ws' ∧ ws'.read p = .ok content := by
  obtain ⟨c, hc⟩ := exists_file_of_reach h
  let ws' : Workspace := { ws with tree := ws.tree.place a (.file (Utf8.encode content)) }
  have hentry : ∀ b, ws'.tree.entryAt? b =
      if b = a then some (.file (Utf8.encode content)) else ws.tree.entryAt? b :=
    entryAt?_of_write h (write_eq h content)
  have hchanges : ChangesOnly [a] ws ws' := by
    refine ⟨rfl, fun b => ?_⟩
    by_cases hb : b = a
    · exact Or.inr ⟨by simp [hb], c, Utf8.encode content, by rw [hb, hc], by
        rw [hentry, if_pos hb]⟩
    · exact Or.inl (by rw [hentry, if_neg hb])
  refine ⟨ws', write_eq h content, hchanges, ?_⟩
  have hcontent : ws'.tree.content? a = some (Utf8.encode content) := by
    simp [Tree.content?, hentry]
  unfold read
  rw [hchanges.reach_eq, h]
  simp [hcontent, Utf8.decode?_encode]

end Workspace

end IncludeGuard
