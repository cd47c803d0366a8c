import IncludeGuard.Proofs.FileName
import IncludeGuard.Proofs.Workspace

/-! # Paths of addresses

The path of an address is spelled without links and idle segments, so it can be followed name by
name. Where it leads is said once, for whatever stands at the address (`locate_path`): a directory
or a file leads to itself, and a link leads to where its target leads. A path that is too long
cannot be looked up, whatever stands there (`reach_find_path`).

In the other direction, resolving a path gives the address of a directory or of a file
(`entryAt?_of_resolve`), as long as the current directory is one. What holds of the directories that
a path goes through is shown by one induction (`Tree.of_locate`).

The name of a header is the last name of its address (`Address.isHeader_path`): something, and then
`.h` or `.hpp` (`isHeaderName_iff`). -/

namespace IncludeGuard

/-! ### How the path is spelled -/

/-- The name has one of the extensions of headers. -/
def IsHeaderName (n : Name) : Prop :=
  ∃ e ∈ Path.headerExtensions, (Path.splitExtension n).2 = some e

instance (n : Name) : Decidable (IsHeaderName n) :=
  inferInstanceAs (Decidable (∃ e ∈ Path.headerExtensions, _))

/-- The name of a header is something, and then `.h` or `.hpp`. -/
theorem isHeaderName_iff {n : Name} : IsHeaderName n ↔ ∃ stem ≠ [],
    n = stem ++ Utf8.encode ".h".toList ∨ n = stem ++ Utf8.encode ".hpp".toList := by
  have hsplit (ext : Bytes) : (Path.splitExtension n).2 = some ext ↔
      ∃ stem, n = stem ++ Path.dot :: ext ∧ stem ≠ [] ∧ Path.dot ∉ ext := by
    simp only [← Path.splitExtension_eq_iff, Prod.ext_iff, exists_eq_left']
  have hh : Utf8.encode ".h".toList = Path.dot :: Utf8.encode "h".toList := by decide
  have hhpp : Utf8.encode ".hpp".toList = Path.dot :: Utf8.encode "hpp".toList := by decide
  constructor
  · rintro ⟨ext, hext, hn⟩
    obtain ⟨stem, rfl, hstem, -⟩ := (hsplit ext).mp hn
    simp only [Path.headerExtensions, List.mem_cons, List.not_mem_nil, or_false] at hext
    rcases hext with rfl | rfl
    · exact ⟨stem, hstem, Or.inr (by rw [hhpp])⟩
    · exact ⟨stem, hstem, Or.inl (by rw [hh])⟩
  · rintro ⟨stem, hstem, rfl | rfl⟩
    · exact ⟨Utf8.encode "h".toList, by decide, (hsplit _).mpr ⟨stem, by rw [hh], hstem, by decide⟩⟩
    · exact ⟨Utf8.encode "hpp".toList, by decide,
        (hsplit _).mpr ⟨stem, by rw [hhpp], hstem, by decide⟩⟩

namespace Address

/-- The last name of the address is the name of a header. -/
def IsHeader (a : Address) : Prop :=
  ∃ n, a.getLast? = some n ∧ IsHeaderName n

variable {a b : Address}

theorem path_injective (ha : ∀ n ∈ a, IsName n) (hb : ∀ n ∈ b, IsName n)
    (h : Address.path a = Address.path b) : a = b := by
  have hcomponents := congrArg Path.components h
  rw [components_path ha, components_path hb, List.cons.injEq] at hcomponents
  have hinj : Function.Injective Path.Component.normal := fun m n hmn => by cases hmn; rfl
  exact List.map_inj_right (fun _ _ hmn => hinj hmn) |>.mp hcomponents.2

theorem isHeader_path (ha : ∀ n ∈ a, IsName n) :
    (Address.path a).isHeader = true ↔ Address.IsHeader a := by
  have hname : (Address.path a).fileName? = a.getLast? := by
    rw [Path.fileName?, components_path ha]
    rcases List.eq_nil_or_concat a with rfl | ⟨ns, n, rfl⟩
    · rfl
    · rw [List.concat_eq_append, List.map_append, ← List.cons_append, List.map_singleton,
        List.getLast?_concat, List.getLast?_concat]
  rw [Path.isHeader, Path.extension?, hname, IsHeader]
  rcases a.getLast? with _ | n
  · simp
  · simp [IsHeaderName, Option.any_eq_true, and_comm]

theorem isHeader_append (hb : b ≠ []) : Address.IsHeader (a ++ b) ↔ Address.IsHeader b := by
  rw [IsHeader, IsHeader, List.getLast?_append, List.getLast?_eq_some_getLast hb,
    Option.some_or]

theorem zero_notMem_path (ha : ∀ n ∈ a, IsName n) : 0 ∉ (Address.path a).bytes := by
  have hzero : (0 : UInt8) ≠ Path.slash := by decide
  have hjoin : 0 ∉ Path.join a := by
    induction a with
    | nil => simp [Path.join]
    | cons n ns ih =>
      have hn : 0 ∉ n := (ha n (by simp)).2.2.2
      cases ns with
      | nil => simpa using hn
      | cons m ms =>
        have hrest := ih fun k hk => ha k (List.mem_cons_of_mem n hk)
        simp [Path.join_cons_cons, hn, hzero, hrest]
  simp [Address.path, hzero, hjoin]

end Address

/-! ### How long the path is -/

section Length
variable {a b : Address}

theorem Address.length_join_le_append (a b : Address) :
    (Path.join a).length ≤ (Path.join (a ++ b)).length := by
  induction a with
  | nil => simp [Path.join]
  | cons n ns ih =>
    rcases ns with _ | ⟨m, ms⟩
    · rcases b with _ | ⟨k, ks⟩
      · simp
      · simp [Path.join_cons_cons]
    · simpa [Path.join_cons_cons] using ih

theorem Purpose.outgrows_eq_false_iff {purpose : Purpose} :
    purpose.outgrows a = false ↔ (purpose = .resolve → a.path.bytes.length < pathLimit) := by
  cases purpose <;> simp [outgrows]

theorem Purpose.outgrows_of_append {purpose : Purpose} (h : purpose.outgrows (a ++ b) = false) :
    purpose.outgrows a = false := by
  rw [outgrows_eq_false_iff] at h ⊢
  intro hresolve
  have hlong := h hresolve
  have hlen := Address.length_join_le_append a b
  simp only [Address.path, List.length_cons] at hlong ⊢
  omega

end Length

/-! ### Following the names -/

/-- Where an entry at an address leads. At a link, `follow` goes on with the target. -/
def Entry.leadsTo (follow : Address → List Bytes → Except Fault Place) (a : Address) :
    Entry → Except Fault Place
  | dir => .ok (.directory a)
  | file _ => .ok (.file a)
  | link target =>
    if target.bytes = [] then .error .notFound
    else follow (if target.isAbsolute then [] else a.dropLast) (Path.segments target.bytes)

namespace Tree

section Names
variable {t : Tree} {follow : Address → List Bytes → Except Fault Place}

theorem locateWith_segments_path {purpose : Purpose} {a : Address} (ha : ∀ n ∈ a, IsName n)
    (here : Address) :
    t.locateWith purpose follow here (Path.segments a.path.bytes) =
      t.locateWith purpose follow here a := by
  have hidle : Path.isIdle [] = true := rfl
  rw [Address.path, Path.segments_slash_cons]
  cases a with
  | nil =>
    have hjoin : Path.segments (Path.join []) = [[]] := rfl
    simp only [hjoin, locateWith, hidle, if_true]
  | cons n ns =>
    rw [Path.segments_join (by simp) fun s hs => (ha s hs).2.2.1, locateWith, if_pos hidle]

variable {purpose : Purpose} (hwrite : purpose ≠ .write)
include hwrite

theorem locateWith_cons_of_dir {n : Name} (hn : IsName n) {here : Address}
    (hshort : purpose.outgrows (here ++ [n]) = false)
    (h : t.entryAt? (here ++ [n]) = some .dir) (rest : List Bytes) :
    t.locateWith purpose follow here (n :: rest) =
      t.locateWith purpose follow (here ++ [n]) rest := by
  simp [locateWith, hn.1, hn.2.1, hshort, hwrite, h]

theorem locateWith_singleton {n : Name} (hn : IsName n) {here : Address}
    (hshort : purpose.outgrows (here ++ [n]) = false) {e : Entry}
    (h : t.entryAt? (here ++ [n]) = some e) :
    t.locateWith purpose follow here [n] = e.leadsTo follow (here ++ [n]) := by
  cases e <;> simp [locateWith, hn.1, hn.2.1, hshort, hwrite, h, Entry.leadsTo]

theorem locateWith_append {ns : Address} (hn : ∀ n ∈ ns, IsName n) {here : Address}
    (hshort : purpose.outgrows (here ++ ns) = false) (h : t.entryAt? (here ++ ns) = some .dir)
    (rest : List Bytes) :
    t.locateWith purpose follow here (ns ++ rest) =
      t.locateWith purpose follow (here ++ ns) rest := by
  induction ns generalizing here with
  | nil => rw [List.nil_append, List.append_nil]
  | cons n ns ih =>
    rw [List.append_cons here] at h hshort ⊢
    have hdir : t.entryAt? (here ++ [n]) = some .dir := by
      by_cases hns : ns = []
      · simpa [hns] using h
      · exact entryAt?_eq_dir_of_append h hns
    rw [List.cons_append, locateWith_cons_of_dir hwrite (hn n (by simp))
      (Purpose.outgrows_of_append hshort) hdir]
    exact ih (fun m hm => hn m (List.mem_cons_of_mem n hm)) hshort h

theorem locateWith_names {a : Address} (hshort : purpose.outgrows a = false) {e : Entry}
    (h : t.entryAt? a = some e) : t.locateWith purpose follow [] a = e.leadsTo follow a := by
  have hn := Listing.isName_of_entryAt? t.wellFormed h
  rcases List.eq_nil_or_concat a with rfl | ⟨ns, n, rfl⟩
  · obtain rfl : e = .dir := by simpa [entryAt?] using h.symm
    rfl
  · rw [List.concat_eq_append] at h hn hshort ⊢
    have hdir : t.entryAt? ([] ++ ns) = some .dir := entryAt?_eq_dir_of_append h (by simp)
    rw [locateWith_append hwrite (fun m hm => hn m (by simp [hm]))
      (Purpose.outgrows_of_append hshort) hdir, List.nil_append]
    exact locateWith_singleton hwrite (hn n (by simp)) hshort h

end Names

/-! ### Directories that are found -/

section Directories
variable {t : Tree} {follow : Address → List Bytes → Except Fault Place} {purpose : Purpose}
  {P : Address → Prop} {a : Address}

theorem entryAt?_dropLast (h : t.entryAt? a = some .dir) :
    t.entryAt? a.dropLast = some .dir := by
  by_cases ha : a = []
  · subst ha
    rfl
  · exact Listing.entryAt?_dropLast ha h

variable (hroot : P []) (hparent : ∀ b, P b → P b.dropLast)
  (hdown : ∀ b, t.entryAt? b = some .dir → purpose.outgrows b = false → P b)
include hroot hparent hdown

/-- **Directories along a path.** What the root has, parents have with their children, and every
directory that can be looked up has, is kept from the start of a path to the directory it leads
to. -/
theorem of_locateWith (hfollow : ∀ here ss, P here → follow here ss = .ok (.directory a) → P a)
    {here : Address} (hhere : P here) {ss : List Bytes}
    (h : t.locateWith purpose follow here ss = .ok (.directory a)) : P a := by
  induction ss generalizing here with
  | nil =>
    obtain rfl : here = a := by simpa [locateWith] using h
    exact hhere
  | cons s rest ih =>
    by_cases hidle : Path.isIdle s = true
    · rw [locateWith, if_pos hidle] at h
      exact ih hhere h
    by_cases hdot : s = [Path.dot, Path.dot]
    · rw [locateWith, if_neg hidle, if_pos hdot] at h
      exact ih (hparent _ hhere) h
    rw [locateWith, if_neg hidle, if_neg hdot] at h
    rcases hentry : t.entryAt? (here ++ [s]) with _ | ⟨_ | target | _⟩ <;> simp only [hentry] at h
    · split_ifs at h
      cases h
    · split_ifs at h
      cases h
    · split_ifs at h
      · exact hfollow _ _ hroot h
      · exact hfollow _ _ hhere h
    · split_ifs at h with hlong
      exact ih (hdown _ hentry (by simpa using hlong)) h

theorem of_locate {links : Nat} {here : Address} (hhere : P here) {ss : List Bytes}
    (h : t.locate purpose links here ss = .ok (.directory a)) : P a := by
  induction links generalizing here ss with
  | zero => exact of_locateWith hroot hparent hdown (by simp) hhere h
  | succ links ih => exact of_locateWith hroot hparent hdown (fun _ _ hP => ih hP) hhere h

end Directories

end Tree

namespace Workspace

variable {ws : Workspace} {a : Address} {p : Path}

/-- **Where the path of an address leads**, if it is not followed to be written to. -/
theorem locate_path {purpose : Purpose} (hwrite : purpose ≠ .write)
    (hshort : purpose.outgrows a = false) {e : Entry} (h : ws.tree.entryAt? a = some e) :
    ws.locate purpose a.path = e.leadsTo (ws.tree.locate purpose (maxLinks - 1)) a := by
  have hn := Listing.isName_of_entryAt? ws.tree.wellFormed h
  have hne : a.path.bytes ≠ [] := by simp [Address.path]
  have hstart : ws.start a.path = [] := by simp [start, Path.isAbsolute, Address.path]
  rw [locate, if_neg (Address.zero_notMem_path hn), if_neg hne, hstart,
    ← Tree.locateWith_names hwrite hshort h]
  exact Tree.locateWith_segments_path hn []

theorem reach_find_path {e : Entry} (h : ws.tree.entryAt? a = some e) :
    ws.reach .find a.path =
      if pathLimit ≤ a.path.bytes.length then .error .nameTooLong
      else e.leadsTo (ws.tree.locate .find (maxLinks - 1)) a := by
  have hn := Listing.isName_of_entryAt? ws.tree.wellFormed h
  rw [reach, pathFault?, if_neg (Address.zero_notMem_path hn)]
  split_ifs with hlong
  · rfl
  · exact locate_path (by simp) rfl h

theorem resolve_eq_ok_iff : ws.resolve p = .ok a ↔
    ws.locate .resolve p = .ok (.directory a) ∨ ws.locate .resolve p = .ok (.file a) := by
  unfold resolve
  rcases ws.locate .resolve p with e | b | b | b <;> simp

theorem entryAt?_of_resolve (hcwd : ws.tree.entryAt? ws.cwd = some .dir)
    (h : ws.resolve p = .ok a) :
    ws.tree.entryAt? a = some .dir ∨ ∃ c, ws.tree.entryAt? a = some (.file c) := by
  have hstart : ws.tree.entryAt? (ws.start p) = some .dir := by
    unfold start
    split_ifs
    · rfl
    · exact hcwd
  rw [resolve_eq_ok_iff] at h
  unfold Workspace.locate at h
  split_ifs at h
  · simp at h
  · simp at h
  · refine h.imp (fun hdir => ?_) fun hfile => (Tree.exists_file_of_locate hfile).1
    exact Tree.of_locate (P := (ws.tree.entryAt? · = some .dir)) rfl
      (fun _ => Tree.entryAt?_dropLast) (fun _ hb _ => hb) hstart hdir

theorem isFile_iff : ws.isFile p = true ↔ ∃ b, ws.reach .find p = .ok (.file b) := by
  unfold isFile
  split
  · next b hb => simp [hb]
  · next hne => simp only [Bool.false_eq_true, false_iff, not_exists]; exact hne

end Workspace

end IncludeGuard
