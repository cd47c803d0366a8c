import IncludeGuard.Tree.Listing

/-! # Directory trees

A tree is the well-formed listing of the root directory. It is looked at entry by entry
(`entryAt?`), one address at a time, and changed by placing entries (`place`). The path of an
address (`Address.path`) is absolute, and goes through no link and no idle segment. -/

namespace IncludeGuard

/-- The absolute path of an address. -/
def Address.path (a : Address) : Path :=
  ⟨Path.slash :: Path.join a⟩

theorem Address.filterMap_ofSegment? {a : Address} (h : ∀ n ∈ a, IsName n) :
    a.filterMap Path.Component.ofSegment? = a.map .normal := by
  induction a with
  | nil => rfl
  | cons n ns ih =>
    have hn : Path.Component.ofSegment? n = some (.normal n) := by
      simp [Path.Component.ofSegment?, (h n (by simp)).1, (h n (by simp)).2.1]
    rw [List.filterMap_cons_some hn, ih fun m hm => h m (by simp [hm])]
    rfl

/-- The path of an address has its names as components. -/
theorem Address.components_path {a : Address} (h : ∀ n ∈ a, IsName n) :
    (Address.path a).components = .root :: a.map .normal := by
  have hs : (Address.path a).start? = some .root := by
    simp [Path.start?, Path.isAbsolute, Address.path]
  have hf : (Path.segments (Address.path a).bytes).filterMap Path.Component.ofSegment? =
      a.map .normal := by
    rw [Address.path, Path.segments_slash_cons, List.filterMap_cons_none (by rfl)]
    cases a with
    | nil => rfl
    | cons n ns =>
      rw [Path.segments_join (by simp) fun s hs => (h s hs).2.2.1, filterMap_ofSegment? h]
  rw [Path.components, hs, hf]
  rfl

/-- A directory tree. -/
structure Tree where
  root : Listing
  wellFormed : root.WellFormed

namespace Tree

/-- The tree of the root directory alone. -/
def empty : Tree :=
  ⟨.nil, trivial⟩

/-- What stands at an address. -/
def entryAt? (t : Tree) (a : Address) : Option Entry :=
  t.root.entryAt? a

/-- The content of the file at an address. -/
def content? (t : Tree) (a : Address) : Option Bytes :=
  match t.entryAt? a with
  | some (.file content) => some content
  | _ => none

/-- The tree with an entry placed at an address. An address that holds something other than names
changes nothing. -/
def place (t : Tree) (a : Address) (e : Entry) : Tree :=
  if h : ∀ n ∈ a, IsName n then ⟨t.root.place e a, Listing.wellFormed_place h t.wellFormed⟩ else t

/-- Placing an entry in a directory changes what stands at its own address and nothing else. -/
theorem entryAt?_place {t : Tree} {a : Address} {e : Entry} (ha : a ≠ []) (hn : ∀ n ∈ a, IsName n)
    (hparent : t.entryAt? a.dropLast = some .dir) (hdir : t.entryAt? a ≠ some .dir) (b : Address) :
    (t.place a e).entryAt? b = if b = a then some e else t.entryAt? b := by
  unfold place
  rw [dif_pos hn]
  exact Listing.entryAt?_place ha hparent hdir b

/-- The files and links below the directory at an address, depth first and in order of names. -/
def leaves (t : Tree) (a : Address) : List (Address × Entry) :=
  match t.root.get? a with
  | some (.dir entries) => entries.leaves a
  | _ => []

/-- The regular files of the tree with their contents. -/
def files (t : Tree) : List (Address × Bytes) :=
  (t.leaves []).filterMap fun
    | (a, .file content) => some (a, content)
    | _ => none

/-- The regular files of `t` that are not the same in `before`. -/
def changes (t before : Tree) : List (Address × Bytes) :=
  t.files.filter fun f => before.content? f.1 != some f.2

end Tree

end IncludeGuard
