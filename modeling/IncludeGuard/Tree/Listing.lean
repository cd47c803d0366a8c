import IncludeGuard.Path

/-! # Directory listings

A listing holds the entries of a directory in increasing order of their names: files with their
contents, symbolic links with their targets, and directories with listings of their own. An entry
deeper down is found by its address, the list of names on the way to it.

* `find?` looks a name up in one directory, `get?` an address below it;
* `put` sets one entry, `place` an entry at an address, with the directories on the way to it;
* `leaves` lists everything below that is no directory, depth first and in order of names.

The order of the names is the invariant `WellFormed`, which `put` and `place` keep. Placing an entry
in a directory changes what stands at its own address and nothing else (`entryAt?_place`). -/

namespace IncludeGuard

/-- The name of a directory entry. -/
abbrev Name := Bytes

/-- The names on the way from a directory to something below it. -/
abbrev Address := List Name

/-- The bytes can name a directory entry. -/
def IsName (n : Name) : Prop :=
  Path.isIdle n = false ∧ n ≠ [Path.dot, Path.dot] ∧ Path.slash ∉ n ∧ 0 ∉ n

instance (n : Name) : Decidable (IsName n) :=
  inferInstanceAs (Decidable (_ ∧ _))

/-- The entries of a directory. -/
inductive Listing
  | nil
  | file (name : Name) (content : Bytes) (rest : Listing)
  | link (name : Name) (target : Path) (rest : Listing)
  | dir (name : Name) (entries rest : Listing)
deriving DecidableEq

/-- An entry together with all that lies below it. -/
inductive Node
  | file (content : Bytes)
  | link (target : Path)
  | dir (entries : Listing)

/-- An entry on its own. -/
inductive Entry
  | file (content : Bytes)
  | link (target : Path)
  | dir
deriving DecidableEq

/-- The entry without what lies below it. -/
def Node.entry : Node → Entry
  | file content => .file content
  | link target => .link target
  | dir _ => .dir

/-- The entry with nothing below it. -/
def Entry.node : Entry → Node
  | file content => .file content
  | link target => .link target
  | dir => .dir .nil

namespace Listing

/-! ### Looking up -/

/-- The names in a listing. -/
def names : Listing → List Name
  | nil => []
  | file n _ rest => n :: rest.names
  | link n _ rest => n :: rest.names
  | dir n _ rest => n :: rest.names

/-- The entry of a name. -/
def find? (n : Name) : Listing → Option Node
  | nil => none
  | file m content rest => if m = n then some (.file content) else rest.find? n
  | link m target rest => if m = n then some (.link target) else rest.find? n
  | dir m entries rest => if m = n then some (.dir entries) else rest.find? n

/-- What stands at an address. -/
def get? (l : Listing) : Address → Option Node
  | [] => some (.dir l)
  | n :: ns =>
    match l.find? n with
    | none => none
    | some (.dir entries) => entries.get? ns
    | some (.file content) => if ns = [] then some (.file content) else none
    | some (.link target) => if ns = [] then some (.link target) else none

/-- The entry at an address, on its own. -/
def entryAt? (l : Listing) (a : Address) : Option Entry :=
  (l.get? a).map Node.entry

/-- The files and links below a directory at the address `here`. -/
def leaves (here : Address) : Listing → List (Address × Entry)
  | nil => []
  | file n content rest => (here ++ [n], .file content) :: rest.leaves here
  | link n target rest => (here ++ [n], .link target) :: rest.leaves here
  | dir n entries rest => entries.leaves (here ++ [n]) ++ rest.leaves here

/-! ### Changing -/

/-- The listing with one more entry in front. -/
def cons (n : Name) (node : Node) (rest : Listing) : Listing :=
  match node with
  | .file content => file n content rest
  | .link target => link n target rest
  | .dir entries => dir n entries rest

/-- The listing with the entry of one name set. -/
def put (n : Name) (node : Node) : Listing → Listing
  | nil => cons n node nil
  | file m content rest =>
    if m < n then file m content (rest.put n node)
    else if m = n then cons n node rest
    else cons n node (file m content rest)
  | link m target rest =>
    if m < n then link m target (rest.put n node)
    else if m = n then cons n node rest
    else cons n node (link m target rest)
  | dir m entries rest =>
    if m < n then dir m entries (rest.put n node)
    else if m = n then cons n node rest
    else cons n node (dir m entries rest)

/-- The listing with an entry at an address, and with the directories on the way to it. A directory
that is there already stays as it is. Nothing changes where a file or a link is in the way. -/
def place (e : Entry) : Address → Listing → Listing
  | [], l => l
  | [n], l =>
    match l.find? n with
    | some (.dir _) => l
    | _ => l.put n e.node
  | n :: ns, l =>
    match l.find? n with
    | none => l.put n (.dir (place e ns nil))
    | some (.dir entries) => l.put n (.dir (place e ns entries))
    | some _ => l

/-! ### Well-formed listings -/

/-- Every name can be a name and comes before all later names of its directory. -/
def WellFormed : Listing → Prop
  | nil => True
  | file n _ rest => IsName n ∧ (∀ m ∈ rest.names, n < m) ∧ rest.WellFormed
  | link n _ rest => IsName n ∧ (∀ m ∈ rest.names, n < m) ∧ rest.WellFormed
  | dir n entries rest =>
    IsName n ∧ (∀ m ∈ rest.names, n < m) ∧ entries.WellFormed ∧ rest.WellFormed

/-- A directory node is well formed if its listing is, and every other node is. -/
def NodeWellFormed : Node → Prop
  | .dir entries => entries.WellFormed
  | _ => True

theorem names_cons (n : Name) (node : Node) (rest : Listing) :
    (cons n node rest).names = n :: rest.names := by
  cases node <;> rfl

theorem wellFormed_cons {n : Name} {node : Node} {rest : Listing} :
    (cons n node rest).WellFormed ↔
      IsName n ∧ (∀ m ∈ rest.names, n < m) ∧ NodeWellFormed node ∧ rest.WellFormed := by
  cases node <;> simp [cons, WellFormed, NodeWellFormed]

/-- Induction on a listing that treats the three kinds of entries alike. -/
theorem consInduction {P : Listing → Prop} (nil : P .nil)
    (cons : ∀ n node rest, P rest → (∀ entries, node = .dir entries → P entries) →
      P (Listing.cons n node rest)) (l : Listing) : P l := by
  induction l with
  | nil => exact nil
  | file n content rest ih => exact cons n (.file content) rest ih (by simp)
  | link n target rest ih => exact cons n (.link target) rest ih (by simp)
  | dir n entries rest ihe ihr =>
    exact cons n (.dir entries) rest ihr (by rintro _ ⟨⟩; exact ihe)

theorem put_cons (n : Name) (node : Node) (m : Name) (first : Node) (rest : Listing) :
    put n node (cons m first rest) =
      if m < n then cons m first (put n node rest)
      else if m = n then cons n node rest
      else cons n node (cons m first rest) := by
  cases first <;> rfl

theorem find?_cons (n m : Name) (node : Node) (rest : Listing) :
    find? n (cons m node rest) = if m = n then some node else find? n rest := by
  cases node <;> rfl

theorem mem_names_put {n m : Name} {node : Node} {l : Listing} :
    m ∈ (put n node l).names ↔ m = n ∨ m ∈ l.names := by
  induction l using consInduction with
  | nil => rw [put, names_cons]; simp [names]
  | cons k first rest ih _ =>
    rw [put_cons]
    split
    · simp only [names_cons, List.mem_cons, ih]; grind
    · split
      · next h => subst h; simp only [names_cons, List.mem_cons]; grind
      · simp only [names_cons, List.mem_cons]

theorem wellFormed_put {n : Name} {node : Node} {l : Listing} (hn : IsName n)
    (hnode : NodeWellFormed node) (hl : l.WellFormed) : (put n node l).WellFormed := by
  induction l using consInduction with
  | nil => exact wellFormed_cons.mpr ⟨hn, by simp [names], hnode, trivial⟩
  | cons k first rest ih _ =>
    obtain ⟨hk, hlt, hfirst, hrest⟩ := wellFormed_cons.mp hl
    rw [put_cons]
    split
    · next h =>
      refine wellFormed_cons.mpr ⟨hk, fun m hm => ?_, hfirst, ih hrest⟩
      rcases mem_names_put.mp hm with rfl | hm
      · exact h
      · exact hlt m hm
    · next h =>
      split
      · next e => subst e; exact wellFormed_cons.mpr ⟨hn, hlt, hnode, hrest⟩
      · next e =>
        have hnk : n < k := Std.lt_of_le_of_ne (Std.not_lt.mp h) (Ne.symm e)
        refine wellFormed_cons.mpr ⟨hn, fun m hm => ?_, hnode, hl⟩
        rcases List.mem_cons.mp (names_cons k first rest ▸ hm) with rfl | hm
        · exact hnk
        · exact Std.lt_trans hnk (hlt m hm)

theorem nodeWellFormed_of_find? {n : Name} {node : Node} {l : Listing} (hl : l.WellFormed)
    (h : l.find? n = some node) : NodeWellFormed node := by
  induction l using consInduction with
  | nil => simp [find?] at h
  | cons k first rest ih _ =>
    obtain ⟨_, _, hfirst, hrest⟩ := wellFormed_cons.mp hl
    rw [find?_cons] at h
    split at h
    · cases h; exact hfirst
    · exact ih hrest h

theorem nodeWellFormed_node (e : Entry) : NodeWellFormed e.node := by
  cases e <;> trivial

theorem wellFormed_place {e : Entry} {a : Address} {l : Listing} (ha : ∀ n ∈ a, IsName n)
    (hl : l.WellFormed) : (place e a l).WellFormed := by
  induction a generalizing l with
  | nil => exact hl
  | cons n ns ih =>
    have hn : IsName n := ha n (by simp)
    cases ns with
    | nil =>
      unfold place
      split
      · exact hl
      · exact wellFormed_put hn (nodeWellFormed_node e) hl
    | cons m ms =>
      have ih' := fun {l : Listing} => ih (l := l) fun k hk => ha k (by simp [hk])
      unfold place
      split
      · exact wellFormed_put hn (ih' (l := .nil) trivial) hl
      · next entries h =>
        exact wellFormed_put hn (ih' (nodeWellFormed_of_find? hl h : entries.WellFormed)) hl
      · exact hl

/-! ### Looking up after a change -/

theorem find?_put (n m : Name) (node : Node) (l : Listing) :
    find? m (put n node l) = if n = m then some node else find? m l := by
  induction l using consInduction with
  | nil => rw [put, find?_cons]
  | cons k first rest ih _ =>
    rw [put_cons]
    split
    · next h =>
      rw [find?_cons, find?_cons, ih]
      by_cases hk : k = m
      · subst hk
        have hne : n ≠ k := fun e => by subst e; exact Std.lt_irrefl h
        simp [hne]
      · simp [hk]
    · split
      · next h =>
        subst h
        simp only [find?_cons]
        by_cases hk : k = m <;> simp [hk]
      · rw [find?_cons]

theorem get?_cons (l : Listing) (n : Name) (ns : Address) :
    l.get? (n :: ns) = (l.find? n).bind fun
      | .dir entries => entries.get? ns
      | node => if ns = [] then some node else none := by
  rw [get?]
  rcases l.find? n with _ | ⟨_ | _ | _⟩ <;> rfl

@[simp] theorem entryAt?_nil (l : Listing) : l.entryAt? [] = some .dir := rfl

theorem entryAt?_cons (l : Listing) (n : Name) (ns : Address) :
    l.entryAt? (n :: ns) = (l.find? n).bind fun
      | .dir entries => entries.entryAt? ns
      | node => if ns = [] then some node.entry else none := by
  rw [entryAt?, get?_cons]
  rcases l.find? n with _ | ⟨_ | _ | _⟩
  · rfl
  · cases ns <;> rfl
  · cases ns <;> rfl
  · rfl

/-- Below a directory entry stands what stands in its listing. -/
theorem entryAt?_cons_of_dir {l entries : Listing} {n : Name} (h : l.find? n = some (.dir entries))
    (ns : Address) : l.entryAt? (n :: ns) = entries.entryAt? ns := by
  simp [entryAt?_cons, h]

/-- Only a directory has something below it. -/
theorem exists_dir_of_entryAt? {l : Listing} {n : Name} {ns : Address} {e : Entry}
    (h : l.entryAt? (n :: ns) = some e) (hns : ns ≠ [] ∨ e = .dir) :
    ∃ entries, l.find? n = some (.dir entries) := by
  rw [entryAt?_cons] at h
  rcases hf : l.find? n with _ | ⟨_ | _ | entries⟩
  · simp [hf] at h
  · rcases hns with hns | rfl <;> simp [hf, Node.entry] at h; exact absurd h.1 hns
  · rcases hns with hns | rfl <;> simp [hf, Node.entry] at h; exact absurd h.1 hns
  · exact ⟨entries, rfl⟩

theorem entryAt?_put (n : Name) (e : Entry) (l : Listing) (hn : ∀ es, l.find? n ≠ some (.dir es))
    (b : Address) : (l.put n e.node).entryAt? b = if b = [n] then some e else l.entryAt? b := by
  cases b with
  | nil => simp
  | cons m ms =>
    rw [entryAt?_cons, entryAt?_cons, find?_put]
    by_cases hm : n = m
    · subst hm
      cases ms with
      | nil => cases e <;> simp [Entry.node, Node.entry]
      | cons k ks =>
        rcases hf : l.find? n with _ | ⟨_ | _ | entries⟩
        · cases e <;> simp [Entry.node, entryAt?_cons, find?]
        · cases e <;> simp [Entry.node, entryAt?_cons, find?]
        · cases e <;> simp [Entry.node, entryAt?_cons, find?]
        · exact absurd hf (hn entries)
    · simp [hm, Ne.symm hm]

/-- Placing an entry in a directory changes that entry alone. -/
theorem entryAt?_place {e : Entry} {a : Address} {l : Listing} (ha : a ≠ [])
    (hparent : l.entryAt? a.dropLast = some .dir) (hdir : l.entryAt? a ≠ some .dir) (b : Address) :
    (place e a l).entryAt? b = if b = a then some e else l.entryAt? b := by
  induction a generalizing l b with
  | nil => exact absurd rfl ha
  | cons n ns ih =>
    cases ns with
    | nil =>
      have hn : ∀ es, l.find? n ≠ some (.dir es) := fun es h => hdir (by
        rw [entryAt?_cons_of_dir h]; rfl)
      have hp : place e [n] l = l.put n e.node := by
        unfold place
        split
        · next h => exact absurd h (hn _)
        · rfl
      rw [hp, entryAt?_put n e l hn]
    | cons m ms =>
      obtain ⟨es, hes⟩ := exists_dir_of_entryAt? hparent (Or.inr rfl)
      have hp : place e (n :: m :: ms) l = l.put n (.dir (place e (m :: ms) es)) := by
        simp [place, hes]
      have hparent' : es.entryAt? (m :: ms).dropLast = some .dir := by
        rw [← entryAt?_cons_of_dir hes]; exact hparent
      have hdir' : es.entryAt? (m :: ms) ≠ some .dir := by
        rw [← entryAt?_cons_of_dir hes]; exact hdir
      rw [hp]
      cases b with
      | nil => simp
      | cons k ks =>
        rw [entryAt?_cons, entryAt?_cons, find?_put]
        by_cases hk : n = k
        · subst hk
          simp [hes, ih (by simp) hparent' hdir' ks]
        · simp [hk, Ne.symm hk]

end Listing

end IncludeGuard
