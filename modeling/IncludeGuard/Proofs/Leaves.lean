import IncludeGuard.Tree.Basic
import Mathlib.Tactic.SplitIfs

/-! # What stands in a listing

An address that is longer goes on from the directory that the shorter one leads to
(`get?_append`), and everything but the last entry on the way is a directory
(`entryAt?_eq_dir_of_append`).

The leaves of a listing are its files and links at any depth. They are listed by their addresses:

* `mem_leaves_iff`: the leaves are the entries that are no directories, each under its address;
* `pairwise_leaves`: they come in increasing order of addresses, where addresses are compared name
  by name.

The order of names in each directory (`WellFormed`) is the reason for both: no name comes twice, and
all that lies below one name comes before all that lies below a greater one. It also leaves only one
way to list the same entries, so a listing is determined by what stands at the addresses
(`eq_of_entryAt?`). -/

namespace IncludeGuard

namespace Listing

/-! ### Addresses that go on -/

theorem exists_find?_of_get? {l es : Listing} {n : Name} {ns : Address}
    (h : l.get? (n :: ns) = some (.dir es)) :
    ∃ entries, l.find? n = some (.dir entries) ∧ entries.get? ns = some (.dir es) := by
  rw [get?_cons, Option.bind_eq_some_iff] at h
  obtain ⟨node, hnode, hrest⟩ := h
  cases node with
  | file content => simp at hrest
  | link target => simp at hrest
  | dir entries => exact ⟨entries, hnode, hrest⟩

theorem get?_append {l es : Listing} {a : Address} (h : l.get? a = some (.dir es)) (b : Address) :
    l.get? (a ++ b) = es.get? b := by
  induction a generalizing l with
  | nil =>
    obtain rfl : l = es := by simpa [get?] using h
    rfl
  | cons n ns ih =>
    obtain ⟨entries, hentries, hrest⟩ := exists_find?_of_get? h
    rw [List.cons_append, get?_cons, hentries]
    exact ih hrest

theorem wellFormed_of_get? {l es : Listing} {a : Address} (hl : l.WellFormed)
    (h : l.get? a = some (.dir es)) : es.WellFormed := by
  induction a generalizing l with
  | nil =>
    obtain rfl : l = es := by simpa [get?] using h
    exact hl
  | cons n ns ih =>
    obtain ⟨entries, hentries, hrest⟩ := exists_find?_of_get? h
    exact ih (nodeWellFormed_of_find? hl hentries : entries.WellFormed) hrest

theorem entryAt?_eq_dir_of_append {l : Listing} {a b : Address} {e : Entry}
    (h : l.entryAt? (a ++ b) = some e) (hb : b ≠ []) : l.entryAt? a = some .dir := by
  induction a generalizing l with
  | nil => rfl
  | cons n ns ih =>
    obtain ⟨es, hes⟩ := exists_dir_of_entryAt? h (Or.inl (by simp [hb]))
    rw [List.cons_append, entryAt?_cons_of_dir hes] at h
    rw [entryAt?_cons_of_dir hes]
    exact ih h

/-! ### Leaves -/

theorem mem_names_of_find? {n : Name} {node : Node} {l : Listing} (h : l.find? n = some node) :
    n ∈ l.names := by
  induction l using consInduction with
  | nil => simp [find?] at h
  | cons k first rest ih _ =>
    rw [find?_cons] at h
    rw [names_cons]
    split_ifs at h with hk
    · simp [hk]
    · exact List.mem_cons_of_mem k (ih h)

/-- The leaves of one entry, by their addresses from the directory of the entry on. -/
def nodeLeaves (n : Name) : Node → List (Address × Entry)
  | .dir entries => (entries.leaves []).map fun leaf => (n :: leaf.1, leaf.2)
  | node => [([n], node.entry)]

theorem exists_eq_cons_of_mem_nodeLeaves {n : Name} {node : Node} {a : Address}
    (h : a ∈ (nodeLeaves n node).map Prod.fst) : ∃ ms, a = n :: ms := by
  obtain ⟨leaf, hleaf, rfl⟩ := List.mem_map.mp h
  cases node with
  | file content => exact ⟨[], by rw [List.mem_singleton.mp hleaf]⟩
  | link target => exact ⟨[], by rw [List.mem_singleton.mp hleaf]⟩
  | dir entries =>
    obtain ⟨below, -, rfl⟩ := List.mem_map.mp hleaf
    exact ⟨below.1, rfl⟩

/-- The leaves of a directory somewhere else are the same but for where they lie. -/
theorem leaves_eq_map (here : Address) (l : Listing) :
    l.leaves here = (l.leaves []).map fun leaf => (here ++ leaf.1, leaf.2) := by
  induction l generalizing here with
  | nil => rfl
  | file n content rest ih => rw [leaves, leaves, ih]; rfl
  | link n target rest ih => rw [leaves, leaves, ih]; rfl
  | dir n entries rest ihe ihr =>
    rw [leaves, leaves, ihe, ihr, ihe ([] ++ [n]), List.map_append, List.map_map]
    simp [Function.comp_def]

theorem leaves_cons (n : Name) (node : Node) (rest : Listing) :
    (cons n node rest).leaves [] = nodeLeaves n node ++ rest.leaves [] := by
  cases node with
  | file content => rfl
  | link target => rfl
  | dir entries =>
    rw [cons, leaves, leaves_eq_map]
    rfl

theorem entryAt?_cons_self (n : Name) (node : Node) (rest : Listing) (ms : Address) :
    (cons n node rest).entryAt? (n :: ms) =
      match node with
      | .dir entries => entries.entryAt? ms
      | node => if ms = [] then some node.entry else none := by
  rw [entryAt?_cons, find?_cons, if_pos rfl]
  cases node <;> rfl

theorem entryAt?_cons_of_ne {n m : Name} (h : n ≠ m) (node : Node) (rest : Listing) (ms : Address) :
    (cons n node rest).entryAt? (m :: ms) = rest.entryAt? (m :: ms) := by
  rw [entryAt?_cons, find?_cons, if_neg h, entryAt?_cons]

theorem mem_names_of_entryAt? {l : Listing} {n : Name} {ns : Address} {e : Entry}
    (h : l.entryAt? (n :: ns) = some e) : n ∈ l.names := by
  rw [entryAt?_cons, Option.bind_eq_some_iff] at h
  obtain ⟨node, hnode, -⟩ := h
  exact mem_names_of_find? hnode

/-- **The leaves are the entries that are no directories.** -/
theorem mem_leaves_iff {l : Listing} (hl : l.WellFormed) {a : Address} {e : Entry} :
    (a, e) ∈ l.leaves [] ↔ l.entryAt? a = some e ∧ e ≠ .dir := by
  induction l using consInduction generalizing a e with
  | nil =>
    cases a with
    | nil => simpa [leaves] using Eq.symm
    | cons m ms => simp [leaves, entryAt?_cons, find?]
  | cons n node rest ih ihe =>
    obtain ⟨-, hlt, hnode, hrest⟩ := wellFormed_cons.mp hl
    rw [leaves_cons, List.mem_append, ih hrest]
    cases a with
    | nil => cases node <;> simp [nodeLeaves]
    | cons m ms =>
      by_cases hnm : n = m
      · subst hnm
        have hnone : rest.entryAt? (n :: ms) ≠ some e := fun h =>
          Std.lt_irrefl (hlt n (mem_names_of_entryAt? h))
        rw [entryAt?_cons_self]
        cases node with
        | file content => cases ms <;> simp [nodeLeaves, Node.entry, hnone]; grind
        | link target => cases ms <;> simp [nodeLeaves, Node.entry, hnone]; grind
        | dir entries => simp [nodeLeaves, ihe entries rfl hnode, hnone]
      · have hne : (m :: ms, e) ∉ nodeLeaves n node := by
          cases node <;> simp [nodeLeaves, hnm, Ne.symm hnm]
        rw [entryAt?_cons_of_ne hnm]
        simp [hne]

/-- **The leaves come in order of their addresses.** -/
theorem pairwise_leaves {l : Listing} (hl : l.WellFormed) :
    ((l.leaves []).map Prod.fst).Pairwise (· < ·) := by
  induction l using consInduction with
  | nil => exact .nil
  | cons n node rest ih ihe =>
    obtain ⟨-, hlt, hnode, hrest⟩ := wellFormed_cons.mp hl
    rw [leaves_cons, List.map_append, List.pairwise_append]
    refine ⟨?_, ih hrest, ?_⟩
    · cases node with
      | file content => exact List.pairwise_singleton _ _
      | link target => exact List.pairwise_singleton _ _
      | dir entries =>
        have hentries := ihe entries rfl hnode
        rw [nodeLeaves, List.map_map, List.pairwise_map]
        rw [List.pairwise_map] at hentries
        exact hentries.imp fun h => List.cons_lt_cons_iff.mpr (Or.inr ⟨rfl, h⟩)
    · -- everything below `n` comes before everything below a later name
      intro a ha b hb
      obtain ⟨ms, rfl⟩ := exists_eq_cons_of_mem_nodeLeaves ha
      obtain ⟨⟨b', e⟩, he, rfl⟩ := List.mem_map.mp hb
      obtain ⟨hentry, hdir⟩ := (mem_leaves_iff hrest).mp he
      cases b' with
      | nil => exact absurd (by simpa using hentry.symm) hdir
      | cons m ks =>
        exact List.cons_lt_cons_iff.mpr (Or.inl (hlt m (mem_names_of_entryAt? hentry)))

/-! ### Listings with the same entries -/

theorem eq_nil_or_exists_cons (l : Listing) :
    l = nil ∨ ∃ n node rest, l = cons n node rest := by
  induction l using consInduction with
  | nil => exact Or.inl rfl
  | cons n node rest _ _ => exact Or.inr ⟨n, node, rest, rfl⟩

theorem mem_names_iff {l : Listing} {n : Name} : n ∈ l.names ↔ ∃ e, l.entryAt? [n] = some e := by
  refine ⟨fun h => ?_, fun ⟨e, he⟩ => mem_names_of_entryAt? he⟩
  induction l using consInduction with
  | nil => simp [names] at h
  | cons k node rest ih _ =>
    by_cases hk : k = n
    · subst hk
      rw [entryAt?_cons_self]
      cases node <;> simp
    · rw [entryAt?_cons_of_ne hk]
      rw [names_cons, List.mem_cons] at h
      exact ih (h.resolve_left (Ne.symm hk))

theorem entryAt?_of_lt_names {n : Name} {rest : Listing} (hlt : ∀ m ∈ rest.names, n < m)
    (ms : Address) : rest.entryAt? (n :: ms) = none := by
  rw [Option.eq_none_iff_forall_ne_some]
  exact fun e he => Std.lt_irrefl (hlt n (mem_names_of_entryAt? he))

theorem name_eq_of_entryAt? {n m : Name} {node node' : Node} {rest rest' : Listing}
    (hlt : ∀ k ∈ rest.names, n < k) (hlt' : ∀ k ∈ rest'.names, m < k)
    (h : ∀ a, (cons n node rest).entryAt? a = (cons m node' rest').entryAt? a) : n = m := by
  have hnames : ∀ k, k = n ∨ k ∈ rest.names ↔ k = m ∨ k ∈ rest'.names := by
    intro k
    rw [← List.mem_cons, ← List.mem_cons, ← names_cons n node, ← names_cons m node']
    simp only [mem_names_iff, h]
  rcases (hnames n).mp (Or.inl rfl) with rfl | hn
  · rfl
  · rcases (hnames m).mpr (Or.inl rfl) with rfl | hm
    · rfl
    · exact absurd (Std.lt_trans (hlt' n hn) (hlt m hm)) Std.lt_irrefl

theorem node_eq_of_entryAt? {n : Name} {node node' : Node} {rest rest' : Listing}
    (hdir : ∀ es es', node = .dir es → node' = .dir es' →
      (∀ a, es.entryAt? a = es'.entryAt? a) → es = es')
    (h : ∀ ms, (cons n node rest).entryAt? (n :: ms) = (cons n node' rest').entryAt? (n :: ms)) :
    node = node' := by
  simp only [entryAt?_cons_self] at h
  have hentry := h []
  cases node with
  | file content => cases node' <;> simp_all [Node.entry]
  | link target => cases node' <;> simp_all [Node.entry]
  | dir es =>
    cases node' with
    | file content => simp [Node.entry] at hentry
    | link target => simp [Node.entry] at hentry
    | dir es' => rw [hdir es es' rfl rfl h]

/-- **A listing is determined by what stands at the addresses.** -/
theorem eq_of_entryAt? {l l' : Listing} (hl : l.WellFormed) (hl' : l'.WellFormed)
    (h : ∀ a, l.entryAt? a = l'.entryAt? a) : l = l' := by
  have hnil : ∀ n node rest, (nil : Listing).entryAt? [n] ≠ (cons n node rest).entryAt? [n] := by
    intro n node rest
    rw [entryAt?_cons_self, entryAt?_cons]
    cases node <;> simp [find?]
  induction l using consInduction generalizing l' with
  | nil =>
    obtain rfl | ⟨m, node', rest', rfl⟩ := l'.eq_nil_or_exists_cons
    · rfl
    · exact absurd (h [m]) (hnil m node' rest')
  | cons n node rest ih ihe =>
    obtain rfl | ⟨m, node', rest', rfl⟩ := l'.eq_nil_or_exists_cons
    · exact absurd (h [n]).symm (hnil n node rest)
    · obtain ⟨-, hlt, hnode, hrest⟩ := wellFormed_cons.mp hl
      obtain ⟨-, hlt', hnode', hrest'⟩ := wellFormed_cons.mp hl'
      obtain rfl := name_eq_of_entryAt? hlt hlt' h
      have hnodes : node = node' := by
        refine node_eq_of_entryAt? ?_ fun ms => h (n :: ms)
        rintro es es' rfl rfl hes
        exact ihe es rfl hnode hnode' hes
      subst hnodes
      have hrests : ∀ a, rest.entryAt? a = rest'.entryAt? a := by
        intro a
        cases a with
        | nil => rfl
        | cons k ks =>
          by_cases hk : n = k
          · subst hk
            rw [entryAt?_of_lt_names hlt, entryAt?_of_lt_names hlt']
          · have hk' := h (k :: ks)
            rwa [entryAt?_cons_of_ne hk, entryAt?_cons_of_ne hk] at hk'
      rw [ih hrest hrest' hrests]

end Listing

namespace Tree

variable {t : Tree} {a b d : Address} {e : Entry}

theorem entryAt?_eq_dir_of_append (h : t.entryAt? (a ++ b) = some e) (hb : b ≠ []) :
    t.entryAt? a = some .dir :=
  Listing.entryAt?_eq_dir_of_append h hb

theorem leaves_of_file {c : Bytes} (h : t.entryAt? a = some (.file c)) : t.leaves a = [] := by
  rw [entryAt?, Listing.entryAt?, Option.map_eq_some_iff] at h
  obtain ⟨node, hnode, hentry⟩ := h
  cases node with
  | file content => rw [leaves, hnode]
  | link target => rw [leaves, hnode]
  | dir entries => simp [Node.entry] at hentry

/-- **The leaves below a directory** are, in order of addresses, the entries below it that are no
directories. -/
theorem exists_leaves_eq (hd : t.entryAt? d = some .dir) : ∃ found : List (Address × Entry),
    t.leaves d = found.map (fun leaf => (d ++ leaf.1, leaf.2)) ∧
      (found.map Prod.fst).Pairwise (· < ·) ∧
      ∀ ns e, (ns, e) ∈ found ↔ t.entryAt? (d ++ ns) = some e ∧ e ≠ .dir := by
  obtain ⟨es, hes⟩ : ∃ es, t.root.get? d = some (.dir es) := by
    rw [entryAt?, Listing.entryAt?, Option.map_eq_some_iff] at hd
    obtain ⟨node, hnode, hentry⟩ := hd
    cases node with
    | file content => simp [Node.entry] at hentry
    | link target => simp [Node.entry] at hentry
    | dir es => exact ⟨es, hnode⟩
  have hwf : es.WellFormed := Listing.wellFormed_of_get? t.wellFormed hes
  refine ⟨es.leaves [], ?_, Listing.pairwise_leaves hwf, fun ns e => ?_⟩
  · rw [leaves, hes]
    exact Listing.leaves_eq_map d es
  · rw [Listing.mem_leaves_iff hwf, entryAt?, Listing.entryAt?, Listing.entryAt?,
      Listing.get?_append hes]

/-- **A tree is determined by what stands at the addresses.** -/
theorem eq_of_entryAt? {t t' : Tree} (h : ∀ a, t.entryAt? a = t'.entryAt? a) : t = t' := by
  obtain ⟨root, hroot⟩ := t
  obtain ⟨root', hroot'⟩ := t'
  obtain rfl : root = root' := Listing.eq_of_entryAt? hroot hroot' h
  rfl

end Tree

end IncludeGuard
