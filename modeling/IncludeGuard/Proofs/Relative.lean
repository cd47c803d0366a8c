import IncludeGuard.Path
import Mathlib.Tactic.SplitIfs

/-! # The part of a path below another

A path is below another one if its components begin with those of the other. The part below is cut
out of the spelling, segment by segment, and not out of the components.

* `exists_relativeTo?_iff`: there is a part below exactly if the components are such a beginning.
* `components_relativeTo?`: the components of the other path and those of the part below make up the
  components of the path.

Both ways of cutting leave the segments that count: `dropIdleEnd` drops idle segments only, and
`dropNames` drops as many names as the other path has. -/

namespace IncludeGuard.Path

/-! ### Segments that count -/

theorem ofSegment?_of_isIdle {s : Bytes} (h : isIdle s = true) : Component.ofSegment? s = none := by
  simp [Component.ofSegment?, h]

theorem isSome_ofSegment? {s : Bytes} (h : isIdle s = false) :
    (Component.ofSegment? s).isSome = true := by
  unfold Component.ofSegment?
  split_ifs <;> simp_all

theorem ofSegment?_ne_root (s : Bytes) : Component.ofSegment? s ≠ some .root := by
  unfold Component.ofSegment?
  split_ifs <;> simp

theorem ofSegment?_ne_current (s : Bytes) : Component.ofSegment? s ≠ some .current := by
  unfold Component.ofSegment?
  split_ifs <;> simp

theorem filterMap_dropWhile_isIdle (ss : List Bytes) :
    (ss.dropWhile isIdle).filterMap Component.ofSegment? = ss.filterMap Component.ofSegment? := by
  induction ss with
  | nil => rfl
  | cons s ss ih =>
    by_cases hs : isIdle s = true
    · rw [List.dropWhile_cons_of_pos hs, ih, List.filterMap_cons_none (ofSegment?_of_isIdle hs)]
    · rw [List.dropWhile_cons_of_neg hs]

theorem filterMap_dropIdleEnd (ss : List Bytes) :
    (dropIdleEnd ss).filterMap Component.ofSegment? = ss.filterMap Component.ofSegment? := by
  rw [dropIdleEnd, List.filterMap_reverse, filterMap_dropWhile_isIdle, List.filterMap_reverse,
    List.reverse_reverse]

theorem filterMap_dropNames (n : Nat) (ss : List Bytes) :
    (dropNames n ss).filterMap Component.ofSegment? =
      (ss.filterMap Component.ofSegment?).drop n := by
  fun_induction dropNames n ss with
  | case1 ss => rfl
  | case2 n => rfl
  | case3 n s ss hs ih => rw [ih, List.filterMap_cons_none (ofSegment?_of_isIdle hs)]
  | case4 n s ss hs ih =>
    obtain ⟨c, hc⟩ := Option.isSome_iff_exists.mp (isSome_ofSegment? (Bool.eq_false_iff.mpr hs))
    rw [ih, List.filterMap_cons_some hc, List.drop_succ_cons]

theorem length_filterMap_ofSegment? (ss : List Bytes) :
    (ss.filterMap Component.ofSegment?).length = ss.countP (!isIdle ·) := by
  induction ss with
  | nil => rfl
  | cons s ss ih =>
    by_cases hs : isIdle s = true
    · rw [List.filterMap_cons_none (ofSegment?_of_isIdle hs), ih,
        List.countP_cons_of_neg (by simp [hs])]
    · obtain ⟨c, hc⟩ := Option.isSome_iff_exists.mp (isSome_ofSegment? (Bool.eq_false_iff.mpr hs))
      rw [List.filterMap_cons_some hc, List.length_cons, ih,
        List.countP_cons_of_pos (by simp [hs])]

theorem filterMap_segments_join {ss : List Bytes} (h : ∀ s ∈ ss, slash ∉ s) :
    (segments (join ss)).filterMap Component.ofSegment? = ss.filterMap Component.ofSegment? := by
  by_cases hne : ss = []
  · subst hne
    rfl
  · rw [segments_join hne h]

theorem mem_of_mem_dropIdleEnd {ss : List Bytes} {s : Bytes} (h : s ∈ dropIdleEnd ss) : s ∈ ss := by
  rw [dropIdleEnd, List.mem_reverse] at h
  exact List.mem_reverse.mp ((List.dropWhile_sublist _).mem h)

theorem mem_of_mem_dropNames {n : Nat} {ss : List Bytes} {s : Bytes} (h : s ∈ dropNames n ss) :
    s ∈ ss := by
  fun_induction dropNames n ss with
  | case1 ss => exact h
  | case2 n => exact h
  | case3 n s' ss _ ih => exact List.mem_cons_of_mem s' (ih h)
  | case4 n s' ss _ ih => exact List.mem_cons_of_mem s' (ih h)

theorem exists_dropIdleEnd_cons {s : Bytes} (hs : isIdle s = false) (ss : List Bytes) :
    ∃ rest, dropIdleEnd (s :: ss) = s :: rest := by
  have hlast : [s].dropWhile isIdle = [s] := List.dropWhile_cons_of_neg (by simp [hs])
  rw [dropIdleEnd, List.reverse_cons, List.dropWhile_append, hlast]
  split_ifs
  · exact ⟨[], rfl⟩
  · exact ⟨(ss.reverse.dropWhile isIdle).reverse, by rw [List.reverse_append]; rfl⟩

/-! ### The start of a path -/

theorem start?_eq (p : Path) :
    p.start? = p.components.head?.filter fun c => c = .root ∨ c = .current := by
  have hstart : ∀ c, p.start? = some c → c = .root ∨ c = .current := by
    intro c hc
    unfold start? at hc
    split_ifs at hc <;> cases hc <;> simp
  rw [components]
  rcases hp : p.start? with _ | c
  · rw [Option.toList_none, List.nil_append]
    symm
    rw [Option.filter_eq_none_iff]
    intro c hc
    have hmem := List.mem_of_mem_head? hc
    obtain ⟨s, -, hs⟩ := List.mem_filterMap.mp hmem
    rw [decide_eq_true_eq]
    rintro (rfl | rfl)
    · exact ofSegment?_ne_root s hs
    · exact ofSegment?_ne_current s hs
  · have hc : decide (c = .root ∨ c = .current) = true := decide_eq_true (hstart c hp)
    simp only [Option.toList_some, List.singleton_append, List.head?_cons, Option.filter_some, hc,
      if_true]

theorem exists_bytes_eq_of_isAbsolute {p : Path} (h : p.isAbsolute = true) :
    ∃ bs, p.bytes = slash :: bs := by
  rw [isAbsolute, beq_iff_eq, List.head?_eq_some_iff] at h
  exact h

theorem bytes_eq_nil_of_segments {p : Path} {ss : List Bytes} (h : segments p.bytes = [] :: ss)
    (habs : p.isAbsolute = false) : p.bytes = [] := by
  rcases hp : p.bytes with _ | ⟨b, bs⟩
  · rfl
  · exfalso
    have hb : b ≠ slash := by
      rintro rfl
      simp [isAbsolute, hp] at habs
    obtain ⟨u, us, hu⟩ := List.exists_cons_of_ne_nil (segments_ne_nil bs)
    rw [hp, segments_cons hb hu] at h
    simp at h

theorem isAbsolute_eq_false {p : Path} {s : Bytes} {ss : List Bytes}
    (h : segments p.bytes = s :: ss) (hs : s ≠ []) : p.isAbsolute = false := by
  rw [Bool.eq_false_iff]
  intro habs
  obtain ⟨bs, hbs⟩ := exists_bytes_eq_of_isAbsolute habs
  rw [hbs, segments_slash_cons, List.cons.injEq] at h
  exact hs h.1.symm

theorem start?_eq_current {p : Path} {ss : List Bytes} (h : segments p.bytes = [dot] :: ss) :
    p.start? = some .current := by
  simp [start?, isAbsolute_eq_false h (by simp), h]

theorem start?_eq_none {p : Path} {s : Bytes} {ss : List Bytes} (h : segments p.bytes = s :: ss)
    (hs : isIdle s = false) : p.start? = none := by
  obtain ⟨hnil, hdot⟩ : s ≠ [] ∧ s ≠ [dot] := by simpa [isIdle] using hs
  simp [start?, isAbsolute_eq_false h hnil, h, hdot]

/-! ### The part below -/

/-- Segments that are cut at both ends and written out have the components that they had. -/
theorem components_join_dropIdleEnd {ss : List Bytes} (h : ∀ s ∈ ss, slash ∉ s) :
    components ⟨join (dropIdleEnd (ss.dropWhile isIdle))⟩ =
      ss.filterMap Component.ofSegment? := by
  have hcut : ∀ s ∈ dropIdleEnd (ss.dropWhile isIdle), slash ∉ s := fun s hs =>
    h s ((List.dropWhile_sublist _).mem (mem_of_mem_dropIdleEnd hs))
  have hcount : (dropIdleEnd (ss.dropWhile isIdle)).filterMap Component.ofSegment? =
      ss.filterMap Component.ofSegment? := by
    rw [filterMap_dropIdleEnd, filterMap_dropWhile_isIdle]
  rw [components, filterMap_segments_join hcut, hcount]
  rcases hrest : ss.dropWhile isIdle with _ | ⟨s, rest⟩
  · rfl
  · have hs : isIdle s = false := by
      have hhead := List.head?_dropWhile_not isIdle ss
      rw [hrest] at hhead
      simpa using hhead
    obtain ⟨rest', hrest'⟩ := exists_dropIdleEnd_cons hs rest
    rw [hrest] at hcut
    rw [hrest'] at hcut ⊢
    have hstart : (Path.mk (join (s :: rest'))).start? = none :=
      start?_eq_none (segments_join (by simp) hcut) hs
    rw [hstart]
    rfl

theorem components_below (p : Path) (n : Nat) :
    (p.below n).components = ((segments p.bytes).filterMap Component.ofSegment?).drop n := by
  rw [below, components_join_dropIdleEnd, filterMap_dropNames]
  exact fun s hs => slash_notMem_of_mem_segments (mem_of_mem_dropNames hs)

theorem components_trimEnd (p : Path) : p.trimEnd.components = p.components := by
  have hslash : ∀ s ∈ segments p.bytes, slash ∉ s := fun s hs => slash_notMem_of_mem_segments hs
  obtain ⟨s, ss, hseg⟩ := List.exists_cons_of_ne_nil (segments_ne_nil p.bytes)
  have hcut : ∀ u ∈ dropIdleEnd ss, slash ∉ u := fun u hu =>
    hslash u (by rw [hseg]; exact List.mem_cons_of_mem s (mem_of_mem_dropIdleEnd hu))
  by_cases habs : p.isAbsolute = true
  · -- an absolute path starts with an empty segment
    have hstart : p.start? = some .root := by simp [start?, habs]
    obtain ⟨bs, hbs⟩ := exists_bytes_eq_of_isAbsolute habs
    obtain ⟨rfl, rfl⟩ : [] = s ∧ segments bs = ss := by
      rw [hbs, segments_slash_cons, List.cons.injEq] at hseg
      exact hseg
    have hstart' : (Path.mk (slash :: join (dropIdleEnd (segments bs)))).start? = some .root := by
      simp [start?, isAbsolute]
    simp only [trimEnd, hstart, hseg, List.tail_cons]
    rw [components, components, hstart', hstart, hseg]
    simp only [segments_slash_cons]
    rw [List.filterMap_cons_none (by rfl), List.filterMap_cons_none (by rfl),
      filterMap_segments_join hcut, filterMap_dropIdleEnd]
  · by_cases hdot : s = [dot]
    · subst hdot
      have hstart : p.start? = some .current := start?_eq_current hseg
      have hcut' : ∀ u ∈ [dot] :: dropIdleEnd ss, slash ∉ u := by
        intro u hu
        rcases List.mem_cons.mp hu with rfl | hu
        · decide
        · exact hcut u hu
      have hstart' : (Path.mk (join ([dot] :: dropIdleEnd ss))).start? = some .current :=
        start?_eq_current (segments_join (List.cons_ne_nil _ _) hcut')
      simp only [trimEnd, hstart, hseg, List.tail_cons]
      rw [components, components, hstart', hstart, hseg, filterMap_segments_join hcut',
        List.filterMap_cons_none (by rfl), List.filterMap_cons_none (by rfl),
        filterMap_dropIdleEnd]
    · have hstart : p.start? = none := by simp [start?, habs, hseg, hdot]
      have htrim : p.trimEnd = ⟨join (dropIdleEnd ((segments p.bytes).dropWhile isIdle))⟩ := by
        simp only [trimEnd, hstart]
        by_cases hs : isIdle s = true
        · -- the empty path is the only one left that starts with an idle segment
          obtain rfl : s = [] := by simpa [isIdle, hdot] using hs
          rw [bytes_eq_nil_of_segments hseg (Bool.eq_false_iff.mpr habs)]
          rfl
        · rw [hseg, List.dropWhile_cons_of_neg hs]
      rw [htrim, components_join_dropIdleEnd hslash, components, hstart]
      rfl

theorem exists_relativeTo?_iff {p base : Path} :
    (∃ below, p.relativeTo? base = some below) ↔ base.components <+: p.components := by
  rw [← List.isPrefixOf_iff_prefix]
  unfold relativeTo?
  split_ifs <;> simp_all

/-- **The part below** has the components that come after those of the other path. -/
theorem components_relativeTo? {p base below : Path} (h : p.relativeTo? base = some below) :
    p.components = base.components ++ below.components := by
  have hprefix := exists_relativeTo?_iff.mp ⟨below, h⟩
  rw [relativeTo?, if_pos (List.isPrefixOf_iff_prefix.mpr hprefix)] at h
  split_ifs at h with hnil
  · cases h
    rw [hnil, components_trimEnd, List.nil_append]
  · cases h
    -- both paths have the same start, so that the names of one begin with those of the other
    have hstart : base.start? = p.start? := by
      rw [start?_eq, start?_eq]
      obtain ⟨rest, hrest⟩ := hprefix
      obtain ⟨c, cs, hbase⟩ := List.exists_cons_of_ne_nil hnil
      rw [← hrest, hbase]
      rfl
    have hnames : (segments base.bytes).filterMap Component.ofSegment? <+:
        (segments p.bytes).filterMap Component.ofSegment? := by
      rw [components, components, hstart] at hprefix
      exact (List.prefix_append_right_inj _).mp hprefix
    obtain ⟨rest, hrest⟩ := hnames
    rw [components_below, ← length_filterMap_ofSegment?, ← hrest, List.drop_left, components,
      components, hstart, ← hrest, List.append_assoc]

end IncludeGuard.Path
