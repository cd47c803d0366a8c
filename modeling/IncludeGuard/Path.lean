import IncludeGuard.Text.Utf8

/-! # Paths

A path is any sequence of bytes. Slashes divide it into segments, and the segments are read as
components: a leading slash is the root, a leading `.` is the current directory, `..` is the parent
directory, and every other segment is a name. Segments that are empty, and `.` anywhere but at the
start, say nothing and are skipped (`isIdle`), so many paths have the same components. Segments and
the bytes they make up determine each other (`join_segments`, `segments_join`).

The file name of a path is its last component, if that is a name. Its last full stop divides it
into stem and extension, unless it is the first character. The headers are the files with the
extension `h` or `hpp`, in lower case.

One path may have a part below another (`relativeTo?`). Paths are compared by components, but the
part below keeps its own spelling: only the slashes and idle segments at its two ends are cut off.
Below a path without components nothing is cut at the front. -/

namespace IncludeGuard

/-- A path as it is written. -/
structure Path where
  bytes : Bytes
deriving DecidableEq

namespace Path

/-- The byte that divides segments. -/
def slash : UInt8 := 0x2F

/-- The full stop. -/
def dot : UInt8 := 0x2E

/-- The path that a text spells. -/
def ofText (t : Text) : Path :=
  ⟨Utf8.encode t⟩

/-- The path as shown in messages. -/
def display (p : Path) : Text :=
  Utf8.decodeLossy p.bytes

/-! ### Segments -/

/-- The segments between the slashes. -/
def segments : Bytes → List Bytes
  | [] => [[]]
  | b :: bs =>
    if b = slash then [] :: segments bs
    else
      match segments bs with
      | [] => [[b]]
      | s :: ss => (b :: s) :: ss

/-- Segments written one after the other with slashes between them. -/
def join (ss : List Bytes) : Bytes :=
  [slash].intercalate ss

/-- The segment is empty or `.`, and so names nothing. -/
def isIdle (s : Bytes) : Bool :=
  s == [] || s == [dot]

/-- The path starts at the root. -/
def isAbsolute (p : Path) : Bool :=
  p.bytes.head? == some slash

/-! ### Segments make up the path -/

theorem segments_ne_nil (bs : Bytes) : segments bs ≠ [] := by
  unfold segments
  split
  · simp
  · split
    · simp
    · split <;> simp

@[simp] theorem segments_slash_cons (bs : Bytes) : segments (slash :: bs) = [] :: segments bs := by
  simp [segments]

theorem segments_cons {b : UInt8} (hb : b ≠ slash) {bs s : Bytes} {ss : List Bytes}
    (h : segments bs = s :: ss) : segments (b :: bs) = (b :: s) :: ss := by
  simp [segments, hb, h]

theorem join_cons_cons (s t : Bytes) (ss : List Bytes) :
    join (s :: t :: ss) = s ++ slash :: join (t :: ss) := by
  simp [join, List.intercalate, List.intersperse]

@[simp] theorem join_singleton (s : Bytes) : join [s] = s := by
  simp [join, List.intercalate, List.intersperse]

theorem join_cons_left (b : UInt8) (s : Bytes) (ss : List Bytes) :
    join ((b :: s) :: ss) = b :: join (s :: ss) := by
  cases ss with
  | nil => simp
  | cons t ts => simp [join_cons_cons]

/-- The segments of a path make it up. -/
theorem join_segments (bs : Bytes) : join (segments bs) = bs := by
  induction bs with
  | nil => rfl
  | cons b bs ih =>
    obtain ⟨s, ss, h⟩ := List.exists_cons_of_ne_nil (segments_ne_nil bs)
    by_cases hb : b = slash
    · subst hb
      rw [segments_slash_cons, h, join_cons_cons, ← h, ih]
      rfl
    · rw [segments_cons hb h, join_cons_left, ← h, ih]

theorem slash_notMem_of_mem_segments {bs s : Bytes} (h : s ∈ segments bs) : slash ∉ s := by
  induction bs generalizing s with
  | nil => simp [segments] at h; simp [h]
  | cons b bs ih =>
    obtain ⟨t, ts, ht⟩ := List.exists_cons_of_ne_nil (segments_ne_nil bs)
    by_cases hb : b = slash
    · subst hb
      rw [segments_slash_cons] at h
      rcases List.mem_cons.mp h with rfl | h
      · simp
      · exact ih h
    · rw [segments_cons hb ht] at h
      rcases List.mem_cons.mp h with rfl | h
      · have := ih (s := t) (by simp [ht])
        simp [Ne.symm hb, this]
      · exact ih (by simp [ht, h])

/-- Bytes without a slash belong to the first segment of what follows them. -/
theorem segments_append_left {s bs u : Bytes} {us : List Bytes} (hs : slash ∉ s)
    (h : segments bs = u :: us) : segments (s ++ bs) = (s ++ u) :: us := by
  induction s with
  | nil => exact h
  | cons b s ih =>
    obtain ⟨hb, hs⟩ : slash ≠ b ∧ slash ∉ s := by simpa using hs
    exact segments_cons (Ne.symm hb) (ih hs)

theorem segments_append {s : Bytes} (hs : slash ∉ s) (bs : Bytes) :
    segments (s ++ slash :: bs) = s :: segments bs := by
  rw [segments_append_left hs (segments_slash_cons bs), List.append_nil]

theorem segments_of_notMem {s : Bytes} (hs : slash ∉ s) : segments s = [s] := by
  have h : segments (s ++ []) = (s ++ []) :: [] := segments_append_left hs rfl
  rwa [List.append_nil] at h

/-- Pieces without slashes are the segments of what they make up. -/
theorem segments_join {ss : List Bytes} (hne : ss ≠ []) (h : ∀ s ∈ ss, slash ∉ s) :
    segments (join ss) = ss := by
  induction ss with
  | nil => exact absurd rfl hne
  | cons s ss ih =>
    cases ss with
    | nil => rw [join_singleton, segments_of_notMem (h s (by simp))]
    | cons t ts =>
      rw [join_cons_cons, segments_append (h s (by simp)),
        ih (by simp) fun u hu => h u (by simp [hu])]

/-! ### Components -/

/-- A step of a path. -/
inductive Component
  | root
  | current
  | parent
  | normal (name : Bytes)
deriving DecidableEq

/-- The step a segment stands for. -/
def Component.ofSegment? (s : Bytes) : Option Component :=
  if isIdle s then none
  else if s = [dot, dot] then some .parent
  else some (.normal s)

/-- The component as text. -/
def Component.text : Component → Text
  | root => ['/']
  | current => ['.']
  | parent => ['.', '.']
  | normal name => Utf8.decodeLossy name

/-- The component before the first segment that counts. -/
def start? (p : Path) : Option Component :=
  if p.isAbsolute then some .root
  else if (segments p.bytes).head? = some [dot] then some .current
  else none

/-- The components of a path. -/
def components (p : Path) : List Component :=
  p.start?.toList ++ (segments p.bytes).filterMap Component.ofSegment?

/-! ### File names -/

/-- The file name. -/
def fileName? (p : Path) : Option Bytes :=
  match p.components.getLast? with
  | some (.normal name) => some name
  | _ => none

/-- The stem of a file name and its extension. A name whose only full stop comes first has no
extension, and one that ends in a full stop has an empty one. -/
def splitExtension (name : Bytes) : Bytes × Option Bytes :=
  match name.reverse.dropWhile (· != dot) with
  | _ :: b :: before =>
    ((b :: before).reverse, some (name.reverse.takeWhile (· != dot)).reverse)
  | _ => (name, none)

/-- The extension of a path. -/
def extension? (p : Path) : Option Bytes :=
  p.fileName?.bind fun name => (splitExtension name).2

/-- The extensions of headers. -/
def headerExtensions : List Bytes :=
  [Utf8.encode "hpp".toList, Utf8.encode "h".toList]

/-- The path names a header. -/
def isHeader (p : Path) : Bool :=
  p.extension?.any headerExtensions.contains

/-! ### The part below another path -/

/-- The segments up to the last that is not idle. -/
def dropIdleEnd (ss : List Bytes) : List Bytes :=
  (ss.reverse.dropWhile isIdle).reverse

/-- The segments after the first `n` that are not idle. -/
def dropNames : Nat → List Bytes → List Bytes
  | 0, ss => ss
  | _ + 1, [] => []
  | n + 1, s :: ss => if isIdle s then dropNames (n + 1) ss else dropNames n ss

/-- The path without the slashes and idle segments at its end. -/
def trimEnd (p : Path) : Path :=
  match p.start? with
  | some .root => ⟨slash :: join (dropIdleEnd (segments p.bytes).tail)⟩
  | some _ => ⟨join ([dot] :: dropIdleEnd (segments p.bytes).tail)⟩
  | none => ⟨join (dropIdleEnd (segments p.bytes))⟩

/-- The path after its first `n` names. -/
def below (p : Path) (n : Nat) : Path :=
  ⟨join (dropIdleEnd ((dropNames n (segments p.bytes)).dropWhile isIdle))⟩

/-- The part of `p` below `base`, if the components of `p` begin with those of `base`. -/
def relativeTo? (p base : Path) : Option Path :=
  if base.components.isPrefixOf p.components then
    if base.components = [] then some p.trimEnd
    else some (p.below ((segments base.bytes).countP (!isIdle ·)))
  else none

end Path

end IncludeGuard
