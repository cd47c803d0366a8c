import IncludeGuard.Proofs.NameBelow

/-! # Names of ASCII headers

Where all names below the root are ASCII, the name of a header is written byte by byte: each byte
becomes one character (`nameChar`), whichever name it is in (`nameSegment_decodeLossy`). The parts
of the name are then the directories below the root, the stem and the extension, and a header
without a directory is its own first part (`IsAsciiHeader.guardName_eq`). -/

namespace IncludeGuard

/-- The byte is ASCII. -/
def IsAscii (b : UInt8) : Prop :=
  b.toNat < 0x80

instance (b : UInt8) : Decidable (IsAscii b) :=
  inferInstanceAs (Decidable (b.toNat < 0x80))

theorem IsAscii.of_forall {P : UInt8 → Prop} (h : ∀ n < 0x80, P (UInt8.ofNat n)) {b : UInt8}
    (hb : IsAscii b) : P b := by
  have hP := h b.toNat hb
  rwa [UInt8.ofNat_toNat] at hP

/-! ### Bytes and characters -/

theorem Utf8.decodeLossy_of_isAscii {bs : Bytes} (h : ∀ b ∈ bs, IsAscii b) :
    Utf8.decodeLossy bs = bs.map fun b => Char.ofNat b.toNat := by
  have hpieces : Utf8.pieces bs = bs.map fun b => some (Char.ofNat b.toNat) := by
    induction bs with
    | nil => rfl
    | cons b bs ih =>
      have hb : b.toNat < 0x80 := h b List.mem_cons_self
      have hstep : Utf8.step none b = ([some (Char.ofNat b.toNat)], none) := by
        rw [Utf8.step, Utf8.start, if_pos hb]
      rw [Utf8.pieces, Utf8.piecesFrom_cons, hstep, ← Utf8.pieces,
        ih fun c hc => h c (List.mem_cons_of_mem b hc)]
      rfl
  rw [Utf8.decodeLossy, hpieces, List.map_map]
  rfl

/-- The character that an ASCII byte becomes in a name: a capital for a letter, a low line for a
hyphen, and itself otherwise. -/
def nameChar (b : UInt8) : Char :=
  if 0x61 ≤ b.toNat ∧ b.toNat ≤ 0x7A then Char.ofNat (b.toNat - 0x20)
  else if b.toNat = 0x2D then '_'
  else Char.ofNat b.toNat

theorem nameSegment_singleton {b : UInt8} (h : IsAscii b) :
    nameSegment [Char.ofNat b.toNat] = [nameChar b] :=
  IsAscii.of_forall (P := fun b => nameSegment [Char.ofNat b.toNat] = [nameChar b])
    (by decide +kernel) h

theorem nameSegment_cons (c : Char) (t : Text) :
    nameSegment (c :: t) = nameSegment [c] ++ nameSegment t := by
  simp [nameSegment, Text.upper]

/-- **Parts of a name** are written byte by byte. -/
theorem nameSegment_decodeLossy {bs : Bytes} (h : ∀ b ∈ bs, IsAscii b) :
    nameSegment (Utf8.decodeLossy bs) = bs.map nameChar := by
  rw [Utf8.decodeLossy_of_isAscii h]
  induction bs with
  | nil => rfl
  | cons b bs ih =>
    rw [List.map_cons, nameSegment_cons, nameSegment_singleton (h b List.mem_cons_self),
      ih fun c hc => h c (List.mem_cons_of_mem b hc)]
    rfl

theorem upper_decodeLossy_headerExtensions : ∀ ext ∈ Path.headerExtensions,
    (Utf8.decodeLossy ext).upper = ext.map nameChar := by
  decide +kernel

/-! ### Headers -/

/-- The file is a header, and below the root it has the names `names`, which are ASCII. -/
structure IsAsciiHeader (file root : Path) (names : List Bytes) : Prop where
  isHeader : file.isHeader = true
  components_eq : file.components = root.components ++ names.map .normal
  isAscii : ∀ n ∈ names, ∀ b ∈ n, IsAscii b

/-- What the name of a header is put together from: the directories, or the file itself if there are
none, and then the stem and the extension. -/
def nameParts (dirs : List Bytes) (stem ext : Bytes) : List Bytes :=
  (if dirs = [] then [stem ++ Path.dot :: ext] else dirs) ++ [stem, ext]

theorem forall_mem_nameParts {P : UInt8 → Prop} {dirs : List Bytes} {stem ext : Bytes}
    (h : ∀ n ∈ dirs ++ [stem ++ Path.dot :: ext], ∀ b ∈ n, P b) :
    ∀ n ∈ nameParts dirs stem ext, ∀ b ∈ n, P b := by
  have hfile : ∀ b ∈ stem ++ Path.dot :: ext, P b := h _ (by simp)
  intro n hn
  rcases List.mem_append.mp hn with hn | hn
  · split_ifs at hn
    · obtain rfl := List.mem_singleton.mp hn
      exact hfile
    · exact h n (List.mem_append_left _ hn)
  · rcases List.mem_pair.mp hn with rfl | rfl
    · exact fun b hb => hfile b (List.mem_append_left _ hb)
    · exact fun b hb => hfile b (List.mem_append_right _ (List.mem_cons_of_mem _ hb))

namespace IsAsciiHeader

variable {file root : Path} {names : List Bytes}

theorem exists_eq_append (h : IsAsciiHeader file root names) (hne : names ≠ []) :
    ∃ dirs stem ext, names = dirs ++ [stem ++ Path.dot :: ext] ∧ stem ≠ [] ∧
      ext ∈ Path.headerExtensions := by
  obtain ⟨stem, ext, hlast, hstem, hext⟩ := Path.isHeader_iff.mp h.isHeader
  obtain ⟨dirs, name, rfl⟩ : ∃ dirs name, names = dirs ++ [name] := by
    simpa using (List.eq_nil_or_concat names).resolve_left hne
  rw [h.components_eq, List.map_append, List.map_singleton, ← List.append_assoc,
    List.getLast?_concat] at hlast
  obtain rfl : name = stem ++ Path.dot :: ext := by simpa using hlast
  exact ⟨dirs, stem, ext, rfl, hstem, hext⟩

/-- **The name of an ASCII header.** -/
theorem guardName_eq {dirs : List Bytes} {stem ext : Bytes}
    (h : IsAsciiHeader file root (dirs ++ [stem ++ Path.dot :: ext])) (hstem : stem ≠ [])
    (hext : ext ∈ Path.headerExtensions) : guardName file root =
      .ok (['_'].intercalate ((nameParts dirs stem ext).map (·.map nameChar))) := by
  have hlast : ((dirs ++ [stem ++ Path.dot :: ext]).map Path.Component.normal).getLast? =
      some (.normal (stem ++ Path.dot :: ext)) := by
    simp
  have hascii := forall_mem_nameParts h.isAscii
  rw [guardName_of_getLast? h.components_eq hlast, segmentsBelow,
    Path.splitExtension_append hstem (Path.dot_notMem_headerExtensions ext hext), nameParts]
  rw [nameParts] at hascii
  have hleading : ((dirs ++ [stem ++ Path.dot :: ext]).map Path.Component.normal).take 1 ++
      ((dirs ++ [stem ++ Path.dot :: ext]).map Path.Component.normal).tail.dropLast =
        (if dirs = [] then [stem ++ Path.dot :: ext] else dirs).map Path.Component.normal := by
    cases dirs with
    | nil => rfl
    | cons d ds => simp
  rw [hleading]
  generalize (if dirs = [] then [stem ++ Path.dot :: ext] else dirs) = leading at hascii
  have hparts : leading.map (fun n => nameSegment (Utf8.decodeLossy n)) =
      leading.map (·.map nameChar) :=
    List.map_congr_left fun n hn =>
      nameSegment_decodeLossy (hascii n (List.mem_append_left _ hn))
  have hstemAscii : ∀ b ∈ stem, IsAscii b := hascii stem (by simp)
  simp only [Option.getD_some]
  rw [nameSegment_decodeLossy hstemAscii, upper_decodeLossy_headerExtensions ext hext,
    List.map_map, List.map_append, ← hparts]
  rfl

end IsAsciiHeader

end IncludeGuard
