import IncludeGuard.Options.Parser
import Mathlib.Data.List.Basic

/-! # Writing a command line

A command line is written as a row of things given (`Given`): paths, and options in one of their
spellings. It asks for the options it is read as (`Asks`): for their paths, in order, and once for
every option that is set.

What has been read so far stands for the options it would settle to, `Reading.settle`. Seen in this
way every thing given does one simple step, whatever was left open before it (`exists_words_give`),
and so does a path after the separator (`exists_path_eq`). A whole row therefore leads from the
options before it to those it completes them to (`exists_words_eq`).

So a command line is read back as the options it asks for (`parse_arguments`): with the paths after
the separator these can be any, and without it they can stand between the options as long as no
hyphen leads them. -/

namespace IncludeGuard

/-- How the value of an option is given: joined to it by an equals sign, or as the next argument. -/
inductive Spelling
  | joined
  | apart
deriving DecidableEq

/-- Something given on a command line. -/
inductive Given
  | path (p : Path)
  | check
  | json
  | root (r : Path) (spelling : Spelling)
deriving DecidableEq

/-- The argument after which all others are paths. -/
def separator : Bytes :=
  [hyphen, hyphen]

/-- A hyphen leads the path. -/
def Path.Hyphened (p : Path) : Prop :=
  p.bytes.head? = some hyphen

instance (p : Path) : Decidable p.Hyphened :=
  inferInstanceAs (Decidable (_ = _))

namespace Given

/-- The arguments as which it is written. -/
def arguments : Given → List Bytes
  | path p => [p.bytes]
  | check => [Utf8.encode "--check".toList]
  | json => [Utf8.encode "--json".toList]
  | root r .joined => [Utf8.encode "--root=".toList ++ r.bytes]
  | root r .apart => [Utf8.encode "--root".toList, r.bytes]

/-- The path that is given. -/
def path? : Given → Option Path
  | path p => some p
  | _ => none

/-- The root that is given. -/
def root? : Given → Option Path
  | root r _ => some r
  | _ => none

/-- What is given has no empty value, and an argument that is a value by itself has no hyphen in
front. -/
def Legible : Given → Prop
  | path p => p.bytes ≠ [] ∧ ¬p.Hyphened
  | root r spelling => r.bytes ≠ [] ∧ (spelling = .apart → ¬r.Hyphened)
  | _ => True

end Given

/-- The things given ask for the options: for the paths in their order, and once for each option. -/
structure Asks (gs : List Given) (o : Options) : Prop where
  paths : gs.filterMap Given.path? = o.paths
  check : gs.count .check = o.check.toNat
  json : gs.count .json = o.json.toNat
  root : gs.filterMap Given.root? = o.root.toList

/-- The options can be given: there is a path, and no value is empty. -/
structure Options.Givable (o : Options) : Prop where
  paths_ne_nil : o.paths ≠ []
  path_ne_nil : ∀ p ∈ o.paths, p.bytes ≠ []
  root_ne_nil : ∀ r ∈ o.root, r.bytes ≠ []

/-! ### Arguments by their hyphens -/

theorem Word.ofBytes_of_not_hyphened {p : Path} (h : ¬p.Hyphened) :
    Word.ofBytes p.bytes = .plain p.bytes := by
  unfold Path.Hyphened at h
  unfold Word.ofBytes
  split
  · next b c rest hb =>
    rw [hb] at h
    rw [if_pos (by simpa using h), hb]
  · rfl

theorem Word.ofBytes_check :
    Word.ofBytes (Utf8.encode "--check".toList) = .long (Utf8.encode "check".toList) none := rfl

theorem Word.ofBytes_json :
    Word.ofBytes (Utf8.encode "--json".toList) = .long (Utf8.encode "json".toList) none := rfl

theorem Word.ofBytes_root :
    Word.ofBytes (Utf8.encode "--root".toList) = .long (Utf8.encode "root".toList) none := rfl

theorem Word.ofBytes_joined (value : Bytes) :
    Word.ofBytes (Utf8.encode "--root=".toList ++ value) =
      .long (Utf8.encode "root".toList) (some value) := rfl

namespace Reading

variable {r r' : Reading} {o o' : Options}

theorem words_cons {a : Bytes} {w : Word} (ha : Word.ofBytes a = w) (hw : w ≠ .separator)
    (h : r.word w = .ok r') (rest : List Bytes) : r.words (a :: rest) = r'.words rest := by
  rw [words, ha]
  cases w with
  | separator => exact absurd rfl hw
  | long name value => simp only [h]
  | short letters => simp only [h]
  | plain value => simp only [h]

theorem settle_initial : initial.settle = .ok .initial := rfl

theorem words_separator (rest : List Bytes) : r.words (separator :: rest) = r.trailing rest := rfl

/-! ### One step -/

/-- **A path** is added to the options, whether or not a row of paths was open. -/
theorem exists_path_eq (h : r.settle = .ok o) {p : Path} (hp : p.bytes ≠ []) :
    ∃ r', r.path p.bytes = .ok r' ∧ r'.settle = .ok { o with paths := o.paths ++ [p] } := by
  have hone : [] ∉ [p.bytes] := by simpa using hp.symm
  obtain ⟨o₀, pending⟩ := r
  -- the row of paths begins with this one unless it is open
  have hfirst (hpending : ∀ vs, pending ≠ .paths vs) :
      (Reading.mk o₀ pending).path p.bytes = .ok ⟨o, .paths [p.bytes]⟩ := by
    unfold path
    split
    · next vs hvs => exact absurd hvs (hpending vs)
    · rw [h]
  have hsettle : (Reading.mk o (.paths [p.bytes])).settle =
      .ok { o with paths := o.paths ++ [p] } := by
    simp only [settle, Options.withPaths, if_neg hone]
    rfl
  cases pending with
  | nothing => exact ⟨_, hfirst (by simp), hsettle⟩
  | root value => exact ⟨_, hfirst (by simp), hsettle⟩
  | paths vs =>
    refine ⟨_, rfl, ?_⟩
    simp only [settle, Options.withPaths] at h ⊢
    split_ifs at h with hvs
    cases h
    have happend : [] ∉ vs ++ [p.bytes] := by
      rw [List.mem_append]
      exact not_or.mpr ⟨hvs, hone⟩
    rw [if_neg happend]
    simp

theorem andThen_eq (h : r.settle = .ok o) {f : Options → Except UsageError Options}
    (hf : f o = .ok o') : r.andThen f = .ok ⟨o', .nothing⟩ := by
  unfold andThen
  simp only [h, hf]

theorem word_root (h : r.settle = .ok o) :
    r.word (.long (Utf8.encode "root".toList) none) = .ok ⟨o, .root none⟩ := by
  have hoption : r.word (.long (Utf8.encode "root".toList) none) = r.option .root := rfl
  rw [hoption, option]
  simp only [h]

theorem word_plain_of_waits (o : Options) (value : Bytes) :
    (Reading.mk o (.root none)).word (.plain value) = .ok ⟨o, .root (some value)⟩ := rfl

theorem word_plain (h : r.settle = .ok o) (value : Bytes) :
    r.word (.plain value) = r.path value := by
  obtain ⟨o₀, pending⟩ := r
  cases pending with
  | nothing => rfl
  | root v =>
    cases v with
    | none => cases h
    | some v => rfl
  | paths vs => rfl

end Reading

/-! ### What is given one by one -/

/-- The options with one more thing given. -/
@[simp] def Options.give (o : Options) : Given → Options
  | .path p => { o with paths := o.paths ++ [p] }
  | .check => { o with check := true }
  | .json => { o with json := true }
  | .root r _ => { o with root := some r }

/-- The options do not have yet what is given. -/
def Options.Lacks (o : Options) : Given → Prop
  | .path _ => True
  | .check => o.check = false
  | .json => o.json = false
  | .root _ _ => o.root = none

/-- **What is given is read** as what it gives, whatever was left open before. -/
theorem Reading.exists_words_give {r : Reading} {o : Options} (h : r.settle = .ok o) {g : Given}
    (hg : g.Legible) (hlacks : o.Lacks g) :
    ∃ r' : Reading, r'.settle = .ok (o.give g) ∧
      ∀ rest, r.words (g.arguments ++ rest) = r'.words rest := by
  cases g with
  | path p =>
    obtain ⟨r', hr', hsettle⟩ := exists_path_eq h hg.1
    refine ⟨r', hsettle, words_cons (Word.ofBytes_of_not_hyphened hg.2) (by simp) ?_⟩
    rw [word_plain h, hr']
  | check =>
    have hcheck : o.withCheck = .ok (o.give .check) := by
      have hlacks' : o.check = false := hlacks
      simp [Options.withCheck, Options.give, hlacks']
    exact ⟨⟨_, .nothing⟩, rfl, words_cons Word.ofBytes_check (by simp) (andThen_eq h hcheck)⟩
  | json =>
    have hjson : o.withJson = .ok (o.give .json) := by
      have hlacks' : o.json = false := hlacks
      simp [Options.withJson, Options.give, hlacks']
    exact ⟨⟨_, .nothing⟩, rfl, words_cons Word.ofBytes_json (by simp) (andThen_eq h hjson)⟩
  | root value spelling =>
    have hroot : o.withRoot value.bytes = .ok (o.give (.root value spelling)) := by
      have hlacks' : o.root = none := hlacks
      simp [Options.withRoot, Options.give, hlacks', hg.1]
    cases spelling with
    | joined =>
      exact ⟨⟨_, .nothing⟩, rfl,
        words_cons (Word.ofBytes_joined value.bytes) (by simp) (andThen_eq h hroot)⟩
    | apart =>
      -- the option is left open, and its value is looked at when it is settled
      refine ⟨⟨o, .root (some value.bytes)⟩, hroot, fun rest => ?_⟩
      have hvalue := Word.ofBytes_of_not_hyphened (hg.2 rfl)
      rw [Given.arguments, List.cons_append,
        words_cons Word.ofBytes_root (by simp) (word_root h), List.singleton_append,
        words_cons hvalue (by simp) (word_plain_of_waits o value.bytes)]

/-! ### Rows -/

/-- The things given complete the options `o` to `o'`. -/
structure Completes (o : Options) (gs : List Given) (o' : Options) : Prop where
  paths : o'.paths = o.paths ++ gs.filterMap Given.path?
  check : o'.check.toNat = o.check.toNat + gs.count .check
  json : o'.json.toNat = o.json.toNat + gs.count .json
  root : o'.root.toList = o.root.toList ++ gs.filterMap Given.root?

theorem toNat_injective {b b' : Bool} (h : b.toNat = b'.toNat) : b = b' := by
  cases b <;> cases b' <;> simp_all

theorem Asks.completes {gs : List Given} {o : Options} (h : Asks gs o) :
    Completes .initial gs o :=
  ⟨by simp [Options.initial, h.paths], by simp [Options.initial, h.check],
    by simp [Options.initial, h.json], by simp [Options.initial, h.root]⟩

theorem Completes.eq {o o' : Options} (h : Completes o [] o') : o' = o := by
  obtain ⟨paths, check, root, json⟩ := o
  obtain ⟨paths', check', root', json'⟩ := o'
  obtain ⟨hpaths, hcheck, hjson, hroot⟩ := h
  obtain rfl : paths' = paths := by simpa using hpaths
  obtain rfl : check' = check := toNat_injective (by simpa using hcheck)
  obtain rfl : json' = json := toNat_injective (by simpa using hjson)
  obtain rfl : root' = root := by
    rcases root' with _ | r' <;> rcases root with _ | r <;> simp_all
  rfl

theorem eq_false_of_toNat_eq {b b' : Bool} {n : Nat} (h : b'.toNat = b.toNat + (n + 1)) :
    b = false ∧ b'.toNat = true.toNat + n := by
  have hle := b'.toNat_le
  cases b with
  | false => exact ⟨rfl, by simpa [Nat.add_comm] using h⟩
  | true =>
    rw [Bool.toNat_true] at h
    omega

theorem Completes.cons {o o' : Options} {g : Given} {gs : List Given}
    (h : Completes o (g :: gs) o') : o.Lacks g ∧ Completes (o.give g) gs o' := by
  obtain ⟨hpaths, hcheck, hjson, hroot⟩ := h
  cases g with
  | path p =>
    refine ⟨trivial, ?_, by simpa using hcheck, by simpa using hjson, hroot⟩
    rw [hpaths, Options.give, List.append_assoc]
    rfl
  | check =>
    rw [List.count_cons_self] at hcheck
    obtain ⟨hlacks, hrest⟩ := eq_false_of_toNat_eq hcheck
    exact ⟨hlacks, hpaths, hrest, by simpa using hjson, hroot⟩
  | json =>
    rw [List.count_cons_self] at hjson
    obtain ⟨hlacks, hrest⟩ := eq_false_of_toNat_eq hjson
    exact ⟨hlacks, hpaths, by simpa using hcheck, hrest, hroot⟩
  | root r spelling =>
    have hcons : (Given.root r spelling :: gs).filterMap Given.root? =
        r :: gs.filterMap Given.root? := rfl
    rw [hcons] at hroot
    have hlacks : o.root = none := by
      rcases ho : o.root with _ | r'
      · rfl
      · rcases ho' : o'.root with _ | r'' <;> simp [ho, ho'] at hroot
    refine ⟨hlacks, hpaths, by simpa using hcheck, by simpa using hjson, ?_⟩
    rw [hroot, hlacks]
    rfl

/-- **A row of things given** leads from the options before it to those it completes them to. -/
theorem Reading.exists_words_eq {r : Reading} {o o' : Options} (h : r.settle = .ok o)
    {gs : List Given} (hgs : ∀ g ∈ gs, g.Legible) (hcompletes : Completes o gs o') :
    ∃ r' : Reading, r'.settle = .ok o' ∧
      ∀ rest, r.words (gs.flatMap Given.arguments ++ rest) = r'.words rest := by
  induction gs generalizing r o with
  | nil => exact ⟨r, by rw [h, hcompletes.eq], fun _ => rfl⟩
  | cons g gs ih =>
    obtain ⟨hlacks, hlater⟩ := hcompletes.cons
    obtain ⟨r₁, hr₁, hfirst⟩ := exists_words_give h (hgs g (by simp)) hlacks
    obtain ⟨r', hr', hrest⟩ := ih hr₁ (fun g' hg' => hgs g' (by simp [hg'])) hlater
    refine ⟨r', hr', fun rest => ?_⟩
    rw [List.flatMap_cons, List.append_assoc, hfirst, hrest]

/-- **Paths after the separator** are added to the options, whatever they look like. -/
theorem Reading.exists_trailing_eq {r : Reading} {o : Options} (h : r.settle = .ok o)
    {ps : List Path} (hps : ∀ p ∈ ps, p.bytes ≠ []) :
    ∃ r', r.trailing (ps.map Path.bytes) = .ok r' ∧
      r'.settle = .ok { o with paths := o.paths ++ ps } := by
  induction ps generalizing r o with
  | nil => exact ⟨r, rfl, by simp [h]⟩
  | cons p ps ih =>
    obtain ⟨r₁, hpath, hr₁⟩ := exists_path_eq h (hps p (by simp))
    obtain ⟨r', htrailing, hr'⟩ := ih hr₁ fun q hq => hps q (by simp [hq])
    refine ⟨r', ?_, by simpa using hr'⟩
    rw [List.map_cons, trailing, hpath]
    exact htrailing

/-! ### Command lines -/

theorem Asks.legible {gs : List Given} {o : Options} (h : Asks gs o)
    (hpaths : ∀ p ∈ o.paths, p.bytes ≠ [] ∧ ¬p.Hyphened) (hroot : ∀ r ∈ o.root, r.bytes ≠ [])
    (hapart : ∀ r, .root r .apart ∈ gs → ¬r.Hyphened) : ∀ g ∈ gs, g.Legible := by
  intro g hg
  cases g with
  | path p =>
    have hp : p ∈ gs.filterMap Given.path? := List.mem_filterMap.mpr ⟨_, hg, rfl⟩
    rw [h.paths] at hp
    exact hpaths p hp
  | check => trivial
  | json => trivial
  | root r spelling =>
    have hr : r ∈ gs.filterMap Given.root? := List.mem_filterMap.mpr ⟨_, hg, rfl⟩
    rw [h.root, Option.mem_toList] at hr
    exact ⟨hroot r hr, by rintro rfl; exact hapart r hg⟩

theorem Options.parse_eq {arguments : List Bytes} {r : Reading} {o : Options}
    (hwords : Reading.initial.words arguments = .ok r) (hsettle : r.settle = .ok o)
    (hne : o.paths ≠ []) : Options.parse arguments = .ok o := by
  unfold Options.parse
  simp only [hwords, hsettle, if_neg hne]

/-- **A command line is read back as the options it asks for.** With the options in any order in
front of the separator and the paths after it, paths and root can be any that are not empty. Without
a separator the paths can stand anywhere between the options, and the root can follow its option, if
no hyphen leads a path or the root. -/
theorem Options.parse_arguments {o : Options} (ho : o.Givable) :
    (∀ gs, Asks gs { o with paths := [] } → (∀ r, .root r .apart ∉ gs) →
      Options.parse (gs.flatMap Given.arguments ++ separator :: o.paths.map Path.bytes) = .ok o) ∧
    ((∀ p ∈ o.paths, ¬p.Hyphened) → (∀ r ∈ o.root, ¬r.Hyphened) → ∀ gs, Asks gs o →
      Options.parse (gs.flatMap Given.arguments) = .ok o) := by
  constructor
  · intro gs hasks hjoined
    have hlegible := hasks.legible (by simp) ho.root_ne_nil fun r hr => absurd hr (hjoined r)
    obtain ⟨r, hr, hwords⟩ :=
      Reading.exists_words_eq Reading.settle_initial hlegible hasks.completes
    obtain ⟨r', htrailing, hr'⟩ := Reading.exists_trailing_eq hr ho.path_ne_nil
    refine parse_eq (r := r') ?_ (by simpa using hr') ho.paths_ne_nil
    rw [hwords, Reading.words_separator, htrailing]
  · intro hpaths hroot gs hasks
    have hapart : ∀ r, .root r .apart ∈ gs → ¬r.Hyphened := by
      intro r hr
      have hmem : r ∈ gs.filterMap Given.root? := List.mem_filterMap.mpr ⟨_, hr, rfl⟩
      rw [hasks.root, Option.mem_toList] at hmem
      exact hroot r hmem
    have hlegible :=
      hasks.legible (fun p hp => ⟨ho.path_ne_nil p hp, hpaths p hp⟩) ho.root_ne_nil hapart
    obtain ⟨r, hr, hwords⟩ :=
      Reading.exists_words_eq Reading.settle_initial hlegible hasks.completes
    refine parse_eq (r := r) ?_ hr ho.paths_ne_nil
    rw [← List.append_nil (gs.flatMap Given.arguments), hwords]
    rfl

/-- The theorem at paths and a root with hyphens and an equals sign, and at a path on each side of a
root that stands apart. -/
theorem Options.parse_arguments_mixed :
    Options.parse (["--json", "--root==-r", "--check", "--", "-x", "--"].map
        fun a => Utf8.encode a.toList) =
      .ok ⟨[.ofText "-x".toList, .ofText "--".toList], true, some (.ofText "=-r".toList), true⟩ ∧
    Options.parse (["a", "--root", "r", "b", "--check"].map fun a => Utf8.encode a.toList) =
      .ok ⟨[.ofText "a".toList, .ofText "b".toList], true, some (.ofText "r".toList), false⟩ := by
  have hhyphens : Options.Givable ⟨[.ofText "-x".toList, .ofText "--".toList], true,
      some (.ofText "=-r".toList), true⟩ := ⟨by decide, by decide, by decide⟩
  have hplain : Options.Givable ⟨[.ofText "a".toList, .ofText "b".toList], true,
      some (.ofText "r".toList), false⟩ := ⟨by decide, by decide, by decide⟩
  constructor
  · exact (parse_arguments hhyphens).1 [.json, .root (.ofText "=-r".toList) .joined, .check]
      ⟨rfl, rfl, rfl, rfl⟩ (by simp)
  · exact (parse_arguments hplain).2 (by decide) (by decide)
      [.path (.ofText "a".toList), .root (.ofText "r".toList) .apart, .path (.ofText "b".toList),
        .check] ⟨rfl, rfl, rfl, rfl⟩

end IncludeGuard
