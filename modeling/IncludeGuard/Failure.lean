import IncludeGuard.GuardName
import IncludeGuard.Workspace

/-! # Failures

Whatever stops the work on a header is a failure: a file operation that met a fault, a path for
which there is no guard name, or a file that cannot be shown relative to the root. A failure is
worded as what was being done and, for some, the cause behind it. The walk below a directory never
fails, so there is no failure for it. Work on many files goes on until the first failure
(`untilFailure`). -/

namespace IncludeGuard

/-- Why the work stopped. -/
inductive Failure
  | resolvePath (argument : Path) (fault : Fault)
  | resolveRoot (root : Path) (fault : Fault)
  | read (path : Path) (fault : Fault)
  | write (path : Path) (fault : Fault)
  | naming (error : NameError)
  | display (file root : Path)
deriving DecidableEq

namespace Failure

/-- What was being done. -/
def summary : Failure → Text
  | resolvePath argument _ => "cannot resolve path ".toList ++ argument.display
  | resolveRoot root _ => "cannot resolve root ".toList ++ root.display
  | read path _ => "failed to read ".toList ++ path.display
  | write path _ => "failed to write ".toList ++ path.display
  | naming error => error.message
  | display file root => (NameError.notUnderRoot file root).message

/-- The cause behind it. -/
def cause? : Failure → Option Text
  | resolvePath _ fault => some fault.message
  | resolveRoot _ fault => some fault.message
  | read _ fault => some fault.message
  | write _ fault => some fault.message
  | naming _ => none
  | display _ _ => some "prefix not found".toList

/-- The failure in one line. -/
def message (f : Failure) : Text :=
  match f.cause? with
  | some cause => f.summary ++ ": ".toList ++ cause
  | none => f.summary

/-- The failure as the program prints it before it ends. -/
def notice (f : Failure) : Text :=
  match f.cause? with
  | some cause =>
    "Error: ".toList ++ f.summary ++ "\n\nCaused by:\n    ".toList ++ cause ++ ['\n']
  | none => "Error: ".toList ++ f.summary ++ ['\n']

end Failure

/-! ### Going on until something fails -/

/-- The results of a function on the members of a list, up to the first failure. -/
def untilFailure {α β ε : Type} (f : α → Except ε β) : List α → List β × Option ε
  | [] => ([], none)
  | a :: as =>
    match f a with
    | .error e => ([], some e)
    | .ok b =>
      let (bs, failure) := untilFailure f as
      (b :: bs, failure)

/-- Nothing fails exactly if the function gives a result on every member. -/
theorem untilFailure_eq_none_iff {α β ε : Type} {f : α → Except ε β} {as : List α}
    {bs : List β} :
    untilFailure f as = (bs, none) ↔ as.map f = bs.map .ok := by
  induction as generalizing bs with
  | nil => cases bs <;> simp [untilFailure]
  | cons a as ih =>
    rw [untilFailure]
    cases h : f a with
    | error e => cases bs <;> simp [h]
    | ok b =>
      cases bs with
      | nil => simp [h]
      | cons c cs => simp [h, ← ih, Prod.ext_iff, and_assoc]

theorem exists_untilFailure_iff {α β ε : Type} {f : α → Except ε β} {as : List α} :
    (∃ bs, untilFailure f as = (bs, none)) ↔ ∀ a ∈ as, ∃ b, f a = .ok b := by
  induction as with
  | nil => simp [untilFailure]
  | cons a as ih =>
    rw [untilFailure]
    rcases hf : f a with e | b
    · simp [hf]
    · simp [hf, ← ih, Prod.ext_iff]

/-- **The failure is that of the first member that fails.** -/
theorem untilFailure_eq_some_iff {α β ε : Type} {f : α → Except ε β} {as : List α} {e : ε} :
    (untilFailure f as).2 = some e ↔ ∃ k a, as[k]? = some a ∧ f a = .error e ∧
      ∀ a' ∈ as.take k, ∃ b, f a' = .ok b := by
  induction as with
  | nil => simp [untilFailure]
  | cons a as ih =>
    rw [untilFailure]
    rcases hf : f a with e' | b
    · constructor
      · intro h
        obtain rfl : e' = e := by simpa using h
        exact ⟨0, a, rfl, hf, by simp⟩
      · rintro ⟨_ | k, a', ha', he, hbefore⟩
        · obtain rfl : a = a' := by simpa using ha'
          simpa [hf] using he
        · obtain ⟨b, hb⟩ := hbefore a (by simp)
          simp [hf] at hb
    · dsimp only
      rw [ih]
      constructor
      · rintro ⟨k, a', ha', he, hbefore⟩
        refine ⟨k + 1, a', ha', he, fun a'' ha'' => ?_⟩
        rcases List.mem_cons.mp ha'' with rfl | ha''
        · exact ⟨b, hf⟩
        · exact hbefore a'' ha''
      · rintro ⟨_ | k, a', ha', he, hbefore⟩
        · obtain rfl : a = a' := by simpa using ha'
          simp [hf] at he
        · exact ⟨k, a', ha', he, fun a'' ha'' => hbefore a'' (by simp [ha''])⟩

theorem exists_error_of_untilFailure {α β ε : Type} {f : α → Except ε β} {as : List α} {e : ε}
    (h : (untilFailure f as).2 = some e) : ∃ a ∈ as, f a = .error e := by
  obtain ⟨k, a, ha, he, -⟩ := untilFailure_eq_some_iff.mp h
  exact ⟨a, List.mem_of_getElem? ha, he⟩

/-- The path of a file relative to the root, as reports show it. -/
def relativeDisplay (file root : Path) : Except Failure Text :=
  match file.relativeTo? root with
  | some below => .ok below.display
  | none => .error (.display file root)

end IncludeGuard
