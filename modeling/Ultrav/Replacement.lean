import Mathlib.Data.List.Basic
import Mathlib.Logic.Function.Basic

/-!
# Replacing a file as a whole

The new content goes to a temp file beside the file, and the temp file is renamed over it. The
writer can fail or end at every step, within a write as well.

* `Files` — a directory.
* `Phase` / `State` / `Event` / `step` — one writer, with the content it renamed last.
* `Sound` — the file holds that content, and the temp file as much of the next one as was
  written.
* `Sound.step`, `Sound.stop`, `Sound.remove` — what keeps that.
* `create_eq_some`, `write_eq_some`, `close_eq_some`, `rename_eq_some` — the content that is on its
  way, which a rename keeps; `piece_eq_some` — the same for a piece of a save.
-/

namespace Ultrav

universe u v

namespace Replacement

variable {N : Type u} {B : Type v}

/-- A directory: the content of its files. -/
abbrev Files (N : Type u) (B : Type v) : Type (max u v) := N → Option (List B)

/-- How far a replacement has come. -/
inductive Phase (N : Type u) (B : Type v) where
  | idle
  /-- so much of the content is in the temp file -/
  | writing (tmp : N) (content : List B) (n : ℕ)
  /-- the temp file is complete and closed -/
  | written (tmp : N) (content : List B)

/-- The content that is on its way. -/
def Phase.content : Phase N B → Option (List B)
  | .idle => none
  | .writing _ content _ => some content
  | .written _ content => some content

/-- The directory and the writer. -/
structure State (N : Type u) (B : Type v) where
  files : Files N B
  phase : Phase N B
  /-- the content that was renamed into place last -/
  kept : Option (List B)

/-- A step of the writer. -/
inductive Event (N : Type u) (B : Type v) where
  /-- create or truncate the temp file -/
  | create (tmp : N) (content : List B)
  /-- write some more -/
  | write (n : ℕ)
  | close
  | rename
  /-- give up, or end -/
  | stop

/-- A piece of a save, once the temp file is open. -/
inductive Piece where
  /-- so many more bytes reach the temp file -/
  | write (n : ℕ)
  | close
  | rename
  /-- the step fails, and the save returns its error -/
  | fail
  deriving DecidableEq

def Piece.toEvent : Piece → Event N B
  | .write n => .write n
  | .close => .close
  | .rename => .rename
  | .fail => .stop

/-- One step, for the file at a path. -/
def step [DecidableEq N] (path : N) (s : State N B) : Event N B → Option (State N B)
  | .create tmp content =>
    match s.phase with
    | .idle =>
      if tmp = path then none
      else some { s with
        files := Function.update s.files tmp (some [])
        phase := .writing tmp content 0 }
    | _ => none
  | .write n =>
    match s.phase with
    | .writing tmp content m =>
      some { s with
        files := Function.update s.files tmp
          ((s.files tmp).map fun bs => bs ++ (content.drop m).take n)
        phase := .writing tmp content (m + n) }
    | _ => none
  | .close =>
    match s.phase with
    | .writing tmp content m =>
      if content.length ≤ m then some { s with phase := .written tmp content } else none
    | _ => none
  | .rename =>
    match s.phase with
    | .written tmp content =>
      some
        { files := Function.update (Function.update s.files path (s.files tmp)) tmp none
          phase := .idle
          kept := some content }
    | _ => none
  | .stop => some { s with phase := .idle }

/-- What is in the temp file in a phase. -/
def Phase.Holds (path : N) (files : Files N B) : Phase N B → Prop
  | .idle => True
  | .writing tmp content n => tmp ≠ path ∧ files tmp = some (content.take n)
  | .written tmp content => tmp ≠ path ∧ files tmp = some content

/-- The file holds what was renamed last, and the temp file what the writer means it to. -/
structure Sound (path : N) (s : State N B) : Prop where
  file : s.files path = s.kept
  temp : s.phase.Holds path s.files

theorem Phase.content_eq_none {p : Phase N B} : p.content = none ↔ p = .idle := by
  cases p <;> simp [content]

variable [DecidableEq N] {path : N} {s s' : State N B} {e : Event N B}

/-- A content comes on its way with its temp file. -/
theorem create_eq_some {tmp : N} {content : List B}
    (h : step path s (.create tmp content) = some s') :
    s.phase = .idle ∧ s'.phase.content = some content ∧ s'.kept = s.kept := by
  rw [step] at h
  split at h
  · rename_i hidle
    obtain ⟨-, heq⟩ := Option.ite_none_left_eq_some.mp h
    cases heq
    exact ⟨hidle, rfl, rfl⟩
  · cases h

theorem write_eq_some {n : ℕ} (h : step path s (.write n) = some s') :
    ∃ content, s.phase.content = some content ∧ s'.phase.content = some content ∧
      s'.kept = s.kept := by
  rw [step] at h
  split at h
  · rename_i tmp content m hphase
    cases h
    exact ⟨content, congrArg Phase.content hphase, rfl, rfl⟩
  · cases h

theorem close_eq_some (h : step path s .close = some s') :
    ∃ content, s.phase.content = some content ∧ s'.phase.content = some content ∧
      s'.kept = s.kept := by
  rw [step] at h
  split at h
  · rename_i tmp content m hphase
    obtain ⟨-, heq⟩ := Option.ite_none_right_eq_some.mp h
    cases heq
    exact ⟨content, congrArg Phase.content hphase, rfl, rfl⟩
  · cases h

/-- A rename keeps the content that was on its way. -/
theorem rename_eq_some (h : step path s .rename = some s') :
    ∃ content, s.phase.content = some content ∧ s'.phase = .idle ∧ s'.kept = some content := by
  rw [step] at h
  split at h
  · rename_i tmp content hphase
    cases h
    exact ⟨content, congrArg Phase.content hphase, rfl, rfl⟩
  · cases h

/-- **A piece of a save**: it goes on, it is done, or it fails. -/
theorem piece_eq_some {e : Piece} (h : step path s e.toEvent = some s') :
    (∃ content, e ≠ .rename ∧ e ≠ .fail ∧ s.phase.content = some content ∧
        s'.phase.content = some content ∧ s'.kept = s.kept) ∨
      (∃ content, e = .rename ∧ s.phase.content = some content ∧ s'.phase = .idle ∧
        s'.kept = some content) ∨
      e = .fail ∧ s' = { s with phase := .idle } := by
  cases e with
  | write n =>
    obtain ⟨content, hold, hnew, hkept⟩ := write_eq_some h
    exact .inl ⟨content, nofun, nofun, hold, hnew, hkept⟩
  | close =>
    obtain ⟨content, hold, hnew, hkept⟩ := close_eq_some h
    exact .inl ⟨content, nofun, nofun, hold, hnew, hkept⟩
  | rename =>
    obtain ⟨content, hold, hidle, hkept⟩ := rename_eq_some h
    exact .inr (.inl ⟨content, rfl, hold, hidle, hkept⟩)
  | fail => exact .inr (.inr ⟨rfl, (Option.some.inj h).symm⟩)

/-- **One step.** -/
theorem Sound.step (hs : Sound path s) (h : step path s e = some s') : Sound path s' := by
  obtain ⟨hfile, htemp⟩ := hs
  cases e with
  | create tmp content =>
    rw [Replacement.step] at h
    split at h
    · obtain ⟨hne, heq⟩ := Option.ite_none_left_eq_some.mp h
      cases heq
      refine ⟨?_, hne, Function.update_self _ _ _⟩
      exact (Function.update_of_ne (Ne.symm hne) _ _).trans hfile
    · cases h
  | write n =>
    rw [Replacement.step] at h
    split at h
    · rename_i tmp content m hphase
      rw [hphase] at htemp
      obtain ⟨hne, hcontent⟩ := htemp
      cases h
      refine ⟨?_, hne, ?_⟩
      · exact (Function.update_of_ne (Ne.symm hne) _ _).trans hfile
      · dsimp only
        rw [Function.update_self, hcontent, Option.map_some, List.take_add]
    · cases h
  | close =>
    rw [Replacement.step] at h
    split at h
    · rename_i tmp content m hphase
      rw [hphase] at htemp
      obtain ⟨hle, heq⟩ := Option.ite_none_right_eq_some.mp h
      cases heq
      refine ⟨hfile, htemp.1, ?_⟩
      exact htemp.2.trans (congrArg some (List.take_of_length_le hle))
    · cases h
  | rename =>
    rw [Replacement.step] at h
    split at h
    · rename_i tmp content hphase
      rw [hphase] at htemp
      obtain ⟨hne, hcontent⟩ := htemp
      cases h
      refine ⟨?_, trivial⟩
      dsimp only
      rw [Function.update_of_ne (Ne.symm hne), Function.update_self, hcontent]
    · cases h
  | stop =>
    cases h
    exact ⟨hfile, trivial⟩

/-- The writer gives up, or ends. -/
theorem Sound.stop (hs : Sound path s) : Sound path { s with phase := .idle } :=
  hs.step (e := .stop) rfl

/-- A temp file of a writer that has given up is removed. -/
theorem Sound.remove (hs : Sound path s) {tmp : N} (hne : tmp ≠ path) :
    Sound path { s with files := Function.update s.files tmp none, phase := .idle } :=
  ⟨(Function.update_of_ne (Ne.symm hne) _ _).trans hs.file, trivial⟩

end Replacement

end Ultrav
