import Mathlib.Data.List.Induction
import Mathlib.Logic.Function.Basic

/-!
# A shared cell under read, copy, modify, write back

Threads that change a shared value in two accesses: they read it, work on their copy and
write the whole copy back. Two of them that overlap can undo one another.

* `State` / `Event` / `step` — the cell, the copies in flight, and the log of the
  operations that reported success.
* `Correct` — the value is what the log makes of the initial one.
* `Fresh` — a write back that does to the value what it did to its copy.
* `correct_step_iff` — a step keeps the cell correct exactly when it is fresh.
* `lastSet` — the log read field by field: the last operation that set a field decides.
-/

namespace Ultrav

universe u v w

namespace SharedCell

variable {V : Type u} {O : Type v}

/-- A cell and the threads at work on it. -/
structure State (V : Type u) (O : Type v) where
  /-- the shared value -/
  value : V
  /-- the copy each thread works on, with its operation -/
  copies : ℕ → Option (V × O)
  /-- the operations that reported success, oldest first -/
  log : List O

/-- An access to the cell. -/
inductive Event (O : Type v) where
  /-- thread `i` reads the cell for an operation -/
  | read (i : ℕ) (o : O)
  /-- thread `i` writes its copy back, and reports success or not -/
  | write (i : ℕ) (success : Bool)
  /-- thread `i` gives up -/
  | drop (i : ℕ)

/-- One access. -/
def step (apply : O → V → V) (s : State V O) : Event O → Option (State V O)
  | .read i o =>
    match s.copies i with
    | none => some { s with copies := Function.update s.copies i (some (s.value, o)) }
    | some _ => none
  | .write i success =>
    (s.copies i).map fun c =>
      { value := apply c.2 c.1
        copies := Function.update s.copies i none
        log := if success then s.log ++ [c.2] else s.log }
  | .drop i => (s.copies i).map fun _ => { s with copies := Function.update s.copies i none }

/-- The value the log makes of an initial one. -/
def replayed (apply : O → V → V) (init : V) (log : List O) : V :=
  log.foldl (fun v o => apply o v) init

/-- The cell holds what the successful operations made of the initial value. -/
def Correct (apply : O → V → V) (init : V) (s : State V O) : Prop :=
  s.value = replayed apply init s.log

/-- A write back that reports success does to the value what it did to the copy; one that
does not leaves the value. -/
def Fresh (apply : O → V → V) (s : State V O) : Event O → Prop
  | .write i success =>
    ∀ v o, s.copies i = some (v, o) → apply o v = if success then apply o s.value else s.value
  | _ => True

variable {apply : O → V → V} {init : V}

@[simp] theorem replayed_concat (log : List O) (o : O) :
    replayed apply init (log ++ [o]) = apply o (replayed apply init log) := by
  rw [replayed, List.foldl_append]
  rfl

/-- **One access** keeps the cell correct exactly when it is fresh. -/
theorem correct_step_iff {s s' : State V O} {e : Event O} (hs : Correct apply init s)
    (h : step apply s e = some s') : Correct apply init s' ↔ Fresh apply s e := by
  cases e with
  | read i o =>
    rw [step] at h
    split at h
    · cases h
      exact iff_of_true hs trivial
    · cases h
  | write i success =>
    obtain ⟨⟨v, o⟩, hc, rfl⟩ := Option.map_eq_some_iff.mp h
    have hfresh : Fresh apply s (.write i success) ↔
        apply o v = if success then apply o s.value else s.value := by
      rw [Fresh]
      constructor
      · intro hall
        exact hall v o hc
      · rintro heq v' o' hc'
        cases hc.symm.trans hc'
        exact heq
    rw [hfresh, Correct, hs]
    cases success
    · exact Iff.rfl
    · rw [if_pos rfl, if_pos rfl, replayed_concat]
  | drop i =>
    obtain ⟨c, -, rfl⟩ := Option.map_eq_some_iff.mp h
    exact iff_of_true hs trivial

/-! ## Fields -/

/-- The value that the last setting operation of the log gives a field; `old` when none
sets it. -/
def lastSet {F : Type w} (sets : O → Option F) (log : List O) (old : F) : F :=
  (log.filterMap sets).getLast?.getD old

/-- **A field of the replayed value** is what the last operation that sets it says. -/
theorem field_replayed {F : Type w} (field : V → F) (sets : O → Option F)
    (hset : ∀ o v, field (apply o v) = (sets o).getD (field v)) (init : V) (log : List O) :
    field (replayed apply init log) = lastSet sets log (field init) := by
  induction log using List.reverseRecOn with
  | nil => rfl
  | append_singleton log o ih =>
    rw [replayed_concat, hset, ih, lastSet, lastSet, List.filterMap_append]
    rcases ho : sets o with _ | x
    · simp [ho]
    · simp [ho]

/-- A field that no operation sets stays. -/
theorem field_replayed_const {F : Type w} (field : V → F)
    (h : ∀ o v, field (apply o v) = field v) (init : V) (log : List O) :
    field (replayed apply init log) = field init := by
  induction log using List.reverseRecOn with
  | nil => rfl
  | append_singleton log o ih => rw [replayed_concat, h, ih]

end SharedCell

end Ultrav
