import Mathlib.Logic.Basic

/-!
# Calls that can fail part way

A call works on a state and returns a value or an error; either way the state is what the
call left. Sequencing stops at the first error and undoes nothing.

* `Attempt` — the monad, with `throw`, `failIf`, `get` and `modify`.
* `Attempt.OnError` — what holds of the state whenever the call fails.
* `bind_eq_ok`, `failIf_bind_eq_ok` — a sequence that goes through.
* `onError_bind_ok`, `onError_failIf_bind`, … — how it goes through a sequence.
* `Checkpoint` / `firstFailureClean` — a table of the points at which a call can fail, with
  whether something was changed by then.
-/

namespace Ultrav

/-- A call on a state. -/
def Attempt (ε σ α : Type) : Type := σ → Except ε α × σ

namespace Attempt

variable {ε σ α β γ : Type}

/-- Return a value. -/
protected def pure (a : α) : Attempt ε σ α := fun s => (.ok a, s)

/-- One call after the other; an error ends the sequence. -/
protected def bind (x : Attempt ε σ α) (f : α → Attempt ε σ β) : Attempt ε σ β := fun s =>
  match x s with
  | (.ok a, s') => f a s'
  | (.error e, s') => (.error e, s')

instance : Monad (Attempt ε σ) where
  pure := Attempt.pure
  bind := Attempt.bind

/-- Fail. -/
def throw (e : ε) : Attempt ε σ α := fun s => (.error e, s)

/-- Fail under a condition, without effect. -/
def failIf (b : Bool) (e : ε) : Attempt ε σ Unit := fun s =>
  (if b then .error e else .ok (), s)

/-- Read the state. -/
def get : Attempt ε σ σ := fun s => (.ok s, s)

/-- Change the state. -/
def modify (f : σ → σ) : Attempt ε σ Unit := fun s => (.ok (), f s)

/-- What holds of the state when the call fails. -/
def OnError (x : Attempt ε σ α) (Q : σ → Prop) (s : σ) : Prop :=
  ∀ e, (x s).1 = .error e → Q (x s).2

variable {x : Attempt ε σ α} {f : α → Attempt ε σ β} {g : β → Attempt ε σ γ} {Q : σ → Prop}
  {s s' : σ}

theorem bind_apply_ok {a : α} (h : x s = (.ok a, s')) : (x >>= f) s = f a s' := by
  change Attempt.bind x f s = _
  rw [Attempt.bind, h]

theorem bind_apply_error {e : ε} (h : x s = (.error e, s')) : (x >>= f) s = (.error e, s') := by
  change Attempt.bind x f s = _
  rw [Attempt.bind, h]

theorem failIf_bind_apply (b : Bool) (e : ε) (f : Unit → Attempt ε σ β) (s : σ) :
    (failIf b e >>= f) s = if b then (.error e, s) else f () s := by
  cases b with
  | false => exact bind_apply_ok rfl
  | true => exact bind_apply_error rfl

theorem get_bind_apply (f : σ → Attempt ε σ β) (s : σ) : (get >>= f) s = f s s := bind_apply_ok rfl

theorem modify_bind_apply (h : σ → σ) (f : Unit → Attempt ε σ β) (s : σ) :
    (modify h >>= f) s = f () (h s) := bind_apply_ok rfl

/-- Sequences associate. -/
@[simp] theorem bind_assoc (x : Attempt ε σ α) (f : α → Attempt ε σ β) (g : β → Attempt ε σ γ) :
    (x >>= f) >>= g = x >>= fun a => f a >>= g := by
  funext s
  rcases hx : x s with ⟨e | a, s'⟩
  · rw [bind_apply_error (f := g) (bind_apply_error hx), bind_apply_error hx]
  · rw [bind_apply_ok hx]
    rcases hf : f a s' with ⟨e | b, s''⟩
    · rw [bind_apply_error ((bind_apply_ok hx).trans hf), bind_apply_error hf]
    · rw [bind_apply_ok ((bind_apply_ok hx).trans hf), bind_apply_ok hf]

@[simp] theorem pure_bind (a : α) (f : α → Attempt ε σ β) :
    (pure a : Attempt ε σ α) >>= f = f a := rfl

/-! ## Going through -/

/-- A sequence goes through call by call. -/
theorem bind_eq_ok {b : β} (h : (x >>= f) s = (.ok b, s')) :
    ∃ a s₁, x s = (.ok a, s₁) ∧ f a s₁ = (.ok b, s') := by
  rcases hx : x s with ⟨e | a, s₁⟩
  · rw [bind_apply_error hx] at h
    cases h
  · rw [bind_apply_ok hx] at h
    exact ⟨a, s₁, rfl, h⟩

theorem failIf_bind_eq_ok {c : Bool} {e : ε} {f : Unit → Attempt ε σ β} {b : β}
    (h : (failIf c e >>= f) s = (.ok b, s')) : c = false ∧ f () s = (.ok b, s') := by
  rw [failIf_bind_apply] at h
  cases c with
  | false => exact ⟨rfl, h⟩
  | true => cases h

theorem failIf_eq_ok {c : Bool} {e : ε} {u : Unit} (h : failIf c e s = (.ok u, s')) :
    c = false ∧ s' = s := by
  cases c with
  | false => exact ⟨rfl, (Prod.mk.inj h).2.symm⟩
  | true => cases h

/-! ## Errors -/

@[simp] theorem onError_pure (a : α) : OnError (pure a : Attempt ε σ α) Q s ↔ True :=
  iff_true_intro fun _ h => by cases h

@[simp] theorem onError_throw (e : ε) : OnError (throw e : Attempt ε σ α) Q s ↔ Q s :=
  ⟨fun h => h e rfl, fun h _ _ => h⟩

@[simp] theorem onError_modify (f : σ → σ) : OnError (modify f : Attempt ε σ Unit) Q s ↔ True :=
  iff_true_intro fun _ h => by cases h

@[simp] theorem onError_failIf (b : Bool) (e : ε) :
    OnError (failIf b e) Q s ↔ if b then Q s else True := by
  cases b with
  | false => exact iff_of_true (fun _ h => by cases h) trivial
  | true => exact ⟨fun h => h e rfl, fun h _ _ => h⟩

/-- After a call that goes through. -/
theorem onError_bind_ok {a : α} (h : x s = (.ok a, s')) :
    OnError (x >>= f) Q s ↔ OnError (f a) Q s' := by
  rw [OnError, OnError, bind_apply_ok h]

/-- After a call that fails. -/
theorem onError_bind_error {e : ε} (h : x s = (.error e, s')) :
    OnError (x >>= f) Q s ↔ Q s' := by
  rw [OnError, bind_apply_error h]
  exact ⟨fun h => h e rfl, fun h _ _ => h⟩

@[simp] theorem onError_failIf_bind (b : Bool) (e : ε) (f : Unit → Attempt ε σ β) :
    OnError (failIf b e >>= f) Q s ↔ if b then Q s else OnError (f ()) Q s := by
  cases b with
  | false => exact onError_bind_ok rfl
  | true => exact onError_bind_error rfl

@[simp] theorem onError_get_bind (f : σ → Attempt ε σ β) :
    OnError (get >>= f) Q s ↔ OnError (f s) Q s := onError_bind_ok rfl

@[simp] theorem onError_modify_bind (h : σ → σ) (f : Unit → Attempt ε σ β) :
    OnError (modify h >>= f) Q s ↔ OnError (f ()) Q (h s) := onError_bind_ok rfl

@[simp] theorem onError_throw_bind (e : ε) (f : α → Attempt ε σ β) :
    OnError (throw e >>= f) Q s ↔ Q s := onError_bind_error rfl

/-- Two points at which the state is the same are one. -/
theorem ite_or_iff {a b : Bool} {P R : Prop} :
    (if a then P else if b then P else R) ↔ if a || b then P else R := by
  cases a <;> cases b <;> simp

/-- Two tables are compared line by line. -/
theorem lines_iff {b : Bool} {P P' R R' : Prop} (hP : P ↔ P') (hR : R ↔ R') :
    (if b then P else R) ↔ if b then P' else R' := by
  cases b with
  | false => exact hR
  | true => exact hP

end Attempt

/-! ## Tables of failures -/

/-- A point at which a call can fail. -/
structure Checkpoint where
  /-- something was changed by then -/
  dirty : Bool
  /-- the call fails there -/
  fails : Bool

/-- Nothing was changed at the first point that fails, if one does. -/
def firstFailureClean : List Checkpoint → Prop
  | [] => True
  | c :: cs => if c.fails then c.dirty = false else firstFailureClean cs

@[simp] theorem firstFailureClean_nil : firstFailureClean [] ↔ True := Iff.rfl

@[simp] theorem firstFailureClean_cons (c : Checkpoint) (cs : List Checkpoint) :
    firstFailureClean (c :: cs) ↔ if c.fails then c.dirty = false else firstFailureClean cs :=
  Iff.rfl

end Ultrav
