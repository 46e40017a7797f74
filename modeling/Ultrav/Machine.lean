import Mathlib.Data.List.Basic
import Mathlib.Logic.Function.Basic

/-!
# Event machines: runs, guards, invariants

A system is a partial step function `step : σ → ε → Option σ`: an event that is
not enabled in a state has no successor. Everything a run can see from outside
(failures, clock readings, the order of threads) is part of the event, so a
statement about all event lists is a statement about all interleavings.

* `run` — feed a list of events.
* `Along` — every event of the list meets a guard in the state it is taken in, and so
  does the event after any prefix (`Along.of_run`).
* `run_inv` — an invariant kept by guarded steps holds at the end of a guarded run.
* `along_of_inv` — and what follows from it at each step holds at each step.
* `along_iff_of_inv` — guards that are equivalent under an invariant.
* `run_iff_along` — what holds at the end of a run exactly when the run is guarded.
* `run_map` / `Along.map` — events that stand for others.
* `update_eq_some` — the entries of a table of parties, after one of them moved.
-/

namespace Ultrav

universe u v

namespace Machine

variable {σ : Type u} {ε : Type v}

/-- Take the events one after the other; `none` once one of them is not enabled. -/
def run (step : σ → ε → Option σ) : σ → List ε → Option σ
  | s, [] => some s
  | s, e :: es => (step s e).bind fun s' => run step s' es

/-- Every event of the list meets `G` in the state it is taken in. -/
def Along (step : σ → ε → Option σ) (G : σ → ε → Prop) : σ → List ε → Prop
  | _, [] => True
  | s, e :: es => G s e ∧ ∀ s', step s e = some s' → Along step G s' es

variable {step : σ → ε → Option σ}

@[simp] theorem run_cons (s : σ) (e : ε) (es : List ε) :
    run step s (e :: es) = (step s e).bind fun s' => run step s' es := rfl

theorem run_cons_of {s t u : σ} {e : ε} {es : List ε} (hs : step s e = some t)
    (h : run step t es = some u) : run step s (e :: es) = some u := by
  rw [run_cons, hs]
  exact h

theorem run_append (s : σ) (es fs : List ε) :
    run step s (es ++ fs) = (run step s es).bind fun t => run step t fs := by
  induction es generalizing s with
  | nil => rfl
  | cons e es ih =>
    rw [List.cons_append, run_cons, run_cons, Option.bind_assoc]
    exact congrArg _ (funext ih)

/-- Inversion: a run over `e :: es` is a step and a run. -/
theorem run_cons_eq_some {s t : σ} {e : ε} {es : List ε}
    (h : run step s (e :: es) = some t) :
    ∃ s', step s e = some s' ∧ run step s' es = some t := by
  rcases hs : step s e with _ | s'
  · rw [run_cons, hs] at h
    cases h
  · rw [run_cons, hs] at h
    exact ⟨s', rfl, h⟩

/-- A guard that every event of the list meets in every state. -/
theorem Along.of_forall {P : ε → Prop} (s : σ) {es : List ε} (hP : ∀ e ∈ es, P e) :
    Along step (fun _ e => P e) s es := by
  induction es generalizing s with
  | nil => trivial
  | cons e es ih =>
    obtain ⟨he, hes⟩ := List.forall_mem_cons.mp hP
    exact ⟨he, fun s' _ => ih s' hes⟩

/-- Nothing is asked of an unguarded run. -/
theorem Along.unguarded (s : σ) (es : List ε) : Along step (fun _ _ => True) s es :=
  .of_forall s fun _ _ => trivial

theorem Along.nil {G : σ → ε → Prop} (s : σ) : Along step G s [] := trivial

/-- A guarded event in front of a guarded run. -/
theorem Along.cons {G : σ → ε → Prop} {s t : σ} {e : ε} {es : List ε} (hG : G s e)
    (hs : step s e = some t) (h : Along step G t es) : Along step G s (e :: es) := by
  refine ⟨hG, fun s' hs' => ?_⟩
  obtain rfl : t = s' := Option.some.inj (hs.symm.trans hs')
  exact h

/-- What holds along a run holds of the event after any prefix. -/
theorem Along.of_run {G : σ → ε → Prop} {es fs : List ε} {e : ε} :
    ∀ {s t : σ}, Along step G s (es ++ e :: fs) → run step s es = some t → G t e := by
  induction es with
  | nil =>
    intro s t h hr
    obtain rfl := Option.some.inj hr
    exact h.1
  | cons d es ih =>
    intro s t h hr
    obtain ⟨s', hs, hr'⟩ := run_cons_eq_some hr
    exact ih (h.2 s' hs) hr'

/-- **Invariant rule**: what guarded steps keep holds at the end of a guarded run. -/
theorem run_inv {I : σ → Prop} {G : σ → ε → Prop}
    (hstep : ∀ s e s', I s → G s e → step s e = some s' → I s') :
    ∀ {es : List ε} {s t : σ}, I s → Along step G s es → run step s es = some t → I t := by
  intro es
  induction es with
  | nil =>
    intro s t hI _ hr
    obtain rfl := Option.some.inj hr
    exact hI
  | cons e es ih =>
    intro s t hI hG hr
    obtain ⟨s', hs, hr'⟩ := run_cons_eq_some hr
    exact ih (hstep s e s' hI hG.1 hs) (hG.2 s' hs) hr'

/-- What follows from the invariant and the guard at a step holds along the run. -/
theorem along_of_inv {I : σ → Prop} {G Q : σ → ε → Prop}
    (hstep : ∀ s e s', I s → G s e → step s e = some s' → I s')
    (hQ : ∀ s e, I s → G s e → Q s e) :
    ∀ {es : List ε} {s : σ}, I s → Along step G s es → Along step Q s es := by
  intro es
  induction es with
  | nil => intro s _ _; trivial
  | cons e es ih =>
    intro s hI hG
    exact ⟨hQ s e hI hG.1, fun s' hs => ih (hstep s e s' hI hG.1 hs) (hG.2 s' hs)⟩

/-- Guards that the invariant makes equivalent are so along every run, once one of them
keeps the invariant. -/
theorem along_iff_of_inv {I : σ → Prop} {G Q : σ → ε → Prop}
    (hGQ : ∀ s e, I s → (G s e ↔ Q s e))
    (hstep : ∀ s e s', I s → G s e → step s e = some s' → I s') {es : List ε} {s : σ}
    (hI : I s) : Along step G s es ↔ Along step Q s es := by
  constructor
  · exact along_of_inv hstep (fun s e hs => (hGQ s e hs).mp) hI
  · refine along_of_inv (fun s e s' hs hq => ?_) (fun s e hs => (hGQ s e hs).mpr) hI
    exact hstep s e s' hs ((hGQ s e hs).mpr hq)

/-- What a step establishes exactly when it held before and the step meets its guard holds
after a run exactly when it held before and the run meets the guard. -/
theorem run_iff_along {I P : σ → Prop} {G : σ → ε → Prop}
    (hI : ∀ s e s', I s → step s e = some s' → I s')
    (hP : ∀ s e s', I s → step s e = some s' → (P s' ↔ P s ∧ G s e)) :
    ∀ {es : List ε} {s t : σ}, I s → run step s es = some t →
      (P t ↔ P s ∧ Along step G s es) := by
  intro es
  induction es with
  | nil =>
    intro s t _ hr
    obtain rfl := Option.some.inj hr
    exact (and_iff_left trivial).symm
  | cons e es ih =>
    intro s t hs hr
    obtain ⟨s', hstep, hr'⟩ := run_cons_eq_some hr
    have hrest : (∀ s'', step s e = some s'' → Along step G s'' es) ↔ Along step G s' es := by
      refine ⟨fun h => h s' hstep, fun h s'' hs'' => ?_⟩
      obtain rfl : s' = s'' := Option.some.inj (hstep.symm.trans hs'')
      exact h
    rw [ih (hI s e s' hs hstep) hr', hP s e s' hs hstep, and_assoc, Along, hrest]

/-- Two guards that a run meets. -/
theorem Along.and {G Q : σ → ε → Prop} {es : List ε} {s : σ} (hG : Along step G s es)
    (hQ : Along step Q s es) : Along step (fun s e => G s e ∧ Q s e) s es := by
  induction es generalizing s with
  | nil => trivial
  | cons e es ih => exact ⟨⟨hG.1, hQ.1⟩, fun s' hs => ih (hG.2 s' hs) (hQ.2 s' hs)⟩

/-- A guard and what holds of every event of the list. -/
theorem Along.and_forall {G : σ → ε → Prop} {P : ε → Prop} {es : List ε} {s : σ}
    (h : Along step G s es) (hP : ∀ e ∈ es, P e) : Along step (fun s e => G s e ∧ P e) s es :=
  h.and (.of_forall s hP)

/-- What holds along a run holds along what is left of it. -/
theorem Along.of_append {G : σ → ε → Prop} {es fs : List ε} :
    ∀ {s t : σ}, Along step G s (es ++ fs) → run step s es = some t →
      Along step G s es ∧ Along step G t fs := by
  induction es with
  | nil =>
    intro s t h hr
    obtain rfl := Option.some.inj hr
    exact ⟨trivial, h⟩
  | cons e es ih =>
    intro s t h hr
    obtain ⟨s', hs, hr'⟩ := run_cons_eq_some hr
    obtain ⟨hes, hfs⟩ := ih (h.2 s' hs) hr'
    exact ⟨.cons h.1 hs hes, hfs⟩

theorem Along.left {G : σ → ε → Prop} {es fs : List ε} {s : σ}
    (h : Along step G s (es ++ fs)) : Along step G s es := by
  induction es generalizing s with
  | nil => trivial
  | cons e es ih => exact ⟨h.1, fun s' hs => ih (h.2 s' hs)⟩

/-- What holds along a run and, from any state, along what comes after it. -/
theorem Along.append {G : σ → ε → Prop} {es fs : List ε} {s : σ} (h : Along step G s es)
    (hfs : ∀ t, Along step G t fs) : Along step G s (es ++ fs) := by
  induction es generalizing s with
  | nil => exact hfs s
  | cons e es ih => exact ⟨h.1, fun s' hs => ih (h.2 s' hs)⟩

/-- What holds of every event after what comes before it holds along the run. -/
theorem along_of_prefixes {G : σ → ε → Prop} {es : List ε} {s : σ}
    (h : ∀ pre e post t, es = pre ++ e :: post → run step s pre = some t → G t e) :
    Along step G s es := by
  induction es generalizing s with
  | nil => trivial
  | cons e es ih =>
    refine ⟨h [] e es s rfl rfl, fun s' hs => ih fun pre e' post t hes hr => ?_⟩
    exact h (e :: pre) e' post t (congrArg (e :: ·) hes) (run_cons_of hs hr)

/-! ## Events that stand for others -/

/-- A run of events that stand for others is a run of these. -/
theorem run_map {φ : Type*} (f : φ → ε) (s : σ) (es : List φ) :
    run (fun s e => step s (f e)) s es = run step s (es.map f) := by
  induction es generalizing s with
  | nil => rfl
  | cons e es ih =>
    simp only [List.map_cons, run_cons]
    exact congrArg _ (funext ih)

theorem Along.map {φ : Type*} {f : φ → ε} {G : σ → ε → Prop} {es : List φ} {s : σ}
    (h : Along (fun s e => step s (f e)) (fun s e => G s (f e)) s es) :
    Along step G s (es.map f) := by
  induction es generalizing s with
  | nil => trivial
  | cons e es ih => exact ⟨h.1, fun s' hs => ih (h.2 s' hs)⟩

/-! ## Tables of parties -/

/-- What is found in a table after one entry was set. -/
theorem update_eq_some {ι : Type u} {β : Type v} [DecidableEq ι] {f : ι → Option β} {i j : ι}
    {o : Option β} {b : β} (h : Function.update f i o j = some b) :
    (j = i ∧ o = some b) ∨ (j ≠ i ∧ f j = some b) := by
  by_cases hj : j = i
  · subst hj
    rw [Function.update_self] at h
    exact .inl ⟨rfl, h⟩
  · rw [Function.update_of_ne hj] at h
    exact .inr ⟨hj, h⟩

end Machine

end Ultrav
