import Ultrav.Daemon

/-!
# Runs of programs that talk to a daemon

* `Care` — what has to agree, and the calls that take it that nothing is live.
* `Careful` / `System.NoRace` — programs that keep to it by what they have seen, and steps that
  start nothing that another program has seen without anything live and goes on to such a call.
* `settled_of_run` — what is live agrees with what is defined.
* `live_of_run` — what is live stays until it is destroyed.
-/

namespace Ultrav

namespace Daemon

variable {κ δ γ χ ρ : Type} [DecidableEq κ] (kind : Kind γ)

/-! ## What is live, and what is defined -/

/-- What programs are careful about. -/
structure Care (κ δ χ : Type) where
  /-- what may be live with what is defined -/
  agrees : δ → Option δ → Prop
  /-- what is started with its definition -/
  self : ∀ d, agrees d (some d)
  /-- the calls that take it that nothing is live of a name -/
  needs : κ → Call κ δ χ → Prop

variable (care : Care κ δ χ)

/-- Nothing of this name is live. -/
def State.Idle (s : State κ δ γ) (k : κ) : Prop := ∀ o, s.objects k = some o → o.live = none

/-- What is live agrees with what is defined. -/
def State.Agrees (s : State κ δ γ) : Prop :=
  ∀ k o l, s.objects k = some o → o.live = some l → care.agrees l.config o.persistent

/-- A program changes a definition so that it agrees with whatever is live, or once it has seen that
nothing is. A daemon may refuse by itself to undefine what is live. -/
def Careful (held : Option κ) : Call κ δ χ → Prop
  | .define k d => held = some k ∧ care.needs k (.define k d) ∨ ∀ l, care.agrees l (some d)
  | .undefine h => kind.transient = true →
    held = some h.name ∧ care.needs h.name (.undefine h) ∨ ∀ l, care.agrees l none
  | .modify h f => held = some h.name ∧ care.needs h.name (.modify h f) ∨
    ∀ l d, care.agrees l (some d) → care.agrees l (some (f d))
  | .lookup _ | .status _ | .describe _ | .definition _ | .create _ | .destroy _ | .getAutostart _
  | .setAutostart _ _ | .other _ => True

/-- A program may go on to a call that takes it that nothing is live of a name. -/
inductive Prog.MayNeed (k : κ) : Prog κ δ γ χ ρ → Prop where
  | now {c next} (h : care.needs k c) : MayNeed k (.call c next)
  | later {c next a} (h : MayNeed k (next a)) : MayNeed k (.call c next)

/-- It has seen the object without anything live, and relies on that. -/
def Running.Minds (r : Running κ δ γ χ ρ) (k : κ) : Prop :=
  r.held = some k ∧ r.prog.MayNeed care k

/-- Nothing is started that another program minds, nor is anything live that a program minds because
it could not be looked up. -/
def System.NoRace (s : System κ δ γ χ ρ) : Event κ δ γ χ ρ → Prop
  | .act i fails =>
    (∀ held k next, s.running[i]? = some ⟨.call (.lookup k) next, held⟩ → fails = true →
      (next none).MayNeed care k → s.daemon.Idle k) ∧
    ∀ held h next, s.running[i]? = some ⟨.call (.create h) next, held⟩ → fails = false →
      s.daemon.create kind h ≠ none →
        ∀ j r, j ≠ i → s.running[j]? = some r → ¬ r.Minds care h.name
  | .begin _ | .evolve _ _ => True

variable {kind} {care} in
/-- A step that fails nothing is no race when the other programs hold nothing. -/
theorem System.noRace_of_unheld {s : System κ δ γ χ ρ} {i : ℕ}
    (h : (s.running.eraseIdx i).all (·.held.isNone) = true) :
    s.NoRace kind care (.act i false) := by
  refine ⟨by rintro _ _ _ _ ⟨⟩, fun held h' next _ _ _ j r hj hr hminds => ?_⟩
  have hnone := List.all_eq_true.mp h r (List.mem_eraseIdx_iff_getElem?.mpr ⟨j, hj, hr⟩)
  rw [hminds.1] at hnone
  cases hnone

variable {kind} {care} in
/-- Nor is it when there is no other program. -/
theorem System.noRace_of_alone {s : System κ δ γ χ ρ} (h : s.running.length = 1) :
    s.NoRace kind care (.act 0 false) := by
  obtain ⟨r, hr⟩ := List.length_eq_one_iff.mp h
  exact noRace_of_unheld (by rw [hr]; rfl)

/-- What is live agrees with what is defined, and nothing is live of what a program minds. -/
structure System.Settled (s : System κ δ γ χ ρ) : Prop where
  agrees : s.daemon.Agrees care
  minded : ∀ (i : ℕ) (r : Running κ δ γ χ ρ) (k : κ), s.running[i]? = some r → r.Minds care k →
    s.daemon.Idle k

section Settled

variable {kind} {care} {d : State κ δ γ} {k k' : κ} {o : Object δ γ}

theorem State.Agrees.put (h : d.Agrees care)
    (ho : ∀ l, o.live = some l → care.agrees l.config o.persistent) : (d.put k o).Agrees care := by
  intro k' o' l hk' hl
  rcases of_put hk' with ⟨-, rfl⟩ | ⟨-, hk'⟩
  · exact ho l hl
  · exact h k' o' l hk' hl

theorem State.Idle.put (h : d.Idle k') (ho : k' = k → o.live = none) : (d.put k o).Idle k' := by
  intro o' hk'
  rcases of_put hk' with ⟨rfl, rfl⟩ | ⟨-, hk'⟩
  · exact ho rfl
  · exact h o' hk'

variable {s s' : System κ δ γ χ ρ} {e : Event κ δ γ χ ρ} {fails : Bool} {held : Option κ}
  {c : Call κ δ χ} {i : ℕ}

/-- **A call** that starts nothing of a name leaves it idle. -/
theorem State.Idle.leaves (h : d.Idle k) {d' : State κ δ γ} (hd : d.Leaves kind fails c d')
    (hstart : ∀ h', c = .create h' → fails = false → d.create kind h' ≠ none → h'.name ≠ k) :
    d'.Idle k := by
  cases hd with
  | same => exact h
  | define hpersistent hlive =>
    refine h.put fun hk => ?_
    rcases hlive with ⟨-, hlive⟩ | ⟨o₀, ho₀, hlive, -⟩
    · exact hlive
    · rw [hlive, h o₀ (hk ▸ ho₀)]
  | create hfails hstarts => exact h.put fun hk => absurd hk.symm (hstart _ rfl hfails hstarts)
  | destroy => exact h.put fun _ => rfl
  | undefine ho | modify ho | setAutostart ho =>
    refine h.put fun hk => ?_
    subst hk
    have hidle := h _ ho
    exact hidle

/-- **A careful call** leaves what is live and what is defined in agreement. -/
theorem State.Agrees.leaves (h : d.Agrees care) {d' : State κ δ γ}
    (hd : d.Leaves kind fails c d') (hidle : ∀ k, held = some k → care.needs k c → d.Idle k)
    (hcareful : Careful kind care held c) : d'.Agrees care := by
  cases hd with
  | same => exact h
  | define hpersistent hlive =>
    refine h.put fun l hl => ?_
    rcases hlive with ⟨-, hlive⟩ | ⟨o₀, ho₀, hlive, -⟩
    · cases hlive.symm.trans hl
    · rw [hpersistent]
      rcases hcareful with ⟨hheld, hneeds⟩ | hagrees
      · cases (hidle _ hheld hneeds o₀ ho₀).symm.trans (hlive.symm.trans hl)
      · exact hagrees _
  | create _ _ _ _ hpersistent =>
    refine h.put fun l hl => ?_
    obtain rfl := Option.some.inj hl
    exact hpersistent ▸ care.self _
  | destroy => exact h.put (by rintro l ⟨⟩)
  | undefine ho hcan =>
    refine h.put fun l hl => ?_
    rcases hcan with htransient | hlive
    · rcases hcareful htransient with ⟨hheld, hneeds⟩ | hagrees
      · cases (hidle _ hheld hneeds _ ho).symm.trans hl
      · exact hagrees _
    · cases hlive.symm.trans hl
  | modify ho hpersistent =>
    refine h.put fun l hl => ?_
    rcases hcareful with ⟨hheld, hneeds⟩ | hagrees
    · cases (hidle _ hheld hneeds _ ho).symm.trans hl
    · exact hagrees _ _ (hpersistent ▸ h _ _ l ho hl)
  | setAutostart ho =>
    refine h.put fun l hl => ?_
    have hlive := h _ _ l ho hl
    exact hlive

/-! ### What answers show -/

theorem State.idle_of_lookup
    (h : (d.answer kind false (.lookup k : Call κ δ χ)).1 = none) : d.Idle k := by
  have hnone : d.objects k = none := Option.map_eq_none_iff.mp h
  intro o ho
  cases hnone.symm.trans ho

theorem State.idle_of_status {h' : Handle κ}
    (h : (d.answer kind fails (.status h' : Call κ δ χ)).1 = some none) : d.Idle h'.name := by
  obtain ⟨o, ho, hlive⟩ := status_eq_some h
  intro o' ho'
  obtain rfl := Option.some.inj (ho.symm.trans ho')
  exact Option.map_eq_none_iff.mp hlive

theorem State.idle_of_destroy {h' : Handle κ}
    (h : (d.answer kind fails (.destroy h' : Call κ δ χ)).1 = true) :
    (d.answer kind fails (.destroy h' : Call κ δ χ)).2.Idle h'.name := by
  rcases d.attempt_cases fails (d.destroy h') with ⟨d', hd', heq⟩ | heq
  · obtain ⟨o, -, rfl⟩ := destroy_eq_some hd'
    rw [State.answer, heq]
    intro o' ho'
    rcases of_put ho' with ⟨-, rfl⟩ | ⟨hne, -⟩
    · rfl
    · exact absurd rfl hne
  · rw [State.answer, heq] at h
    cases h

/-- **A call** leaves the name idle that its program holds then. -/
theorem State.idle_heldAfter (hheld : held = some k → d.Idle k)
    (hlookup : c = .lookup k → fails = true → d.Idle k)
    (hk : heldAfter held c (d.answer kind fails c).1 = some k) :
    (d.answer kind fails c).2.Idle k := by
  cases c with
  | lookup k' =>
    cases hanswer : (d.answer kind fails (.lookup k' : Call κ δ χ)).1 with
    | none =>
      rw [hanswer] at hk
      obtain rfl := Option.some.inj hk
      cases fails with
      | true => exact hlookup rfl rfl
      | false => exact idle_of_lookup hanswer
    | some h' =>
      rw [hanswer] at hk
      exact hheld hk
  | status h' =>
    cases hanswer : (d.answer kind fails (.status h' : Call κ δ χ)).1 with
    | none =>
      rw [hanswer] at hk
      exact hheld hk
    | some g =>
      rw [hanswer] at hk
      cases g with
      | some g => exact hheld hk
      | none =>
        obtain rfl := Option.some.inj hk
        exact idle_of_status hanswer
  | create h' =>
    -- what is started is no longer held
    rcases d.attempt_cases fails (d.create kind h') with ⟨d', hd', heq⟩ | heq
    · rw [State.answer, heq] at hk
      cases hk
    · rw [State.answer, heq] at hk ⊢
      exact hheld hk
  | destroy h' =>
    cases hanswer : (d.answer kind fails (.destroy h' : Call κ δ χ)).1 with
    | true =>
      rw [hanswer] at hk
      obtain rfl := Option.some.inj hk
      exact idle_of_destroy hanswer
    | false =>
      rw [hanswer] at hk
      exact (hheld hk).leaves (d.leaves fails _) (by rintro h' ⟨⟩)
  | describe | definition | define | undefine | modify | getAutostart | setAutostart | other =>
    exact (hheld hk).leaves (d.leaves fails _) (by rintro h' ⟨⟩)

omit [DecidableEq κ] in
/-- Nothing is live of what a call takes it that nothing is live of. -/
theorem System.Settled.idle (h : s.Settled care) (hc : s.Next i held c) (hheld : held = some k)
    (hneeds : care.needs k c) : s.daemon.Idle k := by
  obtain ⟨next, hr⟩ := hc
  exact h.minded i _ k hr ⟨hheld, .now hneeds⟩

/-- **Every step** leaves what is live and what is defined in agreement. -/
theorem System.Settled.step (h : s.Settled care) (hnext : ∀ i held c, s.Next i held c →
    Careful kind care held c) (hrace : s.NoRace kind care e) (hs : s.step kind e = some s') :
    s'.Settled care := by
  cases e with
  | begin p =>
    obtain rfl := Option.some.inj hs
    refine ⟨h.agrees, fun i r k hr hk => ?_⟩
    rw [List.getElem?_append] at hr
    split at hr
    · exact h.minded i r k hr hk
    · obtain rfl := List.mem_singleton.mp (List.mem_of_getElem? hr)
      cases hk.1
  | act i fails =>
    obtain ⟨held, c, next, hr, rfl⟩ := act_eq_some hs
    obtain ⟨hlookup, hstart⟩ := hrace
    have hleaves := @State.leaves _ _ _ _ _ kind s.daemon fails c
    refine ⟨h.agrees.leaves hleaves (fun k => h.idle ⟨next, hr⟩) (hnext i held c ⟨next, hr⟩),
      fun j r k hj hk => ?_⟩
    by_cases hji : j = i
    · subst hji
      rw [List.getElem?_set_self (List.getElem?_eq_some_iff.mp hr).1] at hj
      obtain rfl := Option.some.inj hj
      refine State.idle_heldAfter (fun hheld => ?_) ?_ hk.1
      · exact h.minded j _ k hr ⟨hheld, .later hk.2⟩
      · rintro rfl rfl
        exact hlookup held k next hr rfl hk.2
    · rw [List.getElem?_set_ne (Ne.symm hji)] at hj
      refine (h.minded j r k hj hk).leaves hleaves ?_
      rintro h' rfl hfails hstarts rfl
      exact hstart held h' next hr hfails hstarts j r hji hj hk
  | evolve k g =>
    obtain ⟨d, hd, rfl⟩ := Option.map_eq_some_iff.mp hs
    obtain ⟨o, l, ho, hl, rfl⟩ := State.evolve_eq_some hd
    refine ⟨h.agrees.put fun l' hl' => ?_, fun i r k' hr hk' => ?_⟩
    · obtain ⟨g, -, rfl⟩ := Option.map_eq_some_iff.mp hl'
      exact h.agrees k o l ho hl
    · refine (h.minded i r k' hr hk').put fun heq => ?_
      rw [h.minded i r k' hr hk' o (heq ▸ ho)] at hl
      cases hl

/-- **What is live agrees with what is defined**, in every run of careful programs in which nothing
is started that another program minds. -/
theorem settled_of_run {R : Rules κ δ γ χ} (hcareful : ∀ held c, R.may held c →
    Careful kind care held c) {es : List (Event κ δ γ χ ρ)} {s₀ : System κ δ γ χ ρ}
    (hobeys : s₀.Obeys R) (hsettled : s₀.Settled care)
    (hregular : Machine.Along (System.step kind)
      (fun s e => s.Regular R kind e ∧ s.NoRace kind care e) s₀ es)
    (hrun : Machine.run (System.step kind) s₀ es = some s) : s.Settled care ∧ s.Obeys R :=
  Machine.run_inv (I := fun s => s.Settled care ∧ s.Obeys R)
    (fun _ _ _ hI he hs => ⟨hI.1.step (fun _ _ _ hc => hcareful _ _ (hI.2.next hc)) he.2 hs,
      hI.2.step he.1 hs⟩) ⟨hsettled, hobeys⟩ hregular hrun

end Settled

/-! ## What is live stays -/

section Stays

variable {kind} {d : State κ δ γ} {s s' : System κ δ γ χ ρ} {e : Event κ δ γ χ ρ} {fails : Bool}
  {c : Call κ δ χ} {k : κ} {u : ℕ} {cfg : δ}

/-- The object of the name is live, with this configuration. -/
def State.Runs (d : State κ δ γ) (k : κ) (u : ℕ) (cfg : δ) : Prop :=
  ∃ o g, d.objects k = some o ∧ o.uuid = u ∧ o.live = some ⟨cfg, g⟩

theorem State.Runs.put {k' : κ} {o : Object δ γ} (h : d.Runs k u cfg)
    (ho : k' = k → o.uuid = u ∧ ∃ g, o.live = some ⟨cfg, g⟩) : (d.put k' o).Runs k u cfg := by
  by_cases hk : k = k'
  · obtain ⟨hu, g, hg⟩ := ho hk.symm
    exact ⟨o, g, by rw [hk]; exact put_self hg, hu, hg⟩
  · obtain ⟨o', g, ho', hu, hg⟩ := h
    exact ⟨o', g, by rw [State.objects_put, if_neg hk, ho'], hu, hg⟩

/-- **A call** that does not destroy what is live leaves it so. -/
theorem State.Runs.leaves (h : d.Runs k u cfg) {d' : State κ δ γ} (hd : d.Leaves kind fails c d')
    (hc : ∀ h', c = .destroy h' → h'.name ≠ k) : d'.Runs k u cfg := by
  obtain ⟨o, g, ho, hu, hg⟩ := id h
  cases hd with
  | same => exact h
  | define hpersistent hlive =>
    refine h.put fun hk => ?_
    subst hk
    rcases hlive with ⟨hnone, -⟩ | ⟨o₀, ho₀, hlive, huuid⟩
    · cases hnone.symm.trans ho
    · obtain rfl := Option.some.inj (ho₀.symm.trans ho)
      exact ⟨huuid.trans hu, g, hlive.trans hg⟩
  | create _ _ ho' hidle =>
    refine h.put fun hk => ?_
    obtain rfl := Option.some.inj ((hk ▸ ho').symm.trans ho)
    cases hidle.symm.trans hg
  | destroy => exact h.put fun hk => absurd hk (hc _ rfl)
  | undefine ho' | modify ho' | setAutostart ho' =>
    refine h.put fun hk => ?_
    obtain rfl := Option.some.inj ((hk ▸ ho').symm.trans ho)
    exact ⟨hu, g, hg⟩

/-- A call that does not destroy an object. -/
def Spares (k : κ) : Call κ δ χ → Prop
  | .destroy h => h.name ≠ k
  | .lookup _ | .status _ | .describe _ | .definition _ | .define _ _ | .create _ | .undefine _
  | .modify _ _ | .getAutostart _ | .setAutostart _ _ | .other _ => True

omit [DecidableEq κ] in
theorem spares_of_destroy (h : ∀ h', c = .destroy h' → h'.name ≠ k) : Spares k c := by
  cases c with
  | destroy h' => exact h h' rfl
  | lookup | status | describe | definition | define | create | undefine | modify | getAutostart
  | setAutostart | other => trivial

/-- It does not stop by itself. -/
def Event.KeepsUp (k : κ) : Event κ δ γ χ ρ → Prop
  | .evolve k' g => k' = k → g ≠ none
  | .begin _ | .act _ _ => True

theorem State.Runs.step (h : s.daemon.Runs k u cfg) (hnext : ∀ i held (c : Call κ δ χ),
    s.Next i held c → Spares k c) (he : e.KeepsUp k) (hs : s.step kind e = some s') :
    s'.daemon.Runs k u cfg := by
  cases e with
  | begin p =>
    obtain rfl := Option.some.inj hs
    exact h
  | act i fails =>
    obtain ⟨held, c, next, hr, rfl⟩ := System.act_eq_some hs
    refine h.leaves (s.daemon.leaves fails c) ?_
    rintro h' rfl
    exact hnext i held _ ⟨next, hr⟩
  | evolve k' g =>
    obtain ⟨d, hd, rfl⟩ := Option.map_eq_some_iff.mp hs
    obtain ⟨o, l, ho, hl, rfl⟩ := State.evolve_eq_some hd
    obtain ⟨o', g', ho', hu, hg'⟩ := id h
    refine h.put fun hk => ?_
    subst hk
    obtain rfl := Option.some.inj (ho.symm.trans ho')
    obtain ⟨g, rfl⟩ := Option.ne_none_iff_exists'.mp (he rfl)
    obtain rfl := Option.some.inj (hl.symm.trans hg')
    exact ⟨hu, g, rfl⟩

/-- **What is live stays**, with the configuration it was started with, in every run in which no
program destroys it and it does not stop by itself. -/
theorem live_of_run {R : Rules κ δ γ χ} (hspares : ∀ held c, R.may held c → Spares k c)
    {es : List (Event κ δ γ χ ρ)} {s₀ : System κ δ γ χ ρ} (hobeys : s₀.Obeys R)
    (hlive : s₀.daemon.Runs k u cfg)
    (hregular : Machine.Along (System.step kind)
      (fun s e => s.Regular R kind e ∧ e.KeepsUp k) s₀ es)
    (hrun : Machine.run (System.step kind) s₀ es = some s) : s.daemon.Runs k u cfg := by
  have hinv := Machine.run_inv (I := fun s => s.daemon.Runs k u cfg ∧ s.Obeys R)
    (fun _ _ _ hI he hs => ⟨hI.1.step (fun _ _ _ hc => hspares _ _ (hI.2.next hc)) he.2 hs,
      hI.2.step he.1 hs⟩) ⟨hlive, hobeys⟩ hregular hrun
  exact hinv.1

end Stays

end Daemon

end Ultrav
