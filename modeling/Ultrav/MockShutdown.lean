import Ultrav.MockPower

/-!
# Graceful shutdowns of the mock provider

When the goroutine of a shutdown wakes up it looks only at the state of its machine. It cannot tell
whether the machine has been stopped and started meanwhile and is shutting down again.

* `goes_down` — a machine gets into `shuttingDown` by a shutdown, which starts the newest goroutine
  that holds it.
* `OwnTimer` — a machine that is shutting down is powered off by that goroutine.
* `Unhurried` — a shutdown finds no goroutine that sleeps and holds the same machine.
* `ownTimer_iff` — the runs in which the next to wake up is always the right one.
-/

namespace Ultrav.Fleet

open Machine

/-! ## Goroutines -/

/-- No later goroutine holds the machine. -/
def Provider.Newest (p : Provider) (i r : ℕ) : Prop :=
  ∀ j s, i < j → p.sleepers[j]? = some s → s.vm ≠ r

/-- A machine that is shutting down is only powered off by the goroutine of the shutdown that put it
into this state, which is the newest one that holds it. -/
def OwnTimer (p : Provider) : Event → Prop
  | .wake i => ∀ r vm, p.sleepers[i]? = some ⟨r, true⟩ → p.heap[r]? = some vm →
      vm.state = .shuttingDown → p.Newest i r
  | .call _ => True

/-- No goroutine of an earlier shutdown of the machine is asleep. -/
def Unhurried (p : Provider) : Event → Prop
  | .call (.shutdown id) => ∀ r vm, p.find id = some (r, vm) → vm.state = .running →
      ∀ s ∈ p.sleepers, s.vm = r → s.asleep = false
  | _ => True

variable {p p' : Provider}

/-- A machine is never put into `shuttingDown` by a move. -/
theorem Move.shuttingDown {vm vm' : VM} (h : Move vm vm') (hs : vm'.state = .shuttingDown) :
    vm.state = .shuttingDown := by
  cases h with
  | poweredOn now h => cases hs
  | resumed h => cases hs
  | rebooted now h => exact hs
  | poweredOff => cases hs
  | updated req network => exact hs

theorem getElem?_put {r k : ℕ} {vm vm' : VM} (h : (p.put r vm').heap[k]? = some vm) :
    k = r ∧ vm = vm' ∨ p.heap[k]? = some vm := by
  rw [Provider.put, List.getElem?_set] at h
  split at h
  · rename_i hk
    split at h
    · exact .inl ⟨hk.symm, (Option.some.inj h).symm⟩
    · cases h
  · exact .inr h

/-- **How a machine gets to shut down**: by a shutdown that starts a goroutine of its own. -/
theorem goes_down {e : Event} (hstep : step p e = some p') {r : ℕ} {vm vm' : VM}
    (hvm : p.heap[r]? = some vm) (hs : vm.state ≠ .shuttingDown) (hvm' : p'.heap[r]? = some vm')
    (hs' : vm'.state = .shuttingDown) :
    ∃ id, e = .call (.shutdown id) ∧ p'.sleepers = p.sleepers ++ [⟨r, true⟩] := by
  have hsame {q : Provider} (hq : q.heap[r]? = some vm') (hheap : q.heap = p.heap) : False := by
    rw [hheap, hvm] at hq
    exact hs ((Option.some.inj hq) ▸ hs')
  cases effect_step hstep with
  | same => exact (hsame hvm' rfl).elim
  | created he fresh =>
    rw [Provider.register, List.getElem?_append_left (List.getElem?_eq_some_iff.mp hvm).1] at hvm'
    exact (hsame hvm' rfl).elim
  | @moved r' v v' found move =>
    rcases getElem?_put hvm' with ⟨rfl, rfl⟩ | hold
    · obtain rfl := Option.some.inj (found.symm.trans hvm)
      exact absurd (move.shuttingDown hs') hs
    · exact (hsame hold rfl).elim
  | @shutDown id r' v he found running =>
    rcases getElem?_put (p := p) hvm' with ⟨rfl, rfl⟩ | hold
    · exact ⟨id, he, rfl⟩
    · exact (hsame hold rfl).elim
  | deleted found stopped => exact (hsame hvm' rfl).elim
  | woke he asleep => exact (hsame hvm' rfl).elim
  | @wokeAndStopped i r' v he asleep found down =>
    rcases getElem?_put (p := p.awake i r') hvm' with ⟨rfl, rfl⟩ | hold
    · cases hs'
    · exact (hsame hold rfl).elim

/-! ## At most one sleeps -/

/-- A goroutine that sleeps is the newest one that holds its machine. -/
def Single (p : Provider) : Prop :=
  ∀ i r, p.sleepers[i]? = some ⟨r, true⟩ → p.Newest i r

/-- The goroutines after one has woken up hold what they held, and those that sleep slept. -/
theorem getElem?_awake {i j r : ℕ} {s : Sleeper} (hi : p.sleepers[i]? = some ⟨r, true⟩)
    (hj : (p.awake i r).sleepers[j]? = some s) :
    ∃ s₀, p.sleepers[j]? = some s₀ ∧ s₀.vm = s.vm ∧ (s.asleep = true → s₀ = s) := by
  rw [Provider.awake, List.getElem?_set] at hj
  split at hj
  · rename_i hij
    subst hij
    split at hj
    · obtain rfl := Option.some.inj hj
      exact ⟨_, hi, rfl, nofun⟩
    · cases hj
  · exact ⟨s, hj, rfl, fun _ => rfl⟩

theorem Single.awake {i r : ℕ} (h : Single p) (hi : p.sleepers[i]? = some ⟨r, true⟩) :
    Single (p.awake i r) := by
  intro k v hk j s hkj hj hsv
  obtain ⟨s₀, hk₀, _, hsame⟩ := getElem?_awake hi hk
  obtain rfl := hsame rfl
  obtain ⟨s₁, hj₀, hs₁, _⟩ := getElem?_awake hi hj
  exact h k v hk₀ j s₁ hkj hj₀ (hs₁.trans hsv)

theorem Single.spawn {r : ℕ} (h : Single p) (hr : ∀ s ∈ p.sleepers, s.vm = r → s.asleep = false) :
    Single (p.spawn r) := by
  intro i v hi j s hij hj hsv
  have hlen := (List.getElem?_eq_some_iff.mp hj).1
  rw [Provider.spawn, List.length_append, List.length_singleton] at hlen
  rw [Provider.spawn, List.getElem?_append_left (by omega)] at hi
  by_cases hjl : j < p.sleepers.length
  · rw [Provider.spawn, List.getElem?_append_left hjl] at hj
    exact h i v hi j s hij hj hsv
  · obtain rfl : j = p.sleepers.length := by omega
    rw [Provider.spawn, List.getElem?_concat_length] at hj
    obtain rfl := Option.some.inj hj
    exact absurd (hr _ (List.mem_of_getElem? hi) hsv.symm) Bool.noConfusion

/-- **One step** keeps it so, unless a shutdown comes too early. -/
theorem single_step {e : Event} (h : Single p) (hg : Unhurried p e)
    (hstep : step p e = some p') : Single p' := by
  cases effect_step hstep with
  | same => exact h
  | created he fresh => exact h
  | moved found move => exact h
  | @shutDown id r vm he found running =>
    subst he
    have hput : Single (p.put r { vm with state := .shuttingDown }) := h
    exact hput.spawn (hg r vm found running)
  | deleted found stopped => exact h
  | woke he asleep => exact h.awake asleep
  | wokeAndStopped he asleep found down => exact h.awake asleep

/-- A goroutine that is newest does not wake up early. -/
theorem Single.ownTimer (h : Single p) (e : Event) : OwnTimer p e := by
  cases e with
  | call c => trivial
  | wake i => exact fun r vm hi _ _ => h i r hi

theorem single_new (now : ℤ) : Single (new now) := fun _ _ hi => by cases hi

/-! ## Runs -/

theorem step_shutdown {id : String} {r : ℕ} {vm : VM} (hfind : p.find id = some (r, vm))
    (hs : vm.state = .running) :
    step p (.call (.shutdown id)) =
      some ((p.put r { vm with state := .shuttingDown }).spawn r) := by
  rw [step, Call.perform, Provider.locked, hfind]
  simp only
  rw [if_neg (not_not_intro hs)]

/-- After a shutdown that comes too early, the goroutine of the one before may wake up first. -/
theorem unhurried_of_ownTimer {e : Event}
    (h : ∀ p' i, step p e = some p' → OwnTimer p' (.wake i)) : Unhurried p e := by
  cases e with
  | wake i => trivial
  | call c =>
    cases c with
    | shutdown id =>
      intro r vm hfind hs s hmem hsr
      by_contra hasleep
      obtain ⟨i, hi⟩ := List.mem_iff_getElem?.mp hmem
      have hlt := (List.getElem?_eq_some_iff.mp hi).1
      have hheap := (List.getElem?_eq_some_iff.mp (Provider.find_eq_some.mp hfind).2).1
      obtain ⟨v, asleep⟩ := s
      obtain rfl : v = r := hsr
      obtain rfl : asleep = true := Bool.eq_true_of_not_eq_false hasleep
      have hown := h _ i (step_shutdown hfind hs) v { vm with state := .shuttingDown }
        ((List.getElem?_append_left hlt).trans hi) (List.getElem?_set_self hheap) rfl
      exact hown _ _ hlt List.getElem?_concat_length rfl
    | _ => trivial

/-- **Grace periods**: whichever goroutine wakes up next at any time of a run, it only powers off a
machine that is shutting down because of its own shutdown. This is so exactly when no machine is
shut down again while the goroutine of an earlier shutdown of it sleeps. -/
theorem ownTimer_iff (now : ℤ) (es : List Event) :
    (∀ pre i, pre <+: es → Along step OwnTimer (new now) (pre ++ [.wake i])) ↔
      Along step Unhurried (new now) es := by
  constructor
  · intro h
    refine along_of_prefixes fun pre e post t hes hr => unhurried_of_ownTimer fun p' i hp' => ?_
    have hpre : pre ++ [e] <+: es := ⟨post, by rw [hes, List.append_assoc]; rfl⟩
    have hrun : run step (new now) (pre ++ [e]) = some p' := by
      rw [run_append, hr, Option.bind_some, run_cons, hp']
      rfl
    exact (h _ i hpre).of_run hrun
  · rintro h pre i ⟨post, rfl⟩
    have hG : Along step Unhurried (new now) (pre ++ [.wake i]) :=
      h.left.append fun t => ⟨trivial, fun _ _ => trivial⟩
    exact along_of_inv (fun _ _ _ => single_step) (fun _ e hs _ => hs.ownTimer e)
      (single_new now) hG

/-! ### A machine that is shut down twice -/

/-- The goroutine of the first shutdown wakes up after the second one. -/
def shutDownTwice : List Event :=
  [.call (.shutdown "web01"), .call (.forceStop "web01"), .call (.start 0 "web01"),
    .call (.shutdown "web01")]

/-- The machine has been stopped and started meanwhile, and is powered off early. -/
theorem not_ownTimer : ¬ Along step OwnTimer (new 0) (shutDownTwice ++ [.wake 0]) := by
  intro h
  have hown := h.of_run (show run step (new 0) shutDownTwice = some _ from rfl)
  exact hown 1 _ rfl rfl rfl 1 _ (by decide) rfl rfl

end Ultrav.Fleet
