import Ultrav.Machine

/-!
# Programs that talk to a daemon

A daemon keeps objects. What is defined of an object persists; what it was started with is live
until it is destroyed, whatever becomes of its definition. Programs ask the daemon one call at a
time, side by side, and go on by the answers.

* `State`, `Call`, `State.answer` — the daemon, its calls, and what it answers to one of them.
* `State.Leaves` — what a call leaves.
* `Prog` / `System.step` — a program, and one step of several of them.
* `Rules` / `Prog.Keeps` — what a program keeps to, by what it has seen. There is a rule for each
  call.
* `obeys_of_run` — what the programs of a run keep to.
-/

namespace Ultrav

namespace Daemon

variable {κ δ γ χ ρ : Type}

/-! ## The daemon -/

/-- What is live: what it was started with, and how it is. -/
structure Live (δ γ : Type) where
  config : δ
  guest : γ
  deriving DecidableEq

/-- An object. -/
structure Object (δ γ : Type) where
  /-- a number that no other object gets -/
  uuid : ℕ
  persistent : Option δ
  live : Option (Live δ γ)
  autostart : Bool
  deriving DecidableEq

/-- The objects, by their names. -/
structure State (κ δ γ : Type) where
  objects : κ → Option (Object δ γ)
  /-- the next number that is given -/
  next : ℕ

/-- What a program has of an object that it has found. -/
structure Handle (κ : Type) where
  name : κ
  uuid : ℕ
  deriving DecidableEq

/-- How a daemon treats its objects. -/
structure Kind (γ : Type) where
  /-- what is live can do without a definition -/
  transient : Bool
  /-- how an object is when it is started -/
  boots : γ

/-- A call. -/
inductive Call (κ δ χ : Type) where
  | lookup (k : κ)
  | status (h : Handle κ)
  | describe (h : Handle κ)
  /-- what it is defined with, if it is defined -/
  | definition (h : Handle κ)
  | define (k : κ) (d : δ)
  | create (h : Handle κ)
  | destroy (h : Handle κ)
  | undefine (h : Handle κ)
  /-- its definition is changed -/
  | modify (h : Handle κ) (f : δ → δ)
  | getAutostart (h : Handle κ)
  | setAutostart (h : Handle κ) (b : Bool)
  /-- a call that leaves the objects as they are -/
  | other (x : χ)

/-- What a call is answered; `none` and `false` when it fails. -/
@[reducible]
def Call.Answer (γ : Type) : Call κ δ χ → Type
  | lookup _ | define _ _ => Option (Handle κ)
  | status _ => Option (Option γ)
  | describe _ | definition _ => Option δ
  | getAutostart _ => Option Bool
  | create _ | destroy _ | undefine _ | modify _ _ | setAutostart _ _ | other _ => Bool

namespace State

variable (s : State κ δ γ)

/-- The object of a handle, unless it is gone. -/
def find (h : Handle κ) : Option (Object δ γ) := (s.objects h.name).filter fun o => o.uuid = h.uuid

variable {s} in
theorem find_eq_some {h : Handle κ} {o : Object δ γ} :
    s.find h = some o ↔ s.objects h.name = some o ∧ o.uuid = h.uuid := by
  simp [find, Option.filter_eq_some_iff]

variable [DecidableEq κ]

/-- An object is as it is now; one that is neither defined nor live is gone. -/
def put (k : κ) (o : Object δ γ) : State κ δ γ :=
  { s with
    objects := Function.update s.objects k
      (if o.persistent.isSome || o.live.isSome then some o else none) }

/-- An object is defined; one of this name gets the definition when it is there. -/
def define (k : κ) (d : δ) : Handle κ × State κ δ γ :=
  match s.objects k with
  | none => (⟨k, s.next⟩, { s.put k ⟨s.next, some d, none, false⟩ with next := s.next + 1 })
  | some o => (⟨k, o.uuid⟩, s.put k { o with persistent := some d })

/-- It is started with its definition. -/
def create (kind : Kind γ) (h : Handle κ) : Option (State κ δ γ) :=
  (s.find h).bind fun o =>
    match o.live, o.persistent with
    | none, some d => some (s.put h.name { o with live := some ⟨d, kind.boots⟩ })
    | _, _ => none

/-- It is stopped. -/
def destroy (h : Handle κ) : Option (State κ δ γ) :=
  (s.find h).bind fun o =>
    if o.live.isSome then some (s.put h.name { o with live := none }) else none

/-- Its definition is removed. -/
def undefine (kind : Kind γ) (h : Handle κ) : Option (State κ δ γ) :=
  (s.find h).bind fun o =>
    if o.persistent.isSome && (kind.transient || o.live.isNone) then
      some (s.put h.name { o with persistent := none })
    else none

/-- Its definition is changed. -/
def modify (h : Handle κ) (f : δ → δ) : Option (State κ δ γ) :=
  (s.find h).bind fun o => o.persistent.map fun d =>
    s.put h.name { o with persistent := some (f d) }

/-- It is started with the host, or not. -/
def setAutostart (h : Handle κ) (b : Bool) : Option (State κ δ γ) :=
  (s.find h).bind fun o =>
    if o.persistent.isSome then some (s.put h.name { o with autostart := b }) else none

/-- What is live changes by itself, or stops. -/
def evolve (k : κ) (g : Option γ) : Option (State κ δ γ) :=
  (s.objects k).bind fun o => o.live.map fun l =>
    s.put k { o with live := g.map fun g => ⟨l.config, g⟩ }

/-- A call that the daemon may refuse. -/
def attempt (fails : Bool) (r : Option (State κ δ γ)) : Bool × State κ δ γ :=
  match fails, r with
  | false, some s' => (true, s')
  | _, _ => (false, s)

/-- What a call is answered, and what it leaves. -/
def answer (kind : Kind γ) (fails : Bool) : (c : Call κ δ χ) → c.Answer γ × State κ δ γ
  | .lookup k => (if fails then none else (s.objects k).map fun o => ⟨k, o.uuid⟩, s)
  | .status h => (if fails then none else (s.find h).map fun o => o.live.map Live.guest, s)
  | .describe h =>
    (if fails then none else (s.find h).bind fun o => (o.live.map Live.config).or o.persistent, s)
  | .definition h =>
    (if fails then none else (s.find h).bind fun o => o.persistent.or (o.live.map Live.config), s)
  | .getAutostart h => (if fails then none else (s.find h).map Object.autostart, s)
  | .define k d => if fails then (none, s) else ((s.define k d).map some id)
  | .create h => s.attempt fails (s.create kind h)
  | .destroy h => s.attempt fails (s.destroy h)
  | .undefine h => s.attempt fails (s.undefine kind h)
  | .modify h f => s.attempt fails (s.modify h f)
  | .setAutostart h b => s.attempt fails (s.setAutostart h b)
  | .other _ => (!fails, s)

end State

/-! ## Programs -/

/-- A program: the next call, and how it goes on. -/
inductive Prog (κ δ γ χ ρ : Type) where
  | ret (r : ρ)
  | call (c : Call κ δ χ) (next : c.Answer γ → Prog κ δ γ χ ρ)

/-- The name that a program has seen without anything live. -/
def heldAfter (held : Option κ) : (c : Call κ δ χ) → c.Answer γ → Option κ
  | .lookup k, none => some k
  | .status h, some none => some h.name
  | .create _, true => none
  | .destroy h, true => some h.name
  | _, _ => held

/-- A program at work. -/
structure Running (κ δ γ χ ρ : Type) where
  prog : Prog κ δ γ χ ρ
  held : Option κ

/-- The daemon and the programs, in the order they have begun. -/
structure System (κ δ γ χ ρ : Type) where
  daemon : State κ δ γ
  running : List (Running κ δ γ χ ρ)

/-- A step. -/
inductive Event (κ δ γ χ ρ : Type) where
  | begin (p : Prog κ δ γ χ ρ)
  /-- a program makes its next call, which may fail -/
  | act (i : ℕ) (fails : Bool)
  /-- what is live changes by itself, or stops -/
  | evolve (k : κ) (g : Option γ)

/-! ## What programs keep to -/

/-- What programs keep to. -/
structure Rules (κ δ γ χ : Type) where
  /-- the calls that they make, by the name that they hold -/
  may : Option κ → Call κ δ χ → Prop
  /-- what they define -/
  sound : κ → δ → Prop
  /-- the answers that they rely on -/
  relies : (c : Call κ δ χ) → c.Answer γ → Prop

variable (R : Rules κ δ γ χ)

/-- What is known of an answer: a handle is that of the name, and what is there is sound. -/
def Rules.Fits : (c : Call κ δ χ) → c.Answer γ → Prop
  | .lookup k, a => ∀ h, a = some h → h.name = k ∧ ∃ d, R.sound k d
  | .define k _, a => ∀ h, a = some h → h.name = k
  | .describe h, a | .definition h, a => ∀ d, a = some d → R.sound h.name d
  | _, _ => True

/-- What is defined by a call is sound, if what it changes is. -/
def Rules.Defines : Call κ δ χ → Prop
  | .define k d => R.sound k d
  | .modify h f => ∀ d, R.sound h.name d → R.sound h.name (f d)
  | _ => True

/-- A program keeps to the rules, from the name on that it holds. -/
def Prog.Keeps : Prog κ δ γ χ ρ → Option κ → Prop
  | ret _, _ => True
  | call c next, held => R.may held c ∧ R.Defines c ∧
    ∀ a, R.Fits c a → R.relies c a → (next a).Keeps (heldAfter held c a)

section Keeps

variable {R} {held : Option κ} {h : Handle κ} {k : κ}

theorem Prog.keeps_lookup {next : Option (Handle κ) → Prog κ δ γ χ ρ}
    (hmay : R.may held (.lookup k)) (hnone : (next none).Keeps R (some k))
    (hsome : ∀ h d, h.name = k → R.sound k d → (next (some h)).Keeps R held) :
    (call (.lookup k) next).Keeps R held := by
  refine ⟨hmay, trivial, fun a ha _ => ?_⟩
  cases a with
  | none => exact hnone
  | some h =>
    obtain ⟨hname, d, hd⟩ := ha h rfl
    exact hsome h d hname hd

theorem Prog.keeps_status {next : Option (Option γ) → Prog κ δ γ χ ρ}
    (hmay : R.may held (.status h)) (hfails : (next none).Keeps R held)
    (hidle : (next (some none)).Keeps R (some h.name))
    (hlive : ∀ g, R.relies (.status h) (some (some g)) → (next (some (some g))).Keeps R held) :
    (call (.status h) next).Keeps R held := by
  refine ⟨hmay, trivial, fun a _ ha => ?_⟩
  match a, ha with
  | none, _ => exact hfails
  | some none, _ => exact hidle
  | some (some g), ha => exact hlive g ha

theorem Prog.keeps_describe {next : Option δ → Prog κ δ γ χ ρ} (hmay : R.may held (.describe h))
    (hfails : (next none).Keeps R held)
    (hsome : ∀ d, R.sound h.name d → (next (some d)).Keeps R held) :
    (call (.describe h) next).Keeps R held := by
  refine ⟨hmay, trivial, fun a ha _ => ?_⟩
  cases a with
  | none => exact hfails
  | some d => exact hsome d (ha d rfl)

theorem Prog.keeps_definition {next : Option δ → Prog κ δ γ χ ρ}
    (hmay : R.may held (.definition h)) (hfails : (next none).Keeps R held)
    (hsome : ∀ d, R.sound h.name d → (next (some d)).Keeps R held) :
    (call (.definition h) next).Keeps R held := by
  refine ⟨hmay, trivial, fun a ha _ => ?_⟩
  cases a with
  | none => exact hfails
  | some d => exact hsome d (ha d rfl)

theorem Prog.keeps_define {d : δ} {next : Option (Handle κ) → Prog κ δ γ χ ρ}
    (hmay : R.may held (.define k d)) (hsound : R.sound k d) (hfails : (next none).Keeps R held)
    (hsome : ∀ h, h.name = k → (next (some h)).Keeps R held) :
    (call (.define k d) next).Keeps R held := by
  refine ⟨hmay, hsound, fun a ha _ => ?_⟩
  cases a with
  | none => exact hfails
  | some h => exact hsome h (ha h rfl)

theorem Prog.keeps_create {next : Bool → Prog κ δ γ χ ρ} (hmay : R.may held (.create h))
    (hfails : (next false).Keeps R held) (hdone : (next true).Keeps R none) :
    (call (.create h) next).Keeps R held := by
  refine ⟨hmay, trivial, fun a _ _ => ?_⟩
  cases a with
  | false => exact hfails
  | true => exact hdone

theorem Prog.keeps_destroy {next : Bool → Prog κ δ γ χ ρ} (hmay : R.may held (.destroy h))
    (hfails : (next false).Keeps R held) (hdone : (next true).Keeps R (some h.name)) :
    (call (.destroy h) next).Keeps R held := by
  refine ⟨hmay, trivial, fun a _ _ => ?_⟩
  cases a with
  | false => exact hfails
  | true => exact hdone

/-- The calls that change nothing of what a program has seen. -/
theorem Prog.keeps_undefine {next : Bool → Prog κ δ γ χ ρ} (hmay : R.may held (.undefine h))
    (hfails : (next false).Keeps R held) (hdone : (next true).Keeps R held) :
    (call (.undefine h) next).Keeps R held :=
  ⟨hmay, trivial, fun a _ _ => a.rec hfails hdone⟩

theorem Prog.keeps_modify {f : δ → δ} {next : Bool → Prog κ δ γ χ ρ}
    (hmay : R.may held (.modify h f)) (hsound : ∀ d, R.sound h.name d → R.sound h.name (f d))
    (hfails : (next false).Keeps R held) (hdone : (next true).Keeps R held) :
    (call (.modify h f) next).Keeps R held :=
  ⟨hmay, hsound, fun a _ _ => a.rec hfails hdone⟩

theorem Prog.keeps_getAutostart {next : Option Bool → Prog κ δ γ χ ρ}
    (hmay : R.may held (.getAutostart h)) (hnext : ∀ a, (next a).Keeps R held) :
    (call (.getAutostart h) next).Keeps R held :=
  ⟨hmay, trivial, fun a _ _ => hnext a⟩

theorem Prog.keeps_setAutostart {b : Bool} {next : Bool → Prog κ δ γ χ ρ}
    (hmay : R.may held (.setAutostart h b)) (hfails : (next false).Keeps R held)
    (hdone : (next true).Keeps R held) : (call (.setAutostart h b) next).Keeps R held :=
  ⟨hmay, trivial, fun a _ _ => a.rec hfails hdone⟩

theorem Prog.keeps_other {x : χ} {next : Bool → Prog κ δ γ χ ρ} (hmay : R.may held (.other x))
    (hfails : (next false).Keeps R held) (hdone : (next true).Keeps R held) :
    (call (.other x) next).Keeps R held :=
  ⟨hmay, trivial, fun a _ _ => a.rec hfails hdone⟩

end Keeps

/-! ## Runs -/

variable [DecidableEq κ] (kind : Kind γ)

/-- One step. -/
def System.step (s : System κ δ γ χ ρ) : Event κ δ γ χ ρ → Option (System κ δ γ χ ρ)
  | .begin p => some { s with running := s.running ++ [⟨p, none⟩] }
  | .act i fails =>
    s.running[i]?.bind fun r =>
      match r.prog with
      | .ret _ => none
      | .call c next =>
        let (a, d) := s.daemon.answer kind fails c
        some ⟨d, s.running.set i ⟨next a, heldAfter r.held c a⟩⟩
  | .evolve k g => (s.daemon.evolve k g).map fun d => { s with daemon := d }

/-! ## What the calls do -/

section Calls

variable {kind} {s s' : State κ δ γ} {h : Handle κ} {k k' : κ} {o o' : Object δ γ}

theorem State.objects_put (s : State κ δ γ) (k : κ) (o : Object δ γ) (k' : κ) :
    (s.put k o).objects k' = if k' = k then
      if o.persistent.isSome || o.live.isSome then some o else none
    else s.objects k' :=
  Function.update_apply ..

/-- What is there after an object has changed. -/
theorem State.of_put (hput : (s.put k o).objects k' = some o') :
    k' = k ∧ o' = o ∨ k' ≠ k ∧ s.objects k' = some o' := by
  rw [State.objects_put] at hput
  split at hput
  · rename_i hk
    split at hput
    · exact .inl ⟨hk, (Option.some.inj hput).symm⟩
    · cases hput
  · rename_i hk
    exact .inr ⟨hk, hput⟩

/-- An object that is live is there. -/
theorem State.put_self {l : Live δ γ} (hlive : o.live = some l) :
    (s.put k o).objects k = some o := by
  rw [State.objects_put, if_pos rfl, hlive, Option.isSome_some, Bool.or_true, if_pos rfl]

/-- What a definition leaves. -/
theorem State.define_cases (s : State κ δ γ) (k : κ) (d : δ) : (s.define k d).1.name = k ∧
    ∃ o n, (s.define k d).2 = { s.put k o with next := n } ∧ o.persistent = some d ∧
      (s.objects k = none ∧ o.live = none ∨
        ∃ o₀, s.objects k = some o₀ ∧ o.live = o₀.live ∧ o.uuid = o₀.uuid) := by
  rw [State.define]
  split
  · rename_i hnone
    exact ⟨rfl, _, _, rfl, rfl, .inl ⟨hnone, rfl⟩⟩
  · rename_i o hsome
    exact ⟨rfl, _, s.next, rfl, rfl, .inr ⟨o, hsome, rfl, rfl⟩⟩

theorem State.create_eq_some (hs : s.create kind h = some s') : ∃ o d,
    s.objects h.name = some o ∧ o.live = none ∧ o.persistent = some d ∧
      s' = s.put h.name { o with live := some ⟨d, kind.boots⟩ } := by
  obtain ⟨o, ho, hs⟩ := Option.bind_eq_some_iff.mp hs
  split at hs
  · rename_i hlive hpersistent
    exact ⟨o, _, (find_eq_some.mp ho).1, hlive, hpersistent, (Option.some.inj hs).symm⟩
  · cases hs

theorem State.destroy_eq_some (hs : s.destroy h = some s') : ∃ o,
    s.objects h.name = some o ∧ s' = s.put h.name { o with live := none } := by
  obtain ⟨o, ho, hs⟩ := Option.bind_eq_some_iff.mp hs
  split at hs
  · exact ⟨o, (find_eq_some.mp ho).1, (Option.some.inj hs).symm⟩
  · cases hs

theorem State.undefine_eq_some (hs : s.undefine kind h = some s') : ∃ o,
    s.objects h.name = some o ∧ (kind.transient = true ∨ o.live = none) ∧
      s' = s.put h.name { o with persistent := none } := by
  obtain ⟨o, ho, hs⟩ := Option.bind_eq_some_iff.mp hs
  split at hs
  · rename_i hcan
    simp only [Bool.and_eq_true, Bool.or_eq_true, Option.isNone_iff_eq_none] at hcan
    exact ⟨o, (find_eq_some.mp ho).1, hcan.2, (Option.some.inj hs).symm⟩
  · cases hs

theorem State.modify_eq_some {f : δ → δ} (hs : s.modify h f = some s') : ∃ o d,
    s.objects h.name = some o ∧ o.persistent = some d ∧
      s' = s.put h.name { o with persistent := some (f d) } := by
  obtain ⟨o, ho, hs⟩ := Option.bind_eq_some_iff.mp hs
  obtain ⟨d, hd, rfl⟩ := Option.map_eq_some_iff.mp hs
  exact ⟨o, d, (find_eq_some.mp ho).1, hd, rfl⟩

theorem State.setAutostart_eq_some {b : Bool} (hs : s.setAutostart h b = some s') : ∃ o,
    s.objects h.name = some o ∧ s' = s.put h.name { o with autostart := b } := by
  obtain ⟨o, ho, hs⟩ := Option.bind_eq_some_iff.mp hs
  split at hs
  · exact ⟨o, (find_eq_some.mp ho).1, (Option.some.inj hs).symm⟩
  · cases hs

theorem State.evolve_eq_some {g : Option γ} (hs : s.evolve k g = some s') : ∃ o l,
    s.objects k = some o ∧ o.live = some l ∧
      s' = s.put k { o with live := g.map fun g => ⟨l.config, g⟩ } := by
  obtain ⟨o, ho, hs⟩ := Option.bind_eq_some_iff.mp hs
  obtain ⟨l, hl, rfl⟩ := Option.map_eq_some_iff.mp hs
  exact ⟨o, l, ho, hl, rfl⟩

/-- What `status` answers is about the object of the name. -/
theorem State.status_eq_some {a : Option γ} {fails : Bool}
    (ha : (s.answer kind fails (.status h : Call κ δ χ)).1 = some a) :
    ∃ o, s.objects h.name = some o ∧ o.live.map Live.guest = a := by
  cases fails with
  | true => cases ha
  | false =>
    obtain ⟨o, ho, hlive⟩ := Option.map_eq_some_iff.mp ha
    exact ⟨o, (find_eq_some.mp ho).1, hlive⟩

omit [DecidableEq κ] in
/-- A call that goes through, or changes nothing. -/
theorem State.attempt_cases (s : State κ δ γ) (fails : Bool) (r : Option (State κ δ γ)) :
    (∃ s', r = some s' ∧ s.attempt fails r = (true, s')) ∨ s.attempt fails r = (false, s) := by
  cases fails with
  | true => exact .inr rfl
  | false =>
    cases r with
    | none => exact .inr rfl
    | some s' => exact .inl ⟨s', rfl, rfl⟩

end Calls

/-- What a call leaves, by the calls that change something. -/
inductive State.Leaves (kind : Kind γ) (s : State κ δ γ) (fails : Bool) :
    Call κ δ χ → State κ δ γ → Prop where
  | same {c} : Leaves kind s fails c s
  | define {k d o n} (hpersistent : o.persistent = some d)
      (hlive : s.objects k = none ∧ o.live = none ∨
        ∃ o₀, s.objects k = some o₀ ∧ o.live = o₀.live ∧ o.uuid = o₀.uuid) :
    Leaves kind s fails (.define k d) { s.put k o with next := n }
  | create {h o d} (hfails : fails = false) (hstarts : s.create kind h ≠ none)
      (ho : s.objects h.name = some o) (hlive : o.live = none)
      (hpersistent : o.persistent = some d) :
    Leaves kind s fails (.create h) (s.put h.name { o with live := some ⟨d, kind.boots⟩ })
  | destroy {h o} (ho : s.objects h.name = some o) :
    Leaves kind s fails (.destroy h) (s.put h.name { o with live := none })
  | undefine {h o} (ho : s.objects h.name = some o)
      (hcan : kind.transient = true ∨ o.live = none) :
    Leaves kind s fails (.undefine h) (s.put h.name { o with persistent := none })
  | modify {h f o d} (ho : s.objects h.name = some o) (hpersistent : o.persistent = some d) :
    Leaves kind s fails (.modify h f) (s.put h.name { o with persistent := some (f d) })
  | setAutostart {h o b} (ho : s.objects h.name = some o) :
    Leaves kind s fails (.setAutostart h b) (s.put h.name { o with autostart := b })

/-- **Inversion** of a call. -/
theorem State.leaves {kind : Kind γ} (s : State κ δ γ) (fails : Bool) (c : Call κ δ χ) :
    s.Leaves kind fails c (s.answer kind fails c).2 := by
  cases c with
  | lookup | status | describe | definition | getAutostart | other => exact .same
  | define k d =>
    cases fails with
    | true => exact .same
    | false =>
      obtain ⟨-, o, n, hput, hpersistent, hlive⟩ := s.define_cases k d
      change s.Leaves kind false (.define k d) (s.define k d).2
      rw [hput]
      exact .define hpersistent hlive
  | create h =>
    cases fails with
    | true => exact .same
    | false =>
      rcases s.attempt_cases false (s.create kind h) with ⟨s', hs', heq⟩ | heq
      · obtain ⟨o, d, ho, hlive, hpersistent, rfl⟩ := create_eq_some hs'
        rw [State.answer, heq]
        exact .create rfl (by simp [hs']) ho hlive hpersistent
      · rw [State.answer, heq]
        exact .same
  | destroy h =>
    rcases s.attempt_cases fails (s.destroy h) with ⟨s', hs', heq⟩ | heq
    · obtain ⟨o, ho, rfl⟩ := destroy_eq_some hs'
      rw [State.answer, heq]
      exact .destroy ho
    · rw [State.answer, heq]
      exact .same
  | undefine h =>
    rcases s.attempt_cases fails (s.undefine kind h) with ⟨s', hs', heq⟩ | heq
    · obtain ⟨o, ho, hcan, rfl⟩ := undefine_eq_some hs'
      rw [State.answer, heq]
      exact .undefine ho hcan
    · rw [State.answer, heq]
      exact .same
  | modify h f =>
    rcases s.attempt_cases fails (s.modify h f) with ⟨s', hs', heq⟩ | heq
    · obtain ⟨o, d, ho, hpersistent, rfl⟩ := modify_eq_some hs'
      rw [State.answer, heq]
      exact .modify ho hpersistent
    · rw [State.answer, heq]
      exact .same
  | setAutostart h b =>
    rcases s.attempt_cases fails (s.setAutostart h b) with ⟨s', hs', heq⟩ | heq
    · obtain ⟨o, ho, rfl⟩ := setAutostart_eq_some hs'
      rw [State.answer, heq]
      exact .setAutostart ho
    · rw [State.answer, heq]
      exact .same

/-! ## What runs of them do -/

/-- What is there is sound. -/
def State.Sound (s : State κ δ γ) : Prop := ∀ k o, s.objects k = some o →
  (o.persistent.isSome ∨ o.live.isSome) ∧ (∀ d, o.persistent = some d → R.sound k d) ∧
    ∀ l, o.live = some l → R.sound k l.config

namespace System

/-- What is there is sound, and what is left of the programs keeps to the rules. -/
structure Obeys (s : System κ δ γ χ ρ) : Prop where
  sound : s.daemon.Sound R
  keeps : ∀ r ∈ s.running, r.prog.Keeps R r.held

/-- The call that a program makes next. -/
def Next (s : System κ δ γ χ ρ) (i : ℕ) (held : Option κ) (c : Call κ δ χ) : Prop :=
  ∃ next, s.running[i]? = some ⟨.call c next, held⟩

/-- A program that begins keeps to the rules, and a call is answered as they rely on. -/
def Regular (s : System κ δ γ χ ρ) : Event κ δ γ χ ρ → Prop
  | .begin p => p.Keeps R none
  | .act i fails => ∀ held c, s.Next i held c → R.relies c (s.daemon.answer kind fails c).1
  | .evolve _ _ => True

end System

section Rules

variable {kind} {R} {d : State κ δ γ} {s s' : System κ δ γ χ ρ} {e : Event κ δ γ χ ρ} {i : ℕ}
  {fails : Bool} {c : Call κ δ χ}

omit [DecidableEq κ] in
theorem State.Sound.exists {k : κ} {o : Object δ γ} (h : d.Sound R) (ho : d.objects k = some o) :
    ∃ cfg, R.sound k cfg := by
  obtain ⟨hthere, hpersistent, hlive⟩ := h k o ho
  rcases hthere with hthere | hthere
  · obtain ⟨cfg, hcfg⟩ := Option.isSome_iff_exists.mp hthere
    exact ⟨cfg, hpersistent cfg hcfg⟩
  · obtain ⟨l, hl⟩ := Option.isSome_iff_exists.mp hthere
    exact ⟨l.config, hlive l hl⟩

/-- **An answer** is what programs know of it. -/
theorem State.Sound.fits (h : d.Sound R) : R.Fits c (d.answer kind fails c).1 := by
  cases fails with
  | true =>
    cases c with
    | lookup | define | describe | definition => rintro _ ⟨⟩
    | status | getAutostart | create | destroy | undefine | modify | setAutostart | other =>
      trivial
  | false =>
    cases c with
    | lookup k =>
      intro h' hh
      obtain ⟨o, ho, rfl⟩ := Option.map_eq_some_iff.mp hh
      exact ⟨rfl, h.exists ho⟩
    | define k cfg =>
      intro h' hh
      obtain rfl := Option.some.inj hh
      exact (d.define_cases k cfg).1
    | describe h' =>
      intro cfg hcfg
      obtain ⟨o, ho, hcfg⟩ := Option.bind_eq_some_iff.mp hcfg
      obtain ⟨-, hpersistent, hlive⟩ := h h'.name o (find_eq_some.mp ho).1
      cases hl : o.live with
      | none => exact hpersistent cfg (by simpa [hl] using hcfg)
      | some l =>
        obtain rfl : l.config = cfg := by simpa [hl] using hcfg
        exact hlive l hl
    | definition h' =>
      intro cfg hcfg
      obtain ⟨o, ho, hcfg⟩ := Option.bind_eq_some_iff.mp hcfg
      obtain ⟨-, hpersistent, hlive⟩ := h h'.name o (find_eq_some.mp ho).1
      cases hp : o.persistent with
      | some d =>
        obtain rfl : d = cfg := by simpa [hp] using hcfg
        exact hpersistent d hp
      | none =>
        obtain ⟨l, hl, rfl⟩ : ∃ l, o.live = some l ∧ l.config = cfg := by simpa [hp] using hcfg
        exact hlive l hl
    | status | getAutostart | create | destroy | undefine | modify | setAutostart | other =>
      trivial

theorem State.Sound.put {k : κ} {o : Object δ γ} (h : d.Sound R)
    (hpersistent : ∀ cfg, o.persistent = some cfg → R.sound k cfg)
    (hlive : ∀ l, o.live = some l → R.sound k l.config) : (d.put k o).Sound R := by
  intro k' o' ho'
  rw [objects_put] at ho'
  split at ho'
  · rename_i hk
    split at ho'
    · rename_i hthere
      obtain rfl := Option.some.inj ho'
      subst hk
      exact ⟨Bool.or_eq_true_iff.mp hthere, hpersistent, hlive⟩
    · cases ho'
  · exact h k' o' ho'

/-- **A call** leaves what is there sound. -/
theorem State.Sound.leaves {d' : State κ δ γ} (h : d.Sound R) (hd : d.Leaves kind fails c d')
    (hc : R.Defines c) : d'.Sound R := by
  cases hd with
  | same => exact h
  | define hpersistent hlive =>
    refine h.put (fun cfg hcfg => ?_) fun l hl => ?_
    · obtain rfl := Option.some.inj (hpersistent.symm.trans hcfg)
      exact hc
    · rcases hlive with ⟨-, hlive⟩ | ⟨o₀, ho₀, hlive, -⟩
      · cases hlive.symm.trans hl
      · exact (h _ o₀ ho₀).2.2 l (hlive.symm.trans hl)
  | create _ _ ho _ hpersistent =>
    refine h.put (h _ _ ho).2.1 fun l hl => ?_
    obtain rfl := Option.some.inj hl
    exact (h _ _ ho).2.1 _ hpersistent
  | destroy ho => exact h.put (h _ _ ho).2.1 (by rintro l ⟨⟩)
  | undefine ho => exact h.put (by rintro cfg ⟨⟩) (h _ _ ho).2.2
  | modify ho hpersistent =>
    refine h.put (fun cfg hcfg => ?_) (h _ _ ho).2.2
    obtain rfl := Option.some.inj hcfg
    exact hc _ ((h _ _ ho).2.1 _ hpersistent)
  | setAutostart ho => exact h.put (h _ _ ho).2.1 (h _ _ ho).2.2

/-- **Inversion** of a program's step. -/
theorem System.act_eq_some (h : s.step kind (.act i fails) = some s') : ∃ held c next,
    s.running[i]? = some ⟨.call c next, held⟩ ∧
      s' = ⟨(s.daemon.answer kind fails c).2, s.running.set i
        ⟨next (s.daemon.answer kind fails c).1,
          heldAfter held c (s.daemon.answer kind fails c).1⟩⟩ := by
  obtain ⟨⟨p, held⟩, hr, h⟩ := Option.bind_eq_some_iff.mp h
  cases p with
  | ret r => cases h
  | call c next => exact ⟨held, c, next, hr, (Option.some.inj h).symm⟩

/-- **A step** leaves what is there sound, and the programs to the rules. -/
theorem System.Obeys.step (h : s.Obeys R) (he : s.Regular R kind e)
    (hs : s.step kind e = some s') : s'.Obeys R := by
  cases e with
  | begin p =>
    obtain rfl := Option.some.inj hs
    refine ⟨h.sound, fun r hr => ?_⟩
    rcases List.mem_append.mp hr with hr | hr
    · exact h.keeps r hr
    · obtain rfl := List.mem_singleton.mp hr
      exact he
  | act i fails =>
    obtain ⟨held, c, next, hr, rfl⟩ := act_eq_some hs
    obtain ⟨-, hdefines, hnext⟩ := h.keeps _ (List.mem_of_getElem? hr)
    refine ⟨h.sound.leaves (s.daemon.leaves fails c) hdefines, fun r hmem => ?_⟩
    rcases List.mem_or_eq_of_mem_set hmem with hmem | rfl
    · exact h.keeps r hmem
    · exact hnext _ h.sound.fits (he held c ⟨next, hr⟩)
  | evolve k g =>
    obtain ⟨d, hd, rfl⟩ := Option.map_eq_some_iff.mp hs
    obtain ⟨o, l, ho, hl, rfl⟩ := State.evolve_eq_some hd
    refine ⟨h.sound.put (h.sound k o ho).2.1 fun l' hl' => ?_, h.keeps⟩
    obtain ⟨g, -, rfl⟩ := Option.map_eq_some_iff.mp hl'
    exact (h.sound k o ho).2.2 l hl

omit [DecidableEq κ] in
/-- A call that is made keeps to the rules. -/
theorem System.Obeys.next (h : s.Obeys R) {held : Option κ} (hc : s.Next i held c) :
    R.may held c := by
  obtain ⟨next, hr⟩ := hc
  exact (h.keeps _ (List.mem_of_getElem? hr)).1

/-- **Programs that keep to the rules** do so in every run. -/
theorem obeys_of_run {es : List (Event κ δ γ χ ρ)} {s₀ : System κ δ γ χ ρ} (h : s₀.Obeys R)
    (hregular : Machine.Along (System.step kind) (fun s e => s.Regular R kind e) s₀ es)
    (hrun : Machine.run (System.step kind) s₀ es = some s) : s.Obeys R :=
  Machine.run_inv (fun _ _ _ h he hs => h.step he hs) h hregular hrun

end Rules

end Daemon

end Ultrav
