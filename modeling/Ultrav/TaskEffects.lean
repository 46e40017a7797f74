import Ultrav.ProviderCalls
import Ultrav.TaskLifecycle

/-!
# The status of a task and its effect

The functions of create-VM and create-backup tasks make one provider call. A creation does not
look at its context at all, a backup does so in every round of its job poll; `run` looks at it
once more, after the function has returned.

* `TaskSystem.step` — one critical section of the manager, or one step of a task's function.
* `TaskSystem.Truthful` — every task that ended shows what its call left.
* `TaskSystem.InTime` — no `Cancel` and no failure comes after the effect.
* `truthful_iff` — the one along every run exactly when the other.

What a provider call meets and does is a `ProviderCall`. Between calls the provider can change
in any way.
-/

namespace Ultrav

open Machine

/-! ## The system -/

/-- What creations and backups of the provider work on. -/
structure World where
  hypervisor : Hypervisor
  /-- the host of the VM that is backed up -/
  host : Host

/-- The function of a task. -/
inductive Operation where
  | createVM (req : VirtualMachineCreate)
  | createBackup (vm : String) (req : Option CreateType)

/-- The manager and the provider, with what the functions of the tasks are doing. -/
structure TaskSystem where
  mgr : Manager
  world : World
  /-- the function a handler gave each task -/
  ops : ℕ → Option Operation
  /-- what the polls of its backup job have found -/
  polls : ℕ → List Poll
  /-- its provider call, once that has returned -/
  calls : ℕ → Option ProviderCall

/-- One step. -/
inductive TaskSystemEvent where
  /-- `handleCreateVM`, with a decoded body -/
  | createVM (req : VirtualMachineCreate) (now : Time)
  /-- `handleCreateVMBackup`; whether the VM is found is part of the call -/
  | createBackup (vm : String) (found : Bool) (req : Option CreateType) (now : Time)
  /-- any other section of the manager -/
  | task (e : TaskEvent)
  /-- one round of the job poll of a backup -/
  | poll (p : ℕ) (x : Poll)
  /-- `CreateVirtualMachine` of a task -/
  | callVM (p : ℕ) (env : CreateEnv)
  /-- `BackupVirtualMachine` of a task; the listing at its end can fail -/
  | callBackup (p : ℕ) (env : BackupEnv) (listFails : Bool)
  /-- the function returns, and `run` takes its final section; the text of an error -/
  | finish (p : ℕ) (text : String) (now : Time)
  /-- anything else that changes the provider -/
  | other (w : World)

namespace TaskSystem

variable (srt : SortDesc Metadata Metadata.createdAt) (s : TaskSystem)

/-- A fresh manager. -/
def start (w : World) : TaskSystem := ⟨.empty, w, fun _ => none, fun _ => [], fun _ => none⟩

/-- A handler starts its task. -/
def begun (typ id : String) (op : Operation) (now : Time) : TaskSystem :=
  match s.mgr.start typ id id true now with
  | .error _ => s
  | .ok m => { s with mgr := m, ops := Function.update s.ops (s.mgr.seq + 1) (some op) }

/-- The job of a task whose provider call is still to return. -/
def calling (p : ℕ) : Option Job :=
  (s.mgr.jobs p).filter fun j => j.worker = .working && (s.calls p).isNone

/-- The call of a task returns. -/
def returned (p : ℕ) (c : ProviderCall) (w : World) : TaskSystem :=
  { s with world := w, calls := Function.update s.calls p (some c) }

/-- The final section of a handler's task is not taken on its own. -/
def ownSection : TaskEvent → Bool
  | .finish p _ _ => (s.ops p).isNone
  | _ => true

/-- The backup environments a call can meet: the id is a new one, and the polls are those the
task has made. -/
def admits (p : ℕ) (vm : String) (env : BackupEnv) : Prop :=
  s.world.host.vm = vm ∧ (∀ d ∈ s.world.host.library, d.id ≠ env.id) ∧ env.polls = s.polls p

instance (p : ℕ) (vm : String) (env : BackupEnv) : Decidable (s.admits p vm env) :=
  inferInstanceAs (Decidable (_ ∧ _ ∧ _))

/-- One step. -/
def step : TaskSystemEvent → Option TaskSystem
  | .createVM req now =>
    some (if req.validate ≠ "" then s else s.begun "vm-create" req.name (.createVM req) now)
  | .createBackup vm found req now =>
    some (if !found then s else s.begun "backup-create" vm (.createBackup vm req) now)
  | .task e => if s.ownSection e then (s.mgr.step e).map fun m => { s with mgr := m } else none
  | .poll p x =>
    (s.calling p).bind fun j =>
      -- `ctx.Err()` is looked at first
      if decide (x = .canceled) = j.ctxDone then
        some { s with polls := Function.update s.polls p (s.polls p ++ [x]) }
      else none
  | .callVM p env =>
    (s.calling p).bind fun _ =>
      match s.ops p with
      | some (.createVM req) =>
        some (s.returned p (.createVM env req s.world.hypervisor)
          { s.world with
            hypervisor := (createVirtualMachine env req s.world.hypervisor).2 })
      | _ => none
  | .callBackup p env listFails =>
    (s.calling p).bind fun _ =>
      match s.ops p with
      | some (.createBackup vm req) =>
        if s.admits p vm env then
          (backupVirtualMachine srt env s.world.host vm req).map fun r =>
            s.returned p (.createBackup env req s.world.host listFails r)
              { s.world with host := r.2 }
        else none
      | _ => none
  | .finish p text now =>
    (s.calls p).bind fun c =>
      (s.mgr.step (.finish p (if c.failed then some text else none) now)).map fun m =>
        { s with mgr := m }
  | .other w => some { s with world := w }

end TaskSystem

/-! ## What is to hold -/

namespace ProviderCall

/-- The status tells what the call left: the domain or the point of a task that succeeded, and
nothing of one that did not. -/
def Matches (c : ProviderCall) (status : TaskStatus) : Prop :=
  if status = .succeeded then c.made = [c.wanted] else c.made = []

/-- The status `run` sets after a call matches it exactly when nothing was made before it was
cancelled or failed. -/
theorem matches_finish_iff {srt : SortDesc Metadata Metadata.createdAt} {c : ProviderCall}
    (hc : c.Ran srt) (t : Task) (accepted : Bool) (text : String) (now : Time) :
    c.Matches (t.finish accepted (if c.failed then some text else none) now).status ↔
      (c.produces srt = true →
        ((accepted = true ∨ c.failsLate = true) ↔ c.fresh = false)) := by
  rw [Matches, made_eq hc, Task.finish_status, failed_eq hc]
  cases accepted <;> cases c.produces srt <;> cases c.failsLate <;> cases c.fresh <;> simp

end ProviderCall

namespace TaskSystem

variable {srt : SortDesc Metadata Metadata.createdAt} {s s' : TaskSystem} {e : TaskSystemEvent}

/-- Every task of a handler that has ended made its call, and its status matches it. -/
def Truthful (s : TaskSystem) : Prop :=
  ∀ p j, (s.ops p).isSome → s.mgr.jobs p = some j → j.task.status.terminal = true →
    ∃ c, s.calls p = some c ∧ c.Matches j.task.status

variable (srt) in
/-- A step leaves the tasks truthful. -/
def StaysTruthful (s : TaskSystem) (e : TaskSystemEvent) : Prop :=
  ∀ s', s.step srt e = some s' → s'.Truthful

variable (srt) in
/-- The final section of a task finds that, if its domain or its point was made, no `Cancel`
was accepted and nothing failed after that. (Where the domain had been there all along, and
the call did not see it, it is the other way.) -/
def InTime (s : TaskSystem) : TaskSystemEvent → Prop
  | .finish p _ _ => ∀ j c, s.mgr.jobs p = some j → j.worker = .working → s.calls p = some c →
      c.produces srt = true → ((j.accepted = true ∨ c.failsLate = true) ↔ c.fresh = false)
  | _ => True

variable (srt) in
/-- The tasks are in order, and the calls are those of tasks that handlers started. -/
structure Inv (s : TaskSystem) : Prop where
  tracked : s.mgr.Tracked
  ops : ∀ p, (s.ops p).isSome → p ≤ s.mgr.seq
  calls : ∀ p c, s.calls p = some c → (s.ops p).isSome ∧ c.Ran srt

theorem inv_start (w : World) : (start w).Inv srt :=
  ⟨Manager.tracked_empty, fun _ h => (by cases h), fun _ _ h => by cases h⟩

theorem truthful_start (w : World) : (start w).Truthful := fun _ _ h => by cases h

/-! ## What a step can do -/

variable (srt) in
/-- Everything a step can do. -/
inductive Effect (s : TaskSystem) : TaskSystemEvent → TaskSystem → Prop where
  /-- nothing to the manager and the calls -/
  | quiet {e : TaskSystemEvent} {s' : TaskSystem} (he : ∀ p text now, e ≠ .finish p text now)
    (hmgr : s'.mgr = s.mgr) (hops : s'.ops = s.ops) (hcalls : s'.calls = s.calls) :
    Effect s e s'
  /-- a handler starts a task -/
  | begun {e : TaskSystemEvent} (he : ∀ p text now, e ≠ .finish p text now) (typ id : String)
    (op : Operation) (now : Time) :
    Effect s e { s with
      mgr := (s.mgr.register typ id id now).trim
      ops := Function.update s.ops (s.mgr.seq + 1) (some op) }
  /-- another section of the manager -/
  | task {e : TaskEvent} {m : Manager} (hown : s.ownSection e = true)
    (h : s.mgr.TaskEffect e m) : Effect s (.task e) { s with mgr := m }
  /-- a provider call returns -/
  | returned {e : TaskSystemEvent} (he : ∀ p text now, e ≠ .finish p text now) {p : ℕ} {j : Job}
    (hj : s.mgr.jobs p = some j) (hw : j.worker = .working) (hop : (s.ops p).isSome)
    {c : ProviderCall} (hc : c.Ran srt) (w : World) : Effect s e (s.returned p c w)
  /-- the final section of a handler's task -/
  | finished {p : ℕ} {j : Job} {c : ProviderCall} (hj : s.mgr.jobs p = some j)
    (hw : j.worker = .working) (hc : s.calls p = some c) (text : String) (now : Time) :
    Effect s (.finish p text now)
      { s with mgr := s.mgr.put p (j.finish (if c.failed then some text else none) now) }

/-- A handler starts its task, or is refused. -/
theorem begun_effect (he : ∀ p text now, e ≠ .finish p text now) (typ id : String)
    (op : Operation) (now : Time) : Effect srt s e (s.begun typ id op now) := by
  rw [begun, Manager.start]
  by_cases htyp : taskTypeValid typ = true
  · rw [htyp]
    exact .begun he typ id op now
  · rw [Bool.not_eq_true] at htyp
    rw [htyp]
    exact .quiet he rfl rfl rfl

theorem calling_eq_some {p : ℕ} {j : Job} (h : s.calling p = some j) :
    s.mgr.jobs p = some j ∧ j.worker = .working := by
  obtain ⟨hj, hw⟩ := Option.filter_eq_some_iff.mp h
  exact ⟨hj, by simpa using (Bool.and_eq_true_iff.mp hw).1⟩

/-- **Inversion** for `step`. -/
theorem step_eq_some (h : s.step srt e = some s') : Effect srt s e s' := by
  cases e with
  | createVM req now =>
    obtain rfl := Option.some.inj h
    split
    · exact .quiet (fun _ _ _ h => by cases h) rfl rfl rfl
    · exact begun_effect (fun _ _ _ h => by cases h) _ _ _ _
  | createBackup vm found req now =>
    obtain rfl := Option.some.inj h
    split
    · exact .quiet (fun _ _ _ h => by cases h) rfl rfl rfl
    · exact begun_effect (fun _ _ _ h => by cases h) _ _ _ _
  | task e =>
    rw [step] at h
    split at h
    · rename_i hown
      obtain ⟨m, hm, rfl⟩ := Option.map_eq_some_iff.mp h
      exact .task hown (Manager.step_eq_some hm)
    · cases h
  | poll p x =>
    obtain ⟨j, -, h⟩ := Option.bind_eq_some_iff.mp h
    split at h <;> cases h
    exact .quiet (fun _ _ _ h => by cases h) rfl rfl rfl
  | callVM p env =>
    obtain ⟨j, hj, h⟩ := Option.bind_eq_some_iff.mp h
    obtain ⟨hj, hw⟩ := calling_eq_some hj
    split at h <;> cases h
    rename_i req hop
    exact .returned (c := .createVM env req s.world.hypervisor) (fun _ _ _ h => by cases h) hj hw
      (by rw [hop]; rfl) trivial _
  | callBackup p env listFails =>
    obtain ⟨j, hj, h⟩ := Option.bind_eq_some_iff.mp h
    obtain ⟨hj, hw⟩ := calling_eq_some hj
    split at h
    · rename_i vm req hop
      split at h
      · rename_i hadm
        obtain ⟨r, hr, rfl⟩ := Option.map_eq_some_iff.mp h
        obtain ⟨rfl, hf, -⟩ := hadm
        exact .returned (c := .createBackup env req s.world.host listFails r)
          (fun _ _ _ h => by cases h) hj hw (by rw [hop]; rfl) ⟨hf, hr⟩ _
      · cases h
    · cases h
  | finish p text now =>
    obtain ⟨c, hc, h⟩ := Option.bind_eq_some_iff.mp h
    obtain ⟨m, hm, rfl⟩ := Option.map_eq_some_iff.mp h
    obtain ⟨j, hj, hm⟩ := Option.bind_eq_some_iff.mp hm
    split at hm <;> cases hm
    exact .finished hj ‹_› hc text now
  | other w =>
    obtain rfl := Option.some.inj h
    exact .quiet (fun _ _ _ h => by cases h) rfl rfl rfl

end TaskSystem

/-! ## The manager's part -/

namespace Manager

variable {m m' : Manager} {e : TaskEvent}

/-- A task ends in its final section only. -/
theorem TaskEffect.terminal (h : m.TaskEffect e m') {p : ℕ} {j' : Job}
    (hj' : m'.jobs p = some j') (ht : j'.task.status.terminal = true) :
    (∃ j, m.jobs p = some j ∧ j.task.status = j'.task.status) ∨
      ∃ err now, e = .finish p err now := by
  cases h with
  | refused => exact .inl ⟨j', hj', rfl⟩
  | started typ resourceID name fn now =>
    rcases start_jobs_eq_some hj' with ⟨-, rfl⟩ | hj
    · cases ht
    · exact .inl ⟨j', hj, rfl⟩
  | begun hj hw now =>
    rcases put_jobs_eq_some hj' with ⟨-, rfl⟩ | ⟨-, hk⟩
    · cases ht
    · exact .inl ⟨j', hk, rfl⟩
  | @reported q j hj hw r =>
    rcases put_jobs_eq_some hj' with ⟨rfl, rfl⟩ | ⟨-, hk⟩
    · exact .inl ⟨j, hj, (Task.report_status j.task r).symm⟩
    · exact .inl ⟨j', hk, rfl⟩
  | finished hj hw err now =>
    rcases put_jobs_eq_some hj' with ⟨rfl, -⟩ | ⟨-, hk⟩
    · exact .inr ⟨err, now, rfl⟩
    · exact .inl ⟨j', hk, rfl⟩
  | cancelled hp hj hc =>
    rcases put_jobs_eq_some hj' with ⟨-, rfl⟩ | ⟨-, hk⟩
    · cases ht
    · exact .inl ⟨j', hk, rfl⟩

/-- The number of tasks only grows. -/
theorem TaskEffect.seq_le (h : m.TaskEffect e m') : m.seq ≤ m'.seq := by
  cases h with
  | started => exact Nat.le_succ _
  | _ => exact Nat.le_refl _

end Manager

namespace TaskSystem

variable {srt : SortDesc Metadata Metadata.createdAt} {s s' : TaskSystem} {e : TaskSystemEvent}

/-- **Step lemma**: every step keeps the tasks and the calls in order. -/
theorem inv_step (hs : s.Inv srt) (h : Effect srt s e s') : s'.Inv srt := by
  cases h with
  | quiet _ hmgr hops hcalls =>
    exact ⟨hmgr ▸ hs.tracked, by rw [hops, hmgr]; exact hs.ops,
      by rw [hcalls, hops]; exact hs.calls⟩
  | begun _ typ id op now =>
    have hstarted := Manager.TaskEffect.started (m := s.mgr) typ id id true now
    refine ⟨Manager.tracked_step hs.tracked hstarted, fun p hp => ?_, fun p c hc => ?_⟩
    · by_cases hnew : p = s.mgr.seq + 1
      · exact Nat.le_of_eq hnew
      · dsimp only at hp
        rw [Function.update_of_ne hnew] at hp
        exact Nat.le_succ_of_le (hs.ops p hp)
    · refine ⟨?_, (hs.calls p c hc).2⟩
      by_cases hnew : p = s.mgr.seq + 1
      · dsimp only
        rw [hnew, Function.update_self]
        rfl
      · dsimp only
        rw [Function.update_of_ne hnew]
        exact (hs.calls p c hc).1
  | task _ h =>
    exact ⟨Manager.tracked_step hs.tracked h, fun p hp => Nat.le_trans (hs.ops p hp) h.seq_le,
      hs.calls⟩
  | @returned _ he p j hj hw hop c hc w =>
    refine ⟨hs.tracked, hs.ops, fun q d hd => ?_⟩
    by_cases hq : q = p
    · subst hq
      dsimp only [TaskSystem.returned] at hd
      rw [Function.update_self] at hd
      cases hd
      exact ⟨hop, hc⟩
    · dsimp only [TaskSystem.returned] at hd
      rw [Function.update_of_ne hq] at hd
      exact hs.calls q d hd
  | @finished p j c hj hw hc text now =>
    exact ⟨Manager.tracked_step hs.tracked (.finished hj hw _ now), hs.ops, hs.calls⟩

/-- **One step** leaves the tasks truthful exactly when it is no final section that comes too
late. -/
theorem truthful_iff_inTime (hs : s.Inv srt) (ht : s.Truthful) (h : Effect srt s e s') :
    s'.Truthful ↔ s.InTime srt e := by
  have htrue : (∀ p text now, e ≠ .finish p text now) → s.InTime srt e := by
    intro he
    cases e with
    | finish p text now => exact absurd rfl (he p text now)
    | _ => trivial
  cases h with
  | quiet he hmgr hops hcalls =>
    refine iff_of_true ?_ (htrue he)
    rw [Truthful, hmgr, hops, hcalls]
    exact ht
  | begun he typ id op now =>
    refine iff_of_true (fun p j' hop hj' hterm => ?_) (htrue he)
    have hstarted := Manager.TaskEffect.started (m := s.mgr) typ id id true now
    rcases hstarted.terminal hj' hterm with ⟨j, hj, hst⟩ | ⟨err, now', heq⟩
    · -- the task is none of the new ones
      have hle := (hs.tracked p j hj).1
      dsimp only at hop
      rw [Function.update_of_ne (by omega)] at hop
      rw [← hst] at hterm ⊢
      exact ht p j hop hj hterm
    · cases heq
  | @task e m hown h =>
    refine iff_of_true (fun p j' hop hj' hterm => ?_) trivial
    rcases h.terminal hj' hterm with ⟨j, hj, hst⟩ | ⟨err, now, rfl⟩
    · rw [← hst] at hterm ⊢
      exact ht p j hop hj hterm
    · exact absurd (Option.isNone_iff_eq_none.mp hown) (Option.isSome_iff_ne_none.mp hop)
  | @returned _ he p j hj hw hop c hc w =>
    refine iff_of_true (fun q k hk hjk hterm => ?_) (htrue he)
    -- the task of the call still runs, so its status promises nothing
    by_cases hq : q = p
    · subst hq
      cases hj.symm.trans hjk
      have hlive := (hs.tracked q j hj).2.not_terminal (by simp [hw])
      cases hlive.symm.trans hterm
    · obtain ⟨d, hd, hmatch⟩ := ht q k hk hjk hterm
      exact ⟨d, (Function.update_of_ne hq _ _).trans hd, hmatch⟩
  | @finished p j c hj hw hc text now =>
    obtain ⟨hop, hran⟩ := hs.calls p c hc
    have hctx := (hs.tracked p j hj).2.ctxDone
    have hmatch := ProviderCall.matches_finish_iff hran j.task j.ctxDone text now
    rw [hctx] at hmatch
    constructor
    · intro h j' c' hj' _ hc'
      cases hj.symm.trans hj'
      cases hc.symm.trans hc'
      obtain ⟨d, hd, hm⟩ := h p _ hop (Function.update_self _ _ _)
        (Task.finish_terminal j.task j.ctxDone _ now)
      cases hc.symm.trans hd
      exact hmatch.mp (hctx ▸ hm)
    · intro h q k hk hjk hterm
      rcases Manager.put_jobs_eq_some hjk with ⟨rfl, rfl⟩ | ⟨-, hjk⟩
      · refine ⟨c, hc, ?_⟩
        have hm := hmatch.mpr (h j c hj hw hc)
        rw [← hctx] at hm
        exact hm
      · exact ht q k hk hjk hterm

/-- A step that cannot be taken meets both. -/
theorem staysTruthful_iff_inTime (hs : s.Inv srt) (ht : s.Truthful) (e : TaskSystemEvent) :
    s.StaysTruthful srt e ↔ s.InTime srt e := by
  rcases hst : s.step srt e with _ | s'
  · refine iff_of_true (fun s' h => by cases hst.symm.trans h) ?_
    cases e with
    | finish p text now =>
      intro j c hj hw hc
      rw [step, hc, Option.bind_some, Manager.step, hj, Option.bind_some, if_pos hw] at hst
      cases hst
    | _ => trivial
  · rw [← truthful_iff_inTime hs ht (step_eq_some hst)]
    constructor
    · intro h
      exact h s' hst
    · intro h s'' hs''
      cases hst.symm.trans hs''
      exact h

/-- **Status and effect**, along every run of sections, polls and provider calls, from any
provider: every task that has ended shows what its call left exactly when no `Cancel` and no
failure comes between the domain, or the point, and the final section of its task. -/
theorem truthful_iff (srt : SortDesc Metadata Metadata.createdAt) (w : World)
    (es : List TaskSystemEvent) :
    Along (step srt) (StaysTruthful srt) (start w) es ↔
      Along (step srt) (InTime srt) (start w) es := by
  refine along_iff_of_inv (I := fun s => s.Inv srt ∧ s.Truthful)
    (fun s e hs => staysTruthful_iff_inTime hs.1 hs.2 e) (fun s e s' hs he hst => ?_)
    ⟨inv_start w, truthful_start w⟩
  exact ⟨inv_step hs.1 (step_eq_some hst), he s' hst⟩

end TaskSystem

/-! ### A creation cancelled at its end -/

namespace LateCancel

/-- A host where every libvirt call goes through. -/
def env : CreateEnv := { UnknownNetwork.createEnv with networks := ["default", "lan"] }

/-- The provider before the task. -/
def world : World := ⟨⟨fun _ => [], []⟩, ⟨"erp01", [], fun _ => none, none⟩⟩

/-- The domain is defined, the task is cancelled, and then its function returns. -/
def events : List TaskSystemEvent :=
  [.createVM UnknownNetwork.createRequest 0, .task (.begin 1 1), .callVM 1 env,
    .task (.cancel "task-000001"), .finish 1 "" 2]

end LateCancel

/-- A task that ends cancelled can have made its VM: the creation does not look at its context,
and the manager does so after it. -/
theorem cancelled_task_made_vm :
    ¬ ∀ (srt : SortDesc Metadata Metadata.createdAt) (w : World) (es : List TaskSystemEvent)
        (s : TaskSystem), run (TaskSystem.step srt) (TaskSystem.start w) es = some s →
      s.Truthful := by
  intro hall
  have hrun := hall (.insertion _) LateCancel.world LateCancel.events _ rfl
  obtain ⟨c, hc, hmatch⟩ := hrun 1 _ rfl rfl rfl
  cases hc
  have hmade : ProviderCall.made _ = [] := hmatch
  have hlen : 1 = 0 := congrArg List.length hmade
  exact absurd hlen (by decide)

end Ultrav
