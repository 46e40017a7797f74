import Ultrav.Tasks

/-!
# The life cycle of a task

`run` sets the status when the goroutine is scheduled and when its function returns, and
`Cancel` can come before, between and after.

* `TaskStatus.Moves` — the life cycle.
* `Job.Ok` — what the fields of a task say about its goroutine and its context, kept by every
  section (`Manager.Tracked`).
* `Manager.Lifecycle` — a section moves every status forward, and shows no accepted task as
  queued, running or cancellable.
* `lifecycle_iff` — when it does, along every run.

What goes wrong is one thing: the first section of `run` sets a task that was cancelled in
the queue to running.
-/

namespace Ultrav

open Machine

/-! ## The life cycle -/

namespace TaskStatus

/-- One move of the life cycle. -/
inductive Edge : TaskStatus → TaskStatus → Prop where
  | begin : Edge queued running
  | succeed : Edge running succeeded
  | fail : Edge running failed
  | cancelQueued : Edge queued cancelling
  | cancelRunning : Edge running cancelling
  | cancelled : Edge cancelling cancelled

/-- The status stays, or takes one move. -/
def Moves (a b : TaskStatus) : Prop := a = b ∨ Edge a b

theorem Moves.refl (a : TaskStatus) : Moves a a := .inl rfl

/-- A terminal status never changes. -/
theorem Moves.eq_of_terminal {a b : TaskStatus} (h : Moves a b) (ha : a.terminal = true) :
    b = a := by
  rcases h with rfl | h
  · rfl
  · cases h <;> cases ha

end TaskStatus

/-! ## What the fields of a task say -/

/-- The task, its goroutine and its context fit together. -/
structure Job.Ok (j : Job) : Prop where
  /-- the context is cancelled by `Cancel`, and by nothing else -/
  ctxDone : j.ctxDone = j.accepted
  spawned : j.worker = .spawned → j.task.status = .queued ∨ j.task.status = .cancelling
  working : j.worker = .working → j.task.status = .running ∨ j.task.status = .cancelling
  done : j.worker = .done → j.task.status.terminal = true
  /-- the cancel function is kept until the final section -/
  cancel : j.worker ≠ .done → j.task.cancel = true
  queued : j.task.status = .queued → j.accepted = false
  cancelling : j.task.status = .cancelling → j.accepted = true
  terminal : j.task.status.terminal = true → (j.task.status = .cancelled ↔ j.accepted = true)
  progress : 0 ≤ j.task.progress ∧ j.task.progress ≤ 100
  succeeded : j.task.status = .succeeded → j.task.progress = 100
  failed : j.task.status = .failed → j.returned = some (some j.task.err)

namespace Job

theorem ok_new (id typ resourceID name : String) (now : Time) :
    (Job.new (Task.new id typ resourceID name now)).Ok where
  ctxDone := rfl
  spawned _ := .inl rfl
  working h := by cases h
  done h := by cases h
  cancel _ := rfl
  queued _ := rfl
  cancelling h := by cases h
  terminal h := by cases h
  progress := ⟨le_rfl, by simp [Job.new, Task.new]⟩
  succeeded h := by cases h
  failed h := by cases h

variable {j : Job}

/-- A task of a live goroutine has not ended. -/
theorem Ok.not_terminal (h : j.Ok) (hw : j.worker ≠ .done) : j.task.status.terminal = false := by
  rcases hwork : j.worker with _ | _ | _
  · rcases h.spawned hwork with hs | hs <;> rw [hs] <;> rfl
  · rcases h.working hwork with hs | hs <;> rw [hs] <;> rfl
  · exact absurd hwork hw

theorem Ok.begin (h : j.Ok) (hw : j.worker = .spawned) (now : Time) : (j.begin now).Ok where
  ctxDone := h.ctxDone
  spawned h := by cases h
  working _ := .inl rfl
  done h := by cases h
  cancel _ := h.cancel (by simp [hw])
  queued h := by cases h
  cancelling h := by cases h
  terminal h := by cases h
  progress := h.progress
  succeeded h := by cases h
  failed h := by cases h

theorem Ok.report (h : j.Ok) (hw : j.worker = .working) (r : Report) : (j.report r).Ok := by
  have hlive : j.task.status.terminal = false := h.not_terminal (by simp [hw])
  have hstatus : (j.report r).task.status = j.task.status := Task.report_status j.task r
  exact
    { ctxDone := h.ctxDone
      spawned := fun hs => by cases hw.symm.trans hs
      working := fun _ => hstatus ▸ h.working hw
      done := fun hd => by cases hw.symm.trans hd
      cancel := fun hn => (Task.report_cancel j.task r).trans (h.cancel hn)
      queued := fun hq => h.queued (hstatus ▸ hq)
      cancelling := fun hc => h.cancelling (hstatus ▸ hc)
      terminal := fun ht => by cases hlive.symm.trans (hstatus ▸ ht)
      progress := Task.report_progress h.progress r
      succeeded := fun hs => by
        rw [hstatus.symm.trans hs] at hlive
        cases hlive
      failed := fun hf => by
        rw [hstatus.symm.trans hf] at hlive
        cases hlive }

theorem Ok.finish (h : j.Ok) (err : Option String) (now : Time) : (j.finish err now).Ok := by
  have hterm : (j.finish err now).task.status.terminal = true :=
    Task.finish_terminal j.task j.ctxDone err now
  have hctx : j.ctxDone = j.accepted := h.ctxDone
  exact
    { ctxDone := hctx
      spawned := fun hs => by cases hs
      working := fun hs => by cases hs
      done := fun _ => hterm
      cancel := fun hn => absurd rfl hn
      queued := fun hq => by
        rw [hq] at hterm
        cases hterm
      cancelling := fun hc => by
        rw [hc] at hterm
        cases hterm
      terminal := fun _ => by
        rw [Job.finish]
        dsimp only
        rw [Task.finish_status, hctx]
        cases j.accepted <;> cases err <;> simp
      progress := Task.finish_progress h.progress
      succeeded := Task.finish_succeeded h.progress.2
      failed := fun hf => congrArg some (Task.finish_failed hf) }

theorem Ok.cancel_accepted (h : j.Ok) (hc : j.task.status.cancellable = true) : j.cancel.Ok := by
  have hlive : j.worker ≠ .done := by
    intro hw
    have hterm := h.done hw
    revert hc hterm
    cases j.task.status <;> decide
  exact
    { ctxDone := by simp [Job.cancel, h.cancel hlive]
      spawned := fun _ => .inr rfl
      working := fun _ => .inr rfl
      done := fun hw => absurd hw hlive
      cancel := fun _ => h.cancel hlive
      queued := fun hq => by cases hq
      cancelling := fun _ => rfl
      terminal := fun ht => by cases ht
      progress := h.progress
      succeeded := fun hs => by cases hs
      failed := fun hf => by cases hf }

end Job

namespace Manager

/-- Every task fits its goroutine and its context, and its pointer is no later than `seq`. -/
def Tracked (m : Manager) : Prop := ∀ p j, m.jobs p = some j → p ≤ m.seq ∧ j.Ok

theorem tracked_empty : empty.Tracked := fun _ _ h => by cases h

variable {m m' : Manager} {e : TaskEvent}

/-- The pointer of the next task leads nowhere yet. -/
theorem Tracked.fresh (hm : m.Tracked) : m.jobs (m.seq + 1) = none := by
  rcases hj : m.jobs (m.seq + 1) with _ | j
  · rfl
  · have := (hm _ j hj).1
    omega

theorem Tracked.put (hm : m.Tracked) {p : ℕ} {j j' : Job} (hj : m.jobs p = some j)
    (hok : j'.Ok) : (m.put p j').Tracked := by
  intro q k hk
  rcases put_jobs_eq_some hk with ⟨rfl, rfl⟩ | ⟨-, hk⟩
  · exact ⟨(hm q j hj).1, hok⟩
  · exact hm q k hk

/-- What the pointers lead to after `Start`: the new task, and what was there. -/
theorem start_jobs_eq_some {typ resourceID name : String} {now : Time} {q : ℕ} {k : Job}
    (h : (m.register typ resourceID name now).trim.jobs q = some k) :
    q = m.seq + 1 ∧ k = Job.new (Task.new (taskID (m.seq + 1)) typ resourceID name now) ∨
      m.jobs q = some k := by
  rcases put_jobs_eq_some (m := m) h with ⟨hq, hk⟩ | ⟨-, hk⟩
  · exact .inl ⟨hq, hk⟩
  · exact .inr hk

/-- **Step lemma**: every section keeps the tasks in order. -/
theorem tracked_step (hm : m.Tracked) (h : m.TaskEffect e m') : m'.Tracked := by
  cases h with
  | refused => exact hm
  | started typ resourceID name fn now =>
    intro q k hk
    rcases start_jobs_eq_some hk with ⟨rfl, rfl⟩ | hk
    · exact ⟨Nat.le_refl _, Job.ok_new _ _ _ _ _⟩
    · exact ⟨Nat.le_succ_of_le (hm q k hk).1, (hm q k hk).2⟩
  | begun hj hw now => exact hm.put hj ((hm _ _ hj).2.begin hw now)
  | reported hj hw r => exact hm.put hj ((hm _ _ hj).2.report hw r)
  | finished hj hw err now => exact hm.put hj ((hm _ _ hj).2.finish err now)
  | cancelled hp hj hc => exact hm.put hj ((hm _ _ hj).2.cancel_accepted hc)

/-! ## Accepted cancellations -/

/-- No task whose `Cancel` was accepted is shown as queued, as running or as cancellable. -/
def Acknowledged (m : Manager) : Prop :=
  ∀ p j, m.jobs p = some j → j.accepted = true →
    j.task.view.status ≠ .queued ∧ j.task.view.status ≠ .running ∧ j.task.view.cancellable = false

/-- Every task is queued when it is new, and moves along the life cycle afterwards. -/
def Forward (m m' : Manager) : Prop :=
  ∀ p j', m'.jobs p = some j' →
    match m.jobs p with
    | none => j'.task.status = .queued
    | some j => j.task.status.Moves j'.task.status

/-- The section moves the tasks forward and leaves the accepted ones acknowledged. -/
def Lifecycle (m : Manager) (e : TaskEvent) : Prop :=
  ∀ m', m.step e = some m' → m.Forward m' ∧ m'.Acknowledged

/-- The goroutine that is scheduled has no accepted `Cancel` behind it. -/
def NotOvertaken (m : Manager) : TaskEvent → Prop
  | .begin p _ => ∀ j, m.jobs p = some j → j.worker = .spawned → j.accepted = false
  | _ => True

/-- A status that is shown as neither queued nor running is not cancellable either. -/
theorem not_cancellable_iff {s : TaskStatus} :
    s ≠ .queued ∧ s ≠ .running ∧ s.cancellable = false ↔ s.cancellable = false := by
  cases s <;> decide

theorem acknowledged_iff : m.Acknowledged ↔
    ∀ p j, m.jobs p = some j → j.accepted = true → j.task.status.cancellable = false := by
  constructor
  · intro h p j hj ha
    exact (h p j hj ha).2.2
  · intro h p j hj ha
    exact not_cancellable_iff.mpr (h p j hj ha)

theorem acknowledged_put_iff (hm : m.Acknowledged) {p : ℕ} {j : Job} :
    (m.put p j).Acknowledged ↔ (j.accepted = true → j.task.status.cancellable = false) := by
  rw [acknowledged_iff] at hm ⊢
  constructor
  · intro h
    exact h p j (Function.update_self _ _ _)
  · intro h q k hk
    rcases put_jobs_eq_some hk with ⟨rfl, rfl⟩ | ⟨-, hk⟩
    · exact h
    · exact hm q k hk

theorem forward_refl (m : Manager) : m.Forward m := by
  intro p j' hj'
  rw [hj']
  exact .refl _

theorem forward_put_iff {p : ℕ} {j j' : Job} (hj : m.jobs p = some j) :
    m.Forward (m.put p j') ↔ j.task.status.Moves j'.task.status := by
  constructor
  · intro h
    have hp := h p j' (Function.update_self _ _ _)
    rwa [hj] at hp
  · intro h q k hk
    rcases put_jobs_eq_some hk with ⟨rfl, rfl⟩ | ⟨-, hk⟩
    · rw [hj]
      exact h
    · rw [hk]
      exact .refl _

/-- A section on one task: it is that task's status that has to move, and not to be shown as
cancellable when its `Cancel` was accepted. -/
theorem forward_acknowledged_put_iff (hack : m.Acknowledged) {p : ℕ} {j j' : Job}
    (hj : m.jobs p = some j) :
    m.Forward (m.put p j') ∧ (m.put p j').Acknowledged ↔
      j.task.status.Moves j'.task.status ∧
        (j'.accepted = true → j'.task.status.cancellable = false) := by
  rw [forward_put_iff hj, acknowledged_put_iff hack]

end Manager

namespace Job

variable {j : Job}

/-- Only here can a task go back: `Cancel` has left it `cancelling` and `run` sets `running`. -/
theorem Ok.begin_moves_iff (h : j.Ok) (hw : j.worker = .spawned) (now : Time) :
    j.task.status.Moves (j.begin now).task.status ∧
      ((j.begin now).accepted = true → (j.begin now).task.status.cancellable = false) ↔
        j.accepted = false := by
  constructor
  · rintro ⟨-, hshown⟩
    cases ha : j.accepted with
    | false => rfl
    | true => cases hshown ha
  · intro ha
    have hq : j.task.status = .queued := by
      rcases h.spawned hw with hs | hs
      · exact hs
      · cases ha.symm.trans (h.cancelling hs)
    exact ⟨.inr (hq ▸ .begin), fun hacc => by cases ha.symm.trans hacc⟩

theorem report_moves (hack : j.accepted = true → j.task.status.cancellable = false) (r : Report) :
    j.task.status.Moves (j.report r).task.status ∧
      ((j.report r).accepted = true → (j.report r).task.status.cancellable = false) := by
  have hstatus : (j.report r).task.status = j.task.status := Task.report_status j.task r
  rw [hstatus]
  exact ⟨.refl _, hack⟩

/-- The final section of an accepted task is that of a cancelled one, and of no other. -/
theorem Ok.finish_moves (h : j.Ok) (hw : j.worker = .working)
    (hack : j.accepted = true → j.task.status.cancellable = false) (err : Option String)
    (now : Time) :
    j.task.status.Moves (j.finish err now).task.status ∧
      ((j.finish err now).accepted = true →
        (j.finish err now).task.status.cancellable = false) := by
  refine ⟨?_, fun _ => ?_⟩
  · rw [Job.finish]
    dsimp only
    rw [Task.finish_status, h.ctxDone]
    rcases h.working hw with hs | hs
    · have ha : j.accepted = false := by
        cases ha : j.accepted with
        | false => rfl
        | true =>
          have hcanc := hack ha
          rw [hs] at hcanc
          cases hcanc
      rw [hs, ha]
      cases err
      · exact .inr .succeed
      · exact .inr .fail
    · rw [hs, h.cancelling hs]
      exact .inr .cancelled
  · have hterm : (j.finish err now).task.status.terminal = true :=
      Task.finish_terminal j.task j.ctxDone err now
    revert hterm
    cases (j.finish err now).task.status <;> decide

theorem cancel_moves (hc : j.task.status.cancellable = true) :
    j.task.status.Moves j.cancel.task.status ∧
      (j.cancel.accepted = true → j.cancel.task.status.cancellable = false) := by
  refine ⟨?_, fun _ => rfl⟩
  rw [Job.cancel]
  dsimp only
  revert hc
  cases j.task.status with
  | queued => exact fun _ => .inr .cancelQueued
  | running => exact fun _ => .inr .cancelRunning
  | _ => exact fun hc => by cases hc

end Job

namespace Manager

variable {m m' : Manager} {e : TaskEvent}

/-- A new task is queued, and nobody has cancelled it. -/
theorem forward_started (hm : m.Tracked) (hack : m.Acknowledged)
    (typ resourceID name : String) (now : Time) :
    m.Forward (m.register typ resourceID name now).trim ∧
      (m.register typ resourceID name now).trim.Acknowledged := by
  refine ⟨?_, ?_⟩
  · intro q k hk
    rcases start_jobs_eq_some hk with ⟨rfl, rfl⟩ | hk
    · rw [hm.fresh]
      rfl
    · rw [hk]
      exact .refl _
  · rw [acknowledged_iff] at hack ⊢
    intro q k hk ha
    rcases start_jobs_eq_some hk with ⟨rfl, rfl⟩ | hk
    · cases ha
    · exact hack q k hk ha

/-- **One section**: it moves the tasks forward and acknowledges what was accepted exactly
when it is no first section of a cancelled task. -/
theorem forward_iff_notOvertaken (hm : m.Tracked) (hack : m.Acknowledged)
    (h : m.TaskEffect e m') : m.Forward m' ∧ m'.Acknowledged ↔ m.NotOvertaken e := by
  have hshown := acknowledged_iff.mp hack
  cases h with
  | refused he =>
    refine iff_of_true ⟨forward_refl m, hack⟩ ?_
    cases e with
    | begin p now => exact absurd rfl (he p now)
    | _ => trivial
  | started typ resourceID name fn now =>
    exact iff_of_true (forward_started hm hack typ resourceID name now) trivial
  | @begun p j hj hw now =>
    rw [forward_acknowledged_put_iff hack hj, (hm p j hj).2.begin_moves_iff hw now]
    constructor
    · intro ha k hk _
      cases hj.symm.trans hk
      exact ha
    · intro h
      exact h j hj hw
  | @reported p j hj hw r =>
    exact iff_of_true ((forward_acknowledged_put_iff hack hj).mpr
      (Job.report_moves (hshown p j hj) r)) trivial
  | @finished p j hj hw err now =>
    exact iff_of_true ((forward_acknowledged_put_iff hack hj).mpr
      ((hm p j hj).2.finish_moves hw (hshown p j hj) err now)) trivial
  | @cancelled id p j hp hj hc =>
    exact iff_of_true ((forward_acknowledged_put_iff hack hj).mpr (Job.cancel_moves hc)) trivial

/-- A section that cannot be taken meets both. -/
theorem lifecycle_iff_notOvertaken (hm : m.Tracked) (hack : m.Acknowledged) (e : TaskEvent) :
    m.Lifecycle e ↔ m.NotOvertaken e := by
  rcases hst : m.step e with _ | m'
  · refine iff_of_true (fun m' h => by cases hst.symm.trans h) ?_
    cases e with
    | begin p now =>
      intro j hj hw
      rw [step, hj, Option.bind_some, if_pos hw] at hst
      cases hst
    | _ => trivial
  · rw [← forward_iff_notOvertaken hm hack (step_eq_some hst)]
    constructor
    · intro h
      exact h m' hst
    · intro h m'' hm''
      cases hst.symm.trans hm''
      exact h

/-- **The life cycle**, along every run of sections: every section moves every task forward,
and shows no accepted task as queued, running or cancellable, exactly when no goroutine is
scheduled after a `Cancel` of its task was accepted. -/
theorem lifecycle_iff (es : List TaskEvent) :
    Along step Lifecycle empty es ↔ Along step NotOvertaken empty es := by
  refine along_iff_of_inv (I := fun m => m.Tracked ∧ m.Acknowledged)
    (fun m e hm => lifecycle_iff_notOvertaken hm.1 hm.2 e) (fun m e m' hm he hst => ?_)
    ⟨tracked_empty, fun _ _ h => by cases h⟩
  exact ⟨tracked_step hm.1 (step_eq_some hst), (he m' hst).2⟩

end Manager

/-! ### A task cancelled in the queue -/

namespace QueuedCancel

/-- The task is started, cancelled, and only then scheduled. -/
def events : List TaskEvent :=
  [.start "vm-create" "erp01" "erp01" true 0, .cancel "task-000001", .begin 1 5]

end QueuedCancel

/-- An accepted task can be shown as running, and as cancellable again: it was cancelled
before its goroutine was scheduled. -/
theorem task_running_after_cancel :
    ¬ ∀ (es : List TaskEvent) (m : Manager), run Manager.step Manager.empty es = some m →
      m.Acknowledged := by
  intro hall
  have hrun := hall QueuedCancel.events _ rfl
  have h := (hrun 1 _ rfl rfl).2.1
  exact h rfl

end Ultrav
