import Ultrav.TaskLifecycle

/-!
# The task registry

A task is registered in a list and in a map, and `Start` trims both while it ranges over the
list it shifts.

* `InSync` — list and map hold the same tasks.
* `Registry.Inv` — what the trim keeps, cell by cell of the shifted array: every cell holds a
  registered task, and what is no longer listed had ended (`trimFrom_inv`).
* `Manager.Registered` — the registry after any section (`registered_step`).
* `Manager.Consistent` — what clients rely on, in every state reached (`consistent_of_run`).
-/

namespace Ultrav

open Machine

/-! ## List and map -/

/-- The list holds no task twice, and the map leads to exactly the listed tasks, each under
its id. -/
def InSync (order : List ℕ) (byID : String → Option ℕ) : Prop :=
  order.Nodup ∧ ∀ id p, byID id = some p ↔ p ∈ order ∧ taskID p = id

section InSync

variable {order : List ℕ} {byID : String → Option ℕ} {p : ℕ}

/-- A task is put into both. -/
theorem InSync.concat (h : InSync order byID) (hp : p ∉ order) :
    InSync (order ++ [p]) (Function.update byID (taskID p) (some p)) := by
  obtain ⟨hnodup, hsame⟩ := h
  refine ⟨hnodup.append (List.nodup_singleton p) (by simpa using hp), fun id q => ?_⟩
  rw [List.mem_append, List.mem_singleton]
  by_cases hid : id = taskID p
  · rw [hid, Function.update_self]
    constructor
    · intro h
      cases h
      exact ⟨.inr rfl, rfl⟩
    · rintro ⟨-, hq⟩
      rw [taskID_injective hq]
  · rw [Function.update_of_ne hid, hsame]
    constructor
    · rintro ⟨hq, hqid⟩
      exact ⟨.inl hq, hqid⟩
    · rintro ⟨hq | rfl, hqid⟩
      · exact ⟨hq, hqid⟩
      · exact absurd hqid.symm hid

/-- A task is taken out of both. -/
theorem InSync.erase (h : InSync order byID) (p : ℕ) :
    InSync (order.erase p) (Function.update byID (taskID p) none) := by
  obtain ⟨hnodup, hsame⟩ := h
  refine ⟨hnodup.erase p, fun id q => ?_⟩
  rw [hnodup.mem_erase_iff]
  by_cases hid : id = taskID p
  · rw [hid, Function.update_self]
    refine iff_of_false (fun h => by cases h) ?_
    rintro ⟨⟨hne, -⟩, hq⟩
    exact hne (taskID_injective hq)
  · rw [Function.update_of_ne hid, hsame]
    constructor
    · rintro ⟨hq, hqid⟩
      exact ⟨⟨fun hqp => hid (by rw [← hqid, hqp]), hq⟩, hqid⟩
    · rintro ⟨⟨-, hq⟩, hqid⟩
      exact ⟨hq, hqid⟩

end InSync

/-! ## The trim -/

namespace Registry

variable {jobs : ℕ → Option Job} {all : List ℕ} {r : Registry}

/-- The registry while the tasks `all` are trimmed. The cells behind the end of the list are
stale, and hold registered tasks all the same. -/
structure Inv (jobs : ℕ → Option Job) (all : List ℕ) (r : Registry) : Prop where
  sync : InSync r.order.view r.byID
  cells : ∀ p ∈ r.order.cells, p ∈ all
  /-- what is no longer listed had ended -/
  dropped : ∀ p ∈ all, p ∉ r.order.view → ∃ j, jobs p = some j ∧ j.task.status.terminal = true

/-- Listed tasks are among those that are trimmed. -/
theorem Inv.mem_all (h : r.Inv jobs all) {p : ℕ} (hp : p ∈ r.order.view) : p ∈ all :=
  h.cells p (List.mem_of_mem_take hp)

/-- One drop, of a listed task or of one that a stale cell still shows. -/
theorem Inv.drop (h : r.Inv jobs all) {p : ℕ} {j : Job} (hj : jobs p = some j)
    (hid : j.task.id = taskID p) (hterm : j.task.status.terminal = true) :
    (r.drop p j.task).Inv jobs all where
  sync := by
    rw [Registry.drop, hid, Slice.view_erase]
    exact h.sync.erase p
  cells q hq := h.cells q (Slice.mem_cells_erase hq)
  dropped q hq hnot := by
    rw [Registry.drop, Slice.view_erase, h.sync.1.mem_erase_iff] at hnot
    by_cases hqp : q = p
    · exact ⟨j, hqp ▸ hj, hterm⟩
    · exact h.dropped q hq fun hmem => hnot ⟨hqp, hmem⟩

/-- **The trim**: any number of drops, from any cell on, keeps list and map in step and drops
only what has ended. -/
theorem trimFrom_inv (hids : ∀ p j, jobs p = some j → j.task.id = taskID p) (n : ℕ) :
    ∀ (r : Registry) (k : ℕ), r.Inv jobs all → (trimFrom jobs r k n).Inv jobs all := by
  induction n with
  | zero =>
    intro r k h
    exact h
  | succ n ih =>
    intro r k h
    rw [trimFrom]
    split
    · exact h
    · split
      · exact h
      · rename_i p t hpt
        obtain ⟨q, -, hq⟩ := Option.bind_eq_some_iff.mp hpt
        obtain ⟨j, hj, heq⟩ := Option.map_eq_some_iff.mp hq
        cases heq
        split
        · exact ih _ _ (h.drop hj (hids _ j hj) ‹_›)
        · exact ih _ _ h

end Registry

/-! ## The manager -/

namespace Manager

variable {m m' : Manager} {e : TaskEvent}

/-- The registry between two sections. -/
structure Registered (m : Manager) : Prop where
  tracked : m.Tracked
  ids : ∀ p j, m.jobs p = some j → j.task.id = taskID p
  sync : InSync m.order m.byID
  known : ∀ p ∈ m.order, ∃ j, m.jobs p = some j
  /-- a task that has not ended is listed -/
  live : ∀ p j, m.jobs p = some j → j.task.status.terminal = false → p ∈ m.order

theorem registered_empty : empty.Registered where
  tracked := tracked_empty
  ids _ _ h := by cases h
  sync := ⟨List.nodup_nil, fun _ _ => iff_of_false (fun h => by cases h) fun h => by cases h.1⟩
  known _ h := by cases h
  live _ _ h := by cases h

/-- What the trim leaves. -/
theorem trimmed_inv (hids : ∀ p j, m.jobs p = some j → j.task.id = taskID p)
    (hsync : InSync m.order m.byID) : m.trimmed.Inv m.jobs m.order := by
  have hstart : Registry.Inv m.jobs m.order ⟨Slice.ofList m.order, m.byID⟩ := by
    refine ⟨?_, fun _ hp => hp, fun p hp hnot => ?_⟩
    · rw [Slice.view_ofList]
      exact hsync
    · rw [Slice.view_ofList] at hnot
      exact absurd hp hnot
  rw [trimmed]
  split
  · exact Registry.trimFrom_inv hids _ _ _ hstart
  · exact hstart

/-- The trim keeps the registry. -/
theorem Registered.trim (h : m.Registered) : m.trim.Registered := by
  have hinv := trimmed_inv h.ids h.sync
  refine ⟨h.tracked, h.ids, hinv.sync, fun p hp => h.known p (hinv.mem_all hp), ?_⟩
  intro p j hj hlive
  by_contra hnot
  obtain ⟨k, hk, hterm⟩ := hinv.dropped p (h.live p j hj hlive) hnot
  cases hj.symm.trans hk
  cases hlive.symm.trans hterm

/-- The task that `Start` makes is registered. -/
theorem Registered.register (h : m.Registered) (typ resourceID name : String) (now : Time) :
    (m.register typ resourceID name now).Registered := by
  have hnew : m.seq + 1 ∉ m.order := by
    intro hmem
    obtain ⟨j, hj⟩ := h.known _ hmem
    have := (h.tracked _ j hj).1
    omega
  have hjobs : ∀ q k, (m.register typ resourceID name now).jobs q = some k →
      q = m.seq + 1 ∧ k = Job.new (Task.new (taskID (m.seq + 1)) typ resourceID name now) ∨
        m.jobs q = some k := fun q k hk => start_jobs_eq_some hk
  refine ⟨?_, fun q k hk => ?_, h.sync.concat hnew, fun q hq => ?_, fun q k hk hlive => ?_⟩
  · have htrim := tracked_step h.tracked (.started typ resourceID name true now)
    exact htrim
  · rcases hjobs q k hk with ⟨rfl, rfl⟩ | hk
    · rfl
    · exact h.ids q k hk
  · by_cases hq' : q = m.seq + 1
    · exact ⟨_, by rw [hq']; exact Function.update_self _ _ _⟩
    · obtain ⟨k, hk⟩ := h.known q (by simpa [Manager.register, hq'] using hq)
      exact ⟨k, (Function.update_of_ne hq' _ _).trans hk⟩
  · rcases hjobs q k hk with ⟨rfl, -⟩ | hk
    · simp [Manager.register]
    · exact List.mem_append_left _ (h.live q k hk hlive)

/-- A change of one job keeps the registry when the task keeps its id, and does not come back
to life. -/
theorem Registered.put (h : m.Registered) {p : ℕ} {j j' : Job} (hj : m.jobs p = some j)
    (hok : j'.Ok) (hid : j'.task.id = j.task.id) (hlive : j.task.status.terminal = false) :
    (m.put p j').Registered := by
  refine ⟨h.tracked.put hj hok, fun q k hk => ?_, h.sync, fun q hq => ?_, fun q k hk hk' => ?_⟩
  · rcases put_jobs_eq_some hk with ⟨rfl, rfl⟩ | ⟨-, hk⟩
    · exact hid.trans (h.ids q j hj)
    · exact h.ids q k hk
  · by_cases hqp : q = p
    · exact ⟨j', by rw [hqp]; exact Function.update_self _ _ _⟩
    · obtain ⟨k, hk⟩ := h.known q hq
      exact ⟨k, (Function.update_of_ne hqp _ _).trans hk⟩
  · rcases put_jobs_eq_some hk with ⟨rfl, -⟩ | ⟨-, hk⟩
    · exact h.live q j hj hlive
    · exact h.live q k hk hk'

/-- **Step lemma**: every section keeps the registry. -/
theorem registered_step (h : m.Registered) (he : m.TaskEffect e m') : m'.Registered := by
  cases he with
  | refused => exact h
  | started typ resourceID name fn now => exact (h.register typ resourceID name now).trim
  | @begun p j hj hw now =>
    have hok := (h.tracked p j hj).2
    exact h.put hj (hok.begin hw now) rfl (hok.not_terminal (by simp [hw]))
  | @reported p j hj hw r =>
    have hok := (h.tracked p j hj).2
    exact h.put hj (hok.report hw r) (Task.report_id j.task r) (hok.not_terminal (by simp [hw]))
  | @finished p j hj hw err now =>
    have hok := (h.tracked p j hj).2
    exact h.put hj (hok.finish err now) (Task.finish_id j.task j.ctxDone err now)
      (hok.not_terminal (by simp [hw]))
  | @cancelled id p j hp hj hc =>
    refine h.put hj ((h.tracked p j hj).2.cancel_accepted hc) rfl ?_
    revert hc
    cases j.task.status <;> decide

/-! ## What clients rely on -/

/-- The registry and the tasks as clients rely on them. -/
structure Consistent (m : Manager) : Prop where
  /-- the list holds no task twice -/
  nodup : m.order.Nodup
  /-- what is listed is in the map, under its id -/
  listed : ∀ p ∈ m.order, ∃ j, m.jobs p = some j ∧ m.byID j.task.id = some p
  /-- what is in the map is listed, and has that id -/
  indexed : ∀ id p, m.byID id = some p → p ∈ m.order ∧ ∃ j, m.jobs p = some j ∧ j.task.id = id
  /-- ids are distinct -/
  distinct : ∀ p q j k, m.jobs p = some j → m.jobs q = some k → j.task.id = k.task.id → p = q
  progress : ∀ p j, m.jobs p = some j → 0 ≤ j.task.progress ∧ j.task.progress ≤ 100
  succeeded : ∀ p j, m.jobs p = some j → j.task.status = .succeeded → j.task.progress = 100
  /-- a failed task carries the text of the error its function returned -/
  failed : ∀ p j, m.jobs p = some j → j.task.status = .failed → j.returned = some (some j.task.err)
  /-- a task that has ended is cancelled exactly when a `Cancel` of it was accepted -/
  cancelled : ∀ p j, m.jobs p = some j → j.task.status.terminal = true →
    (j.task.status = .cancelled ↔ j.accepted = true)
  /-- a task that has not ended is not dropped -/
  kept : ∀ p j, m.jobs p = some j → j.task.status.terminal = false → p ∈ m.order

theorem Registered.consistent (h : m.Registered) : m.Consistent where
  nodup := h.sync.1
  listed p hp := by
    obtain ⟨j, hj⟩ := h.known p hp
    exact ⟨j, hj, (h.sync.2 _ _).mpr ⟨hp, (h.ids p j hj).symm⟩⟩
  indexed id p hid := by
    obtain ⟨hp, rfl⟩ := (h.sync.2 id p).mp hid
    obtain ⟨j, hj⟩ := h.known p hp
    exact ⟨hp, j, hj, h.ids p j hj⟩
  distinct p q j k hj hk hid := by
    rw [h.ids p j hj, h.ids q k hk] at hid
    exact taskID_injective hid
  progress p j hj := (h.tracked p j hj).2.progress
  succeeded p j hj := (h.tracked p j hj).2.succeeded
  failed p j hj := (h.tracked p j hj).2.failed
  cancelled p j hj := (h.tracked p j hj).2.terminal
  kept := h.live

/-- **The registry stays consistent**: in every state that sections of any number of tasks
reach, in any order. -/
theorem consistent_of_run {es : List TaskEvent} (h : run step empty es = some m) : m.Consistent :=
  (run_inv (fun _ _ _ hm _ hst => registered_step hm (step_eq_some hst)) registered_empty
    (Along.unguarded _ _) h).consistent

end Manager

/-! ### Two tasks -/

namespace TwoTasks

/-- One task fails, and one is cancelled although its function returns no error. -/
def events : List TaskEvent :=
  [.start "vm-create" "erp01" "erp01" true 0, .start "backup-create" "erp01" "erp01" true 1,
    .begin 1 2, .begin 2 2, .report 1 (.setProgress 140), .cancel "task-000002",
    .finish 1 (some "disk full") 3, .finish 2 none 4]

/-- What they leave. -/
def manager : Manager := (run Manager.step Manager.empty events).getD Manager.empty

end TwoTasks

/-- The registry after both tasks have ended. -/
theorem Manager.consistent_twoTasks : TwoTasks.manager.Consistent :=
  Manager.consistent_of_run (rfl : run Manager.step Manager.empty TwoTasks.events = some _)

end Ultrav
