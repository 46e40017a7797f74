import Ultrav.BackupStore
import Ultrav.Decimal
import Ultrav.Machine
import Ultrav.SharedSlice

/-!
# The task manager

Long operations run in background goroutines and publish their state in a registry that all
of them share under one lock.

* `Task` / `Task.view` — a task, and what clients see of it.
* `Job` — a task with its context and its goroutine.
* `Manager.start` — register a task, and trim the history.
* `Manager.step` — one critical section of `Start`, `run`, `Cancel` or a `Reporter`.
* `Manager.TaskEffect` — everything a step can do (`step_eq_some`).

A pointer to a task is the value of `seq` it was made with.
-/

namespace Ultrav

/-! ## Tasks -/

/-- `types.TaskStatus` -/
inductive TaskStatus where
  | queued
  | running
  | cancelling
  | succeeded
  | failed
  | cancelled
  deriving DecidableEq, Repr

namespace TaskStatus

/-- No section of the code changes the task any more. -/
def terminal : TaskStatus → Bool
  | succeeded | failed | cancelled => true
  | _ => false

/-- `Cancel` accepts the task. -/
def cancellable : TaskStatus → Bool
  | queued | running => true
  | _ => false

end TaskStatus

/-- The internal task state. -/
structure Task where
  id : String
  typ : String
  status : TaskStatus
  resourceID : String
  resourceName : String
  message : String
  err : String
  progress : ℤ
  warnings : List String
  createdAt : Time
  /-- unset is the zero time -/
  startedAt : Option Time
  finishedAt : Option Time
  /-- the task still has its `context.CancelFunc` -/
  cancel : Bool
  deriving DecidableEq, Repr

/-- The API model of a task. -/
structure TaskView where
  id : String
  type : String
  status : TaskStatus
  resourceId : Option String
  resourceName : Option String
  message : Option String
  error : Option String
  progress : ℤ
  cancellable : Bool
  warnings : Option (List String)
  createdAt : Time
  startedAt : Option Time
  finishedAt : Option Time
  deriving DecidableEq, Repr

/-- `strPtr`: an empty text is left out. -/
def strPtr (s : String) : Option String := if s = "" then none else some s

/-- `fmt.Sprintf("task-%06d", n)` -/
def taskID (n : ℕ) : String := "task-" ++ String.ofList (Decimal.padded 6 n)

/-- The number of a task can be read off its id. -/
theorem taskID_injective : Function.Injective taskID := by
  intro a b h
  have hlist := congrArg String.toList h
  simp only [taskID, String.toList_append, String.toList_ofList] at hlist
  exact Decimal.padded_injective 6 (List.append_cancel_left hlist)

/-- A call of a `Reporter`. -/
inductive Report where
  | setProgress (p : ℤ)
  | setMessage (msg : String)
  | addWarning (w : String)
  | setResourceID (id : String)
  deriving DecidableEq, Repr

namespace Task

/-- The task that `Start` registers. -/
def new (id typ resourceID name : String) (now : Time) : Task where
  id := id
  typ := typ
  status := .queued
  resourceID := resourceID
  resourceName := name
  message := ""
  err := ""
  progress := 0
  warnings := []
  createdAt := now
  startedAt := none
  finishedAt := none
  cancel := true

/-- The first section of `run`. -/
def begin (t : Task) (now : Time) : Task := { t with status := .running, startedAt := some now }

/-- A `Reporter` call; progress is clamped. -/
def report (t : Task) : Report → Task
  | .setProgress p =>
    { t with progress := if p < 0 then 0 else if p > 100 then 100 else p }
  | .setMessage msg => { t with message := msg }
  | .addWarning w => { t with warnings := t.warnings ++ [w] }
  | .setResourceID id => { t with resourceID := id }

/-- The final section of `run`. -/
def finish (t : Task) (ctxDone : Bool) (err : Option String) (now : Time) : Task :=
  if ctxDone then
    -- the error of the function is not looked at
    { t with finishedAt := some now, cancel := false, status := .cancelled, message := "cancelled" }
  else
    match err with
    | some msg =>
      { t with finishedAt := some now, cancel := false, status := .failed, err := msg }
    | none =>
      { t with
        finishedAt := some now
        cancel := false
        status := .succeeded
        progress := if t.progress < 100 then 100 else t.progress }

/-- `viewLocked` -/
def view (t : Task) : TaskView where
  id := t.id
  type := t.typ
  status := t.status
  resourceId := strPtr t.resourceID
  resourceName := if t.resourceName ≠ "" then strPtr t.resourceName else none
  message := strPtr t.message
  error := strPtr t.err
  progress := t.progress
  cancellable := t.status.cancellable
  warnings := if t.warnings.length > 0 then some t.warnings else none
  createdAt := t.createdAt
  startedAt := t.startedAt
  finishedAt := t.finishedAt

@[simp] theorem report_id (t : Task) (r : Report) : (t.report r).id = t.id := by cases r <;> rfl

@[simp] theorem report_status (t : Task) (r : Report) : (t.report r).status = t.status := by
  cases r <;> rfl

@[simp] theorem report_cancel (t : Task) (r : Report) : (t.report r).cancel = t.cancel := by
  cases r <;> rfl

/-- Progress is clamped. -/
theorem report_progress {t : Task} (h : 0 ≤ t.progress ∧ t.progress ≤ 100) (r : Report) :
    0 ≤ (t.report r).progress ∧ (t.report r).progress ≤ 100 := by
  cases r with
  | setProgress p =>
    rw [report]
    dsimp only
    split
    · decide
    · split
      · decide
      · omega
  | _ => exact h

section Finish

variable (t : Task) (ctxDone : Bool) (err : Option String) (now : Time)

@[simp] theorem finish_id : (t.finish ctxDone err now).id = t.id := by
  cases ctxDone <;> cases err <;> rfl

/-- The status the task ends in. -/
theorem finish_status : (t.finish ctxDone err now).status =
    if ctxDone then .cancelled else if err = none then .succeeded else .failed := by
  cases ctxDone <;> cases err <;> rfl

theorem finish_terminal : (t.finish ctxDone err now).status.terminal = true := by
  cases ctxDone <;> cases err <;> rfl

variable {t ctxDone err now}

theorem finish_progress (h : 0 ≤ t.progress ∧ t.progress ≤ 100) :
    0 ≤ (t.finish ctxDone err now).progress ∧ (t.finish ctxDone err now).progress ≤ 100 := by
  rw [finish.eq_def]
  split
  · exact h
  · split
    · exact h
    · dsimp only
      split <;> omega

/-- A task that succeeds is complete. -/
theorem finish_succeeded (h : t.progress ≤ 100)
    (hs : (t.finish ctxDone err now).status = .succeeded) :
    (t.finish ctxDone err now).progress = 100 := by
  rw [finish.eq_def] at hs ⊢
  cases ctxDone with
  | true => cases hs
  | false =>
    cases err with
    | some msg => cases hs
    | none =>
      simp only [Bool.false_eq_true, if_false]
      split <;> omega

/-- A task that fails shows the error of its function. -/
theorem finish_failed (hf : (t.finish ctxDone err now).status = .failed) :
    err = some (t.finish ctxDone err now).err := by
  cases ctxDone <;> cases err <;> first | rfl | cases hf

end Finish

end Task

/-- Where the goroutine of a task is. -/
inductive Worker where
  /-- not scheduled yet -/
  | spawned
  /-- in the function it was given -/
  | working
  /-- past its final section -/
  | done
  deriving DecidableEq, Repr

/-- A task, the context and the goroutine made with it, and what became of them. -/
structure Job where
  task : Task
  /-- `ctx.Err() != nil` -/
  ctxDone : Bool
  worker : Worker
  /-- a `Cancel` of the task was accepted -/
  accepted : Bool
  /-- what the function returned: no error, or the text of one -/
  returned : Option (Option String)
  deriving DecidableEq, Repr

namespace Job

/-- A task that was just registered. -/
def new (t : Task) : Job := ⟨t, false, .spawned, false, none⟩

/-- The first section of `run`. -/
def begin (j : Job) (now : Time) : Job := { j with task := j.task.begin now, worker := .working }

/-- A `Reporter` call. -/
def report (j : Job) (r : Report) : Job := { j with task := j.task.report r }

/-- The function returns `err`, and `run` takes its final section. -/
def finish (j : Job) (err : Option String) (now : Time) : Job :=
  { j with task := j.task.finish j.ctxDone err now, worker := .done, returned := some err }

/-- `Cancel` accepts the task. -/
def cancel (j : Job) : Job :=
  { j with
    task := { j.task with status := .cancelling }
    ctxDone := j.ctxDone || j.task.cancel
    accepted := true }

end Job

/-! ## The manager -/

/-- The registry, and every task it was ever asked for. -/
structure Manager where
  seq : ℕ
  order : List ℕ
  byID : String → Option ℕ
  /-- what the pointers lead to -/
  jobs : ℕ → Option Job

/-- `maxHistory` -/
def maxHistory : ℕ := 500

/-- `Type.valid` -/
def taskTypeValid (typ : String) : Bool :=
  typ = "vm-create" || typ = "backup-create" || typ = "backup-restore"

/-- The two structures a task is registered in, while the history is trimmed. -/
structure Registry where
  order : Slice ℕ
  byID : String → Option ℕ

namespace Registry

/-- `dropLocked` -/
def drop (r : Registry) (p : ℕ) (t : Task) : Registry :=
  ⟨r.order.erase p, Function.update r.byID t.id none⟩

/-- The loop of the trim, from cell `k` on with `n` cells to go. The array is the one that
`drop` shifts. -/
def trimFrom (jobs : ℕ → Option Job) (r : Registry) : ℕ → ℕ → Registry
  | _, 0 => r
  | k, n + 1 =>
    if r.order.len ≤ maxHistory then r
    else
      match (r.order.cells[k]?).bind fun p => (jobs p).map fun j => (p, j.task) with
      | none => r
      | some (p, t) =>
        -- the shift moves the next pointer into cell `k`, so the loop passes it by
        if t.status.terminal then trimFrom jobs (r.drop p t) (k + 1) n
        else trimFrom jobs r (k + 1) n

end Registry

/-- A critical section. -/
inductive TaskEvent where
  /-- `Start`; whether it is given a function is part of the call -/
  | start (typ resourceID name : String) (fn : Bool) (now : Time)
  /-- the first section of `run` -/
  | begin (p : ℕ) (now : Time)
  /-- a call of the `Reporter` of a task -/
  | report (p : ℕ) (r : Report)
  /-- the function of the task has returned, and `run` takes its final section -/
  | finish (p : ℕ) (err : Option String) (now : Time)
  /-- `Cancel` -/
  | cancel (id : String)
  deriving DecidableEq, Repr

namespace Manager

/-- `NewManager` -/
def empty : Manager := ⟨0, [], fun _ => none, fun _ => none⟩

/-- Change what a pointer leads to. -/
def put (m : Manager) (p : ℕ) (j : Job) : Manager :=
  { m with jobs := Function.update m.jobs p (some j) }

/-- `Start` up to the trim. -/
def register (m : Manager) (typ resourceID name : String) (now : Time) : Manager where
  seq := m.seq + 1
  order := m.order ++ [m.seq + 1]
  byID := Function.update m.byID (taskID (m.seq + 1)) (some (m.seq + 1))
  jobs := Function.update m.jobs (m.seq + 1)
    (some (Job.new (Task.new (taskID (m.seq + 1)) typ resourceID name now)))

/-- What the trim makes of the registry. -/
def trimmed (m : Manager) : Registry :=
  if m.order.length > maxHistory then
    Registry.trimFrom m.jobs ⟨Slice.ofList m.order, m.byID⟩ 0 m.order.length
  else ⟨Slice.ofList m.order, m.byID⟩

/-- The trim at the end of `Start`. -/
def trim (m : Manager) : Manager :=
  { m with order := m.trimmed.order.view, byID := m.trimmed.byID }

/-- `Start` -/
def start (m : Manager) (typ resourceID name : String) (fn : Bool) (now : Time) :
    Except String Manager :=
  if !taskTypeValid typ then .error ("invalid task type \"" ++ typ ++ "\"")
  else if !fn then .error "task run function is required"
  else .ok (m.register typ resourceID name now).trim

/-- `Get` -/
def get (m : Manager) (id : String) : Option TaskView :=
  (m.byID id).bind fun p => (m.jobs p).map fun j => j.task.view

/-- `Cancel` -/
def cancel (m : Manager) (id : String) : Bool × Manager :=
  match (m.byID id).bind fun p => (m.jobs p).map fun j => (p, j) with
  | none => (false, m)
  | some (p, j) => if j.task.status.cancellable then (true, m.put p j.cancel) else (false, m)

/-- One critical section. -/
def step (m : Manager) : TaskEvent → Option Manager
  | .start typ resourceID name fn now =>
    match m.start typ resourceID name fn now with
    | .error _ => some m
    | .ok m' => some m'
  | .begin p now =>
    (m.jobs p).bind fun j => if j.worker = .spawned then some (m.put p (j.begin now)) else none
  | .report p r =>
    (m.jobs p).bind fun j => if j.worker = .working then some (m.put p (j.report r)) else none
  | .finish p err now =>
    (m.jobs p).bind fun j =>
      if j.worker = .working then some (m.put p (j.finish err now)) else none
  | .cancel id => some (m.cancel id).2

/-- Everything a critical section can do. -/
inductive TaskEffect (m : Manager) : TaskEvent → Manager → Prop where
  /-- a `Start` or `Cancel` that is refused -/
  | refused {e : TaskEvent} (he : ∀ p now, e ≠ .begin p now) : TaskEffect m e m
  /-- `Start` -/
  | started (typ resourceID name : String) (fn : Bool) (now : Time) :
    TaskEffect m (.start typ resourceID name fn now) (m.register typ resourceID name now).trim
  /-- the first section of `run` -/
  | begun {p : ℕ} {j : Job} (hj : m.jobs p = some j) (hw : j.worker = .spawned) (now : Time) :
    TaskEffect m (.begin p now) (m.put p (j.begin now))
  /-- a `Reporter` call -/
  | reported {p : ℕ} {j : Job} (hj : m.jobs p = some j) (hw : j.worker = .working) (r : Report) :
    TaskEffect m (.report p r) (m.put p (j.report r))
  /-- the final section of `run` -/
  | finished {p : ℕ} {j : Job} (hj : m.jobs p = some j) (hw : j.worker = .working)
    (err : Option String) (now : Time) :
    TaskEffect m (.finish p err now) (m.put p (j.finish err now))
  /-- `Cancel` -/
  | cancelled {id : String} {p : ℕ} {j : Job} (hp : m.byID id = some p) (hj : m.jobs p = some j)
    (hc : j.task.status.cancellable = true) : TaskEffect m (.cancel id) (m.put p j.cancel)

/-- **Inversion** for `step`. -/
theorem step_eq_some {m m' : Manager} {e : TaskEvent} (h : m.step e = some m') :
    m.TaskEffect e m' := by
  cases e with
  | start typ resourceID name fn now =>
    rw [step] at h
    split at h
    · cases h
      exact .refused fun _ _ h => by cases h
    · rename_i m'' hstart
      cases h
      rw [start] at hstart
      split at hstart
      · cases hstart
      · split at hstart <;> cases hstart
        exact .started typ resourceID name fn now
  | begin p now =>
    obtain ⟨j, hj, h⟩ := Option.bind_eq_some_iff.mp h
    split at h <;> cases h
    exact .begun hj ‹_› now
  | report p r =>
    obtain ⟨j, hj, h⟩ := Option.bind_eq_some_iff.mp h
    split at h <;> cases h
    exact .reported hj ‹_› r
  | finish p err now =>
    obtain ⟨j, hj, h⟩ := Option.bind_eq_some_iff.mp h
    split at h <;> cases h
    exact .finished hj ‹_› err now
  | cancel id =>
    have hrefused : m.TaskEffect (.cancel id) m := .refused fun _ _ h => by cases h
    rw [step, cancel] at h
    split at h
    · cases h
      exact hrefused
    · rename_i p j hpj
      split at h
      · rename_i hc
        cases h
        obtain ⟨q, hq, hmap⟩ := Option.bind_eq_some_iff.mp hpj
        obtain ⟨k, hk, heq⟩ := Option.map_eq_some_iff.mp hmap
        cases heq
        exact .cancelled hq hk hc
      · cases h
        exact hrefused

@[simp] theorem put_jobs (m : Manager) (p : ℕ) (j : Job) :
    (m.put p j).jobs = Function.update m.jobs p (some j) := rfl

/-- What the pointers lead to after a change of one job. -/
theorem put_jobs_eq_some {m : Manager} {p q : ℕ} {j k : Job} (h : (m.put p j).jobs q = some k) :
    q = p ∧ k = j ∨ q ≠ p ∧ m.jobs q = some k := by
  rcases Machine.update_eq_some h with ⟨hq, hk⟩ | hk
  · exact .inl ⟨hq, (Option.some.inj hk).symm⟩
  · exact .inr hk

end Manager

end Ultrav
