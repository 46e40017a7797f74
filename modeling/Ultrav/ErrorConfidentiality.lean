import Ultrav.ApiErrors
import Ultrav.TaskRegistry

/-!
# Confidential errors

`writeProviderError` keeps the text of an error that is none of the provider's own from the client.
Background tasks do not go through it: their error is stored with the task.

* `GoError` — what can be seen of an error; `writeProviderError` — the reply for it.
* `Manager.answer` — what `GET /tasks` and `GET /tasks/{id}` reply.
* `TwinEvent.step` — two runs that differ in the internal errors they meet.
* `confidential_iff` — clients cannot tell the runs apart exactly when every task whose error
  differs was cancelled before its function returned.
-/

namespace Ultrav

open Machine

/-! ## Provider errors -/

/-- The exported sentinels of the provider package. -/
inductive Sentinel where
  | vmNotFound
  | vmAlreadyExists
  | consoleUnavailable
  | invalidVMState
  | poolAlreadyExists
  | poolNotFound
  | poolInsufficientSpace
  | networkNotFound
  | networkAlreadyExists
  | isoNotFound
  | invalidNetworkState
  | storageUnavailable
  | networkInactive
  | kvmUnavailable
  | backupNotFound
  | backupInvalidState
  deriving DecidableEq, Repr

/-- What can be seen of an error. -/
structure GoError where
  /-- `err.Error()` -/
  text : String
  /-- `errors.Is(err, s)` -/
  is : Sentinel → Bool
  /-- `errors.As`, for the sentinels that have a concrete type: the text of what is found -/
  concrete : Sentinel → Option String

/-- The sentinels in the order of the cases, with the code and the message; none is the text of the
error. -/
def providerCases : List (Sentinel × ErrorCode × Option String) :=
  [ (.vmNotFound, .vmNotFound, some "Virtual machine was not found"),
    (.poolNotFound, .poolNotFound, some "Storage pool was not found"),
    (.poolInsufficientSpace, .validationError, none),
    (.poolAlreadyExists, .poolAlreadyExists, some "A storage pool with this name already exists"),
    (.networkNotFound, .networkNotFound, some "Network was not found"),
    (.invalidNetworkState, .networkInvalidState, none),
    (.networkAlreadyExists, .networkAlreadyExists, some "A network with this name already exists"),
    (.invalidVMState, .vmInvalidState, none),
    (.vmAlreadyExists, .vmAlreadyExists, some "A virtual machine with this name already exists"),
    (.isoNotFound, .isoNotFound, some "ISO image was not found"),
    -- for these three the concrete error is written, when there is one
    (.networkInactive, .networkInactive, none),
    (.kvmUnavailable, .kvmUnavailable, none),
    (.storageUnavailable, .storageUnavailable, none),
    (.backupNotFound, .backupNotFound, some "Backup was not found"),
    (.backupInvalidState, .backupInvalidState, none),
    (.consoleUnavailable, .consoleUnavailable, some ("This virtual machine has no graphical " ++
      "console configured (add a VNC <graphics> device to its domain XML)")) ]

/-- `writeProviderError`: what is logged of the error, and the reply. -/
def writeProviderError (err : GoError) : Option String × ErrorReply :=
  match providerCases.find? fun c => err.is c.1 with
  | some (s, code, message) =>
    let text := match s with
      | .networkInactive | .kvmUnavailable | .storageUnavailable => (err.concrete s).getD err.text
      | _ => err.text
    (none, writeError code (message.getD text))
  | none => (some err.text, writeError .internalError "")

/-- An error that is none of the sentinels. -/
structure InternalError extends GoError where
  unmatched : ∀ s, is s = false

/-- Its reply says nothing of it. -/
theorem writeProviderError_internal (err : InternalError) :
    writeProviderError err.toGoError = (some err.text, writeError .internalError "") := by
  have hnone : (providerCases.find? fun c => err.is c.1) = none :=
    List.find?_eq_none.mpr fun c _ => by rw [err.unmatched]; exact Bool.false_ne_true
  rw [writeProviderError, hnone]

/-! ## Replies about tasks -/

/-- The text of a status. -/
def TaskStatus.text : TaskStatus → String
  | queued => "queued"
  | running => "running"
  | cancelling => "cancelling"
  | succeeded => "succeeded"
  | failed => "failed"
  | cancelled => "cancelled"

/-- `strconv.Atoi` -/
def atoi (s : String) : Option ℤ :=
  let digits (cs : List Char) : Option ℤ :=
    if cs ≠ [] ∧ cs.all Char.isDigit then some (Decimal.value cs : ℤ) else none
  let n := match s.toList with
    | '-' :: cs => (digits cs).map (- ·)
    | '+' :: cs => digits cs
    | cs => digits cs
  n.bind fun n => if -2 ^ 63 ≤ n ∧ n < 2 ^ 63 then some n else none

/-- A request for tasks. -/
inductive TaskRequest where
  /-- `GET /tasks/{id}` -/
  | get (id : String)
  /-- `GET /tasks` -/
  | list (status limit : String)
  deriving DecidableEq, Repr

/-- The reply to one. -/
inductive TaskReply where
  | task (view : TaskView)
  | tasks (items : List TaskView) (total : ℕ)
  | error (reply : ErrorReply)
  deriving DecidableEq, Repr

namespace Manager

/-- `List`; the order of tasks that were created at the same time is left to `sort`. -/
def list (sort : List Task → List Task) (m : Manager) (status : String) (limit : ℤ) :
    List TaskView :=
  let ordered := sort (m.order.filterMap fun p => (m.jobs p).map (·.task))
  let out := (ordered.filter fun t => status = "" || t.status.text = status).map Task.view
  if limit > 0 then out.take limit.toNat else out

/-- `handleGetTask` and `handleListTasks` -/
def answer (sort : List Task → List Task) (m : Manager) : TaskRequest → TaskReply
  | .get id =>
    match m.get id with
    | none => .error (writeError .taskNotFound "Task was not found")
    | some view => .task view
  | .list status limit =>
    if status ≠ "" ∧ status ∉ ["queued", "running", "succeeded", "failed", "cancelling",
        "cancelled"] then
      .error (writeError .validationError "invalid status filter")
    else
      match if limit = "" then some 100 else (atoi limit).filter fun n => 1 ≤ n && n ≤ 500 with
      | none => .error (writeError .validationError "limit must be between 1 and 500")
      | some n => .tasks (m.list sort status n) (m.list sort status n).length

end Manager

/-! ## What clients can tell of a manager -/

/-- A job without what its function returned, which no section reads. -/
def Job.shown (j : Job) : Job := { j with returned := none }

namespace Registry

/-- The trim does not read it either. -/
theorem trimFrom_shown (jobs : ℕ → Option Job) (n : ℕ) : ∀ (r : Registry) (k : ℕ),
    trimFrom (fun p => (jobs p).map Job.shown) r k n = trimFrom jobs r k n := by
  induction n with
  | zero =>
    intro r k
    rfl
  | succ n ih =>
    intro r k
    have hread (p : ℕ) : (((jobs p).map Job.shown).map fun j => (p, j.task)) =
        (jobs p).map fun j => (p, j.task) := by
      rw [Option.map_map]
      rfl
    rw [trimFrom, trimFrom]
    simp only [hread, ih]

end Registry

namespace Manager

/-- The manager without what the functions returned. -/
def shown (m : Manager) : Manager := { m with jobs := fun p => (m.jobs p).map Job.shown }

variable (m : Manager)

theorem map_shown_update (jobs : ℕ → Option Job) (p : ℕ) (j : Job) :
    (fun q => (Function.update jobs p (some j) q).map Job.shown) =
      Function.update (fun q => (jobs q).map Job.shown) p (some j.shown) := by
  funext q
  by_cases hq : q = p
  · rw [hq, Function.update_self, Function.update_self]
    rfl
  · rw [Function.update_of_ne hq, Function.update_of_ne hq]

theorem shown_put (p : ℕ) (j : Job) : (m.put p j).shown = m.shown.put p j.shown := by
  rw [shown, put, shown, put]
  dsimp only
  rw [map_shown_update]

theorem shown_register (typ resourceID name : String) (now : Time) :
    (m.register typ resourceID name now).shown = m.shown.register typ resourceID name now := by
  rw [shown, register, shown, register]
  dsimp only
  rw [map_shown_update]
  rfl

theorem shown_trim : m.trim.shown = m.shown.trim := by
  have htrimmed : m.shown.trimmed = m.trimmed := by
    rw [trimmed, trimmed, shown]
    dsimp only
    rw [Registry.trimFrom_shown]
  rw [trim, trim, htrimmed]
  rfl

theorem shown_jobs (p : ℕ) : m.shown.jobs p = (m.jobs p).map Job.shown := rfl

@[simp] theorem shown_shown : m.shown.shown = m.shown := by
  rw [shown, shown]
  dsimp only
  simp only [Option.map_map]
  rfl

/-- A section of one goroutine. -/
theorem section_shown (p : ℕ) (w : Worker) {f : Job → Job}
    (hf : ∀ j, (f j.shown).shown = (f j).shown) :
    ((m.shown.jobs p).bind fun j =>
        if j.worker = w then some (m.shown.put p (f j)) else none).map shown =
      ((m.jobs p).bind fun j => if j.worker = w then some (m.put p (f j)) else none).map shown := by
  rw [shown_jobs]
  rcases m.jobs p with _ | j
  · rfl
  · have hworker : j.shown.worker = j.worker := rfl
    rw [Option.map_some, Option.bind_some, Option.bind_some, hworker]
    split
    · rw [Option.map_some, Option.map_some, shown_put, shown_put, shown_shown, hf]
    · rfl

theorem start_shown (typ resourceID name : String) (fn : Bool) (now : Time) :
    m.shown.start typ resourceID name fn now =
      (m.start typ resourceID name fn now).map shown := by
  rw [start, start]
  split
  · rfl
  · split
    · rfl
    · exact congrArg Except.ok (by rw [shown_trim, shown_register])

theorem cancel_shown (id : String) : (m.shown.cancel id).2 = (m.cancel id).2.shown := by
  have hbyID : m.shown.byID = m.byID := rfl
  rw [cancel, cancel, hbyID]
  rcases m.byID id with _ | p
  · rfl
  · rw [Option.bind_some, Option.bind_some, shown_jobs]
    rcases m.jobs p with _ | j
    · rfl
    · have htask : j.shown.task = j.task := rfl
      simp only [Option.map_some, htask]
      split
      · exact (m.shown_put p j.cancel).symm
      · rfl

/-- What a section does to what is shown depends on that alone. -/
theorem step_shown (e : TaskEvent) : (m.shown.step e).map shown = (m.step e).map shown := by
  cases e with
  | start typ resourceID name fn now =>
    rw [step, step, start_shown]
    rcases m.start typ resourceID name fn now with _ | m'
    · exact congrArg some m.shown_shown
    · exact congrArg some m'.shown_shown
  | begin p now => exact m.section_shown p .spawned (f := fun j => j.begin now) fun _ => rfl
  | report p r => exact m.section_shown p .working (f := fun j => j.report r) fun _ => rfl
  | finish p err now =>
    exact m.section_shown p .working (f := fun j => j.finish err now) fun _ => rfl
  | cancel id =>
    rw [step, step, cancel_shown]
    exact congrArg some (m.cancel id).2.shown_shown

/-- **Requests** are answered by what is shown. -/
theorem answer_shown (sort : List Task → List Task) (req : TaskRequest) :
    m.shown.answer sort req = m.answer sort req := by
  have htask (p : ℕ) : (m.shown.jobs p).map (·.task) = (m.jobs p).map (·.task) := by
    rw [shown_jobs, Option.map_map]
    rfl
  have hview (p : ℕ) : ((m.shown.jobs p).map fun j => j.task.view) =
      (m.jobs p).map fun j => j.task.view := by
    rw [shown_jobs, Option.map_map]
    rfl
  have hlist (status : String) (limit : ℤ) :
      m.shown.list sort status limit = m.list sort status limit := by
    have horder : m.shown.order = m.order := rfl
    rw [list, list, horder]
    simp only [htask]
  cases req with
  | get id =>
    have hget : m.shown.get id = m.get id := by
      have hbyID : m.shown.byID = m.byID := rfl
      rw [get, get, hbyID]
      simp only [hview]
    rw [answer, answer, hget]
  | list status limit =>
    rw [answer, answer]
    simp only [hlist]

end Manager

/-! ## Two runs -/

section Fail

variable {m : Manager} {p : ℕ} {j : Job} {t₁ t₂ : String} {now : Time}

/-- The final section of a task that is running. -/
theorem Manager.step_finish (hj : m.jobs p = some j) (hw : j.worker = .working)
    (err : Option String) (now : Time) :
    m.step (.finish p err now) = some (m.put p (j.finish err now)) := by
  rw [Manager.step, hj, Option.bind_some, if_pos hw]

/-- The text of the error is not looked at, or it is the same. -/
theorem Manager.finish_concealed
    (h : ∀ j, m.jobs p = some j → j.worker = .working → j.ctxDone = true ∨ t₁ = t₂) :
    (m.step (.finish p (some t₁) now)).map Manager.shown =
      (m.step (.finish p (some t₂) now)).map Manager.shown := by
  rw [Manager.step, Manager.step]
  rcases hj : m.jobs p with _ | j
  · rfl
  rw [Option.bind_some, Option.bind_some]
  split
  · rename_i hw
    rcases h j hj hw with hdone | rfl
    · have hsame : (j.finish (some t₁) now).shown = (j.finish (some t₂) now).shown := by
        simp only [Job.finish, Task.finish, hdone, if_true, Job.shown]
      rw [Option.map_some, Option.map_some, Manager.shown_put, Manager.shown_put, hsame]
    · rfl
  · rfl

/-- A task that was not cancelled shows the text. -/
theorem Manager.answer_finish (sort : List Task → List Task) (hp : m.byID (taskID p) = some p)
    (hdone : j.ctxDone = false) (t : String) (now : Time) :
    ∃ view, (m.put p (j.finish (some t) now)).answer sort (.get (taskID p)) = .task view ∧
      view.error = strPtr t := by
  refine ⟨(j.finish (some t) now).task.view, ?_, ?_⟩
  · have hget : (m.put p (j.finish (some t) now)).get (taskID p) =
        some (j.finish (some t) now).task.view := by
      have hbyID : (m.put p (j.finish (some t) now)).byID (taskID p) = some p := hp
      rw [Manager.get, hbyID, Option.bind_some, Manager.put_jobs, Function.update_self]
      rfl
    rw [Manager.answer, hget]
  · rw [Job.finish, Task.finish, hdone]
    rfl

theorem strPtr_injective : Function.Injective strPtr := by
  intro a b h
  rw [strPtr, strPtr] at h
  split at h <;> split at h
  · rename_i ha hb
    rw [ha, hb]
  · cases h
  · cases h
  · exact Option.some.inj h

end Fail

/-- A critical section or a call that fails, in two runs that differ in internal errors only. -/
inductive TwinEvent where
  /-- the same in both -/
  | same (e : TaskEvent)
  /-- the function of a task fails -/
  | fail (p : ℕ) (e₁ e₂ : InternalError) (now : Time)
  /-- a call that is served synchronously fails -/
  | reply (e₁ e₂ : InternalError)

namespace TwinEvent

/-- One section in each run. -/
def step (s : Manager × Manager) : TwinEvent → Option (Manager × Manager)
  | .same e => (s.1.step e).bind fun m => (s.2.step e).map (m, ·)
  | .fail p e₁ e₂ now =>
    (s.1.step (.finish p (some e₁.text) now)).bind fun m =>
      (s.2.step (.finish p (some e₂.text) now)).map (m, ·)
  | .reply _ _ => some s

/-- The client gets the same reply in both runs, and the same answers after it. -/
structure Confidential (sort : List Task → List Task) (s : Manager × Manager) (e : TwinEvent) :
    Prop where
  reply : ∀ e₁ e₂, e = .reply e₁ e₂ →
    (writeProviderError e₁.toGoError).2 = (writeProviderError e₂.toGoError).2
  answers : ∀ s', step s e = some s' → ∀ req, s'.1.answer sort req = s'.2.answer sort req

/-- A task that fails was cancelled before, or its error has the same text in both runs. -/
def Concealed (s : Manager × Manager) : TwinEvent → Prop
  | .fail p e₁ e₂ _ =>
    ∀ j, s.1.jobs p = some j → j.worker = .working → j.ctxDone = true ∨ e₁.text = e₂.text
  | _ => True

/-- The runs show the same. -/
structure Inv (s : Manager × Manager) : Prop where
  registered : s.1.Registered
  same : s.1.shown = s.2.shown

variable {s s' : Manager × Manager} {e : TwinEvent}

/-- A step of both runs. -/
theorem Inv.bind {a b : TaskEvent} (h : Inv s)
    (hab : (s.1.step a).map Manager.shown = (s.2.step b).map Manager.shown)
    (hs : ((s.1.step a).bind fun m => (s.2.step b).map (m, ·)) = some s') : Inv s' := by
  obtain ⟨m₁, h₁, hs⟩ := Option.bind_eq_some_iff.mp hs
  obtain ⟨m₂, h₂, rfl⟩ := Option.map_eq_some_iff.mp hs
  rw [h₁, h₂] at hab
  exact ⟨Manager.registered_step h.registered (Manager.step_eq_some h₁), Option.some.inj hab⟩

/-- The final section in both runs, for a task whose error stays concealed. -/
theorem finish_shown (h : s.1.shown = s.2.shown) {p : ℕ} {t₁ t₂ : String} {now : Time}
    (hconcealed : ∀ j, s.1.jobs p = some j → j.worker = .working → j.ctxDone = true ∨ t₁ = t₂) :
    (s.1.step (.finish p (some t₁) now)).map Manager.shown =
      (s.2.step (.finish p (some t₂) now)).map Manager.shown := by
  rw [Manager.finish_concealed hconcealed, ← Manager.step_shown, h, Manager.step_shown]

/-- What the other run has for a job. -/
theorem jobs_of_shown (h : s.1.shown = s.2.shown) {p : ℕ} {j : Job} (hj : s.1.jobs p = some j) :
    ∃ k, s.2.jobs p = some k ∧ k.shown = j.shown := by
  have hjobs : s.1.shown.jobs p = s.2.shown.jobs p := by rw [h]
  rw [Manager.shown_jobs, Manager.shown_jobs, hj, Option.map_some] at hjobs
  exact Option.map_eq_some_iff.mp hjobs.symm

theorem inv_step (hI : Inv s) (hG : Concealed s e) (hs : step s e = some s') : Inv s' := by
  cases e with
  | same e =>
    refine hI.bind ?_ hs
    rw [← Manager.step_shown, hI.same, Manager.step_shown]
  | fail p e₁ e₂ now => exact hI.bind (finish_shown hI.same hG) hs
  | reply e₁ e₂ =>
    cases hs
    exact hI

/-- **One step**: the reply and the answers are the same exactly when the error stays concealed. -/
theorem confidential_iff_concealed (sort : List Task → List Task) (hI : Inv s) (e : TwinEvent) :
    Confidential sort s e ↔ Concealed s e := by
  constructor
  · intro h
    cases e with
    | same e => trivial
    | reply e₁ e₂ => trivial
    | fail p e₁ e₂ now =>
      intro j hj hw
      by_contra hcon
      rw [not_or, Bool.not_eq_true] at hcon
      obtain ⟨hdone, htext⟩ := hcon
      obtain ⟨k, hk, hshown⟩ := jobs_of_shown hI.same hj
      have hkw : k.worker = .working := (congrArg Job.worker hshown).trans hw
      have hkdone : k.ctxDone = false := (congrArg Job.ctxDone hshown).trans hdone
      have hlive := hI.registered.live p j hj
        ((hI.registered.tracked p j hj).2.not_terminal (by simp [hw]))
      have hp : s.1.byID (taskID p) = some p := (hI.registered.sync.2 _ _).mpr ⟨hlive, rfl⟩
      have hp' : s.2.byID (taskID p) = some p := (congrFun (congrArg Manager.byID hI.same) _) ▸ hp
      have hanswers := h.answers
        (s.1.put p (j.finish (some e₁.text) now), s.2.put p (k.finish (some e₂.text) now)) (by
          rw [step, Manager.step_finish hj hw, Manager.step_finish hk hkw]
          rfl) (.get (taskID p))
      obtain ⟨v₁, hv₁, herr₁⟩ := Manager.answer_finish sort hp hdone e₁.text now
      obtain ⟨v₂, hv₂, herr₂⟩ := Manager.answer_finish sort hp' hkdone e₂.text now
      rw [hv₁, hv₂] at hanswers
      cases hanswers
      exact htext (strPtr_injective (herr₁.symm.trans herr₂))
  · intro hG
    refine ⟨fun e₁ e₂ _ => ?_, fun s' hs req => ?_⟩
    · rw [writeProviderError_internal, writeProviderError_internal]
    · rw [← Manager.answer_shown, (inv_step hI hG hs).same, Manager.answer_shown]

end TwinEvent

/-- **Internal errors stay confidential** along two runs exactly when every task whose error has
another text in the other run was cancelled before its function returned. -/
theorem confidential_iff (sort : List Task → List Task) (es : List TwinEvent) :
    Along TwinEvent.step (TwinEvent.Confidential sort) (.empty, .empty) es ↔
      Along TwinEvent.step TwinEvent.Concealed (.empty, .empty) es := by
  refine (along_iff_of_inv (I := TwinEvent.Inv) (fun s e hI => ?_) (fun s e s' hI hG hs => ?_)
    ⟨Manager.registered_empty, rfl⟩).symm
  · exact (TwinEvent.confidential_iff_concealed sort hI e).symm
  · exact TwinEvent.inv_step hI hG hs

/-! ### Two errors of a backup -/

namespace BackupErrors

/-- An error that is none of the sentinels. -/
def plain (text : String) : InternalError where
  text := text
  is _ := false
  concrete _ := none
  unmatched _ := rfl

/-- A backup fails, with an error of libvirt in the one run and of the file system in the other. -/
def events : List TwinEvent :=
  [.same (.start "backup-create" "erp01" "erp01" true 0), .same (.begin 1 1),
    .fail 1 (plain "internal error: unable to execute QEMU command")
      (plain "open /var/lib/ultrav/backups: permission denied") 2]

end BackupErrors

/-- The error of a task reaches the client. -/
theorem task_shows_internal_error :
    ¬ ∀ (sort : List Task → List Task) (es : List TwinEvent),
      Along TwinEvent.step (TwinEvent.Confidential sort) (.empty, .empty) es := by
  intro hall
  have h := (((hall id BackupErrors.events).2 _ rfl).2 _ rfl).1
  exact absurd (h.answers _ rfl (.get "task-000001")) (by decide)

end Ultrav
