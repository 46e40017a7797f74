import Ultrav.ScheduleStore
import Ultrav.SharedCell

/-!
# Edits of one schedule

`Service.Update` and `markRun` both read a schedule, change their copy and write the
whole record back, and take the lock of the store for each access alone.

* `timePattern` / `vmIDPattern` / `validTypes` — the checks on a request.
* `Schedule.update` — what `Service.Update` does to its copy, with every error.
* `Edits` — any number of updates and recorded runs of one schedule, by store access.
* `Recorded` — the stored schedule shows the last recorded run and, field by field, the
  last successful update.
* `recorded_iff` — when it does, along every run.

The record is a `SharedCell` (`Edits.cell`), and each access of the store is one of the
cell (`step_cell`).
-/

namespace Ultrav

open Machine

/-! ## Requests -/

/-- The characters of a decimal number. -/
def digit (c : Char) : Bool := '0' ≤ c && c ≤ '9'

/-- `timePattern`: `^([01][0-9]|2[0-3]):[0-5][0-9]$`. -/
def timePattern (s : String) : Bool :=
  match s.toList with
  | [a, b, c, d, e] =>
    (((a = '0' || a = '1') && digit b) || (a = '2' && '0' ≤ b && b ≤ '3')) && c = ':' &&
      ('0' ≤ d && d ≤ '5') && digit e
  | _ => false

/-- The letters and digits. -/
def alnum (c : Char) : Bool := ('a' ≤ c && c ≤ 'z') || ('A' ≤ c && c ≤ 'Z') || digit c

/-- `vmIDPattern`: `^[a-zA-Z0-9*][a-zA-Z0-9._*-]{0,63}$`. -/
def vmIDPattern (s : String) : Bool :=
  match s.toList with
  | [] => false
  | c :: cs => (alnum c || c = '*') && cs.length ≤ 63 &&
      cs.all fun c => alnum c || c = '.' || c = '_' || c = '*' || c = '-'

/-- `validTypes` -/
def validTypes (t : String) : Bool := t = "" || t = "auto" || t = "full" || t = "incremental"

/-- `scheduleType`: the empty type is automatic. -/
def scheduleType (t : String) : String := if t = "" then "auto" else t

/-- A partial update. -/
structure UpdateRequest where
  time : Option String
  vmIDs : Option (List String)
  type : Option String
  retentionKeepLast : Option ℤ
  enabled : Option Bool
  deriving DecidableEq, Repr

namespace Schedule

/-- The `Time` part of an update. -/
def updateTime (s : Schedule) : Option String → Except ScheduleError Schedule
  | none => .ok s
  | some t =>
    if timePattern t then .ok { s with time := t }
    else .error (.invalid "time must be HH:MM (00:00–23:59)")

/-- The `VmIds` part of an update. -/
def updateVMIDs (s : Schedule) : Option (List String) → Except ScheduleError Schedule
  | none => .ok s
  | some ids =>
    if ids = [] then .error (.invalid "vmIds must not be empty")
    else
      match ids.find? fun id => !vmIDPattern id with
      | some id => .error (.invalid ("invalid vmId \"" ++ id ++ "\""))
      | none => .ok { s with vmIDs := ids }

/-- The `Type` part of an update. -/
def updateType (s : Schedule) : Option String → Except ScheduleError Schedule
  | none => .ok s
  | some t =>
    if validTypes (scheduleType t) then .ok { s with type := scheduleType t }
    else .error (.invalid "type must be auto, full or incremental")

/-- The `RetentionKeepLast` part of an update. -/
def updateRetention (s : Schedule) : Option ℤ → Except ScheduleError Schedule
  | none => .ok s
  | some n =>
    if n < 0 then .error (.invalid "retentionKeepLast must be >= 0")
    else .ok { s with retentionKeepLast := n }

/-- The `Enabled` part of an update. -/
def updateEnabled (s : Schedule) : Option Bool → Schedule
  | none => s
  | some b => { s with enabled := b }

/-- What `Service.Update` makes of its copy. -/
def update (s : Schedule) (req : UpdateRequest) : Except ScheduleError Schedule := do
  let s ← s.updateTime req.time
  let s ← s.updateVMIDs req.vmIDs
  let s ← s.updateType req.type
  let s ← s.updateRetention req.retentionKeepLast
  return s.updateEnabled req.enabled

end Schedule

/-- The fields a request sets, with the values they get. -/
def UpdateRequest.set (req : UpdateRequest) (s : Schedule) : Schedule :=
  { s with
    time := req.time.getD s.time
    vmIDs := req.vmIDs.getD s.vmIDs
    type := (req.type.map scheduleType).getD s.type
    retentionKeepLast := req.retentionKeepLast.getD s.retentionKeepLast
    enabled := req.enabled.getD s.enabled }

theorem bind_eq_ok {α β : Type} {x : Except ScheduleError α} {f : α → Except ScheduleError β}
    {b : β} (h : x >>= f = .ok b) : ∃ a, x = .ok a ∧ f a = .ok b := by
  rcases x with e | a
  · cases h
  · exact ⟨a, rfl, h⟩

section Update

variable {s s' : Schedule}

theorem updateTime_eq_ok {time : Option String} (h : s.updateTime time = .ok s') :
    s' = { s with time := time.getD s.time } := by
  rw [Schedule.updateTime.eq_def] at h
  split at h
  · cases h
    rfl
  · split at h <;> cases h
    rfl

theorem updateVMIDs_eq_ok {vmIDs : Option (List String)} (h : s.updateVMIDs vmIDs = .ok s') :
    s' = { s with vmIDs := vmIDs.getD s.vmIDs } := by
  rw [Schedule.updateVMIDs.eq_def] at h
  split at h
  · cases h
    rfl
  · split at h
    · cases h
    · split at h <;> cases h
      rfl

theorem updateType_eq_ok {type : Option String} (h : s.updateType type = .ok s') :
    s' = { s with type := (type.map scheduleType).getD s.type } := by
  rw [Schedule.updateType.eq_def] at h
  split at h
  · cases h
    rfl
  · split at h <;> cases h
    rfl

theorem updateRetention_eq_ok {keep : Option ℤ} (h : s.updateRetention keep = .ok s') :
    s' = { s with retentionKeepLast := keep.getD s.retentionKeepLast } := by
  rw [Schedule.updateRetention.eq_def] at h
  split at h
  · cases h
    rfl
  · split at h <;> cases h
    rfl

theorem updateEnabled_eq (enabled : Option Bool) :
    s.updateEnabled enabled = { s with enabled := enabled.getD s.enabled } := by
  cases enabled <;> rfl

/-- Inversion for `update`: a request that passes sets its fields and no others. -/
theorem update_eq_ok {req : UpdateRequest} (h : s.update req = .ok s') : s' = req.set s := by
  obtain ⟨s₁, h₁, h⟩ := bind_eq_ok h
  obtain ⟨s₂, h₂, h⟩ := bind_eq_ok h
  obtain ⟨s₃, h₃, h⟩ := bind_eq_ok h
  obtain ⟨s₄, h₄, h⟩ := bind_eq_ok h
  obtain rfl := updateTime_eq_ok h₁
  obtain rfl := updateVMIDs_eq_ok h₂
  obtain rfl := updateType_eq_ok h₃
  obtain rfl := updateRetention_eq_ok h₄
  cases h
  exact updateEnabled_eq req.enabled

end Update

/-! ## Edits -/

/-- What changes a schedule: an update, or the end of a run. -/
inductive EditOp where
  /-- `Service.Update` -/
  | update (req : UpdateRequest)
  /-- `markRun` -/
  | mark (now : Time)
  deriving DecidableEq, Repr

namespace EditOp

/-- What the call makes of its copy, between its two accesses. -/
def edit : EditOp → Schedule → Except ScheduleError Schedule
  | update req, s => s.update req
  | mark now, s => .ok { s with lastRun := some now }

/-- The fields the call sets. -/
def apply : EditOp → Schedule → Schedule
  | update req, s => req.set s
  | mark now, s => { s with lastRun := some now }

/-- The run time an edit sets. -/
def time : EditOp → Option String
  | update req => req.time
  | mark _ => none

/-- The targets an edit sets. -/
def vmIDs : EditOp → Option (List String)
  | update req => req.vmIDs
  | mark _ => none

/-- The type an edit sets. -/
def type : EditOp → Option String
  | update req => req.type.map scheduleType
  | mark _ => none

/-- The retention an edit sets. -/
def retentionKeepLast : EditOp → Option ℤ
  | update req => req.retentionKeepLast
  | mark _ => none

/-- The flag an edit sets. -/
def enabled : EditOp → Option Bool
  | update req => req.enabled
  | mark _ => none

/-- The run an edit records. -/
def lastRun : EditOp → Option (Option Time)
  | update _ => none
  | mark now => some (some now)

/-- Inversion for `edit`. -/
theorem edit_eq_ok {op : EditOp} {s s' : Schedule} (h : op.edit s = .ok s') : s' = op.apply s := by
  cases op with
  | update req => exact update_eq_ok h
  | mark now =>
    cases h
    rfl

@[simp] theorem apply_id (op : EditOp) (s : Schedule) : (op.apply s).id = s.id := by
  cases op <;> rfl

end EditOp

/-- The edits of one schedule at work on the store. -/
structure Edits where
  /-- the store -/
  store : ScheduleStore
  /-- the schedule as it was stored at the beginning -/
  origin : Schedule
  /-- the copy each call works on -/
  pending : ℕ → Option (Schedule × EditOp)
  /-- the calls that returned without an error, by the order of their `Replace` -/
  log : List EditOp

/-- An access to the store. -/
inductive EditEvent where
  /-- call `i` gets its copy -/
  | get (i : ℕ) (op : EditOp)
  /-- call `i` checks its request, and replaces the record when it passes -/
  | put (i : ℕ) (env : SaveEnv)

namespace Edits

/-- One access. -/
def step (s : Edits) : EditEvent → Option Edits
  | .get i op =>
    match s.pending i, s.store.get s.origin.id with
    | none, some sch => some { s with pending := Function.update s.pending i (some (sch, op)) }
    | _, _ => none
  | .put i env =>
    (s.pending i).map fun c =>
      match c.2.edit c.1 with
      | .error _ => { s with pending := Function.update s.pending i none }
      | .ok sch =>
        { s with
          store := (s.store.replace env sch).2
          pending := Function.update s.pending i none
          log :=
            match (s.store.replace env sch).1 with
            | .ok () => s.log ++ [c.2]
            | .error _ => s.log }

/-- Nothing has been edited yet. -/
def Started (s : Edits) : Prop :=
  s.store.get s.origin.id = some s.origin ∧ (∀ i, s.pending i = none) ∧ s.log = []

/-- The stored schedule shows the last recorded run, and in every other field the last
successful update that set it. -/
def Shows (s : Edits) : Prop :=
  ∃ sch, s.store.get s.origin.id = some sch ∧
    sch.name = s.origin.name ∧ sch.createdAt = s.origin.createdAt ∧
    sch.time = SharedCell.lastSet EditOp.time s.log s.origin.time ∧
    sch.vmIDs = SharedCell.lastSet EditOp.vmIDs s.log s.origin.vmIDs ∧
    sch.type = SharedCell.lastSet EditOp.type s.log s.origin.type ∧
    sch.retentionKeepLast =
      SharedCell.lastSet EditOp.retentionKeepLast s.log s.origin.retentionKeepLast ∧
    sch.enabled = SharedCell.lastSet EditOp.enabled s.log s.origin.enabled ∧
    sch.lastRun = SharedCell.lastSet EditOp.lastRun s.log s.origin.lastRun

/-- After the access, the stored schedule shows what it should. -/
def Recorded (s : Edits) (e : EditEvent) : Prop := ∀ s', s.step e = some s' → s'.Shows

/-- A `Replace` that is saved does to the stored schedule what it did to its copy: the
fields it does not set are the same in both. One that is not saved writes what is stored. -/
def Fresh (s : Edits) : EditEvent → Prop
  | .get _ _ => True
  | .put i env => ∀ copy op cur, s.pending i = some (copy, op) →
      s.store.get s.origin.id = some cur → (∃ sch, op.edit copy = .ok sch) →
        op.apply copy = if env.saves then op.apply cur else cur

/-! ### The record as a shared cell -/

/-- `Replace` puts the record where `Get` finds it. -/
theorem replace_get {st : ScheduleStore} (env : SaveEnv) {s old : Schedule}
    (h : st.get s.id = some old) :
    (st.replace env s).2.get s.id = some s ∧
      ((st.replace env s).1 = .ok () ↔ env.saves = true) := by
  obtain ⟨pre, post, -, hnew, hpre, hok⟩ := st.replace_list env h
  refine ⟨?_, hok⟩
  rw [ScheduleStore.get, hnew, List.find?_append, List.find?_eq_none.mpr (by simpa using hpre),
    Option.none_or]
  exact List.find?_cons_of_pos (by simp)

/-- The cell behind the store: the record of the schedule. -/
def cell (s : Edits) : SharedCell.State Schedule EditOp :=
  ⟨(s.store.get s.origin.id).getD s.origin, s.pending, s.log⟩

/-- The access of the cell behind an access of the store. -/
def cellEvent (s : Edits) : EditEvent → SharedCell.Event EditOp
  | .get i op => .read i op
  | .put i env =>
    match s.pending i with
    | none => .drop i
    | some c =>
      match c.2.edit c.1 with
      | .error _ => .drop i
      | .ok _ => .write i env.saves

/-- The invariant of a run: the schedule stays stored under its id, copies have its id, and
the cell is correct. -/
structure Inv (s : Edits) : Prop where
  /-- the schedule is stored -/
  stored : ∃ sch, s.store.get s.origin.id = some sch
  /-- copies are copies of it -/
  copies : ∀ i copy op, s.pending i = some (copy, op) → copy.id = s.origin.id
  /-- the log explains the record -/
  correct : SharedCell.Correct EditOp.apply s.origin s.cell

/-- What a log of edits makes of a schedule, field by field. -/
theorem replayed_eq (init : Schedule) (log : List EditOp) :
    SharedCell.replayed EditOp.apply init log =
      { id := init.id
        name := init.name
        time := SharedCell.lastSet EditOp.time log init.time
        vmIDs := SharedCell.lastSet EditOp.vmIDs log init.vmIDs
        type := SharedCell.lastSet EditOp.type log init.type
        retentionKeepLast :=
          SharedCell.lastSet EditOp.retentionKeepLast log init.retentionKeepLast
        enabled := SharedCell.lastSet EditOp.enabled log init.enabled
        lastRun := SharedCell.lastSet EditOp.lastRun log init.lastRun
        createdAt := init.createdAt } := by
  apply Schedule.ext
  · exact SharedCell.field_replayed_const Schedule.id EditOp.apply_id init log
  · refine SharedCell.field_replayed_const Schedule.name ?_ init log
    rintro (_ | _) s <;> rfl
  · refine SharedCell.field_replayed Schedule.time EditOp.time ?_ init log
    rintro (_ | _) s <;> rfl
  · refine SharedCell.field_replayed Schedule.vmIDs EditOp.vmIDs ?_ init log
    rintro (_ | _) s <;> rfl
  · refine SharedCell.field_replayed Schedule.type EditOp.type ?_ init log
    rintro (_ | _) s <;> rfl
  · refine SharedCell.field_replayed Schedule.retentionKeepLast EditOp.retentionKeepLast ?_ init log
    rintro (_ | _) s <;> rfl
  · refine SharedCell.field_replayed Schedule.enabled EditOp.enabled ?_ init log
    rintro (_ | _) s <;> rfl
  · refine SharedCell.field_replayed Schedule.lastRun EditOp.lastRun ?_ init log
    rintro (_ | _) s <;> rfl
  · refine SharedCell.field_replayed_const Schedule.createdAt ?_ init log
    rintro (_ | _) s <;> rfl

/-- The stored schedule shows what it should exactly when the cell is correct. -/
theorem shows_iff_correct {s : Edits} (hs : ∃ sch, s.store.get s.origin.id = some sch) :
    s.Shows ↔ SharedCell.Correct EditOp.apply s.origin s.cell := by
  obtain ⟨cur, hcur⟩ := hs
  have hid : cur.id = s.origin.id := ScheduleStore.get_id hcur
  rw [SharedCell.Correct, cell, hcur, Option.getD_some, replayed_eq, Schedule.ext_iff, Shows]
  constructor
  · rintro ⟨sch, hsch, hname, hcreated, htime, hvms, htype, hkeep, hen, hlast⟩
    cases hcur.symm.trans hsch
    exact ⟨hid, hname, htime, hvms, htype, hkeep, hen, hlast, hcreated⟩
  · rintro ⟨-, hname, htime, hvms, htype, hkeep, hen, hlast, hcreated⟩
    exact ⟨cur, hcur, hname, hcreated, htime, hvms, htype, hkeep, hen, hlast⟩

/-- The guard on an access of the store is the guard on the access of the cell. -/
theorem fresh_iff_cell {s : Edits} (hs : s.Inv) (e : EditEvent) :
    s.Fresh e ↔ SharedCell.Fresh EditOp.apply s.cell (s.cellEvent e) := by
  cases e with
  | get i op => exact Iff.rfl
  | put i env =>
    obtain ⟨cur, hcur⟩ := hs.stored
    have hvalue : s.cell.value = cur := by rw [cell, hcur, Option.getD_some]
    rcases hp : s.pending i with _ | ⟨copy, op⟩
    · rw [Fresh, cellEvent, hp]
      exact iff_of_true (fun _ _ _ h => by cases h) trivial
    · rcases hed : op.edit copy with err | sch
      · rw [Fresh, cellEvent, hp]
        simp only [hed]
        refine iff_of_true ?_ trivial
        rintro _ _ _ ⟨⟩ - ⟨sch, hsch⟩
        cases hed.symm.trans hsch
      · rw [Fresh, cellEvent, hp]
        simp only [hed, SharedCell.Fresh, hvalue, hcur, Option.some.injEq]
        constructor
        · intro h v o hc
          cases hp.symm.trans hc
          exact h copy op cur rfl rfl ⟨sch, hed⟩
        · rintro h _ _ _ ⟨rfl, rfl⟩ rfl -
          exact h copy op hp

/-- **An access of the store is one of the cell**, and keeps the schedule stored. -/
theorem step_cell {s s' : Edits} {e : EditEvent} (hs : s.Inv) (h : s.step e = some s') :
    SharedCell.step EditOp.apply s.cell (s.cellEvent e) = some s'.cell ∧
      s'.origin = s.origin ∧ (∃ sch, s'.store.get s.origin.id = some sch) ∧
      ∀ i copy op, s'.pending i = some (copy, op) → copy.id = s.origin.id := by
  obtain ⟨cur, hcur⟩ := hs.stored
  cases e with
  | get i op =>
    rw [step] at h
    split at h
    · rename_i sch hp hsch
      cases h
      refine ⟨?_, rfl, hs.stored, fun j copy o hj => ?_⟩
      · simp only [SharedCell.step, cellEvent, cell, hp, hsch, Option.getD_some]
      · dsimp only at hj
        rcases Machine.update_eq_some hj with ⟨-, hcopy⟩ | ⟨-, hj⟩
        · cases hcopy
          exact ScheduleStore.get_id hsch
        · exact hs.copies j copy o hj
    · cases h
  | put i env =>
    obtain ⟨⟨copy, op⟩, hp, hput⟩ := Option.map_eq_some_iff.mp h
    have hothers : ∀ j c o, Function.update s.pending i none j = some (c, o) →
        c.id = s.origin.id := by
      intro j c o hj
      rcases Machine.update_eq_some hj with ⟨-, hnone⟩ | ⟨-, hj⟩
      · cases hnone
      · exact hs.copies j c o hj
    rcases hed : op.edit copy with err | sch
    · simp only [hed] at hput
      cases hput
      refine ⟨?_, rfl, hs.stored, hothers⟩
      simp only [SharedCell.step, cellEvent, cell, hp, hed, Option.map_some]
    · have hsch : sch = op.apply copy := EditOp.edit_eq_ok hed
      have hid : sch.id = s.origin.id := by
        rw [hsch, EditOp.apply_id, hs.copies i copy op hp]
      obtain ⟨hget, hok⟩ := replace_get env (s := sch) (by rw [hid]; exact hcur)
      rw [hid] at hget
      simp only [hed] at hput
      cases hput
      refine ⟨?_, rfl, ⟨sch, hget⟩, hothers⟩
      have hlog : (if env.saves then s.log ++ [op] else s.log) =
          match (s.store.replace env sch).1 with
          | .ok () => s.log ++ [op]
          | .error _ => s.log := by
        rcases hr : (s.store.replace env sch).1 with err | ⟨⟨⟩⟩
        · rw [if_neg fun hsave => by cases hr.symm.trans (hok.mpr hsave)]
        · rw [if_pos (hok.mp hr)]
      simp only [SharedCell.step, cellEvent, cell, hp, hed, Option.map_some, hget,
        Option.getD_some, hlog, ← hsch]

/-- **One access**: the schedule shows what it should afterwards exactly when the access is
fresh. -/
theorem recorded_iff_fresh {s : Edits} (hs : s.Inv) (e : EditEvent) :
    s.Recorded e ↔ s.Fresh e := by
  rw [fresh_iff_cell hs]
  rcases hst : s.step e with _ | s'
  · refine iff_of_true (fun s' h => by cases hst.symm.trans h) ?_
    cases e with
    | get i op => trivial
    | put i env =>
      have hp : s.pending i = none := Option.map_eq_none_iff.mp hst
      rw [cellEvent, hp]
      trivial
  · obtain ⟨hcell, horigin, hstored, -⟩ := step_cell hs hst
    rw [← SharedCell.correct_step_iff hs.correct hcell, ← horigin,
      ← shows_iff_correct (horigin ▸ hstored)]
    constructor
    · intro h
      exact h s' hst
    · intro h s'' hs''
      cases hst.symm.trans hs''
      exact h

end Edits

/-! ### An edit during a run -/

namespace Overlap

/-- A schedule that never ran. -/
def nightly : Schedule := ⟨"sch-1", "nightly", "02:00", ["*"], "auto", 7, true, none, 0⟩

/-- The store with that schedule. -/
def edits : Edits := ⟨⟨some (marshal [nightly]), [nightly]⟩, nightly, fun _ => none, []⟩

/-- The request to switch the schedule off. -/
def disable : UpdateRequest := ⟨none, none, none, none, some false⟩

/-- The update reads the schedule, a run is recorded, the update writes its copy back. -/
def events : List EditEvent :=
  [.get 0 (.update disable), .get 1 (.mark 120), .put 1 .smooth, .put 0 .smooth]

end Overlap

end Ultrav
