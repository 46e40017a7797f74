import Mathlib
import Ultrav.ScheduleUpdate

/-!
# The tick loop

Every poll interval `RunLoop` takes the schedules of the store and starts a goroutine for
each one that is due, one run at a time.

* `Zone` — the calendar of the server: days of instants, and instants of clock times.
* `scanTime` / `due` — the due test.
* `Ticker` — the loop, the run mutex and the goroutine that holds it, with the starts and
  the visits of the loop on record.
* `TickEvent` / `Ticker.step` — one step of the loop or of the goroutine.
* `TickEffect` — everything a step can do.
-/

namespace Ultrav

/-! ## Run times -/

/-- The calendar of a time zone. -/
structure Zone where
  /-- the calendar day of an instant -/
  day : Time → ℤ
  /-- `time.Date` of a day, an hour and a minute -/
  clock : ℤ → ℤ → ℤ → Time
  /-- the calendar does not run backwards -/
  day_mono : Monotone day

/-- The zone without offset, with instants in seconds. -/
def Zone.utc : Zone where
  day t := t / 86400
  clock d h m := d * 86400 + h * 3600 + m * 60
  day_mono a b h := Int.ediv_le_ediv (by decide) h

/-- The value of a run of decimal digits. -/
def digitsValue (cs : List Char) : ℕ := cs.foldl (fun n c => 10 * n + (c.toNat - '0'.toNat)) 0

/-- The verb `%d`: blanks, a sign, digits; the number must fit an `int`. -/
def scanInt (cs : List Char) : Option (ℤ × List Char) :=
  let cs := cs.dropWhile (· = ' ')
  let (negative, cs) :=
    match cs with
    | '-' :: rest => (true, rest)
    | '+' :: rest => (false, rest)
    | _ => (false, cs)
  let value : ℤ := digitsValue (cs.takeWhile digit)
  let value := if negative then -value else value
  if cs.takeWhile digit = [] then none
  else if -2 ^ 63 ≤ value ∧ value < 2 ^ 63 then some (value, cs.dropWhile digit)
  else none

/-- `fmt.Sscanf(s, "%d:%d", &h, &m)` -/
def scanTime (s : String) : Option (ℤ × ℤ) :=
  (scanInt s.toList).bind fun h =>
    match h.2 with
    | ':' :: rest => (scanInt rest).map fun m => (h.1, m.1)
    | _ => none

/-- The run time of a schedule on a day. -/
def Zone.runTime (z : Zone) (sch : Schedule) (d : ℤ) : Option Time :=
  (scanTime sch.time).map fun hm => z.clock d hm.1 hm.2

/-- `due`: past the run time of the day, and the last recorded run is before it. -/
def due (z : Zone) (sch : Schedule) (now : Time) : Bool :=
  match z.runTime sch (z.day now) with
  | none => false
  | some today =>
    if now < today then false
    else
      match sch.lastRun with
      | some last => last < today
      | none => sch.createdAt ≤ today

/-- Inversion for `due`. -/
theorem due_eq_true {z : Zone} {sch : Schedule} {now : Time} :
    due z sch now = true ↔ ∃ today, z.runTime sch (z.day now) = some today ∧ today ≤ now ∧
      match sch.lastRun with
      | some last => last < today
      | none => sch.createdAt ≤ today := by
  rw [due]
  rcases z.runTime sch (z.day now) with _ | today
  · simp
  · by_cases hnow : now < today
    · simp [hnow]
    · rcases sch.lastRun with _ | last
      · simp [hnow, Int.not_lt.mp hnow]
      · simp [hnow, Int.not_lt.mp hnow]

/-! ## The loop -/

/-- Where the goroutine of a run stands. -/
inductive RunPhase where
  /-- resolving targets and backing up -/
  | working
  /-- before the deferred `Unlock` -/
  | returning
  deriving DecidableEq, Repr

/-- The goroutine that holds the run mutex. -/
structure Run where
  /-- the schedule as the loop passed it -/
  schedule : Schedule
  /-- the tick that started it -/
  now : Time
  phase : RunPhase
  deriving DecidableEq, Repr

/-- A run on record: the schedule, the tick that started it and the run time it is for. -/
structure Start where
  id : String
  now : Time
  occurrence : Option Time
  deriving DecidableEq, Repr

/-- The loop came to a schedule, and found the run mutex free or not. -/
structure Visit where
  id : String
  now : Time
  free : Bool
  deriving DecidableEq, Repr

/-- The tick loop and the run. -/
structure Ticker where
  /-- the store of the schedules -/
  store : ScheduleStore
  /-- the tick in progress: its time, and what is left of its snapshot -/
  tick : Option (Time × List Schedule)
  /-- the goroutine that holds the run mutex -/
  running : Option Run
  /-- the time of the latest tick -/
  last : Option Time
  /-- the runs started, latest first -/
  started : List Start
  /-- the runs that returned without resolving their targets -/
  abandoned : List Start
  /-- the schedules the loop came to, latest first -/
  visits : List Visit

/-- A step of the loop or of the goroutine. -/
inductive TickEvent where
  /-- the ticker fires, and the loop takes its snapshot -/
  | tick (now : Time)
  /-- the loop takes the next schedule of the snapshot: due test, `TryLock`, spawn -/
  | next
  /-- the goroutine cannot resolve its targets -/
  | targetsFail
  /-- the goroutine has backed up its targets and records the run -/
  | mark (env : SaveEnv)
  /-- the goroutine returns and unlocks the mutex -/
  | unlock

/-- `markRun`: nobody else writes the store, so its two accesses are one step. -/
def ScheduleStore.markRun (env : SaveEnv) (st : ScheduleStore) (id : String) (now : Time) :
    ScheduleStore :=
  match st.get id with
  | none => st
  | some sch => (st.replace env { sch with lastRun := some now }).2

section MarkRun

variable {env : SaveEnv} {st : ScheduleStore} {id : String} {now : Time}

/-- The records after a run was recorded. -/
theorem mem_markRun {r : Schedule} (hr : r ∈ (st.markRun env id now).list) :
    r ∈ st.list ∨ ∃ old, st.get id = some old ∧ r = { old with lastRun := some now } := by
  rw [ScheduleStore.markRun] at hr
  split at hr
  · exact .inl hr
  · rename_i old hold
    have hid : old.id = id := ScheduleStore.get_id hold
    obtain ⟨pre, post, hlist, hnew, -, -⟩ := st.replace_list env
      (s := { old with lastRun := some now }) (hid ▸ hold)
    rw [hnew] at hr
    rw [hlist]
    rcases List.mem_append.mp hr with hr | hr
    · exact .inl (List.mem_append_left _ hr)
    · rcases List.mem_cons.mp hr with rfl | hr
      · exact .inr ⟨old, hold, rfl⟩
      · exact .inl (List.mem_append_right _ (List.mem_cons_of_mem _ hr))

/-- Recording a run changes the one record, and in it the last run. -/
theorem get_markRun (j : String) : (st.markRun env id now).get j =
    if j = id then (st.get id).map fun old => { old with lastRun := some now } else st.get j := by
  rw [ScheduleStore.markRun]
  split
  · rename_i hnone
    by_cases hj : j = id
    · rw [if_pos hj, hj, hnone]
      rfl
    · rw [if_neg hj]
  · rename_i old hold
    have hid : old.id = id := ScheduleStore.get_id hold
    obtain ⟨pre, post, hlist, hnew, hpre, -⟩ := st.replace_list env
      (s := { old with lastRun := some now }) (hid ▸ hold)
    rw [ScheduleStore.get, hnew, List.find?_append]
    by_cases hj : j = id
    · rw [if_pos hj, hold, hj, List.find?_eq_none.mpr (by simpa [hid] using hpre), Option.none_or,
        List.find?_cons_of_pos (by simpa using hid)]
      rfl
    · have hne : ¬ id = j := fun h => hj h.symm
      rw [if_neg hj, ScheduleStore.get, hlist, List.find?_append,
        List.find?_cons_of_neg (by simpa [hid] using hne),
        List.find?_cons_of_neg (by simpa [hid] using hne)]

end MarkRun

namespace Ticker

variable (z : Zone)

/-- The record of the run that starts for `sch` at the tick `now`. -/
def start (sch : Schedule) (now : Time) : Start := ⟨sch.id, now, z.runTime sch (z.day now)⟩

/-- One step. -/
def step (s : Ticker) : TickEvent → Option Ticker
  | .tick now =>
    match s.tick with
    | none => some { s with tick := some (now, s.store.list), last := some now }
    | some _ => none
  | .next =>
    match s.tick with
    | none => none
    | some (_, []) => some { s with tick := none }
    | some (now, sch :: rest) =>
      let s := { s with
        tick := some (now, rest)
        visits := ⟨sch.id, now, s.running.isNone⟩ :: s.visits }
      if !sch.enabled || !due z sch now then some s
      else
        -- `TryLock` fails while a run goes on, and the schedule waits for the next tick
        match s.running with
        | some _ => some s
        | none => some { s with
            running := some ⟨sch, now, .working⟩
            started := start z sch now :: s.started }
  | .targetsFail =>
    match s.running with
    | some ⟨sch, now, .working⟩ => some { s with
        running := some ⟨sch, now, .returning⟩
        abandoned := start z sch now :: s.abandoned }
    | _ => none
  | .mark env =>
    match s.running with
    | some ⟨sch, now, .working⟩ => some { s with
        store := s.store.markRun env sch.id now
        running := some ⟨sch, now, .returning⟩ }
    | _ => none
  | .unlock =>
    match s.running with
    | some ⟨_, _, .returning⟩ => some { s with running := none }
    | _ => none

/-- Before the first tick. -/
def Started (s : Ticker) : Prop :=
  s.tick = none ∧ s.running = none ∧ s.last = none ∧ s.started = [] ∧ s.abandoned = [] ∧
    s.visits = []

/-- Everything a step can do. -/
inductive TickEffect (s : Ticker) : TickEvent → Ticker → Prop where
  /-- a tick begins -/
  | tick {now : Time} : s.tick = none →
      TickEffect s (.tick now) { s with tick := some (now, s.store.list), last := some now }
  /-- a tick ends -/
  | ended {now : Time} : s.tick = some (now, []) → TickEffect s .next { s with tick := none }
  /-- the loop passes a schedule by -/
  | passed {now : Time} {sch : Schedule} {rest : List Schedule} :
      s.tick = some (now, sch :: rest) →
      (sch.enabled = true → due z sch now = true → s.running ≠ none) →
      TickEffect s .next { s with
        tick := some (now, rest)
        visits := ⟨sch.id, now, s.running.isNone⟩ :: s.visits }
  /-- the loop starts a run -/
  | started {now : Time} {sch : Schedule} {rest : List Schedule} :
      s.tick = some (now, sch :: rest) → sch.enabled = true → due z sch now = true →
      s.running = none →
      TickEffect s .next { s with
        tick := some (now, rest)
        visits := ⟨sch.id, now, true⟩ :: s.visits
        running := some ⟨sch, now, .working⟩
        started := start z sch now :: s.started }
  /-- a run gives up -/
  | abandoned {sch : Schedule} {now : Time} : s.running = some ⟨sch, now, .working⟩ →
      TickEffect s .targetsFail { s with
        running := some ⟨sch, now, .returning⟩
        abandoned := start z sch now :: s.abandoned }
  /-- a run is recorded -/
  | marked {sch : Schedule} {now : Time} {env : SaveEnv} :
      s.running = some ⟨sch, now, .working⟩ →
      TickEffect s (.mark env) { s with
        store := s.store.markRun env sch.id now
        running := some ⟨sch, now, .returning⟩ }
  /-- the mutex is unlocked -/
  | unlocked {sch : Schedule} {now : Time} : s.running = some ⟨sch, now, .returning⟩ →
      TickEffect s .unlock { s with running := none }

variable {z}

/-- **Inversion for `step`.** -/
theorem step_eq_some {s s' : Ticker} {e : TickEvent} (h : step z s e = some s') :
    TickEffect z s e s' := by
  cases e with
  | tick now =>
    rw [step] at h
    split at h
    · rename_i ht
      cases h
      exact .tick ht
    · cases h
  | next =>
    rw [step] at h
    split at h
    · cases h
    · rename_i now ht
      cases h
      exact .ended ht
    · rename_i now sch rest ht
      dsimp only at h
      split at h
      · rename_i hnot
        cases h
        refine .passed ht fun hen hdue => ?_
        rw [hen, hdue] at hnot
        cases hnot
      · rename_i hdue
        simp only [Bool.or_eq_true, Bool.not_eq_true', not_or, Bool.not_eq_false] at hdue
        split at h
        · rename_i r hr
          cases h
          exact .passed ht fun _ _ hnone => by cases hr.symm.trans hnone
        · rename_i hr
          cases h
          rw [hr]
          exact .started ht hdue.1 hdue.2 hr
  | targetsFail =>
    rw [step] at h
    split at h
    · rename_i hr
      cases h
      exact .abandoned hr
    · cases h
  | mark env =>
    rw [step] at h
    split at h
    · rename_i hr
      cases h
      exact .marked hr
    · cases h
  | unlock =>
    rw [step] at h
    split at h
    · rename_i hr
      cases h
      exact .unlocked hr
    · cases h

end Ticker

end Ultrav
