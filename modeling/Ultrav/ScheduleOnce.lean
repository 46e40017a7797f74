import Ultrav.ScheduleTick

/-!
# One run per occurrence

The due test reads the last run from a snapshot that was taken before the mutex was
tried, and a run is only recorded when it has resolved its targets. `fires_once` says
what has to hold when a run starts so that no occurrence is run twice.

* `Safe` — what the snapshot has to be worth when a run starts.
* `Once` — the invariant: every start but the running one is recorded or abandoned.
-/

namespace Ultrav

open Machine

namespace Ticker

/-- When a run starts, the last run the store has on record is still before the run time,
and no run for the same run time has given up for want of targets. -/
def Safe (z : Zone) (s : Ticker) : TickEvent → Prop
  | .next => ∀ now sch rest, s.tick = some (now, sch :: rest) → sch.enabled = true →
      due z sch now = true → s.running = none →
        (∀ cur last, s.store.get sch.id = some cur → cur.lastRun = some last →
          ∀ today, z.runTime sch (z.day now) = some today → last < today) ∧
        ∀ a ∈ s.abandoned, a.id = sch.id → a.occurrence ≠ z.runTime sch (z.day now)
  | _ => True

/-- The stored schedule has a run on record that is not before the run time of `a`. -/
def OnRecord (s : Ticker) (a : Start) : Prop :=
  ∃ cur last today, s.store.get a.id = some cur ∧ cur.lastRun = some last ∧
    a.occurrence = some today ∧ today ≤ last

/-- The invariant behind one run per occurrence. -/
structure Once (z : Zone) (s : Ticker) : Prop where
  /-- the loop and the run work on stored schedules -/
  stored : ∀ now l, s.tick = some (now, l) → ∀ sch ∈ l, (s.store.get sch.id).isSome = true
  /-- the run is past its run time, and past the run on record -/
  running : ∀ sch now, s.running = some ⟨sch, now, .working⟩ →
    (∃ today, z.runTime sch (z.day now) = some today ∧ today ≤ now) ∧
    ∃ cur, s.store.get sch.id = some cur ∧ ∀ last, cur.lastRun = some last → last < now
  /-- every start is the running one, recorded or abandoned -/
  explained : ∀ a ∈ s.started,
    (∃ sch now, s.running = some ⟨sch, now, .working⟩ ∧ a = start z sch now) ∨
      a ∈ s.abandoned ∨ s.OnRecord a
  /-- no occurrence was started twice -/
  once : s.started.Pairwise fun a b => a.id = b.id → a.occurrence ≠ b.occurrence

variable {z : Zone} {s s' : Ticker}

/-- A stored schedule is found. -/
theorem get_isSome_of_mem {st : ScheduleStore} {sch : Schedule} (h : sch ∈ st.list) :
    (st.get sch.id).isSome = true := by
  rw [ScheduleStore.get, List.find?_isSome]
  exact ⟨sch, h, by simp⟩

/-- Recording a run loses no schedule. -/
theorem get_markRun_isSome {env : SaveEnv} {st : ScheduleStore} {id j : String} {now : Time}
    (h : (st.get j).isSome = true) : ((st.markRun env id now).get j).isSome = true := by
  rw [get_markRun]
  split
  · rename_i hj
    rw [Option.isSome_map, ← hj, h]
  · exact h

/-- A run that starts safely is the first for its occurrence. -/
theorem Once.first_start (hs : s.Once z) (hsafe : s.Safe z .next) {now : Time} {sch : Schedule}
    {rest : List Schedule} (ht : s.tick = some (now, sch :: rest)) (hen : sch.enabled = true)
    (hdue : due z sch now = true) (hr : s.running = none) {a : Start} (ha : a ∈ s.started)
    (hid : sch.id = a.id) : (start z sch now).occurrence ≠ a.occurrence := by
  obtain ⟨hrecord, hgiven⟩ := hsafe now sch rest ht hen hdue hr
  intro hocc
  -- an earlier start for the same run time has been recorded or has given up
  rcases hs.explained a ha with ⟨_, _, hrun, -⟩ | hab | ⟨cur, last, today, hcur, hlast, hocc', hle⟩
  · cases hr.symm.trans hrun
  · exact hgiven a hab hid.symm hocc.symm
  · have htoday : z.runTime sch (z.day now) = some today := hocc.trans hocc'
    exact absurd (hrecord cur last (hid ▸ hcur) hlast today htoday) (not_lt.mpr hle)

section Marked

variable {env : SaveEnv} {sch : Schedule} {now : Time}

/-- The run that is recorded is on record from then on. -/
theorem Once.onRecord_marked (hs : s.Once z) (hr : s.running = some ⟨sch, now, .working⟩)
    (hstore : s'.store = s.store.markRun env sch.id now) : s'.OnRecord (start z sch now) := by
  obtain ⟨⟨today, htoday, hle⟩, cur, hcur, -⟩ := hs.running sch now hr
  refine ⟨{ cur with lastRun := some now }, now, today, ?_, rfl, htoday, hle⟩
  change s'.store.get sch.id = _
  rw [hstore, get_markRun, if_pos rfl, hcur]
  rfl

/-- What was on record still is: a schedule's last run only gets later. -/
theorem Once.onRecord_mono (hs : s.Once z) (hr : s.running = some ⟨sch, now, .working⟩)
    (hstore : s'.store = s.store.markRun env sch.id now) {a : Start} (ha : s.OnRecord a) :
    s'.OnRecord a := by
  obtain ⟨-, cur, hcur, hlast⟩ := hs.running sch now hr
  obtain ⟨cur', last, today, hcur', hlast', hocc, hle⟩ := ha
  by_cases hid : a.id = sch.id
  · rw [hid] at hcur'
    cases hcur.symm.trans hcur'
    refine ⟨{ cur with lastRun := some now }, now, today, ?_, rfl, hocc,
      hle.trans (hlast last hlast').le⟩
    rw [hstore, get_markRun, if_pos hid, hcur]
    rfl
  · refine ⟨cur', last, today, ?_, hlast', hocc, hle⟩
    rw [hstore, get_markRun, if_neg hid]
    exact hcur'

end Marked

/-- **One step** of the loop or the run keeps the invariant. -/
theorem Once.step {e : TickEvent} (hs : s.Once z) (hsafe : s.Safe z e)
    (h : Ticker.step z s e = some s') : s'.Once z := by
  cases step_eq_some h with
  | tick ht =>
    refine ⟨fun now l hl sch hsch => ?_, hs.running, hs.explained, hs.once⟩
    cases hl
    exact get_isSome_of_mem hsch
  | ended ht =>
    exact ⟨fun now l hl => (by cases hl), hs.running, hs.explained, hs.once⟩
  | passed ht hnot =>
    refine ⟨fun now l hl sch hsch => ?_, hs.running, hs.explained, hs.once⟩
    cases hl
    exact hs.stored _ _ ht sch (List.mem_cons_of_mem _ hsch)
  | @started now sch rest ht hen hdue hr =>
    obtain ⟨hrecord, -⟩ := hsafe now sch rest ht hen hdue hr
    obtain ⟨today, htoday, hle, -⟩ := due_eq_true.mp hdue
    obtain ⟨cur, hcur⟩ := Option.isSome_iff_exists.mp
      (hs.stored _ _ ht sch List.mem_cons_self)
    refine ⟨fun now' l hl sch' hsch => ?_, fun sch' now' hr' => ?_, fun a ha => ?_, ?_⟩
    · cases hl
      exact hs.stored _ _ ht sch' (List.mem_cons_of_mem _ hsch)
    · cases hr'
      exact ⟨⟨today, htoday, hle⟩, cur, hcur, fun last hlast =>
        lt_of_lt_of_le (hrecord cur last hcur hlast today htoday) hle⟩
    · rcases List.mem_cons.mp ha with rfl | ha
      · exact .inl ⟨sch, now, rfl, rfl⟩
      · rcases hs.explained a ha with ⟨_, _, hrun, -⟩ | hdone
        · cases hr.symm.trans hrun
        · exact .inr hdone
    · exact List.pairwise_cons.mpr
        ⟨fun a ha hid => hs.first_start hsafe ht hen hdue hr ha hid, hs.once⟩
  | @abandoned sch now hr =>
    refine ⟨hs.stored, fun sch' now' hr' => (by cases hr'), fun a ha => ?_, hs.once⟩
    rcases hs.explained a ha with ⟨sch', now', hrun, rfl⟩ | hab | hrec
    · cases hr.symm.trans hrun
      exact .inr (.inl List.mem_cons_self)
    · exact .inr (.inl (List.mem_cons_of_mem _ hab))
    · exact .inr (.inr hrec)
  | @marked sch now env hr =>
    refine ⟨fun now' l hl sch' hsch => ?_, fun sch' now' hr' => (by cases hr'), fun a ha => ?_,
      hs.once⟩
    · exact get_markRun_isSome (hs.stored now' l hl sch' hsch)
    · rcases hs.explained a ha with ⟨sch', now', hrun, rfl⟩ | hab | hrec
      · cases hr.symm.trans hrun
        exact .inr (.inr (hs.onRecord_marked hr rfl))
      · exact .inr (.inl hab)
      · exact .inr (.inr (hs.onRecord_mono hr rfl hrec))
  | @unlocked sch now hr =>
    refine ⟨hs.stored, fun sch' now' hr' => (by cases hr'), fun a ha => ?_, hs.once⟩
    rcases hs.explained a ha with ⟨sch', now', hrun, -⟩ | hdone
    · cases hr.symm.trans hrun
    · exact .inr hdone

end Ticker

/-! ### A tick during the last moments of a run -/

namespace Twice

/-- A schedule for two in the morning that never ran. -/
def nightly : Schedule := ⟨"sch-1", "nightly", "02:00", ["*"], "auto", 7, true, none, 0⟩

/-- The loop before its first tick. -/
def ticker : Ticker := ⟨⟨some (marshal [nightly]), [nightly]⟩, none, none, none, [], [], []⟩

/-- One tick starts the run. -/
def first : List TickEvent := [.tick 7200, .next, .next]

/-- The next tick takes its snapshot while the run is still at work; the run is recorded and
the mutex unlocked before the loop comes to the schedule. -/
def second : List TickEvent := [.tick 7230, .mark .smooth, .unlock, .next]

end Twice

end Ultrav
