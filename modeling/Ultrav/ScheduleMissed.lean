import Ultrav.ScheduleTick

/-!
# Occurrences that are missed

While another run holds the mutex the loop skips a due schedule, and later ticks try
again. The due test only knows the run time of the tick's own calendar day, so the retry
ends at midnight. `occurrence_started_iff` says when an occurrence is started.

* `InOrder` — ticks do not run backwards.
* `Occasion` — a schedule, one of its run times, and the next one.
* `Watched` — the invariant: the loop starts the occurrence as soon as it finds the mutex
  free on the day of the run time.
-/

namespace Ultrav

open Machine

/-- A run time `runAt` of `sch` on the day `day`, and the one of the day after. The schedule was
there before, is switched on, and has no later run on record. -/
structure Occasion (z : Zone) where
  sch : Schedule
  day : ℤ
  runAt : Time
  next : Time
  runAt_eq : z.runTime sch day = some runAt
  runAt_day : z.day runAt = day
  next_eq : z.runTime sch (day + 1) = some next
  next_day : z.day next = day + 1
  enabled : sch.enabled = true
  created : sch.createdAt ≤ runAt
  fresh : ∀ last, sch.lastRun = some last → last < runAt

/-- An instant of the day of the run time comes before the next run time. -/
theorem Occasion.lt_next {z : Zone} (o : Occasion z) {now : Time} (h : z.day now = o.day) :
    now < o.next := by
  by_contra hle
  have hday := z.day_mono (not_lt.mp hle)
  rw [o.next_day, h] at hday
  omega

namespace Ticker

/-- The ticker does not run backwards. -/
def InOrder (s : Ticker) : TickEvent → Prop
  | .tick now => ∀ last, s.last = some last → last ≤ now
  | _ => True

variable {z : Zone}

/-- The loop came to the schedule between the run time and the next one, and found the mutex
free. -/
def FoundFree (s : Ticker) (o : Occasion z) : Prop :=
  ∃ v ∈ s.visits, v.id = o.sch.id ∧ v.free = true ∧ o.runAt ≤ v.now ∧ v.now < o.next

/-- The same on the calendar day of the run time. -/
def FoundFreeSameDay (s : Ticker) (o : Occasion z) : Prop :=
  ∃ v ∈ s.visits, v.id = o.sch.id ∧ v.free = true ∧ o.runAt ≤ v.now ∧ z.day v.now = o.day

/-- A run for the run time was started before the next one. -/
def RunStarted (s : Ticker) (o : Occasion z) : Prop :=
  ∃ a ∈ s.started, a.id = o.sch.id ∧ a.occurrence = some o.runAt ∧ o.runAt ≤ a.now ∧ a.now < o.next

/-- A record of the watched schedule: as it was, but for the runs on record. -/
def Copy (o : Occasion z) (started : List Start) (r : Schedule) : Prop :=
  r.time = o.sch.time ∧ r.createdAt = o.sch.createdAt ∧ r.enabled = true ∧
    (r.lastRun = o.sch.lastRun ∨ ∃ a ∈ started, a.id = o.sch.id ∧ r.lastRun = some a.now)

/-- What the loop knows about the watched schedule. -/
structure Watched (o : Occasion z) (s : Ticker) : Prop where
  /-- stored records are copies -/
  stored : ∀ r ∈ s.store.list, r.id = o.sch.id → Copy o s.started r
  /-- so are the records of the snapshot; the tick is the latest one -/
  snapshot : ∀ now l, s.tick = some (now, l) →
    s.last = some now ∧ ∀ r ∈ l, r.id = o.sch.id → Copy o s.started r
  /-- a run at work is on record -/
  running : ∀ r, s.running = some r → r.schedule.id = o.sch.id →
    ∃ a ∈ s.started, a.id = o.sch.id ∧ a.now = r.now
  /-- a start belongs to a visit that found the mutex free, at or after its run time -/
  started : ∀ a ∈ s.started, a.id = o.sch.id → ⟨a.id, a.now, true⟩ ∈ s.visits ∧
    (∃ last, s.last = some last ∧ a.now ≤ last) ∧
    ∃ today, a.occurrence = some today ∧ z.runTime o.sch (z.day a.now) = some today ∧
      today ≤ a.now
  /-- a visit on the day of the run time that found the mutex free means a start -/
  visited : s.FoundFreeSameDay o → s.RunStarted o

variable {o : Occasion z} {s s' : Ticker}

/-- A copy stays one when more runs are started. -/
theorem Copy.cons {started : List Start} {r : Schedule} (h : Copy o started r) (a : Start) :
    Copy o (a :: started) r := by
  obtain ⟨htime, hcreated, hen, hlast⟩ := h
  refine ⟨htime, hcreated, hen, hlast.imp_right ?_⟩
  rintro ⟨b, hb, hid, hbl⟩
  exact ⟨b, List.mem_cons_of_mem _ hb, hid, hbl⟩

/-- A copy has the run times of the schedule. -/
theorem Copy.runTime {started : List Start} {r : Schedule} (h : Copy o started r) (d : ℤ) :
    z.runTime r d = z.runTime o.sch d := by
  rw [Zone.runTime, Zone.runTime, h.1]

/-- **The due test on the day of the run time**: a copy that is not due there was started
before. -/
theorem started_of_not_due {started : List Start} {r : Schedule} {now : Time}
    (hr : Copy o started r) (hnow : o.runAt ≤ now) (hday : z.day now = o.day)
    (hstarted : ∀ a ∈ started, a.id = o.sch.id → a.now ≤ now ∧
      ∃ today, a.occurrence = some today ∧ z.runTime o.sch (z.day a.now) = some today)
    (hdue : due z r now ≠ true) :
    ∃ a ∈ started, a.id = o.sch.id ∧ a.occurrence = some o.runAt ∧ o.runAt ≤ a.now ∧
      a.now < o.next := by
  have htoday : z.runTime r (z.day now) = some o.runAt := by rw [hr.runTime, hday, o.runAt_eq]
  -- only a run on record can make it not due
  have hlast : ∃ last, r.lastRun = some last ∧ o.runAt ≤ last := by
    by_contra hnone
    refine hdue (due_eq_true.mpr ⟨o.runAt, htoday, hnow, ?_⟩)
    rcases hl : r.lastRun with _ | last
    · exact hr.2.1 ▸ o.created
    · exact not_le.mp fun hle => hnone ⟨last, hl, hle⟩
  obtain ⟨last, hl, hle⟩ := hlast
  rcases hr.2.2.2 with horig | ⟨a, ha, hid, hal⟩
  · exact absurd (o.fresh last (horig ▸ hl)) (not_lt.mpr hle)
  · obtain rfl : last = a.now := Option.some.inj (hl.symm.trans hal)
    obtain ⟨hbefore, today, hocc, htime⟩ := hstarted a ha hid
    have hsame : z.day a.now = o.day := by
      have hup := z.day_mono hbefore
      have hdown := z.day_mono hle
      rw [hday] at hup
      rw [o.runAt_day] at hdown
      exact le_antisymm hup hdown
    rw [hsame, o.runAt_eq] at htime
    exact ⟨a, ha, hid, hocc.trans htime.symm, hle, o.lt_next hsame⟩

/-- A start on record stays on record. -/
theorem RunStarted.mono {s s' : Ticker} (h : s.RunStarted o) (hsub : s.started ⊆ s'.started) :
    s'.RunStarted o := by
  obtain ⟨a, ha, hrest⟩ := h
  exact ⟨a, hsub ha, hrest⟩

/-- **One step** of the loop or the run keeps the invariant. -/
theorem Watched.step {e : TickEvent} (hs : s.Watched o) (horder : s.InOrder e)
    (h : Ticker.step z s e = some s') : s'.Watched o := by
  cases step_eq_some h with
  | @tick now ht =>
    refine ⟨hs.stored, fun now' l hl => ?_, hs.running, fun a ha hid => ?_, hs.visited⟩
    · cases hl
      exact ⟨rfl, hs.stored⟩
    · obtain ⟨hvisit, ⟨last, hlast, hle⟩, hocc⟩ := hs.started a ha hid
      exact ⟨hvisit, ⟨now, rfl, hle.trans (horder last hlast)⟩, hocc⟩
  | ended ht =>
    exact ⟨hs.stored, fun now l hl => (by cases hl), hs.running, hs.started, hs.visited⟩
  | @passed now sch rest ht hnot =>
    obtain ⟨hlast, hcopies⟩ := hs.snapshot _ _ ht
    refine ⟨hs.stored, fun now' l hl => ?_, hs.running, fun a ha hid => ?_, ?_⟩
    · cases hl
      exact ⟨hlast, fun r hr => hcopies r (List.mem_cons_of_mem _ hr)⟩
    · exact (hs.started a ha hid).imp_left (List.mem_cons_of_mem _)
    · rintro ⟨v, hv, hid, hfree, hat, hday⟩
      rcases List.mem_cons.mp hv with rfl | hv
      · -- the mutex was free, so the schedule was not due
        have hcopy := hcopies sch List.mem_cons_self hid
        have hdue : due z sch now ≠ true := fun hdue =>
          hnot hcopy.2.2.1 hdue (Option.isNone_iff_eq_none.mp hfree)
        refine started_of_not_due hcopy hat hday (fun a ha hida => ?_) hdue
        obtain ⟨-, ⟨last, hl, hle⟩, today, hocc, htime, -⟩ := hs.started a ha hida
        cases hlast.symm.trans hl
        exact ⟨hle, today, hocc, htime⟩
      · exact hs.visited ⟨v, hv, hid, hfree, hat, hday⟩
  | @started now sch rest ht hen hdue hr =>
    obtain ⟨hlast, hcopies⟩ := hs.snapshot _ _ ht
    refine ⟨fun r hr hid => (hs.stored r hr hid).cons _, fun now' l hl => ?_,
      fun r hr hid => ?_, fun a ha hid => ?_, ?_⟩
    · cases hl
      exact ⟨hlast, fun r hr hid => (hcopies r (List.mem_cons_of_mem _ hr) hid).cons _⟩
    · cases hr
      exact ⟨start z sch now, List.mem_cons_self, hid, rfl⟩
    · rcases List.mem_cons.mp ha with rfl | ha
      · obtain ⟨today, htoday, hle, -⟩ := due_eq_true.mp hdue
        have hcopy := hcopies sch List.mem_cons_self hid
        exact ⟨List.mem_cons_self, ⟨now, hlast, le_refl now⟩, today, htoday,
          (hcopy.runTime _).symm.trans htoday, hle⟩
      · exact (hs.started a ha hid).imp_left (List.mem_cons_of_mem _)
    · rintro ⟨v, hv, hid, hfree, hat, hday⟩
      rcases List.mem_cons.mp hv with rfl | hv
      · have hcopy := hcopies sch List.mem_cons_self hid
        refine ⟨start z sch now, List.mem_cons_self, hid, ?_, hat, o.lt_next hday⟩
        exact (hcopy.runTime _).trans ((congrArg _ hday).trans o.runAt_eq)
      · exact (hs.visited ⟨v, hv, hid, hfree, hat, hday⟩).mono (List.subset_cons_self _ _)
  | @abandoned sch now hr =>
    refine ⟨hs.stored, hs.snapshot, fun r hr' hid => ?_, hs.started, hs.visited⟩
    cases hr'
    exact hs.running ⟨sch, now, .working⟩ hr hid
  | @marked sch now env hr =>
    refine ⟨fun r hr' hid => ?_, hs.snapshot, fun r hr' hid => ?_, hs.started, hs.visited⟩
    · rcases mem_markRun hr' with hmem | ⟨old, hold, rfl⟩
      · exact hs.stored r hmem hid
      · -- the record of the watched schedule gets the tick of its own run
        obtain ⟨htime, hcreated, hen, -⟩ :=
          hs.stored old (List.mem_of_find?_eq_some hold) hid
        obtain ⟨a, ha, haid, hnow⟩ :=
          hs.running _ hr ((ScheduleStore.get_id hold).symm.trans hid)
        exact ⟨htime, hcreated, hen, .inr ⟨a, ha, haid, congrArg some hnow.symm⟩⟩
    · cases hr'
      exact hs.running ⟨sch, now, .working⟩ hr hid
  | unlocked hr =>
    exact ⟨hs.stored, hs.snapshot, fun r hr' => (by cases hr'), hs.started, hs.visited⟩

/-- The invariant before the first tick. -/
theorem Watched.start (hs : s.Started) (hnd : (s.store.list.map Schedule.id).Nodup)
    (hmem : o.sch ∈ s.store.list) : s.Watched o := by
  obtain ⟨htick, hrun, -, hstarted, -, hvisits⟩ := hs
  refine ⟨fun r hr hid => ?_, fun now l hl => ?_, fun r hr => ?_, fun a ha => ?_, ?_⟩
  · obtain rfl := List.inj_on_of_nodup_map hnd hr hmem hid
    exact ⟨rfl, rfl, o.enabled, .inl rfl⟩
  · cases htick.symm.trans hl
  · cases hrun.symm.trans hr
  · rw [hstarted] at ha
    cases ha
  · rintro ⟨v, hv, -⟩
    rw [hvisits] at hv
    cases hv

/-- A start for the run time belongs to a visit on its day. -/
theorem Watched.sameDay_of_runStarted (hs : s.Watched o) (h : s.RunStarted o) :
    s.FoundFreeSameDay o := by
  obtain ⟨a, ha, hid, hocc, hat, hnext⟩ := h
  obtain ⟨hvisit, -, today, hocc', htime, hle⟩ := hs.started a ha hid
  refine ⟨_, hvisit, hid, rfl, hat, ?_⟩
  have hdown := z.day_mono hat
  have hup := z.day_mono hnext.le
  rw [o.runAt_day] at hdown
  rw [o.next_day] at hup
  rcases (show z.day a.now = o.day ∨ z.day a.now = o.day + 1 by omega) with hday | hday
  · exact hday
  · -- on the next day the run time would be the next one
    rw [hday, o.next_eq] at htime
    have hsame : o.next = o.runAt := Option.some.inj (htime.trans (hocc'.symm.trans hocc))
    have hnd := o.next_day
    rw [hsame, o.runAt_day] at hnd
    omega

/-- **An occurrence is started, if ever the loop finds the mutex free in its time, exactly
when the loop then finds it free on the day of the run time**: along every run of the loop
and its goroutines with ticks in order. -/
theorem occurrence_started_iff {t : Ticker} {es : List TickEvent} (o : Occasion z)
    (hs : s.Started) (hnd : (s.store.list.map Schedule.id).Nodup) (hmem : o.sch ∈ s.store.list)
    (horder : Along (Ticker.step z) InOrder s es) (hr : run (Ticker.step z) s es = some t) :
    (t.FoundFree o → t.RunStarted o) ↔ (t.FoundFree o → t.FoundFreeSameDay o) := by
  have hw : t.Watched o := run_inv (I := Watched o)
    (fun _ _ _ hs horder hst => hs.step horder hst) (.start hs hnd hmem) horder hr
  exact forall_congr' fun _ => ⟨hw.sameDay_of_runStarted, hw.visited⟩

/-- Once the ticks are past the day of the run time, nothing is found free on it any more. -/
theorem pastDay_step {e : TickEvent} (hs : s.Watched o)
    (hpast : ∃ last, s.last = some last ∧ o.day < z.day last) (hno : ¬ s.FoundFreeSameDay o)
    (horder : s.InOrder e) (h : Ticker.step z s e = some s') :
    (∃ last, s'.last = some last ∧ o.day < z.day last) ∧ ¬ s'.FoundFreeSameDay o := by
  obtain ⟨last, hlast, hday⟩ := hpast
  -- a visit of this step belongs to the latest tick
  have hvisit : ∀ now l, s.tick = some (now, l) → z.day now ≠ o.day := by
    intro now l ht heq
    cases hlast.symm.trans (hs.snapshot now l ht).1
    omega
  cases step_eq_some h with
  | tick ht => exact ⟨⟨_, rfl, lt_of_lt_of_le hday (z.day_mono (horder last hlast))⟩, hno⟩
  | ended ht => exact ⟨⟨last, hlast, hday⟩, hno⟩
  | passed ht hnot =>
    refine ⟨⟨last, hlast, hday⟩, ?_⟩
    rintro ⟨v, hv, hid, hfree, hat, hsame⟩
    rcases List.mem_cons.mp hv with rfl | hv
    · exact hvisit _ _ ht hsame
    · exact hno ⟨v, hv, hid, hfree, hat, hsame⟩
  | started ht hen hdue hr =>
    refine ⟨⟨last, hlast, hday⟩, ?_⟩
    rintro ⟨v, hv, hid, hfree, hat, hsame⟩
    rcases List.mem_cons.mp hv with rfl | hv
    · exact hvisit _ _ ht hsame
    · exact hno ⟨v, hv, hid, hfree, hat, hsame⟩
  | abandoned hr => exact ⟨⟨last, hlast, hday⟩, hno⟩
  | marked hr => exact ⟨⟨last, hlast, hday⟩, hno⟩
  | unlocked hr => exact ⟨⟨last, hlast, hday⟩, hno⟩

/-- **A missed occurrence is missed for good**: however the loop goes on. -/
theorem missed_for_good {t : Ticker} {es : List TickEvent} (hs : s.Watched o)
    (hpast : ∃ last, s.last = some last ∧ o.day < z.day last) (hno : ¬ s.FoundFreeSameDay o)
    (horder : Along (Ticker.step z) InOrder s es) (hr : run (Ticker.step z) s es = some t) :
    ¬ t.RunStarted o := by
  have hend := run_inv
    (I := fun s => s.Watched o ∧ (∃ last, s.last = some last ∧ o.day < z.day last) ∧
      ¬ s.FoundFreeSameDay o)
    (fun _ _ _ hs horder hst => ⟨hs.1.step horder hst, pastDay_step hs.1 hs.2.1 hs.2.2 horder hst⟩)
    ⟨hs, hpast, hno⟩ horder hr
  exact fun hrun => hend.2.2 (hend.1.sameDay_of_runStarted hrun)

end Ticker

/-- The times of the ticks. -/
def tickTimes (es : List TickEvent) : List Time :=
  es.filterMap fun e =>
    match e with
    | .tick now => some now
    | _ => none

/-! ### A run over midnight -/

namespace Midnight

/-- A schedule for one minute to midnight. -/
def late : Schedule := ⟨"sch-1", "late", "23:59", ["vm1"], "auto", 7, true, none, 0⟩

/-- A schedule for the minute before, with a run of two minutes. -/
def lengthy : Schedule := ⟨"sch-2", "lengthy", "23:58", ["*"], "auto", 7, true, none, 0⟩

/-- The loop before its first tick. -/
def ticker : Ticker :=
  ⟨⟨some (marshal [lengthy, late]), [lengthy, late]⟩, none, none, none, [], [], []⟩

/-- The run time of the late schedule on the first day. -/
def occasion : Occasion .utc where
  sch := late
  day := 0
  runAt := 86340
  next := 172740
  runAt_eq := rfl
  runAt_day := rfl
  next_eq := rfl
  next_day := rfl
  enabled := rfl
  created := by decide
  fresh last h := by cases h

/-- A tick over both schedules. -/
def pass (now : Time) : List TickEvent := [.tick now, .next, .next, .next]

/-- The lengthy run starts at 23:58 and is over just before the tick at midnight. -/
def events : List TickEvent :=
  pass 86280 ++ pass 86310 ++ pass 86340 ++ pass 86370 ++ [.mark .smooth, .unlock] ++ pass 86400

theorem inOrder : Along (Ticker.step .utc) Ticker.InOrder ticker events := by
  have hle : ∀ a b : Time, a ≤ b → ∀ last, some a = some last → last ≤ b := by
    rintro a b hab last ⟨⟩
    exact hab
  refine .cons (fun _ h => by cases h) rfl <| .cons trivial rfl <| .cons trivial rfl <|
    .cons trivial rfl <| .cons (hle 86280 86310 (by decide)) rfl <| .cons trivial rfl <|
    .cons trivial rfl <| .cons trivial rfl <| .cons (hle 86310 86340 (by decide)) rfl <|
    .cons trivial rfl <| .cons trivial rfl <| .cons trivial rfl <|
    .cons (hle 86340 86370 (by decide)) rfl <| .cons trivial rfl <| .cons trivial rfl <|
    .cons trivial rfl <| .cons trivial rfl <| .cons trivial rfl <|
    .cons (hle 86370 86400 (by decide)) rfl <| .cons trivial rfl <| .cons trivial rfl <|
    .cons trivial rfl <| .nil _

end Midnight

/-- The exact condition, at work on the run over midnight. -/
theorem Ticker.occurrence_started_iff_midnight :
    ∃ t, run (Ticker.step .utc) Midnight.ticker Midnight.events = some t ∧
      ((t.FoundFree Midnight.occasion → t.RunStarted Midnight.occasion) ↔
        (t.FoundFree Midnight.occasion → t.FoundFreeSameDay Midnight.occasion)) := by
  obtain ⟨t, hr⟩ : ∃ t, run (Ticker.step .utc) Midnight.ticker Midnight.events = some t := ⟨_, rfl⟩
  exact ⟨t, hr, Ticker.occurrence_started_iff Midnight.occasion ⟨rfl, rfl, rfl, rfl, rfl, rfl⟩
    (by decide) (by decide) Midnight.inOrder hr⟩

/-- An occurrence can be lost to another run, for good: with ticks 30 seconds apart the loop
finds the mutex free at midnight, and however it goes on, no run is started for the run
time a minute before. -/
theorem occurrence_lost :
    ∃ (z : Zone) (o : Occasion z) (s t : Ticker) (es : List TickEvent),
      s.Started ∧ (s.store.list.map Schedule.id).Nodup ∧ o.sch ∈ s.store.list ∧
      (∀ sch ∈ s.store.list, sch.enabled = true) ∧
      ((tickTimes es).IsChain fun a b => a ≤ b ∧ b ≤ a + 30) ∧
      run (Ticker.step z) s es = some t ∧ t.FoundFree o ∧
      ∀ es' t', Along (Ticker.step z) Ticker.InOrder t es' →
        run (Ticker.step z) t es' = some t' → ¬ t'.RunStarted o := by
  have hstart : Midnight.ticker.Started := ⟨rfl, rfl, rfl, rfl, rfl, rfl⟩
  refine ⟨.utc, Midnight.occasion, Midnight.ticker, _, Midnight.events, hstart, by decide,
    by decide, by decide, by decide, rfl, ?_, fun es' t' horder hr => ?_⟩
  · exact ⟨_, List.mem_cons_self, rfl, rfl, by decide, by decide⟩
  · refine Ticker.missed_for_good ?_ ⟨_, rfl, by decide⟩ ?_ horder hr
    · exact run_inv (I := Ticker.Watched Midnight.occasion)
        (fun _ _ _ hs horder hst => hs.step horder hst)
        (.start hstart (by decide) (by decide)) Midnight.inOrder rfl
    · rw [Ticker.FoundFreeSameDay]
      decide

end Ultrav
