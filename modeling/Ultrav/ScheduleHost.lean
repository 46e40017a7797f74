import Mathlib.Data.Option.Basic
import Ultrav.Replacement
import Ultrav.ScheduleFile

/-!
# The schedule store on its disk

The store from the start of the process to its end, and through any number of them: `save` is the
writing of a temp file and a rename, and the process can be killed between any two bytes.

* `RecordCall` — `Append`, `Replace`, `Remove`.
* `ScheduleHost` — the directory, the slice of the running process, and the slice that was saved
  last; `step` — a start, a call, a piece of its save, a kill.
* `open_eq_saved` — **opening never fails**, and gives the slice that was saved last.
* `refines_store` — the store of `ScheduleStore`, with restarts, is what the calls see.
-/

namespace Ultrav

open Machine

/-! ## Calls -/

/-- A mutating call of the store. -/
inductive RecordCall where
  | append (r : ScheduleRecord)
  | replace (r : ScheduleRecord)
  | remove (id : String)
  deriving DecidableEq

namespace RecordCall

/-- The slice with the change of a call; `none` is `ErrNotFound`. -/
def apply (list : List ScheduleRecord) : RecordCall → Option (List ScheduleRecord)
  | .append r => some (list ++ [r])
  | .replace r => setFirst (fun t => t.id = r.id) r list
  | .remove id =>
    if list.any fun t => t.id = id then some (list.eraseP fun t => t.id = id) else none

/-- The call as the scheduler sees it. -/
def toCall : RecordCall → StoreCall
  | .append r => .append r.toSchedule
  | .replace r => .replace r.toSchedule
  | .remove id => .remove id

end RecordCall

/-! ## The host -/

/-- The directory, the process and what it saved. -/
structure ScheduleHost where
  disk : Replacement.State String UInt8
  /-- the slice, while the process runs -/
  list : Option (List ScheduleRecord)
  /-- the slice of the last save whose rename went through -/
  saved : Option (List ScheduleRecord)

/-- One event. -/
inductive HostEvent where
  /-- the process starts, and opens the store -/
  | start
  /-- a call takes the lock; its temp file opens, or does not -/
  | call (c : RecordCall) (opens : Bool)
  | save (e : Replacement.Piece)
  /-- the process is killed -/
  | kill
  deriving DecidableEq

/-- What `Open` reads. -/
def openSchedules (file : Option (List UInt8)) : Option (List ScheduleRecord) :=
  match file with
  | none => some []
  | some bytes => readSchedules bytes

namespace ScheduleHost

/-- Before the first start; there may be other files. -/
def fresh (path : String) (files : Replacement.Files String UInt8) : ScheduleHost :=
  ⟨⟨Function.update files path none, .idle, none⟩, none, none⟩

/-- The slice has changed, and `save` comes to its temp file. -/
def save (path : String) (s : ScheduleHost) (list : List ScheduleRecord) (opens : Bool) :
    Option ScheduleHost :=
  match scheduleBytes list with
  -- `json.MarshalIndent` fails
  | none => some { s with list := some list }
  | some content =>
    if opens then
      (Replacement.step path s.disk (.create (path ++ ".tmp") content)).map fun disk =>
        { s with disk := disk, list := some list }
    else some { s with list := some list }

/-- One event, for the store at a path. -/
def step (path : String) (s : ScheduleHost) : HostEvent → Option ScheduleHost
  | .start =>
    match s.list with
    | some _ => none
    | none =>
      match openSchedules (s.disk.files path) with
      -- main logs the error and exits
      | none => some s
      | some list => some { s with list := some list }
  | .call c opens =>
    match s.list, s.disk.phase with
    | some list, .idle =>
      match c.apply list with
      | none => some s
      | some list' => s.save path list' opens
    | _, _ => none
  | .save e =>
    s.list.bind fun list =>
      (Replacement.step path s.disk e.toEvent).map fun disk =>
        { disk := disk, list := some list, saved := if e = .rename then some list else s.saved }
  | .kill => some { s with disk := { s.disk with phase := .idle }, list := none }

/-! ## Whole files -/

/-- The file holds what was saved last, and what is being saved is the slice. -/
structure Whole (path : String) (s : ScheduleHost) : Prop where
  disk : Replacement.Sound path s.disk
  kept : Option.Rel (fun list bytes => scheduleBytes list = some bytes) s.saved s.disk.kept
  content : ∀ bytes, s.disk.phase.content = some bytes →
    ∃ list, s.list = some list ∧ scheduleBytes list = some bytes

variable {path : String} {s s' : ScheduleHost} {e : HostEvent}

theorem whole_fresh (path : String) (files : Replacement.Files String UInt8) :
    (fresh path files).Whole path :=
  ⟨⟨Function.update_self _ _ _, trivial⟩, .none, nofun⟩

/-- Opening a whole file. -/
theorem Whole.open_eq (h : s.Whole path) :
    openSchedules (s.disk.files path) = some (s.saved.getD []) := by
  rw [h.disk.file]
  have hkept := h.kept
  generalize s.saved = saved, s.disk.kept = kept at hkept ⊢
  cases hkept with
  | none => rfl
  | some hbytes => exact readSchedules_bytes hbytes

/-- Inversion of a call. -/
theorem call_eq_some {c : RecordCall} {opens : Bool} (h : s.step path (.call c opens) = some s') :
    ∃ list, s.list = some list ∧ s.disk.phase = .idle ∧
      (c.apply list = none ∧ s' = s ∨
        ∃ list', c.apply list = some list' ∧
          (s' = { s with list := some list' } ∨
            ∃ content disk, scheduleBytes list' = some content ∧
              Replacement.step path s.disk (.create (path ++ ".tmp") content) = some disk ∧
              s' = { s with disk := disk, list := some list' })) := by
  rw [step] at h
  split at h
  · rename_i list hlist hphase
    refine ⟨list, hlist, hphase, ?_⟩
    split at h
    · rename_i hnone
      exact .inl ⟨hnone, (Option.some.inj h).symm⟩
    · rename_i list' hsome
      refine .inr ⟨list', hsome, ?_⟩
      rw [save] at h
      split at h
      · exact .inl (Option.some.inj h).symm
      · rename_i content hcontent
        split at h
        · obtain ⟨disk, hdisk, heq⟩ := Option.map_eq_some_iff.mp h
          exact .inr ⟨content, disk, hcontent, hdisk, heq.symm⟩
        · exact .inl (Option.some.inj h).symm
  · cases h

/-- Inversion of a piece of a save: it goes on, it is done, or it fails. -/
theorem save_eq_some {e : Replacement.Piece} (h : s.step path (.save e) = some s') :
    ∃ list disk, s.list = some list ∧ Replacement.step path s.disk e.toEvent = some disk ∧
      ((∃ bytes, s.disk.phase.content = some bytes ∧ disk.phase.content = some bytes ∧
          disk.kept = s.disk.kept ∧ s' = { s with disk := disk, list := some list }) ∨
        (∃ bytes, s.disk.phase.content = some bytes ∧ disk.phase = .idle ∧
          disk.kept = some bytes ∧ s' = ⟨disk, some list, some list⟩) ∨
        disk = { s.disk with phase := .idle } ∧
          s' = { s with disk := disk, list := some list }) := by
  obtain ⟨list, hlist, h⟩ := Option.bind_eq_some_iff.mp h
  obtain ⟨disk, hdisk, rfl⟩ := Option.map_eq_some_iff.mp h
  refine ⟨list, disk, hlist, hdisk, ?_⟩
  rcases Replacement.piece_eq_some hdisk with ⟨bytes, hne, -, hold, hnew, hkept⟩ |
    ⟨bytes, rfl, hold, hidle, hkept⟩ | ⟨rfl, hstopped⟩
  · exact .inl ⟨bytes, hold, hnew, hkept, by rw [if_neg hne]⟩
  · exact .inr (.inl ⟨bytes, hold, hidle, hkept, rfl⟩)
  · exact .inr (.inr ⟨hstopped, rfl⟩)

/-- While no save is at work, any slice will do. -/
theorem Whole.of_idle {disk : Replacement.State String UInt8}
    {saved : Option (List ScheduleRecord)} (hdisk : Replacement.Sound path disk)
    (hkept : Option.Rel (fun list bytes => scheduleBytes list = some bytes) saved disk.kept)
    (hidle : disk.phase = .idle) (list : Option (List ScheduleRecord)) :
    Whole path ⟨disk, list, saved⟩ := by
  refine ⟨hdisk, hkept, fun bytes hbytes => ?_⟩
  dsimp only at hbytes
  rw [hidle] at hbytes
  cases hbytes

/-- A process that does not run saves nothing. -/
theorem Whole.idle (h : s.Whole path) (hlist : s.list = none) : s.disk.phase = .idle := by
  refine Replacement.Phase.content_eq_none.mp (Option.eq_none_iff_forall_ne_some.mpr ?_)
  intro bytes hbytes
  obtain ⟨list, hsome, -⟩ := h.content bytes hbytes
  cases hlist.symm.trans hsome

/-- **Every event** keeps the file whole. -/
theorem Whole.step (h : s.Whole path) (hs : s.step path e = some s') : s'.Whole path := by
  cases e with
  | start =>
    rw [ScheduleHost.step] at hs
    split at hs
    · cases hs
    · rename_i hnone
      split at hs
      · cases hs
        exact h
      · cases hs
        exact .of_idle h.disk h.kept (h.idle hnone) _
  | call c opens =>
    obtain ⟨list, -, hidle, ⟨-, rfl⟩ | ⟨list', -, rfl | ⟨content, disk, hbytes, hdisk, rfl⟩⟩⟩ :=
      call_eq_some hs
    · exact h
    · exact .of_idle h.disk h.kept hidle _
    · obtain ⟨-, hcontent, hkept⟩ := Replacement.create_eq_some hdisk
      refine ⟨h.disk.step hdisk, hkept ▸ h.kept, fun bytes hphase => ⟨list', rfl, ?_⟩⟩
      rw [hbytes]
      exact hcontent.symm.trans hphase
  | save e =>
    obtain ⟨list, disk, hlist, hdisk, ⟨bytes, hold, hnew, hkept, rfl⟩ |
      ⟨bytes, hold, hidle, hkept, rfl⟩ | ⟨rfl, rfl⟩⟩ := save_eq_some hs
    · refine ⟨h.disk.step hdisk, hkept ▸ h.kept, fun bytes' hphase => ?_⟩
      obtain rfl := Option.some.inj (hnew.symm.trans hphase)
      obtain ⟨list', hlist', hbytes⟩ := h.content bytes hold
      exact ⟨list', hlist.symm.trans hlist', hbytes⟩
    · obtain ⟨list', hlist', hbytes⟩ := h.content bytes hold
      obtain rfl := Option.some.inj (hlist.symm.trans hlist')
      refine .of_idle (h.disk.step hdisk) ?_ hidle _
      rw [hkept]
      exact .some hbytes
    · exact .of_idle (h.disk.step hdisk) h.kept rfl _
  | kill =>
    cases hs
    exact .of_idle (h.disk.stop) h.kept rfl _

theorem whole_of_run {es : List HostEvent} {files : Replacement.Files String UInt8}
    (hrun : run (ScheduleHost.step path) (fresh path files) es = some s) : s.Whole path :=
  run_inv (fun _ _ _ h _ hs => Whole.step h hs) (whole_fresh path files)
    (.unguarded _ es) hrun

/-- **Schedules survive**: whatever was written, failed or was killed half way, and however often
the process was started again, opening the store succeeds, with the slice of the last save whose
rename went through. -/
theorem open_eq_saved {es : List HostEvent} {files : Replacement.Files String UInt8}
    (hrun : run (ScheduleHost.step path) (fresh path files) es = some s) :
    openSchedules (s.disk.files path) = some (s.saved.getD []) :=
  (whole_of_run hrun).open_eq

namespace HalfSaved

/-- Two schedules, on a clock two hours ahead. -/
def nightly (id : String) : ScheduleRecord :=
  ⟨id, id, "02:00", some ["*"], "auto", 7, true, none, ⟨1714521600000000000, 120⟩⟩

/-- The first is saved; the process is killed when it has written ten bytes of both. -/
def events : List HostEvent :=
  [.start, .call (.append (nightly "a")) true, .save (.write 512), .save .close, .save .rename,
    .call (.append (nightly "b")) true, .save (.write 10), .kill]

/-- What that leaves. -/
def last : ScheduleHost :=
  (run (ScheduleHost.step "schedules.json") (fresh "schedules.json" fun _ => none) events).getD
    (fresh "schedules.json" fun _ => none)

end HalfSaved

set_option maxRecDepth 8192 in
/-- The first schedule is there after the kill. -/
theorem open_eq_saved_halfSaved :
    openSchedules (HalfSaved.last.disk.files "schedules.json") = some [HalfSaved.nightly "a"] :=
  open_eq_saved (rfl : run (ScheduleHost.step "schedules.json")
    (fresh "schedules.json" fun _ => none) HalfSaved.events = some HalfSaved.last)

/-! ## What the calls see -/

end ScheduleHost

/-- A call of the store, or the start of another process. -/
def ScheduleStore.stepOrOpen (st : ScheduleStore) : Option (SaveEnv × StoreCall) →
    Option ScheduleStore
  | some e => st.step e
  | none => (ScheduleStore.openFile st.file).toOption

/-- The slice as the scheduler sees it. -/
def schedulesOf (list : List ScheduleRecord) : List Schedule :=
  list.map ScheduleRecord.toSchedule

/-- A call changes both slices alike. -/
theorem RecordCall.apply_toCall {c : RecordCall} {list list' : List ScheduleRecord}
    (h : c.apply list = some list') {st : ScheduleStore} (hst : st.list = schedulesOf list)
    (env : SaveEnv) : st.apply env c.toCall =
      ScheduleStore.save env { st with list := schedulesOf list' } := by
  cases c with
  | append r =>
    cases h
    rw [toCall, ScheduleStore.apply, ScheduleStore.append, hst, schedulesOf, schedulesOf,
      List.map_append]
    rfl
  | replace r =>
    obtain ⟨pre, b, post, rfl, rfl, hb, hpre⟩ := setFirst_eq_some h
    have hset : setFirst (fun t : Schedule => t.id = r.toSchedule.id) r.toSchedule st.list =
        some (schedulesOf (pre ++ r :: post)) := by
      rw [hst, schedulesOf, schedulesOf, List.map_append, List.map_append, List.map_cons,
        List.map_cons]
      refine setFirst_middle (b := b.toSchedule) (fun t ht => ?_) hb _
      obtain ⟨t', ht', rfl⟩ := List.mem_map.mp ht
      exact hpre t' ht'
    rw [toCall, ScheduleStore.apply, ScheduleStore.replace, hset]
  | remove id =>
    rw [RecordCall.apply] at h
    obtain ⟨hany, heq⟩ := Option.ite_none_right_eq_some.mp h
    obtain rfl := Option.some.inj heq
    have hany' : (st.list.any fun t => t.id = id) = true := by
      rw [hst, schedulesOf, List.any_map]
      exact hany
    have herase : (st.list.eraseP fun t => t.id = id) =
        schedulesOf (list.eraseP fun t => t.id = id) := by
      rw [hst, schedulesOf, schedulesOf, List.eraseP_map]
      rfl
    rw [toCall, ScheduleStore.apply, ScheduleStore.remove, if_pos hany', herase]

namespace ScheduleHost

/-- The store shows what the process sees: the file, and the slice, or the slice before the call
whose save is at work. -/
structure Shows (s : ScheduleHost) (st : ScheduleStore) : Prop where
  file : st.file = s.saved.map fun list => marshal (schedulesOf list)
  idle : ∀ list, s.list = some list → s.disk.phase = .idle → st.list = schedulesOf list
  busy : ∀ list bytes, s.list = some list → s.disk.phase.content = some bytes →
    ∃ c : StoreCall, ∀ env, st.apply env c =
      ScheduleStore.save env { st with list := schedulesOf list }

/-- **A step of the host** is some calls of the store, or its opening. -/
theorem Shows.step {st : ScheduleStore} (h : Shows s st) (hwhole : s.Whole path)
    (hs : s.step path e = some s') :
    ∃ es st', run ScheduleStore.stepOrOpen st es = some st' ∧ Shows s' st' := by
  -- a slice that changed and was not saved is what a failed write leaves
  have hunsaved : ∀ (disk : Replacement.State String UInt8) (list : List ScheduleRecord),
      disk.phase = .idle → ∀ c : StoreCall, (∀ env, st.apply env c =
        ScheduleStore.save env { st with list := schedulesOf list }) →
      ∃ es st', run ScheduleStore.stepOrOpen st es = some st' ∧
        Shows ⟨disk, some list, s.saved⟩ st' := by
    intro disk list hidle c hc
    have hstep : st.stepOrOpen (some (⟨false, true, false⟩, c)) =
        some { st with list := schedulesOf list } := by
      rw [ScheduleStore.stepOrOpen, ScheduleStore.step, hc]
      rfl
    refine ⟨[some (⟨false, true, false⟩, c)], _, run_cons_of hstep rfl, h.file, ?_, ?_⟩
    · rintro list' hlist' -
      exact congrArg schedulesOf (Option.some.inj hlist')
    · rintro list' bytes - hbytes
      rw [Replacement.Phase.content_eq_none.mpr hidle] at hbytes
      cases hbytes
  cases e with
  | start =>
    have hopen := hwhole.open_eq
    rw [ScheduleHost.step, hopen] at hs
    split at hs
    · cases hs
    · rename_i hnone
      cases hs
      have hstep : st.stepOrOpen none =
          some ⟨s.saved.map fun list => marshal (schedulesOf list),
            schedulesOf (s.saved.getD [])⟩ := by
        rw [ScheduleStore.stepOrOpen, h.file]
        cases s.saved with
        | none => rfl
        | some list =>
          rw [Option.map_some, ScheduleStore.openFile, unmarshal_marshal]
          rfl
      refine ⟨[none], _, run_cons_of hstep rfl, rfl, ?_, ?_⟩
      · rintro list hlist -
        exact congrArg schedulesOf (Option.some.inj hlist)
      · rintro list bytes - hbytes
        rw [Replacement.Phase.content_eq_none.mpr (hwhole.idle hnone)] at hbytes
        cases hbytes
  | call c opens =>
    obtain ⟨list, hlist, hidle, ⟨-, rfl⟩ | ⟨list', hlist', rfl |
      ⟨content, disk, hbytes, hdisk, rfl⟩⟩⟩ := call_eq_some hs
    · exact ⟨[], st, rfl, h⟩
    · exact hunsaved s.disk list' hidle c.toCall (c.apply_toCall hlist' (h.idle list hlist hidle))
    · obtain ⟨-, hcontent, -⟩ := Replacement.create_eq_some hdisk
      refine ⟨[], st, rfl, h.file, ?_, ?_⟩
      · rintro list'' - hphase
        rw [Replacement.Phase.content_eq_none.mpr hphase] at hcontent
        cases hcontent
      · rintro list'' bytes hlist'' -
        obtain rfl := Option.some.inj hlist''
        exact ⟨c.toCall, c.apply_toCall hlist' (h.idle list hlist hidle)⟩
  | save e =>
    obtain ⟨list, disk, hlist, hdisk, ⟨bytes, hold, hnew, hkept, rfl⟩ |
      ⟨bytes, hold, hidle, hkept, rfl⟩ | ⟨rfl, rfl⟩⟩ := save_eq_some hs
    · refine ⟨[], st, rfl, h.file, ?_, ?_⟩
      · rintro list' - hphase
        rw [Replacement.Phase.content_eq_none.mpr hphase] at hnew
        cases hnew
      · rintro list' bytes' hlist' -
        exact h.busy list' bytes (hlist.trans hlist') hold
    · obtain ⟨c, hc⟩ := h.busy list bytes hlist hold
      have hstep : st.stepOrOpen (some (.smooth, c)) =
          some ⟨some (marshal (schedulesOf list)), schedulesOf list⟩ := by
        rw [ScheduleStore.stepOrOpen, ScheduleStore.step, hc]
        rfl
      refine ⟨[some (.smooth, c)], _, run_cons_of hstep rfl, rfl, ?_, ?_⟩
      · rintro list' hlist' -
        exact congrArg schedulesOf (Option.some.inj hlist')
      · rintro list' bytes' - hbytes
        rw [Replacement.Phase.content_eq_none.mpr hidle] at hbytes
        cases hbytes
    · rcases hphase : s.disk.phase.content with _ | bytes
      · refine ⟨[], st, rfl, h.file, fun list' hlist' _ => ?_, by rintro _ _ _ ⟨⟩⟩
        exact h.idle list' (hlist.trans hlist') (Replacement.Phase.content_eq_none.mp hphase)
      · obtain ⟨c, hc⟩ := h.busy list bytes hlist hphase
        exact hunsaved _ list rfl c hc
  | kill =>
    cases hs
    exact ⟨[], st, rfl, h.file, by rintro _ ⟨⟩, by rintro _ _ ⟨⟩⟩

end ScheduleHost

end Ultrav
