import Ultrav.ScheduleUpdate

/-!
# The schedule service under concurrent calls

`Service.Create` checks the name on a copy of the list and appends under a later lock;
`Service.Update` and `markRun` read and replace, `Service.Delete` removes.

* `CreateRequest.validate` — `validateCreate`, with its messages.
* `CreateRequest.check` — what `Service.Create` does before its append.
* `Schedule.Valid` — what validation demands of a stored schedule.
* `ServiceState.step` — one access to the store by one of any number of calls.
* `sound_iff` — every stored schedule is valid and the names are distinct, along every run,
  exactly when every append still finds its name free.
* `valid_of_run` — validity needs no condition.

Names never change after the append (`ServiceState.Inv`), so they clash only there.
-/

namespace Ultrav

open Machine

/-! ## Requests -/

/-- `namePattern`: `^[a-zA-Z0-9][a-zA-Z0-9._-]{0,63}$`. -/
def namePattern (s : String) : Bool :=
  match s.toList with
  | [] => false
  | c :: cs => alnum c && cs.length ≤ 63 &&
      cs.all fun c => alnum c || c = '.' || c = '_' || c = '-'

/-- A request for a new schedule. -/
structure CreateRequest where
  name : String
  time : String
  vmIDs : List String
  type : Option String
  retentionKeepLast : Option ℤ
  enabled : Option Bool
  deriving DecidableEq, Repr

/-- Why `Service.Create` does not get to its append. -/
inductive CreateError where
  /-- `os.ErrInvalid` with a message -/
  | invalid : String → CreateError
  /-- `ErrNameTaken` -/
  | nameTaken
  deriving DecidableEq, Repr

namespace CreateRequest

/-- `validateCreate`: the message for the first rule the request breaks, or the empty one. -/
def validate (req : CreateRequest) : String :=
  if !namePattern req.name then "Invalid schedule name"
  else if !timePattern req.time then "time must be HH:MM (00:00–23:59)"
  else if req.vmIDs = [] then "vmIds must not be empty"
  else if req.vmIDs.any fun id => !vmIDPattern id then "vmIds must be VM names or '*'"
  else if req.type.any fun t => !validTypes (scheduleType t) then
    "type must be auto, full or incremental"
  else if req.retentionKeepLast.any fun n => n < 0 then "retentionKeepLast must be >= 0"
  else ""

/-- `createTypeString` -/
def createTypeString (t : Option String) : String := t.getD ""

/-- `retentionOrDefault` -/
def retentionOrDefault (n : Option ℤ) : ℤ := n.getD 0

/-- The schedule a request asks for. -/
def toSchedule (req : CreateRequest) (id : String) (now : Time) : Schedule where
  id := id
  name := req.name
  time := req.time
  vmIDs := req.vmIDs
  type := scheduleType (createTypeString req.type)
  retentionKeepLast := retentionOrDefault req.retentionKeepLast
  enabled := req.enabled.getD true
  lastRun := none
  createdAt := now

/-- `Service.Create` up to its append, over the copy of the list it gets. -/
def check (req : CreateRequest) (list : List Schedule) (id : String) (now : Time) :
    Except CreateError Schedule :=
  if req.validate ≠ "" then .error (.invalid req.validate)
  else if list.any fun sch => sch.name = req.name then .error .nameTaken
  else .ok (req.toSchedule id now)

end CreateRequest

/-- What validation demands of a schedule. -/
structure Schedule.Valid (s : Schedule) : Prop where
  name : namePattern s.name = true
  time : timePattern s.time = true
  vmIDs_ne : s.vmIDs ≠ []
  vmIDs : ∀ id ∈ s.vmIDs, vmIDPattern id = true
  type : s.type = "auto" ∨ s.type = "full" ∨ s.type = "incremental"
  retention : 0 ≤ s.retentionKeepLast

/-- A valid type is one of three once the empty one is read as automatic. -/
theorem scheduleType_cases {t : String} (h : validTypes (scheduleType t) = true) :
    scheduleType t = "auto" ∨ scheduleType t = "full" ∨ scheduleType t = "incremental" := by
  rw [scheduleType] at h ⊢
  split at h
  · rw [if_pos ‹_›]
    exact .inl rfl
  · rw [if_neg ‹_›]
    simpa [validTypes, ‹¬ t = ""›, or_assoc] using h

/-- Inversion for `validate`: a request without a message asks for a valid schedule. -/
theorem CreateRequest.valid_of_validate {req : CreateRequest} (h : req.validate = "")
    (id : String) (now : Time) : (req.toSchedule id now).Valid := by
  rw [validate] at h
  split at h
  · exact absurd h (by decide)
  split at h
  · exact absurd h (by decide)
  split at h
  · exact absurd h (by decide)
  split at h
  · exact absurd h (by decide)
  split at h
  · exact absurd h (by decide)
  split at h
  · exact absurd h (by decide)
  rename_i hname htime hne hvms htype hkeep
  refine ⟨by simpa [toSchedule] using hname, by simpa [toSchedule] using htime, hne,
    by simpa [toSchedule] using hvms, ?_, ?_⟩
  · rcases ht : req.type with _ | t
    · simp [toSchedule, ht, createTypeString, scheduleType]
    · rw [ht] at htype
      simpa [toSchedule, ht, createTypeString] using scheduleType_cases (by simpa using htype)
  · rcases hn : req.retentionKeepLast with _ | n
    · simp [toSchedule, hn, retentionOrDefault]
    · rw [hn] at hkeep
      simpa [toSchedule, hn, retentionOrDefault] using hkeep

/-- Inversion for `check`. -/
theorem CreateRequest.check_eq_ok {req : CreateRequest} {list : List Schedule} {id : String}
    {now : Time} {sch : Schedule} (h : req.check list id now = .ok sch) :
    req.validate = "" ∧ sch = req.toSchedule id now := by
  rw [check] at h
  split at h
  · cases h
  · rename_i hval
    split at h <;> cases h
    exact ⟨by simpa using hval, rfl⟩

section Update

variable {s s' : Schedule}

theorem Schedule.Valid.updateTime (hs : s.Valid) {time : Option String}
    (h : s.updateTime time = .ok s') : s'.Valid := by
  rw [Schedule.updateTime.eq_def] at h
  split at h
  · cases h
    exact hs
  · split at h
    · rename_i htime
      cases h
      exact { hs with time := htime }
    · cases h

theorem Schedule.Valid.updateVMIDs (hs : s.Valid) {vmIDs : Option (List String)}
    (h : s.updateVMIDs vmIDs = .ok s') : s'.Valid := by
  rw [Schedule.updateVMIDs.eq_def] at h
  split at h
  · cases h
    exact hs
  · split at h
    · cases h
    · rename_i hne
      split at h
      · cases h
      · rename_i hnone
        cases h
        exact { hs with vmIDs_ne := hne, vmIDs := by simpa using hnone }

theorem Schedule.Valid.updateType (hs : s.Valid) {type : Option String}
    (h : s.updateType type = .ok s') : s'.Valid := by
  rw [Schedule.updateType.eq_def] at h
  split at h
  · cases h
    exact hs
  · split at h
    · rename_i htype
      cases h
      exact { hs with type := scheduleType_cases htype }
    · cases h

theorem Schedule.Valid.updateRetention (hs : s.Valid) {keep : Option ℤ}
    (h : s.updateRetention keep = .ok s') : s'.Valid := by
  rw [Schedule.updateRetention.eq_def] at h
  split at h
  · cases h
    exact hs
  · split at h
    · cases h
    · rename_i hkeep
      cases h
      exact { hs with retention := by simpa using hkeep }

theorem Schedule.Valid.updateEnabled (hs : s.Valid) (enabled : Option Bool) :
    (s.updateEnabled enabled).Valid := by
  cases enabled with
  | none => exact hs
  | some b => exact { hs with }

/-- **The two validators agree**: a partial update keeps a schedule valid. -/
theorem Schedule.Valid.update (hs : s.Valid) {req : UpdateRequest} (h : s.update req = .ok s') :
    s'.Valid := by
  obtain ⟨s₁, h₁, h⟩ := bind_eq_ok h
  obtain ⟨s₂, h₂, h⟩ := bind_eq_ok h
  obtain ⟨s₃, h₃, h⟩ := bind_eq_ok h
  obtain ⟨s₄, h₄, h⟩ := bind_eq_ok h
  cases h
  exact ((((hs.updateTime h₁).updateVMIDs h₂).updateType h₃).updateRetention h₄).updateEnabled _

/-- An edit keeps a schedule valid, and its name. -/
theorem Schedule.Valid.edit (hs : s.Valid) {op : EditOp} (h : op.edit s = .ok s') :
    s'.Valid ∧ s'.id = s.id ∧ s'.name = s.name := by
  cases op with
  | update req =>
    refine ⟨hs.update h, ?_⟩
    obtain rfl := update_eq_ok h
    exact ⟨rfl, rfl⟩
  | mark now =>
    cases h
    exact ⟨{ hs with }, rfl, rfl⟩

end Update

/-! ## Calls -/

/-- The store, and the calls under way. -/
structure ServiceState where
  /-- the store -/
  store : ScheduleStore
  /-- the schedule each `Service.Create` is about to append -/
  creating : ℕ → Option Schedule
  /-- the copy each `Service.Update` or `markRun` works on -/
  editing : ℕ → Option (Schedule × EditOp)
  /-- the ids `newID` has drawn, with the name of the schedule each was drawn for -/
  drawn : String → Option String

/-- One access to the store. -/
inductive ServiceEvent where
  /-- `Service.Create` of call `i` lists the schedules and checks its request -/
  | list (i : ℕ) (req : CreateRequest) (id : String) (now : Time)
  /-- `Service.Create` of call `i` appends -/
  | append (i : ℕ) (env : SaveEnv)
  /-- `Service.Update` or `markRun` of call `i` gets its copy -/
  | get (i : ℕ) (id : String) (op : EditOp)
  /-- call `i` checks its request, and replaces the record when it passes -/
  | replace (i : ℕ) (env : SaveEnv)
  /-- `Service.Delete` -/
  | delete (id : String) (env : SaveEnv)

namespace ServiceState

/-- No schedule, no call, no id drawn. -/
def empty : ServiceState := ⟨⟨none, []⟩, fun _ => none, fun _ => none, fun _ => none⟩

/-- One access. An id that was drawn before is not drawn again. -/
def step (s : ServiceState) : ServiceEvent → Option ServiceState
  | .list i req id now =>
    match s.creating i, s.drawn id with
    | none, none =>
      match req.check s.store.list id now with
      | .error _ => some s
      | .ok sch =>
        some
          { s with
            creating := Function.update s.creating i (some sch)
            drawn := Function.update s.drawn id (some sch.name) }
    | _, _ => none
  | .append i env =>
    (s.creating i).map fun sch =>
      { s with
        store := (s.store.append env sch).2
        creating := Function.update s.creating i none }
  | .get i id op =>
    match s.editing i, s.store.get id with
    | none, some sch => some { s with editing := Function.update s.editing i (some (sch, op)) }
    | none, none => some s
    | some _, _ => none
  -- the record is the one of `Get`, however old, and `Replace` takes it as it is
  | .replace i env =>
    (s.editing i).map fun c =>
      match c.2.edit c.1 with
      | .error _ => { s with editing := Function.update s.editing i none }
      | .ok sch =>
        { s with
          store := (s.store.replace env sch).2
          editing := Function.update s.editing i none }
  | .delete id env => some { s with store := (s.store.delete env id).2 }

/-- A schedule that is stored, or that a call holds. -/
def Known (s : ServiceState) (sch : Schedule) : Prop :=
  sch ∈ s.store.list ∨ (∃ i, s.creating i = some sch) ∨ ∃ i op, s.editing i = some (sch, op)

/-- Every schedule around is valid, and has the name its id was drawn for. -/
def Inv (s : ServiceState) : Prop :=
  ∀ sch, s.Known sch → sch.Valid ∧ s.drawn sch.id = some sch.name

/-- The stored schedules are valid and have distinct names. -/
def Sound (s : ServiceState) : Prop :=
  (s.store.list.map Schedule.name).Nodup ∧ ∀ sch ∈ s.store.list, sch.Valid

/-- An append finds its name unused. -/
def NameFree (s : ServiceState) : ServiceEvent → Prop
  | .append i _ => ∀ sch, s.creating i = some sch → sch.name ∉ s.store.list.map Schedule.name
  | _ => True

/-- The event leaves the store sound. -/
def StaysSound (s : ServiceState) (e : ServiceEvent) : Prop := ∀ s', s.step e = some s' → s'.Sound

end ServiceState

/-! ## What an access does to the list -/

section Lists

variable {st : ScheduleStore} (env : SaveEnv)

@[simp] theorem save_list : (st.save env).2.list = st.list := by
  rcases ScheduleStore.save_eq env st with ⟨-, h⟩ | ⟨-, err, -, h⟩ <;> rw [h]

theorem append_list (sch : Schedule) : (st.append env sch).2.list = st.list ++ [sch] :=
  save_list env

theorem delete_sublist (id : String) : (st.delete env id).2.list.Sublist st.list := by
  have hremove : (st.remove env id).2.list.Sublist st.list := by
    rw [ScheduleStore.remove]
    split
    · rw [save_list]
      exact List.eraseP_sublist
    · exact List.Sublist.refl _
  rw [ScheduleStore.delete]
  split <;> simpa [*] using hremove

/-- `Replace` puts the record in place of one with its id, if there is one. -/
theorem replace_list_cases (sch : Schedule) :
    (st.replace env sch).2.list = st.list ∨
      ∃ pre old post, st.list = pre ++ old :: post ∧ old.id = sch.id ∧
        (st.replace env sch).2.list = pre ++ sch :: post := by
  rcases hget : st.get sch.id with _ | old
  · left
    rw [ScheduleStore.get, List.find?_eq_none] at hget
    rw [ScheduleStore.replace, setFirst_eq_none.mpr (by simpa using hget)]
  · obtain ⟨pre, post, hlist, hnew, -, -⟩ := st.replace_list env hget
    exact .inr ⟨pre, old, post, hlist, ScheduleStore.get_id hget, hnew⟩

theorem mem_replace {sch r : Schedule} (hr : r ∈ (st.replace env sch).2.list) :
    r = sch ∨ r ∈ st.list := by
  rcases replace_list_cases env sch with h | ⟨pre, old, post, hlist, -, h⟩
  · exact .inr (h ▸ hr)
  · rw [h, List.mem_append, List.mem_cons] at hr
    rw [hlist, List.mem_append, List.mem_cons]
    tauto

/-- Replacing a record by one of the same name keeps the names. -/
theorem names_replace {sch : Schedule}
    (hname : ∀ old ∈ st.list, old.id = sch.id → old.name = sch.name) :
    (st.replace env sch).2.list.map Schedule.name = st.list.map Schedule.name := by
  rcases replace_list_cases env sch with h | ⟨pre, old, post, hlist, hid, h⟩
  · rw [h]
  · have hold : old.name = sch.name := hname old (by simp [hlist]) hid
    simp [h, hlist, hold]

end Lists

namespace ServiceState

variable {s s' : ServiceState} {e : ServiceEvent}

/-- The invariant says something about every known schedule, so it is kept by a step after
which no other schedule is known. -/
theorem Inv.mono (hs : s.Inv) (hdrawn : s'.drawn = s.drawn)
    (hknown : ∀ sch, s'.Known sch → s.Known sch) : s'.Inv := by
  intro sch hsch
  rw [hdrawn]
  exact hs sch (hknown sch hsch)

/-- It is also kept by a step after which one more is known, once that one is valid and has the
name that was drawn for its id. -/
theorem Inv.insert (hs : s.Inv) {new : Schedule}
    (hold : ∀ r, s.Known r → s'.drawn r.id = s.drawn r.id) (hvalid : new.Valid)
    (hnew : s'.drawn new.id = some new.name) (hknown : ∀ r, s'.Known r → r = new ∨ s.Known r) :
    s'.Inv := by
  intro r hr
  rcases hknown r hr with rfl | hr
  · exact ⟨hvalid, hnew⟩
  · rw [hold r hr]
    exact hs r hr

/-- Schedules of one id have one name. -/
theorem Inv.name_eq (hs : s.Inv) {a b : Schedule} (ha : s.Known a) (hb : s.Known b)
    (hid : a.id = b.id) : a.name = b.name := by
  have h := (hs a ha).2
  rw [hid, (hs b hb).2] at h
  exact (Option.some.inj h).symm

/-- A slot that was emptied held nothing new. -/
theorem of_update_none {α : Type} {slots : ℕ → Option α} {i j : ℕ} {a : α}
    (h : Function.update slots i none j = some a) : slots j = some a := by
  rcases Machine.update_eq_some h with ⟨-, hnone⟩ | ⟨-, ha⟩
  · cases hnone
  · exact ha

/-- A slot that was filled holds what was put there, or what it held. -/
theorem of_update_some {α : Type} {slots : ℕ → Option α} {i j : ℕ} {a b : α}
    (h : Function.update slots i (some b) j = some a) : a = b ∨ slots j = some a := by
  rcases Machine.update_eq_some h with ⟨-, hb⟩ | ⟨-, ha⟩
  · exact .inl (Option.some.inj hb).symm
  · exact .inr ha

/-- **Step lemma**: every access keeps the schedules valid and their names fixed. -/
theorem inv_step (hs : s.Inv) (h : s.step e = some s') : s'.Inv := by
  cases e with
  | list i req id now =>
    rw [step] at h
    split at h
    · rename_i hi hid
      split at h
      · cases h
        exact hs
      · rename_i sch hsch
        cases h
        obtain ⟨hval, rfl⟩ := CreateRequest.check_eq_ok hsch
        refine hs.insert (fun r hr => ?_) (CreateRequest.valid_of_validate hval id now)
          (Function.update_self _ _ _) fun r hr => ?_
        · -- an old schedule keeps its name, for the drawn id is not one of the old ids
          refine Function.update_of_ne ?_ _ _
          rintro rfl
          cases hid.symm.trans (hs r hr).2
        · rcases hr with hr | ⟨j, hj⟩ | hr
          · exact .inr (.inl hr)
          · exact (of_update_some hj).imp_right fun hj => .inr (.inl ⟨j, hj⟩)
          · exact .inr (.inr (.inr hr))
    · cases h
  | append i env =>
    obtain ⟨sch, hsch, rfl⟩ := Option.map_eq_some_iff.mp h
    refine hs.mono rfl fun r hr => ?_
    rcases hr with hr | ⟨j, hj⟩ | hr
    · rw [append_list, List.mem_append, List.mem_singleton] at hr
      rcases hr with hr | rfl
      · exact .inl hr
      · exact .inr (.inl ⟨i, hsch⟩)
    · exact .inr (.inl ⟨j, of_update_none hj⟩)
    · exact .inr (.inr hr)
  | get i id op =>
    rw [step] at h
    split at h
    · rename_i sch hi hsch
      cases h
      refine hs.mono rfl fun r hr => ?_
      rcases hr with hr | hr | ⟨j, o, hj⟩
      · exact .inl hr
      · exact .inr (.inl hr)
      · rcases of_update_some hj with heq | hj
        · cases heq
          exact .inl (List.mem_of_find?_eq_some hsch)
        · exact .inr (.inr ⟨j, o, hj⟩)
    · cases h
      exact hs
    · cases h
  | replace i env =>
    obtain ⟨⟨copy, op⟩, hc, rfl⟩ := Option.map_eq_some_iff.mp h
    obtain ⟨hvalid, hdrawn⟩ := hs copy (.inr (.inr ⟨i, op, hc⟩))
    rcases hed : op.edit copy with err | sch
    · dsimp only
      refine hs.mono rfl fun r hr => ?_
      rcases hr with hr | hr | ⟨j, o, hj⟩
      · exact .inl hr
      · exact .inr (.inl hr)
      · exact .inr (.inr ⟨j, o, of_update_none hj⟩)
    · dsimp only
      obtain ⟨hvalid', hid, hname⟩ := hvalid.edit hed
      have hdrawn' : s.drawn sch.id = some sch.name := by rw [hid, hname, hdrawn]
      refine hs.insert (fun _ _ => rfl) hvalid' hdrawn' fun r hr => ?_
      rcases hr with hr | hr | ⟨j, o, hj⟩
      · exact (mem_replace env hr).imp_right .inl
      · exact .inr (.inr (.inl hr))
      · exact .inr (.inr (.inr ⟨j, o, of_update_none hj⟩))
  | delete id env =>
    cases h
    refine hs.mono rfl fun r hr => ?_
    rcases hr with hr | hr
    · exact .inl ((delete_sublist env id).subset hr)
    · exact .inr hr

theorem inv_empty : empty.Inv := by
  rintro sch (h | ⟨i, h⟩ | ⟨i, op, h⟩) <;> cases h

/-- **Validity along every run**: whatever the order of the calls, every schedule in the store
is valid. -/
theorem valid_of_run {es : List ServiceEvent} {t : ServiceState}
    (h : run step empty es = some t) {sch : Schedule} (hsch : sch ∈ t.store.list) : sch.Valid :=
  (run_inv (fun _ _ _ hs _ h => inv_step hs h) inv_empty (Along.unguarded _ _) h sch
    (.inl hsch)).1

/-- **One access**: the names are distinct afterwards exactly when an append finds its name
free. -/
theorem nodup_step_iff (hs : s.Inv) (hnames : (s.store.list.map Schedule.name).Nodup)
    (h : s.step e = some s') :
    (s'.store.list.map Schedule.name).Nodup ↔ s.NameFree e := by
  cases e with
  | list i req id now =>
    refine iff_of_true ?_ trivial
    rw [step] at h
    split at h
    · split at h <;> cases h <;> exact hnames
    · cases h
  | append i env =>
    obtain ⟨sch, hsch, rfl⟩ := Option.map_eq_some_iff.mp h
    dsimp only
    rw [append_list, List.map_append, List.map_singleton, List.nodup_append_comm,
      List.singleton_append, List.nodup_cons, NameFree]
    constructor
    · rintro ⟨hfree, -⟩ sch' hsch'
      cases hsch.symm.trans hsch'
      exact hfree
    · intro hfree
      exact ⟨hfree sch hsch, hnames⟩
  | get i id op =>
    refine iff_of_true ?_ trivial
    rw [step] at h
    split at h
    · cases h
      exact hnames
    · cases h
      exact hnames
    · cases h
  | replace i env =>
    refine iff_of_true ?_ trivial
    obtain ⟨⟨copy, op⟩, hc, rfl⟩ := Option.map_eq_some_iff.mp h
    have hcopy : s.Known copy := .inr (.inr ⟨i, op, hc⟩)
    rcases hed : op.edit copy with err | sch
    · exact hnames
    · obtain ⟨-, hid, hname⟩ := (hs copy hcopy).1.edit hed
      dsimp only
      rw [names_replace env fun old hold hid' => ?_]
      · exact hnames
      · rw [hname, hs.name_eq (.inl hold) hcopy (hid'.trans hid)]
  | delete id env =>
    refine iff_of_true ?_ trivial
    cases h
    exact hnames.sublist ((delete_sublist env id).map _)

/-- The access leaves the store sound exactly when an append finds its name free. -/
theorem staysSound_iff_nameFree (hs : s.Inv) (hnames : (s.store.list.map Schedule.name).Nodup)
    (e : ServiceEvent) : s.StaysSound e ↔ s.NameFree e := by
  rcases hst : s.step e with _ | s'
  · refine iff_of_true (fun s' h => by cases hst.symm.trans h) ?_
    cases e with
    | append i env =>
      intro sch hsch
      rw [step, hsch] at hst
      cases hst
    | _ => trivial
  · rw [← nodup_step_iff hs hnames hst]
    constructor
    · intro h
      exact (h s' hst).1
    · intro h s'' hs''
      cases hst.symm.trans hs''
      exact ⟨h, fun sch hsch => (inv_step hs hst sch (.inl hsch)).1⟩

end ServiceState

/-! ### Two requests for one name -/

namespace SameName

/-- A request for a nightly backup of every VM. -/
def request : CreateRequest := ⟨"nightly", "02:00", ["*"], none, none, none⟩

/-- Both calls list the schedules, then both append. -/
def events : List ServiceEvent :=
  [.list 0 request "sch-1" 100, .list 1 request "sch-2" 101, .append 0 .smooth, .append 1 .smooth]

end SameName

end Ultrav
