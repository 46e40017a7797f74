import Ultrav.BackupStore
import Ultrav.Machine

/-!
# The schedule store

The schedules live in a slice and in one JSON file. Every mutator changes the slice
first and saves afterwards.

* `Schedule` — one recurring backup job.
* `Json` / `marshal` / `unmarshal` — the file as a JSON document; `unmarshal_marshal` is
  the round trip.
* `ScheduleStore` — slice and file, with `Open`, `Get`, `Append`, `Replace`, `Remove`.
* `Lawful` — after a call the file holds the slice, an error leaves the schedule set, and
  `Service.Delete` calls only a missing id missing.
* `lawful_iff` — which calls are lawful, along every run.
-/

namespace Ultrav

open Machine

/-! ## Schedules -/

/-- One recurring backup job definition. -/
@[ext] structure Schedule where
  id : String
  name : String
  /-- daily run time, HH:MM -/
  time : String
  /-- target VM names; `*` is all -/
  vmIDs : List String
  /-- auto, full or incremental -/
  type : String
  /-- full chains to keep after each run, 0 for all -/
  retentionKeepLast : ℤ
  enabled : Bool
  /-- the last recorded run -/
  lastRun : Option Time
  createdAt : Time
  deriving DecidableEq, Repr

/-! ## The file -/

/-- A JSON document. `time` is the text of an instant. -/
inductive Json where
  | null : Json
  | bool : Bool → Json
  | int : ℤ → Json
  | str : String → Json
  | time : Time → Json
  | arr : List Json → Json
  | obj : List (String × Json) → Json

namespace Json

/-- The value under a key; a missing one reads as null. -/
def field (fields : List (String × Json)) (key : String) : Json :=
  ((fields.find? fun f => f.1 = key).map Prod.snd).getD .null

/-- Decode a string; null leaves the zero value. -/
def toStr : Json → Option String
  | str s => some s
  | null => some ""
  | _ => none

/-- Decode a flag. -/
def toBool : Json → Option Bool
  | bool b => some b
  | null => some false
  | _ => none

/-- Decode a number. -/
def toInt : Json → Option ℤ
  | int n => some n
  | null => some 0
  | _ => none

/-- Decode a slice of strings. -/
def toStrs : Json → Option (List String)
  | arr js => js.mapM toStr
  | null => some []
  | _ => none

/-- Decode an instant; the zero value is the zero time. -/
def toTime : Json → Option Time
  | time t => some t
  | null => some 0
  | _ => none

/-- Decode a pointer to an instant. -/
def toLastRun : Json → Option (Option Time)
  | time t => some (some t)
  | null => some none
  | _ => none

end Json

/-- A schedule as a JSON object; an absent `lastRun` is omitted. -/
def Schedule.toJson (s : Schedule) : Json :=
  .obj ([("id", .str s.id), ("name", .str s.name), ("time", .str s.time),
      ("vmIds", .arr (s.vmIDs.map .str)), ("type", .str s.type),
      ("retentionKeepLast", .int s.retentionKeepLast), ("enabled", .bool s.enabled)] ++
    (match s.lastRun with
      | some t => [("lastRun", .time t)]
      | none => []) ++
    [("createdAt", .time s.createdAt)])

/-- Decode one schedule. -/
def Schedule.ofJson : Json → Option Schedule
  | .obj fields => do
    let id ← (Json.field fields "id").toStr
    let name ← (Json.field fields "name").toStr
    let time ← (Json.field fields "time").toStr
    let vmIDs ← (Json.field fields "vmIds").toStrs
    let type ← (Json.field fields "type").toStr
    let retentionKeepLast ← (Json.field fields "retentionKeepLast").toInt
    let enabled ← (Json.field fields "enabled").toBool
    let lastRun ← (Json.field fields "lastRun").toLastRun
    let createdAt ← (Json.field fields "createdAt").toTime
    return ⟨id, name, time, vmIDs, type, retentionKeepLast, enabled, lastRun, createdAt⟩
  | _ => none

/-- `json.MarshalIndent` of the slice. -/
def marshal (list : List Schedule) : Json := .arr (list.map Schedule.toJson)

/-- `json.Unmarshal` into the slice. -/
def unmarshal : Json → Option (List Schedule)
  | .arr js => js.mapM Schedule.ofJson
  | .null => some []
  | _ => none

theorem toStrs_strs (ss : List String) : (Json.arr (ss.map .str)).toStrs = some ss := by
  rw [Json.toStrs]
  induction ss with
  | nil => rfl
  | cons s ss ih => simp [Json.toStr, ih]

/-- A schedule is read back as it was written. -/
theorem Schedule.ofJson_toJson (s : Schedule) : Schedule.ofJson s.toJson = some s := by
  obtain ⟨id, name, time, vmIDs, type, keep, enabled, lastRun, createdAt⟩ := s
  rcases lastRun with _ | t
  · simp [toJson, ofJson, Json.field, toStrs_strs, Json.toStr, Json.toInt, Json.toBool,
      Json.toLastRun, Json.toTime]
  · simp [toJson, ofJson, Json.field, toStrs_strs, Json.toStr, Json.toInt, Json.toBool,
      Json.toLastRun, Json.toTime]

/-- **Round trip**: what was saved is what is loaded. -/
@[simp] theorem unmarshal_marshal (list : List Schedule) :
    unmarshal (marshal list) = some list := by
  rw [marshal, unmarshal]
  induction list with
  | nil => rfl
  | cons s list ih => simp [Schedule.ofJson_toJson, ih]

/-! ## The store -/

/-- Errors of the store and the service. -/
inductive ScheduleError where
  /-- `ErrNotFound` -/
  | notFound
  /-- `json.MarshalIndent` fails -/
  | marshal
  /-- `os.WriteFile` of the temp file fails -/
  | write
  /-- `os.Rename` fails -/
  | rename
  /-- the file does not decode -/
  | corrupt
  /-- `os.ErrInvalid` with a message -/
  | invalid : String → ScheduleError
  deriving DecidableEq, Repr

/-- What a `save` meets. -/
structure SaveEnv where
  /-- `json.MarshalIndent` fails -/
  marshalFails : Bool
  /-- `os.WriteFile` fails -/
  writeFails : Bool
  /-- `os.Rename` fails -/
  renameFails : Bool
  deriving DecidableEq, Repr

/-- A save that meets no trouble. -/
def SaveEnv.smooth : SaveEnv := ⟨false, false, false⟩

/-- All three steps go through. -/
def SaveEnv.saves (env : SaveEnv) : Bool :=
  !env.marshalFails && !env.writeFails && !env.renameFails

/-- The store: the slice, and the file at its path. -/
structure ScheduleStore where
  /-- the file, when there is one -/
  file : Option Json
  /-- the slice -/
  list : List Schedule

namespace ScheduleStore

/-- `Open` -/
def openFile : Option Json → Except ScheduleError ScheduleStore
  | none => .ok ⟨none, []⟩
  | some b =>
    match unmarshal b with
    | some list => .ok ⟨some b, list⟩
    | none => .error .corrupt

/-- `save`: the file is replaced by the last of the three steps. -/
def save (env : SaveEnv) (st : ScheduleStore) : Except ScheduleError Unit × ScheduleStore :=
  if env.marshalFails then (.error .marshal, st)
  else if env.writeFails then (.error .write, st)
  else if env.renameFails then (.error .rename, st)
  else (.ok (), { st with file := some (marshal st.list) })

/-- `Get` -/
def get (st : ScheduleStore) (id : String) : Option Schedule := st.list.find? fun s => s.id = id

/-- `Append` -/
def append (env : SaveEnv) (st : ScheduleStore) (s : Schedule) :
    Except ScheduleError Unit × ScheduleStore :=
  save env { st with list := st.list ++ [s] }

/-- `Replace` -/
def replace (env : SaveEnv) (st : ScheduleStore) (s : Schedule) :
    Except ScheduleError Unit × ScheduleStore :=
  match setFirst (fun t => t.id = s.id) s st.list with
  | some list => save env { st with list := list }
  | none => (.error .notFound, st)

/-- `Remove` -/
def remove (env : SaveEnv) (st : ScheduleStore) (id : String) :
    Except ScheduleError Unit × ScheduleStore :=
  if st.list.any fun s => s.id = id then
    save env { st with list := st.list.eraseP fun s => s.id = id }
  else (.error .notFound, st)

/-- `Service.Delete`: every error becomes `ErrNotFound`. -/
def delete (env : SaveEnv) (st : ScheduleStore) (id : String) :
    Except ScheduleError Unit × ScheduleStore :=
  match remove env st id with
  | (.error _, st') => (.error .notFound, st')
  | (.ok (), st') => (.ok (), st')

end ScheduleStore

/-- A mutating call. -/
inductive StoreCall where
  | append : Schedule → StoreCall
  | replace : Schedule → StoreCall
  | remove : String → StoreCall
  /-- `Service.Delete` -/
  | delete : String → StoreCall
  deriving DecidableEq, Repr

namespace ScheduleStore

/-- Serve a call. -/
def apply (env : SaveEnv) (st : ScheduleStore) :
    StoreCall → Except ScheduleError Unit × ScheduleStore
  | .append s => append env st s
  | .replace s => replace env st s
  | .remove id => remove env st id
  | .delete id => delete env st id

/-- Calls one after the other. -/
def step (st : ScheduleStore) (e : SaveEnv × StoreCall) : Option ScheduleStore :=
  some (st.apply e.1 e.2).2

/-! ## What a call should do -/

/-- Opening the file gives the slice. -/
def Agrees (st : ScheduleStore) : Prop :=
  ∃ st', openFile st.file = .ok st' ∧ st'.list = st.list

/-- A result after which slice and file agree, and both are as before when it is an
error. -/
def Faithful (st : ScheduleStore) (r : Except ScheduleError Unit × ScheduleStore) : Prop :=
  r.2.Agrees ∧ ∀ err, r.1 = .error err →
    r.2.list = st.list ∧ openFile r.2.file = openFile st.file

/-- The result of the call is faithful, and `Service.Delete` reports `ErrNotFound` only for
an id that was not there. -/
def Lawful (st : ScheduleStore) (e : SaveEnv × StoreCall) : Prop :=
  st.Faithful (st.apply e.1 e.2) ∧
    ∀ id, e.2 = .delete id → (st.apply e.1 e.2).1 = .error .notFound → st.get id = none

/-- The call finds nothing to change. -/
def Unchanged (st : ScheduleStore) : StoreCall → Prop
  | .append _ => False
  | .replace s => ∀ t, st.get s.id = some t → t = s
  | .remove id => st.get id = none
  | .delete id => st.get id = none

/-- The save of the call goes through, or there is nothing to change. -/
def Kept (st : ScheduleStore) (e : SaveEnv × StoreCall) : Prop :=
  e.1.saves = true ∨ st.Unchanged e.2

/-- An opened store agrees with its file. -/
theorem agrees_of_open {file : Option Json} {st : ScheduleStore}
    (h : openFile file = .ok st) : st.Agrees := by
  have hfile : st.file = file := by
    rw [openFile.eq_def] at h
    split at h
    · cases h
      rfl
    · split at h
      · cases h
        rfl
      · cases h
  exact ⟨st, by rw [hfile, h], rfl⟩

/-- Files that agree with one slice agree on it. -/
theorem Agrees.list_eq {st st' : ScheduleStore} (h : st.Agrees) (h' : st'.Agrees)
    (hfile : st'.file = st.file) : st'.list = st.list := by
  obtain ⟨s, hs, hl⟩ := h
  obtain ⟨s', hs', hl'⟩ := h'
  rw [hfile] at hs'
  cases hs.symm.trans hs'
  exact hl'.symm.trans hl

/-- A store that was just saved agrees with its file. -/
theorem agrees_saved (list : List Schedule) :
    (⟨some (marshal list), list⟩ : ScheduleStore).Agrees :=
  ⟨⟨some (marshal list), list⟩, by simp [openFile], rfl⟩

/-- Inversion for `save`. -/
theorem save_eq (env : SaveEnv) (st : ScheduleStore) :
    env.saves = true ∧ save env st = (.ok (), ⟨some (marshal st.list), st.list⟩) ∨
      env.saves = false ∧ ∃ err, err ≠ .notFound ∧ save env st = (.error err, st) := by
  obtain ⟨m, w, r⟩ := env
  cases m <;> cases w <;> cases r <;> simp [SaveEnv.saves, save]

theorem get_eq_none {st : ScheduleStore} {id : String} :
    st.get id = none ↔ (st.list.any fun s => s.id = id) = false := by
  rw [get, List.find?_eq_none, List.any_eq_false]

/-- A schedule is found under its own id. -/
theorem get_id {st : ScheduleStore} {id : String} {s : Schedule} (h : st.get id = some s) :
    s.id = id := by simpa using List.find?_some h

/-- `Replace` puts the record in place of the one it finds, saved or not. -/
theorem replace_list (env : SaveEnv) (st : ScheduleStore) {s old : Schedule}
    (h : st.get s.id = some old) :
    ∃ pre post, st.list = pre ++ old :: post ∧ (st.replace env s).2.list = pre ++ s :: post ∧
      (∀ c ∈ pre, c.id ≠ s.id) ∧ ((st.replace env s).1 = .ok () ↔ env.saves = true) := by
  rcases hl : setFirst (fun t => t.id = s.id) s st.list with _ | list
  · have hnone := setFirst_eq_none.mp hl old (List.mem_of_find?_eq_some h)
    rw [List.find?_some h] at hnone
    cases hnone
  · obtain ⟨pre, b, post, hlist, rfl, hb, hpre⟩ := setFirst_eq_some hl
    have hbo : b = old := by
      rw [get, hlist, List.find?_append, List.find?_eq_none.mpr (by simpa using hpre),
        Option.none_or, List.find?_cons_of_pos (by simpa using hb)] at h
      exact Option.some.inj h
    refine ⟨pre, post, hbo ▸ hlist, ?_⟩
    rw [replace, hl]
    dsimp only
    rcases save_eq env { st with list := pre ++ s :: post } with ⟨hs, heq⟩ | ⟨hs, err, -, heq⟩
    · rw [heq]
      exact ⟨rfl, by simpa using hpre, iff_of_true rfl hs⟩
    · rw [heq]
      exact ⟨rfl, by simpa using hpre, iff_of_false (fun h => by cases h) (by simp [hs])⟩

/-- The slice that `Replace` makes is the old one just when the record is the old one. -/
theorem setFirst_eq_self_iff {st : ScheduleStore} {s : Schedule} {list : List Schedule}
    (h : setFirst (fun t => t.id = s.id) s st.list = some list) :
    list = st.list ↔ ∀ t, st.get s.id = some t → t = s := by
  obtain ⟨pre, b, post, hl, rfl, hb, hpre⟩ := setFirst_eq_some h
  have hget : st.get s.id = some b := by
    rw [get, hl, List.find?_append, List.find?_eq_none.mpr (by simpa using hpre),
      Option.none_or]
    exact List.find?_cons_of_pos (by simpa using hb)
  rw [hget, hl]
  constructor
  · intro heq t ht
    cases ht
    simpa using heq.symm
  · intro hall
    rw [hall b rfl]

/-- A refused call is faithful. -/
theorem faithful_refused {st : ScheduleStore} (hst : st.Agrees) (err : ScheduleError) :
    st.Faithful (.error err, st) := ⟨hst, fun _ _ => ⟨rfl, rfl⟩⟩

/-- **The common end of the mutators**: a changed slice is saved faithfully exactly when
the save goes through, or the slice is not changed after all. -/
theorem faithful_save_iff {st : ScheduleStore} (hst : st.Agrees) (env : SaveEnv)
    (list : List Schedule) :
    st.Faithful (save env { st with list := list }) ↔ env.saves = true ∨ list = st.list := by
  rcases save_eq env { st with list := list } with ⟨hs, heq⟩ | ⟨hs, err, -, heq⟩
  · rw [heq]
    refine iff_of_true ⟨agrees_saved list, fun err h => ?_⟩ (.inl hs)
    cases h
  · rw [heq, hs]
    constructor
    · intro h
      exact .inr (hst.list_eq h.1 rfl)
    · rintro (h | rfl)
      · cases h
      · exact faithful_refused hst err

/-- Removing a present record changes the slice. -/
theorem eraseP_ne {st : ScheduleStore} {id : String}
    (h : (st.list.any fun s => s.id = id) = true) :
    (st.list.eraseP fun s => s.id = id) ≠ st.list := by
  intro heq
  obtain ⟨s, hs, hid⟩ := List.any_eq_true.mp h
  have hlen := List.length_eraseP_of_mem (p := fun s => decide (s.id = id)) hs hid
  have hpos := List.length_pos_of_mem hs
  rw [heq] at hlen
  omega

/-- `Remove` is faithful exactly when it is kept. -/
theorem faithful_remove_iff {st : ScheduleStore} (hst : st.Agrees) (env : SaveEnv) (id : String) :
    st.Faithful (remove env st id) ↔ env.saves = true ∨ st.get id = none := by
  rw [remove]
  split
  · rename_i hany
    rw [faithful_save_iff hst, get_eq_none, hany]
    exact or_congr_right (iff_of_false (eraseP_ne hany) (by simp))
  · rename_i hany
    exact iff_of_true (faithful_refused hst _) (.inr (get_eq_none.mpr (by simpa using hany)))

/-- `Service.Delete` changes what `Remove` changes. -/
theorem faithful_delete_iff {st : ScheduleStore} (env : SaveEnv) (id : String) :
    st.Faithful (delete env st id) ↔ st.Faithful (remove env st id) := by
  rw [delete]
  rcases remove env st id with ⟨err | ⟨⟨⟩⟩, st'⟩
  · exact and_congr_right fun _ => ⟨fun h _ _ => h _ rfl, fun h _ _ => h _ rfl⟩
  · exact Iff.rfl

/-- `Service.Delete` reports a missing id when `Remove` fails. -/
theorem delete_eq_notFound {st : ScheduleStore} {env : SaveEnv} {id : String}
    (h : (delete env st id).1 = .error .notFound) (henv : env.saves = true) :
    st.get id = none := by
  rw [delete, remove] at h
  by_cases hany : (st.list.any fun s => s.id = id) = true
  · rw [if_pos hany] at h
    rcases save_eq env { st with list := st.list.eraseP fun s => s.id = id } with
      ⟨-, heq⟩ | ⟨hs, -⟩
    · rw [heq] at h
      cases h
    · rw [hs] at henv
      cases henv
  · exact get_eq_none.mpr (by simpa using hany)

/-- **One call**: it is lawful exactly when its save goes through or it finds nothing to
change. -/
theorem lawful_iff_kept {st : ScheduleStore} (hst : st.Agrees) (e : SaveEnv × StoreCall) :
    st.Lawful e ↔ st.Kept e := by
  obtain ⟨env, call⟩ := e
  cases call with
  | append s =>
    have hne : st.list ++ [s] ≠ st.list := by simp
    refine (and_iff_left (fun id h => by cases h)).trans ?_
    exact (faithful_save_iff hst env _).trans (or_congr_right (iff_of_false hne (fun h => h)))
  | replace s =>
    refine (and_iff_left (fun id h => by cases h)).trans ?_
    change st.Faithful (replace env st s) ↔ _
    rw [replace]
    split
    · rename_i list hl
      exact (faithful_save_iff hst env list).trans (or_congr_right (setFirst_eq_self_iff hl))
    · rename_i hl
      refine iff_of_true (faithful_refused hst _) (.inr fun t ht => ?_)
      have hall := setFirst_eq_none.mp hl t (List.mem_of_find?_eq_some ht)
      rw [List.find?_some ht] at hall
      cases hall
  | remove id =>
    refine (and_iff_left (fun id h => by cases h)).trans ?_
    exact faithful_remove_iff hst env id
  | delete id =>
    have hfaithful : st.Faithful (delete env st id) ↔ env.saves = true ∨ st.get id = none :=
      (faithful_delete_iff env id).trans (faithful_remove_iff hst env id)
    constructor
    · intro h
      exact hfaithful.mp h.1
    · intro h
      refine ⟨hfaithful.mpr h, ?_⟩
      rintro _ ⟨⟩ hnot
      rcases h with henv | hnone
      · exact delete_eq_notFound hnot henv
      · exact hnone

/-- **The store and its file**, along every run of calls: all of them are lawful exactly
when the save of each goes through or finds nothing to change. -/
theorem lawful_iff {file : Option Json} {st : ScheduleStore} (hopen : openFile file = .ok st)
    (calls : List (SaveEnv × StoreCall)) :
    Along step Lawful st calls ↔ Along step Kept st calls := by
  refine along_iff_of_inv (fun s e hs => lawful_iff_kept hs e) (fun s e s' _ hl hs => ?_)
    (agrees_of_open hopen)
  cases hs
  exact hl.1.1

end ScheduleStore

/-! ### A deletion that cannot be saved -/

namespace FullDisk

/-- A stored schedule. -/
def nightly : Schedule := ⟨"sch-1", "nightly", "02:00", ["*"], "auto", 7, true, none, 0⟩

/-- The schedule is created, then deleted on a full disk. -/
def calls : List (SaveEnv × StoreCall) :=
  [(.smooth, .append nightly), (⟨false, true, false⟩, .delete "sch-1")]

end FullDisk

/-- The exact condition, at work on the full disk. -/
theorem ScheduleStore.lawful_iff_fullDisk :
    Along ScheduleStore.step ScheduleStore.Lawful ⟨none, []⟩ FullDisk.calls ↔
      Along ScheduleStore.step ScheduleStore.Kept ⟨none, []⟩ FullDisk.calls :=
  ScheduleStore.lawful_iff (show ScheduleStore.openFile none = .ok ⟨none, []⟩ from rfl)
    FullDisk.calls

/-- The store can diverge from its file: the failed deletion has already left the slice, and
it reports a schedule that was there as missing. -/
theorem schedule_store_diverges :
    ¬ ∀ (file : Option Json) (st : ScheduleStore) (calls : List (SaveEnv × StoreCall)),
      ScheduleStore.openFile file = .ok st →
        Along ScheduleStore.step ScheduleStore.Lawful st calls := by
  intro hall
  have hlaw := hall none ⟨none, []⟩ FullDisk.calls rfl
  obtain ⟨⟨⟨loaded, hload, hlist⟩, -⟩, -⟩ := (hlaw.2 _ rfl).1
  have hstill : loaded.list = [FullDisk.nightly] := by
    cases hload
    rfl
  cases hstill.symm.trans hlist

end Ultrav
