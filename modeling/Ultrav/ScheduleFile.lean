import Ultrav.MetadataFile
import Ultrav.ScheduleStore

/-!
# The schedule file

`schedules.json` byte by byte, as `Store.save` writes it and `Open` reads it.

* `Stamp` — a `time.Time`: an instant and the clock it is shown on.
* `ScheduleRecord` — `Schedule` with Go's own types.
* `encodeSchedules` / `decodeSchedules` — the JSON value; `scheduleBytes` / `readSchedules` — the
  file.
* `readSchedules_bytes` — **round trip**.
-/

namespace Ultrav

open Json

/-! ## Times -/

/-- An instant, and how many minutes the clock it is shown on is ahead of UTC. -/
structure Stamp where
  instant : Time
  minutes : ℤ
  deriving DecidableEq, Repr

namespace Stamp

/-- The zero `time.Time`: the start of year 1. -/
def zero : Stamp := ⟨-Rfc3339.epoch * Rfc3339.dayLength, 0⟩

/-- `MarshalJSON` -/
def encode (t : Stamp) : Option Value := (Rfc3339.formatIn t.minutes t.instant).map .string

/-- `UnmarshalJSON`; `null` leaves what was there. -/
def decode (old : Stamp) : Value → Option Stamp
  | .null => some old
  | .string raw => (Rfc3339.parse raw).map fun t => ⟨t, Rfc3339.minutesOf raw⟩
  | _ => none

theorem decode_encode {t : Stamp} {v : Value} (h : t.encode = some v) (old : Stamp) :
    decode old v = some t := by
  obtain ⟨cs, hcs, rfl⟩ := Option.map_eq_some_iff.mp h
  rw [decode, Rfc3339.parse_formatIn hcs, Option.map_some, Rfc3339.minutesOf_formatIn hcs]

theorem valid_encode {t : Stamp} {v : Value} (h : t.encode = some v) : v.Valid := by
  obtain ⟨cs, hcs, rfl⟩ := Option.map_eq_some_iff.mp h
  exact stringOk_formatIn hcs

end Stamp

/-! ## The record -/

/-- `Schedule`, as it is stored -/
structure ScheduleRecord where
  id : String
  name : String
  time : String
  /-- `none` is the nil slice -/
  vmIDs : Option (List String)
  type : String
  retentionKeepLast : Int64
  enabled : Bool
  lastRun : Option Stamp
  createdAt : Stamp
  deriving DecidableEq

/-- The fields of `Schedule`. -/
inductive ScheduleField where
  | id
  | name
  | time
  | vmIDs
  | type
  | retentionKeepLast
  | enabled
  | lastRun
  | createdAt
  deriving DecidableEq

def scheduleFields : List (String × ScheduleField) :=
  [("id", .id), ("name", .name), ("time", .time), ("vmIds", .vmIDs), ("type", .type),
    ("retentionKeepLast", .retentionKeepLast), ("enabled", .enabled), ("lastRun", .lastRun),
    ("createdAt", .createdAt)]

def decodeStrings : Value → Option (Option (List String))
  | .null => some none
  | .array items => (items.mapM (decodeString "")).map some
  | _ => none

def encodeStrings : Option (List String) → Value
  | none => .null
  | some ss => .array (ss.map encodeString)

/-- A pointer to a time. -/
def decodeLastRun (old : Option Stamp) : Value → Option (Option Stamp)
  | .null => some none
  | v => (Stamp.decode (old.getD .zero) v).map some

namespace ScheduleRecord

/-- The zero record. -/
def zero : ScheduleRecord := ⟨"", "", "", none, "", 0, false, none, .zero⟩

/-- One member of a schedule; others are skipped. -/
def set (r : ScheduleRecord) (member : List Char × Value) : Option ScheduleRecord :=
  match fieldOf scheduleFields member.1 with
  | some .id => (decodeString r.id member.2).map fun s => { r with id := s }
  | some .name => (decodeString r.name member.2).map fun s => { r with name := s }
  | some .time => (decodeString r.time member.2).map fun s => { r with time := s }
  | some .vmIDs => (decodeStrings member.2).map fun ss => { r with vmIDs := ss }
  | some .type => (decodeString r.type member.2).map fun s => { r with type := s }
  | some .retentionKeepLast =>
    (decodeInt64 r.retentionKeepLast member.2).map fun n => { r with retentionKeepLast := n }
  | some .enabled => (decodeBool r.enabled member.2).map fun b => { r with enabled := b }
  | some .lastRun => (decodeLastRun r.lastRun member.2).map fun t => { r with lastRun := t }
  | some .createdAt => (Stamp.decode r.createdAt member.2).map fun t => { r with createdAt := t }
  | none => some r

def decode : Value → Option ScheduleRecord
  | .null => some zero
  | .object members => members.foldlM set zero
  | _ => none

/-- An absent `lastRun` is left out. -/
def encodeLastRun : Option Stamp → Option (List (List Char × Value))
  | none => some []
  | some t => t.encode.map fun v => [member "lastRun" v]

/-- It fails for a time that has no text. -/
def encode (r : ScheduleRecord) : Option Value :=
  (encodeLastRun r.lastRun).bind fun lastRun => r.createdAt.encode.map fun created =>
    .object ([member "id" (encodeString r.id), member "name" (encodeString r.name),
      member "time" (encodeString r.time), member "vmIds" (encodeStrings r.vmIDs),
      member "type" (encodeString r.type),
      member "retentionKeepLast" (.number (intText r.retentionKeepLast.toInt)),
      member "enabled" (.bool r.enabled)] ++ lastRun ++ [member "createdAt" created])

/-- What the scheduler reads of it. -/
def toSchedule (r : ScheduleRecord) : Schedule where
  id := r.id
  name := r.name
  time := r.time
  vmIDs := r.vmIDs.getD []
  type := r.type
  retentionKeepLast := r.retentionKeepLast.toInt
  enabled := r.enabled
  lastRun := r.lastRun.map Stamp.instant
  createdAt := r.createdAt.instant

end ScheduleRecord

/-! ## The file -/

/-- `json.MarshalIndent` of the slice -/
def encodeSchedules (list : List ScheduleRecord) : Option Value :=
  (list.mapM ScheduleRecord.encode).map .array

/-- `json.Unmarshal` into the nil slice -/
def decodeSchedules : Value → Option (List ScheduleRecord)
  | .null => some []
  | .array items => items.mapM ScheduleRecord.decode
  | _ => none

/-- What `save` writes. -/
def scheduleBytes (list : List ScheduleRecord) : Option (List UInt8) :=
  (encodeSchedules list).map fun v => Utf8.encode (render 0 v)

/-- What `Open` makes of the file. -/
def readSchedules (bytes : List UInt8) : Option (List ScheduleRecord) :=
  (read (Utf8.decode bytes)).bind decodeSchedules

/-! ## Round trip -/

/-- The keys of a schedule are found again. -/
theorem fieldOf_scheduleFields :
    ∀ f ∈ scheduleFields, fieldOf scheduleFields f.1.toList = some f.2 := by decide

theorem decodeStrings_encodeStrings (ss : Option (List String)) :
    decodeStrings (encodeStrings ss) = some ss := by
  have hall : ∀ ss : List String, (ss.map encodeString).mapM (decodeString "") = some ss := by
    intro ss
    induction ss with
    | nil => rfl
    | cons s ss ih =>
      rw [List.map_cons, List.mapM_cons, decodeString_encodeString, ih]
      rfl
  cases ss with
  | none => rfl
  | some ss => exact congrArg (Option.map some) (hall ss)

theorem valid_encodeStrings (ss : Option (List String)) : (encodeStrings ss).Valid := by
  have hall : ∀ ss : List String, validItems (ss.map encodeString) := by
    intro ss
    induction ss with
    | nil => exact trivial
    | cons s ss ih => exact ⟨valid_encodeString s, ih⟩
  cases ss with
  | none => exact trivial
  | some ss => exact hall ss

namespace ScheduleRecord

/-- Reading an optional `lastRun`. -/
theorem foldlM_encodeLastRun {r : ScheduleRecord} {lastRun : Option Stamp}
    {members : List (List Char × Value)} (h : encodeLastRun lastRun = some members)
    (hr : r.lastRun = none) : members.foldlM set r = some { r with lastRun := lastRun } := by
  cases lastRun with
  | none =>
    cases h
    rw [← hr]
    rfl
  | some t =>
    obtain ⟨v, hv, rfl⟩ := Option.map_eq_some_iff.mp h
    have hkey := fieldOf_scheduleFields ("lastRun", .lastRun) (by decide)
    have hstring : ∃ raw, v = .string raw := by
      obtain ⟨cs, -, rfl⟩ := Option.map_eq_some_iff.mp hv
      exact ⟨cs, rfl⟩
    obtain ⟨raw, rfl⟩ := hstring
    have hdecode : decodeLastRun r.lastRun (.string raw) = some (some t) :=
      congrArg (Option.map some) (Stamp.decode_encode hv _)
    simp only [List.foldlM_cons, List.foldlM_nil, set, member, hkey, hdecode, Option.map_some,
      Option.bind_eq_bind, Option.bind_some]
    rfl

theorem decode_encode {r : ScheduleRecord} {v : Value} (h : r.encode = some v) :
    decode v = some r := by
  obtain ⟨lastRun, hlast, h⟩ := Option.bind_eq_some_iff.mp h
  obtain ⟨created, hcreated, rfl⟩ := Option.map_eq_some_iff.mp h
  have hkey := fieldOf_scheduleFields
  have hid := hkey ("id", .id) (by decide)
  have hname := hkey ("name", .name) (by decide)
  have htime := hkey ("time", .time) (by decide)
  have hvmIDs := hkey ("vmIds", .vmIDs) (by decide)
  have htype := hkey ("type", .type) (by decide)
  have hkeep := hkey ("retentionKeepLast", .retentionKeepLast) (by decide)
  have henabled := hkey ("enabled", .enabled) (by decide)
  have hcreatedAt := hkey ("createdAt", .createdAt) (by decide)
  have hbool : ∀ old, decodeBool old (.bool r.enabled) = some r.enabled := fun _ => rfl
  simp only [decode, List.foldlM_append, List.foldlM_cons, List.foldlM_nil, set, member, hid, hname,
    htime, hvmIDs, htype, hkeep, henabled, hcreatedAt, decodeString_encodeString,
    decodeInt64_intText, hbool, decodeStrings_encodeStrings, Stamp.decode_encode hcreated,
    Option.map_some, Option.bind_eq_bind, Option.bind_some, Option.pure_def]
  rw [foldlM_encodeLastRun hlast rfl, Option.bind_some]

theorem valid_encode {r : ScheduleRecord} {v : Value} (h : r.encode = some v) : v.Valid := by
  obtain ⟨lastRun, hlast, h⟩ := Option.bind_eq_some_iff.mp h
  obtain ⟨created, hcreated, rfl⟩ := Option.map_eq_some_iff.mp h
  refine validMembers_append (validMembers_append ?_ ?_) ⟨rfl, Stamp.valid_encode hcreated, trivial⟩
  · exact ⟨rfl, valid_encodeString _, rfl, valid_encodeString _, rfl, valid_encodeString _, rfl,
      valid_encodeStrings _, rfl, valid_encodeString _, rfl, numberOk_intText _, rfl, trivial,
      trivial⟩
  · cases hr : r.lastRun with
    | none =>
      rw [hr] at hlast
      cases hlast
      exact trivial
    | some t =>
      rw [hr] at hlast
      obtain ⟨v, hv, rfl⟩ := Option.map_eq_some_iff.mp hlast
      exact ⟨rfl, Stamp.valid_encode hv, trivial⟩

/-- All records of a list. -/
theorem mapM_encode {list : List ScheduleRecord} {vs : List Value}
    (h : list.mapM encode = some vs) : vs.mapM decode = some list ∧ validItems vs := by
  induction list generalizing vs with
  | nil =>
    cases h
    exact ⟨rfl, trivial⟩
  | cons r list ih =>
    rw [List.mapM_cons] at h
    obtain ⟨v, hv, h⟩ := Option.bind_eq_some_iff.mp h
    obtain ⟨vs, hvs, h⟩ := Option.bind_eq_some_iff.mp h
    cases h
    obtain ⟨hdecode, hvalid⟩ := ih hvs
    refine ⟨?_, valid_encode hv, hvalid⟩
    rw [List.mapM_cons, decode_encode hv, hdecode]
    rfl

end ScheduleRecord

/-- **Round trip**: the file is read as the slice that was saved. -/
theorem readSchedules_bytes {list : List ScheduleRecord} {bytes : List UInt8}
    (h : scheduleBytes list = some bytes) : readSchedules bytes = some list := by
  obtain ⟨v, hv, rfl⟩ := Option.map_eq_some_iff.mp h
  obtain ⟨vs, hvs, rfl⟩ := Option.map_eq_some_iff.mp hv
  obtain ⟨hdecode, hvalid⟩ := ScheduleRecord.mapM_encode hvs
  have hread := read_render (v := .array vs) hvalid (fun _ h => (by cases h)) 0
  rw [readSchedules, Utf8.decode_encode, hread, Option.bind_some, decodeSchedules, hdecode]

end Ultrav
