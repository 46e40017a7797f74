import Ultrav.BackupStore
import Ultrav.JsonText
import Ultrav.Rfc3339
import Ultrav.Utf8

/-!
# The metadata file

`metadata.json`, as `Point.save` writes it and `pointFromDir` reads it.

* `PointMeta` — `Metadata` with the strings of the file.
* `PointMeta.encode` / `decode` — the JSON value; `PointMeta.bytes` / `readMeta` — the file.
* `readMeta_bytes` — **round trip**.
* `readMeta_cut` — the file is not read before its last byte is there.
-/

namespace Ultrav

open Json

/-! ## The record -/

/-- `Disk`, as it is stored -/
structure DiskMeta where
  name : String
  file : String
  format : String
  sizeBytes : Int64
  deriving DecidableEq, Repr

/-- `Metadata`, as it is stored -/
structure PointMeta where
  id : String
  vmID : String
  vmName : String
  type : String
  state : String
  createdAt : Time
  disks : List DiskMeta
  hasDomainXML : Bool
  parentID : String
  checkpoint : String
  deriving DecidableEq, Repr

/-- A disk of which nothing is given. -/
def DiskMeta.zero : DiskMeta := ⟨"", "", "", 0⟩

/-- Metadata of which nothing is given; the zero time is the start of year 1. -/
def PointMeta.zero : PointMeta :=
  ⟨"", "", "", "", "", -(Rfc3339.epoch * Rfc3339.dayLength), [], false, "", ""⟩

/-! ## Decoding -/

/-- The fields of `Disk`. -/
inductive DiskField where
  | name
  | file
  | format
  | sizeBytes
  deriving DecidableEq

/-- The fields of `Metadata`. -/
inductive MetaField where
  | id
  | vmID
  | vmName
  | type
  | state
  | createdAt
  | disks
  | hasDomainXML
  | parentID
  | checkpoint
  deriving DecidableEq

/-- Keys match whatever their case is; the Kelvin sign and the long s are letters of that kind. -/
def foldRune (c : Char) : Char :=
  if c = '\u212A' then 'k' else if c = '\u017F' then 's' else c.toLower

/-- The field of a key. -/
def fieldOf {α : Type} (fields : List (String × α)) (key : List Char) : Option α :=
  (fields.find? fun f => f.1.toList.map foldRune = (unquote key).toList.map foldRune).map Prod.snd

def diskFields : List (String × DiskField) :=
  [("name", .name), ("file", .file), ("format", .format), ("sizeBytes", .sizeBytes)]

def metaFields : List (String × MetaField) :=
  [("id", .id), ("vmId", .vmID), ("vmName", .vmName), ("type", .type), ("state", .state),
    ("createdAt", .createdAt), ("disks", .disks), ("hasDomainXml", .hasDomainXML),
    ("parentId", .parentID), ("checkpoint", .checkpoint)]

/-- A string; `null` leaves what was there. -/
def decodeString (old : String) : Value → Option String
  | .null => some old
  | .string raw => some (unquote raw)
  | _ => none

def decodeBool (old : Bool) : Value → Option Bool
  | .null => some old
  | .bool b => some b
  | _ => none

/-- An integer of 64 bits. -/
def decodeInt64 (old : Int64) : Value → Option Int64
  | .null => some old
  | .number raw =>
    (readInt raw).bind fun n => if -2 ^ 63 ≤ n ∧ n < 2 ^ 63 then some (.ofInt n) else none
  | _ => none

/-- An instant; escape sequences are not read in it. -/
def decodeTime (old : Time) : Value → Option Time
  | .null => some old
  | .string raw => Rfc3339.parse raw
  | _ => none

/-- One member of a disk; others are skipped. -/
def DiskMeta.set (d : DiskMeta) (member : List Char × Value) : Option DiskMeta :=
  match fieldOf diskFields member.1 with
  | some .name => (decodeString d.name member.2).map fun s => { d with name := s }
  | some .file => (decodeString d.file member.2).map fun s => { d with file := s }
  | some .format => (decodeString d.format member.2).map fun s => { d with format := s }
  | some .sizeBytes => (decodeInt64 d.sizeBytes member.2).map fun n => { d with sizeBytes := n }
  | none => some d

def DiskMeta.decode : Value → Option DiskMeta
  | .null => some zero
  | .object members => members.foldlM set zero
  | _ => none

def decodeDisks : Value → Option (List DiskMeta)
  | .null => some []
  | .array items => items.mapM DiskMeta.decode
  | _ => none

namespace PointMeta

/-- One member of the metadata; others are skipped. -/
def set (m : PointMeta) (member : List Char × Value) : Option PointMeta :=
  match fieldOf metaFields member.1 with
  | some .id => (decodeString m.id member.2).map fun s => { m with id := s }
  | some .vmID => (decodeString m.vmID member.2).map fun s => { m with vmID := s }
  | some .vmName => (decodeString m.vmName member.2).map fun s => { m with vmName := s }
  | some .type => (decodeString m.type member.2).map fun s => { m with type := s }
  | some .state => (decodeString m.state member.2).map fun s => { m with state := s }
  | some .createdAt => (decodeTime m.createdAt member.2).map fun t => { m with createdAt := t }
  | some .disks => (decodeDisks member.2).map fun ds => { m with disks := ds }
  | some .hasDomainXML =>
    (decodeBool m.hasDomainXML member.2).map fun b => { m with hasDomainXML := b }
  | some .parentID => (decodeString m.parentID member.2).map fun s => { m with parentID := s }
  | some .checkpoint =>
    (decodeString m.checkpoint member.2).map fun s => { m with checkpoint := s }
  | none => some m

/-- `json.Unmarshal` into fresh metadata. -/
def decode : Value → Option PointMeta
  | .null => some zero
  | .object members => members.foldlM set zero
  | _ => none

end PointMeta

/-! ## Encoding -/

/-- A string of the file. -/
def encodeString (s : String) : Value := .string (quote s)

/-- A member of which the key is written as it is. -/
def member (key : String) (v : Value) : List Char × Value := (key.toList, v)

def DiskMeta.encode (d : DiskMeta) : Value :=
  .object [member "name" (encodeString d.name), member "file" (encodeString d.file),
    member "format" (encodeString d.format),
    member "sizeBytes" (.number (intText d.sizeBytes.toInt))]

/-- The disks; without any the slice is nil. -/
def encodeDisks (ds : List DiskMeta) : Value :=
  if ds = [] then .null else .array (ds.map DiskMeta.encode)

/-- A member that is left out when it is empty. -/
def omitempty (key s : String) : List (List Char × Value) :=
  if s = "" then [] else [member key (encodeString s)]

namespace PointMeta

/-- `json.Marshal`; it fails for an instant that has no text. -/
def encode (m : PointMeta) : Option Value :=
  (Rfc3339.format m.createdAt).map fun created =>
    .object ([member "id" (encodeString m.id), member "vmId" (encodeString m.vmID),
      member "vmName" (encodeString m.vmName), member "type" (encodeString m.type),
      member "state" (encodeString m.state), member "createdAt" (.string created),
      member "disks" (encodeDisks m.disks), member "hasDomainXml" (.bool m.hasDomainXML)] ++
      omitempty "parentId" m.parentID ++ omitempty "checkpoint" m.checkpoint)

/-- What `save` writes. -/
def bytes (m : PointMeta) : Option (List UInt8) :=
  m.encode.map fun v => Utf8.encode (render 0 v)

end PointMeta

/-- What `pointFromDir` makes of the file. -/
def readMeta (bytes : List UInt8) : Option PointMeta :=
  (read (Utf8.decode bytes)).bind PointMeta.decode

/-! ## Round trip -/

@[simp] theorem decodeString_encodeString (old s : String) :
    decodeString old (encodeString s) = some s := by
  rw [encodeString, decodeString, unquote_quote]

theorem decodeInt64_intText (old n : Int64) :
    decodeInt64 old (.number (intText n.toInt)) = some n := by
  rw [decodeInt64, readInt_intText, Option.bind_some, if_pos ⟨n.le_toInt, n.toInt_lt⟩,
    Int64.ofInt_toInt]

/-- The keys of a disk are found again. -/
theorem fieldOf_diskFields : ∀ f ∈ diskFields, fieldOf diskFields f.1.toList = some f.2 := by decide

/-- The keys of the metadata are found again. -/
theorem fieldOf_metaFields : ∀ f ∈ metaFields, fieldOf metaFields f.1.toList = some f.2 := by decide

theorem DiskMeta.decode_encode (d : DiskMeta) : decode d.encode = some d := by
  have hname : fieldOf diskFields "name".toList = some .name :=
    fieldOf_diskFields ("name", .name) (by decide)
  have hfile : fieldOf diskFields "file".toList = some .file :=
    fieldOf_diskFields ("file", .file) (by decide)
  have hformat : fieldOf diskFields "format".toList = some .format :=
    fieldOf_diskFields ("format", .format) (by decide)
  have hsize : fieldOf diskFields "sizeBytes".toList = some .sizeBytes :=
    fieldOf_diskFields ("sizeBytes", .sizeBytes) (by decide)
  simp only [encode, decode, List.foldlM_cons, List.foldlM_nil, set, member, hname, hfile, hformat,
    hsize, decodeString_encodeString, decodeInt64_intText, Option.map_some, Option.bind_eq_bind,
    Option.bind_some]
  rfl

theorem decodeDisks_encodeDisks (ds : List DiskMeta) : decodeDisks (encodeDisks ds) = some ds := by
  have hall : ∀ ds : List DiskMeta, (ds.map DiskMeta.encode).mapM DiskMeta.decode = some ds := by
    intro ds
    induction ds with
    | nil => rfl
    | cons d ds ih =>
      rw [List.map_cons, List.mapM_cons, DiskMeta.decode_encode, ih]
      rfl
  rw [encodeDisks]
  split
  · rename_i h
    rw [h]
    rfl
  · exact hall ds

namespace PointMeta

theorem foldlM_omitempty (m : PointMeta) (key s : String) (f : PointMeta → String → PointMeta)
    (hset : m.set (member key (encodeString s)) = some (f m s)) (hempty : s = "" → f m s = m) :
    (omitempty key s).foldlM set m = some (f m s) := by
  rw [omitempty]
  split
  · rename_i h
    rw [hempty h]
    rfl
  · rw [List.foldlM_cons, hset]
    rfl

theorem decode_encode {m : PointMeta} {v : Value} (h : m.encode = some v) : decode v = some m := by
  obtain ⟨created, hcreated, rfl⟩ := Option.map_eq_some_iff.mp h
  have hkey : ∀ f : String × MetaField, f ∈ metaFields →
      fieldOf metaFields f.1.toList = some f.2 := fieldOf_metaFields
  have hid := hkey ("id", .id) (by decide)
  have hvmID := hkey ("vmId", .vmID) (by decide)
  have hvmName := hkey ("vmName", .vmName) (by decide)
  have htype := hkey ("type", .type) (by decide)
  have hstate := hkey ("state", .state) (by decide)
  have hcreatedAt := hkey ("createdAt", .createdAt) (by decide)
  have hdisks := hkey ("disks", .disks) (by decide)
  have hhas := hkey ("hasDomainXml", .hasDomainXML) (by decide)
  have hparent := hkey ("parentId", .parentID) (by decide)
  have hcheckpoint := hkey ("checkpoint", .checkpoint) (by decide)
  have htime : ∀ old, decodeTime old (.string created) = some m.createdAt := fun _ =>
    Rfc3339.parse_format hcreated
  have hbool : ∀ old, decodeBool old (.bool m.hasDomainXML) = some m.hasDomainXML := fun _ => rfl
  simp only [decode, List.foldlM_append, List.foldlM_cons, List.foldlM_nil, set, member, hid, hvmID,
    hvmName, htype, hstate, hcreatedAt, hdisks, hhas, decodeString_encodeString, htime, hbool,
    decodeDisks_encodeDisks, Option.map_some, Option.bind_eq_bind, Option.bind_some,
    Option.pure_def]
  rw [foldlM_omitempty _ "parentId" m.parentID (fun m s => { m with parentID := s })
      (by simp only [set, member, hparent, decodeString_encodeString, Option.map_some])
      (fun h => by rw [h]; rfl), Option.bind_some,
    foldlM_omitempty _ "checkpoint" m.checkpoint (fun m s => { m with checkpoint := s })
      (by simp only [set, member, hcheckpoint, decodeString_encodeString, Option.map_some])
      (fun h => by rw [h]; rfl)]

end PointMeta

/-! ## The file -/

theorem valid_encodeString (s : String) : (encodeString s).Valid := stringOk_quote s

theorem DiskMeta.valid_encode (d : DiskMeta) : d.encode.Valid :=
  ⟨rfl, valid_encodeString _, rfl, valid_encodeString _, rfl, valid_encodeString _, rfl,
    numberOk_intText _, trivial⟩

theorem valid_encodeDisks (ds : List DiskMeta) : (encodeDisks ds).Valid := by
  have hall : ∀ ds : List DiskMeta, validItems (ds.map DiskMeta.encode) := by
    intro ds
    induction ds with
    | nil => exact trivial
    | cons d ds ih => exact ⟨d.valid_encode, ih⟩
  rw [encodeDisks]
  split
  · exact trivial
  · exact hall ds

/-- A timestamp is written as it is, a sign of its clock as well. -/
theorem stringOk_stamp {cs : List Char} (h : ∀ c ∈ cs, Rfc3339.stampChar c = true ∨ c = '+') :
    stringOk cs = true := by
  refine stringOk_of_plain fun c hc => ?_
  have hstamp := h c hc
  simp only [Rfc3339.stampChar, Bool.or_eq_true, decide_eq_true_eq] at hstamp
  rcases hstamp with (((((hdigit | rfl) | rfl) | rfl) | rfl) | rfl) | rfl
  · simp only [Char.isDigit, Bool.and_eq_true, decide_eq_true_eq, ge_iff_le,
      UInt32.le_iff_toNat_le] at hdigit
    change 0x30 ≤ c.toNat ∧ c.toNat ≤ 0x39 at hdigit
    refine ⟨?_, ?_, by omega⟩
    · rintro rfl
      exact absurd hdigit (by decide)
    · rintro rfl
      exact absurd hdigit (by decide)
  · decide
  · decide
  · decide
  · decide
  · decide
  · decide

theorem stringOk_format {t : Time} {cs : List Char} (h : Rfc3339.format t = some cs) :
    stringOk cs = true :=
  stringOk_stamp fun c hc => .inl (Rfc3339.stampChar_format h c hc)

theorem stringOk_formatIn {minutes : ℤ} {t : Time} {cs : List Char}
    (h : Rfc3339.formatIn minutes t = some cs) : stringOk cs = true :=
  stringOk_stamp (Rfc3339.stampChar_formatIn h)

theorem validMembers_append {as bs : List (List Char × Value)} (ha : validMembers as)
    (hb : validMembers bs) : validMembers (as ++ bs) := by
  induction as with
  | nil => exact hb
  | cons a as ih => exact ⟨ha.1, ha.2.1, ih ha.2.2⟩

theorem valid_omitempty {key : String} (hkey : stringOk key.toList = true) (s : String) :
    validMembers (omitempty key s) := by
  rw [omitempty]
  split
  · exact trivial
  · exact ⟨hkey, valid_encodeString s, trivial⟩

namespace PointMeta

theorem valid_encode {m : PointMeta} {v : Value} (h : m.encode = some v) : v.Valid := by
  obtain ⟨created, hcreated, rfl⟩ := Option.map_eq_some_iff.mp h
  refine validMembers_append (validMembers_append ?_ (valid_omitempty rfl _))
    (valid_omitempty rfl _)
  exact ⟨rfl, valid_encodeString _, rfl, valid_encodeString _, rfl, valid_encodeString _, rfl,
    valid_encodeString _, rfl, valid_encodeString _, rfl, stringOk_format hcreated, rfl,
    valid_encodeDisks _, rfl, trivial, trivial⟩

/-- Metadata is an object. -/
theorem encode_object {m : PointMeta} {v : Value} (h : m.encode = some v) :
    ∃ members, v = .object members := by
  obtain ⟨created, -, rfl⟩ := Option.map_eq_some_iff.mp h
  exact ⟨_, rfl⟩

end PointMeta

/-- **Round trip**: the file is read as the metadata that was saved. -/
theorem readMeta_bytes {m : PointMeta} {bytes : List UInt8} (h : m.bytes = some bytes) :
    readMeta bytes = some m := by
  obtain ⟨v, hv, rfl⟩ := Option.map_eq_some_iff.mp h
  obtain ⟨members, rfl⟩ := PointMeta.encode_object hv
  rw [readMeta, Utf8.decode_encode,
    read_render (PointMeta.valid_encode hv) (fun _ h => (by cases h)), Option.bind_some,
    PointMeta.decode_encode hv]

/-- **A cut file** is not read at all. -/
theorem readMeta_cut {m : PointMeta} {bytes cut : List UInt8} (h : m.bytes = some bytes)
    (hcut : cut <+: bytes) (hne : cut ≠ bytes) : readMeta cut = none := by
  obtain ⟨v, hv, rfl⟩ := Option.map_eq_some_iff.mp h
  obtain ⟨members, rfl⟩ := PointMeta.encode_object hv
  have hread := read_render (PointMeta.valid_encode hv) (fun _ h => (by cases h)) 0
  obtain ⟨body, hbody⟩ := render_object 0 members
  obtain ⟨as, bs, tail, hsplit, rfl, hhigh, hnil⟩ := Utf8.cut_encode hcut
  have htail := Utf8.decode_high hhigh
  rw [readMeta, Utf8.decode_encode_append]
  -- `as` are the whole characters before the cut, `bs` those that are missing from it on
  suffices hnone : read (as ++ Utf8.decode tail) = none by rw [hnone]; rfl
  rcases List.eq_nil_or_concat bs with rfl | ⟨t, last, rfl⟩
  · rw [hnil rfl, List.append_nil, hsplit, List.append_nil] at hne
    exact absurd rfl hne
  cases as with
  -- the cut leaves no whole character, or it leaves the opening bracket
  | nil => exact read_high htail
  | cons c p =>
    rw [hsplit, List.concat_eq_append, List.cons_append] at hbody hread
    obtain ⟨rfl, hrest⟩ := List.cons.inj hbody
    rw [← List.append_assoc] at hrest
    obtain ⟨-, hlast⟩ := List.append_inj' hrest rfl
    obtain rfl := List.singleton_injective hlast
    have hsome := Option.isSome_iff_exists.mpr ⟨_, hread⟩
    refine read_cut rfl (by rfl) hsome fun c hc => ?_
    have hhigh := htail c hc
    refine ⟨?_, ?_⟩
    · rintro rfl
      exact absurd hhigh (by decide)
    · rintro rfl
      exact absurd hhigh (by decide)

end Ultrav
