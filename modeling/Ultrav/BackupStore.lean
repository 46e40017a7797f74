import Ultrav.Domain
import Ultrav.Slices

/-!
# The backup library

Package `backup`: the on-disk library of backup points, `<dir>/<vm>/<id>/`. A
`Library` is the list of point directories; the images in them are `Files`. A
point is visible only once its `metadata.json` says `complete`, and that file is
written last.

`list` walks one VM's directory, `get`, `pointDir` and `delete` resolve an id over
all VM directories, as the API addresses points by id alone.
-/

namespace Ultrav

/-- Instants, in nanoseconds of a common clock. -/
abbrev Time : Type := ℤ

/-! ## Point metadata -/

/-- The backup kind. -/
inductive PointType where
  /-- `TypeFull` -/
  | full
  /-- `TypeIncremental` -/
  | incremental
  deriving DecidableEq, Repr

/-- The lifecycle state of a point; the empty string of a point being written is
`writing`. -/
inductive PointState where
  /-- not yet set -/
  | writing
  /-- `StateComplete` -/
  | complete
  deriving DecidableEq, Repr

/-- One disk image inside a backup point. -/
structure DiskEntry where
  /-- disk target inside the domain -/
  name : String
  /-- image file name inside the point directory -/
  file : String
  /-- recorded image format -/
  format : Format
  /-- size on the backup storage -/
  sizeBytes : ℤ
  deriving DecidableEq, Repr

/-- The persisted descriptor of a backup point (`metadata.json`). -/
structure Metadata where
  id : String
  vmID : String
  vmName : String
  type : PointType
  state : PointState
  createdAt : Time
  disks : List DiskEntry
  hasDomainXML : Bool
  /-- the point this incremental continues from, empty for full points -/
  parentID : String
  /-- the libvirt checkpoint created with this point, empty when none -/
  checkpoint : String
  deriving DecidableEq, Repr

namespace Metadata

/-- `SetParent`: also marks the point as incremental. -/
def setParent (m : Metadata) (id : String) : Metadata :=
  { m with parentID := id, type := .incremental }

/-- `SetCheckpoint` -/
def setCheckpoint (m : Metadata) (name : String) : Metadata := { m with checkpoint := name }

/-- `SetDomainXML` -/
def setDomainXML (m : Metadata) (has : Bool) : Metadata := { m with hasDomainXML := has }

/-- The file name `DiskPath` allocates for a disk. -/
def diskFile (name : String) : Format → String
  | .qcow2 => name ++ ".qcow2"
  | .raw => name ++ ".raw"

/-- `DiskPath`: allocate the image of one more disk. -/
def diskPath (m : Metadata) (name : String) (format : Format) : Metadata :=
  { m with disks := m.disks ++ [⟨name, diskFile name format, format, 0⟩] }

/-- `SetDiskSize` -/
def setDiskSize (m : Metadata) (name : String) (size : ℤ) : Metadata :=
  { m with disks := m.disks.map fun d => if d.name = name then { d with sizeBytes := size } else d }

/-- The parent key of a point, as the chain loops test it. -/
def parent (m : Metadata) : Option String := if m.parentID = "" then none else some m.parentID

theorem parent_eq_none {m : Metadata} : m.parent = none ↔ m.parentID = "" := by
  simp [parent]

theorem parent_eq_some {m : Metadata} {k : String} :
    m.parent = some k ↔ m.parentID = k ∧ k ≠ "" := by
  rw [parent]
  split
  · rename_i h
    constructor
    · intro hk
      cases hk
    · rintro ⟨rfl, hk⟩
      exact absurd h hk
  · rename_i h
    constructor
    · intro hk
      obtain rfl := Option.some.inj hk
      exact ⟨rfl, h⟩
    · rintro ⟨rfl, -⟩
      rfl

end Metadata

/-! ## Identifiers -/

/-- The characters `[a-zA-Z0-9._-]`. -/
def idChar (c : Char) : Bool :=
  ('a' ≤ c && c ≤ 'z') || ('A' ≤ c && c ≤ 'Z') || ('0' ≤ c && c ≤ '9') ||
    c = '.' || c = '_' || c = '-'

/-- `IDPattern`: `^bk-[a-zA-Z0-9._-]{1,80}$`. -/
def idPattern (id : String) : Bool :=
  match id.toList with
  | 'b' :: 'k' :: '-' :: rest => 1 ≤ rest.length && rest.length ≤ 80 && rest.all idChar
  | _ => false

theorem idPattern_empty : idPattern "" = false := by decide

/-- `filepath.Base` -/
def filepathBase (name : String) : String :=
  if name = "" then "."
  else
    match name.toList.reverse.dropWhile (· = '/') with
    | [] => "/"
    | cs => String.ofList (cs.takeWhile (· ≠ '/')).reverse

/-- Names that cannot escape the library directory. -/
def idSafe (name : String) : Bool :=
  name = filepathBase name && name != "." && name != ".." && name != ""

/-! ## The store -/

/-- Errors of the store. -/
inductive StoreError where
  /-- `ErrNotFound` -/
  | notFound
  /-- `ErrInvalidID` -/
  | invalidID
  deriving DecidableEq, Repr

/-- The directory of one backup point. Only the store writes metadata, and into the
directory the metadata names. -/
structure PointDir where
  /-- name of the VM directory -/
  vmID : String
  /-- name of the directory itself -/
  id : String
  /-- `metadata.json`, when it exists and decodes -/
  metadata : Option Metadata
  /-- `domain.xml`, when it was written -/
  domainXML : Option Definition
  /-- the metadata is that of this directory -/
  keyed : ∀ m, metadata = some m → m.vmID = vmID ∧ m.id = id

/-- The metadata a directory shows: only complete points are visible. -/
def PointDir.completed (d : PointDir) : Option Metadata :=
  d.metadata.filter fun m => m.state = .complete

theorem PointDir.completed_eq_some {d : PointDir} {m : Metadata} :
    d.completed = some m ↔ d.metadata = some m ∧ m.state = .complete := by
  simp [completed, Option.filter_eq_some_iff]

/-- A visible point is recorded under the names of its directory. -/
theorem PointDir.completed_keyed {d : PointDir} {m : Metadata} (h : d.completed = some m) :
    m.vmID = d.vmID ∧ m.id = d.id :=
  d.keyed m (completed_eq_some.mp h).1

/-- A fresh directory, nothing in it. -/
def PointDir.empty (vmID id : String) : PointDir := ⟨vmID, id, none, none, by simp⟩

/-- `save` -/
def PointDir.save (d : PointDir) (m : Metadata) (h : m.vmID = d.vmID ∧ m.id = d.id) :
    PointDir :=
  { d with
    metadata := some m
    keyed := fun m' hm' => by cases hm'; exact h }

/-- What `RemoveAll` leaves of a directory it could not remove entirely: nothing new,
and no metadata or domain XML that was not there. -/
def PointDir.RemnantOf (d' d : PointDir) : Prop :=
  d'.vmID = d.vmID ∧ d'.id = d.id ∧ (d'.metadata = d.metadata ∨ d'.metadata = none) ∧
    (d'.domainXML = d.domainXML ∨ d'.domainXML = none)

/-- The backup library. -/
abbrev Library : Type := List PointDir

namespace Library

variable (srt : SortDesc Metadata Metadata.createdAt)

/-- The completed points of a VM in directory order. -/
def completed (lib : Library) (vmID : String) : List Metadata :=
  (lib.filter fun d => d.vmID = vmID && idPattern d.id).filterMap PointDir.completed

/-- `List`: the completed points of a VM, newest first. -/
def list (lib : Library) (vmID : String) : Except StoreError (List Metadata) :=
  if idSafe vmID then .ok (srt.sort (lib.completed vmID)) else .error .invalidID

/-- `pointDir`: the first directory of that name below any VM. -/
def pointDir (lib : Library) (id : String) : Except StoreError PointDir :=
  if idPattern id then
    match lib.find? fun d => d.id = id with
    | some d => .ok d
    | none => .error .notFound
  else .error .invalidID

/-- `Get` -/
def get (lib : Library) (id : String) : Except StoreError Metadata :=
  match lib.pointDir id with
  | .error e => .error e
  | .ok d =>
    match d.completed with
    | some m => .ok m
    | none => .error .notFound

/-- `PointDir`: the directory must hold a readable `metadata.json`. -/
def readableDir (lib : Library) (id : String) : Except StoreError PointDir :=
  match lib.pointDir id with
  | .error e => .error e
  | .ok d => if d.metadata.isSome then .ok d else .error .notFound

/-- Remove one point directory. -/
def removeDir (lib : Library) (vmID id : String) : Library :=
  lib.filter fun d => !(d.vmID = vmID && d.id = id)

/-- `Delete` -/
def delete (lib : Library) (id : String) : Except StoreError Library :=
  match lib.readableDir id with
  | .error e => .error e
  | .ok d => .ok (lib.removeDir d.vmID d.id)

/-- `MkdirAll` of a point directory: an existing directory is kept as it is. -/
def mkdir (lib : Library) (vmID id : String) : Library :=
  if lib.any fun d => d.vmID = vmID && d.id = id then lib
  else lib ++ [.empty vmID id]

/-- Write `domain.xml` into a point directory. -/
def writeDomainXML (lib : Library) (vmID id : String) (D : Definition) : Library :=
  lib.map fun d => if d.vmID = vmID ∧ d.id = id then { d with domainXML := some D } else d

/-- `Complete`: write `metadata.json` with state `complete`. -/
def complete (lib : Library) (m : Metadata) : Library :=
  lib.map fun d =>
    if h : m.vmID = d.vmID ∧ m.id = d.id then d.save { m with state := .complete } h else d

variable {srt} {lib : Library}

theorem mem_completed {vmID : String} {m : Metadata} :
    m ∈ lib.completed vmID ↔
      ∃ d ∈ lib, d.vmID = vmID ∧ idPattern d.id = true ∧ d.completed = some m := by
  simp only [completed, List.mem_filterMap, List.mem_filter, Bool.and_eq_true,
    decide_eq_true_eq]
  constructor
  · rintro ⟨d, ⟨hd, hv, hi⟩, hm⟩
    exact ⟨d, hd, hv, hi, hm⟩
  · rintro ⟨d, hd, hv, hi, hm⟩
    exact ⟨d, ⟨hd, hv, hi⟩, hm⟩

/-- Inversion for `list`. -/
theorem list_eq_ok {vmID : String} {ms : List Metadata} (h : lib.list srt vmID = .ok ms) :
    idSafe vmID = true ∧ ms = srt.sort (lib.completed vmID) := by
  rw [list] at h
  split at h
  · rename_i hs
    cases h
    exact ⟨hs, rfl⟩
  · cases h

/-- Inversion for `pointDir`. -/
theorem pointDir_eq_ok {id : String} {d : PointDir} (h : lib.pointDir id = .ok d) :
    idPattern id = true ∧ (lib.find? fun d => d.id = id) = some d := by
  rw [pointDir] at h
  split at h
  · rename_i hi
    split at h
    · rename_i hd
      cases h
      exact ⟨hi, hd⟩
    · cases h
  · cases h

/-- A resolved directory is one of the library. -/
theorem mem_of_pointDir {id : String} {d : PointDir} (h : lib.pointDir id = .ok d) :
    d ∈ lib ∧ d.id = id := by
  obtain ⟨-, hf⟩ := pointDir_eq_ok h
  exact ⟨List.mem_of_find?_eq_some hf, by simpa using List.find?_some hf⟩

/-- Inversion for `readableDir`. -/
theorem readableDir_eq_ok {id : String} {d : PointDir} (h : lib.readableDir id = .ok d) :
    lib.pointDir id = .ok d := by
  rw [readableDir] at h
  split at h
  · cases h
  · rename_i d' hd
    split at h
    · cases h
      exact hd
    · cases h

/-- Inversion for `get`. -/
theorem get_eq_ok {id : String} {m : Metadata} (h : lib.get id = .ok m) :
    ∃ d, lib.pointDir id = .ok d ∧ d.completed = some m := by
  rw [get] at h
  split at h
  · cases h
  · rename_i d hd
    split at h
    · rename_i m' hm
      cases h
      exact ⟨d, hd, hm⟩
    · cases h

/-- With distinct directory names, `get` finds a completed point by its directory. -/
theorem get_of_mem (hnd : (lib.map PointDir.id).Nodup) {d : PointDir} {m : Metadata}
    (hd : d ∈ lib) (hi : idPattern d.id = true) (hm : d.completed = some m) :
    lib.get d.id = .ok m := by
  have hfind : (lib.find? fun e => e.id = d.id) = some d := by
    clear hi hm
    induction lib with
    | nil => cases hd
    | cons e lib ih =>
      rw [List.map_cons, List.nodup_cons] at hnd
      rcases List.mem_cons.mp hd with rfl | hd
      · exact List.find?_cons_of_pos (by simp)
      · have hne : e.id ≠ d.id := fun h =>
          hnd.1 (h ▸ List.mem_map_of_mem (f := PointDir.id) hd)
        rw [List.find?_cons_of_neg (by simpa using hne)]
        exact ih hnd.2 hd
  simp [get, pointDir, hi, hfind, hm]

/-- `get` shows a directory of the library. -/
theorem mem_of_get {id : String} {m : Metadata} (h : lib.get id = .ok m) :
    ∃ d ∈ lib, d.id = id ∧ idPattern id = true ∧ d.completed = some m := by
  obtain ⟨d, hd, hm⟩ := get_eq_ok h
  obtain ⟨hi, hf⟩ := pointDir_eq_ok hd
  exact ⟨d, List.mem_of_find?_eq_some hf, by simpa using List.find?_some hf, hi, hm⟩

/-- `get` shows metadata under its own id. -/
theorem get_keyed {id : String} {m : Metadata} (h : lib.get id = .ok m) : m.id = id := by
  obtain ⟨d, -, rfl, -, hm⟩ := mem_of_get h
  exact (PointDir.completed_keyed hm).2

/-- Inversion for `delete`. -/
theorem delete_eq_ok {id : String} {lib' : Library} (h : lib.delete id = .ok lib') :
    ∃ d, lib.pointDir id = .ok d ∧ lib' = lib.removeDir d.vmID d.id := by
  rw [delete] at h
  split at h
  · cases h
  · rename_i d hd
    cases h
    exact ⟨d, readableDir_eq_ok hd, rfl⟩

theorem mem_removeDir {vmID id : String} {d : PointDir} :
    d ∈ lib.removeDir vmID id ↔ d ∈ lib ∧ ¬ (d.vmID = vmID ∧ d.id = id) := by
  simp [removeDir, imp_iff_not_or]

/-- A further directory is seen under its own name only. -/
theorem get_append_ne {d : PointDir} {id : String} (hd : d.id ≠ id) :
    Library.get (lib ++ [d]) id = lib.get id := by
  have hfind : ((lib ++ [d]).find? fun e => e.id = id) = lib.find? fun e => e.id = id := by
    rw [List.find?_append, List.find?_cons_of_neg (by simpa using hd), List.find?_nil,
      Option.or_none]
  simp only [get, pointDir, hfind]

/-- A completed point in a directory of a new name is visible. -/
theorem get_append_self {d : PointDir} {m : Metadata} (hf : ∀ e ∈ lib, e.id ≠ d.id)
    (hi : idPattern d.id = true) (hm : d.completed = some m) :
    Library.get (lib ++ [d]) d.id = .ok m := by
  have hfind : ((lib ++ [d]).find? fun e => e.id = d.id) = some d := by
    rw [List.find?_append, List.find?_eq_none.mpr (by simpa using hf), Option.none_or]
    exact List.find?_cons_of_pos (by simp)
  simp [get, pointDir, hi, hfind, hm]

/-! ### A directory of a fresh name

While a point is being written its directory is the only one of that name. -/

section Fresh

variable {d : PointDir}

theorem mkdir_fresh {vmID id : String} (hf : ∀ e ∈ lib, e.id ≠ id) :
    lib.mkdir vmID id = lib ++ [.empty vmID id] := by
  rw [mkdir, if_neg]
  intro h
  obtain ⟨e, he, hp⟩ := List.any_eq_true.mp h
  exact hf e he (by simpa using (And.right (by simpa using hp) : e.id = id))

theorem removeDir_fresh (hf : ∀ e ∈ lib, e.id ≠ d.id) :
    (lib ++ [d]).removeDir d.vmID d.id = lib := by
  rw [removeDir, List.filter_append, List.filter_eq_self.mpr]
  · simp
  · intro e he
    simp [hf e he]

theorem writeDomainXML_fresh (hf : ∀ e ∈ lib, e.id ≠ d.id) (D : Definition) :
    (lib ++ [d]).writeDomainXML d.vmID d.id D = lib ++ [{ d with domainXML := some D }] := by
  rw [writeDomainXML, List.map_append, List.map_congr_left (g := id)]
  · simp
  · intro e he
    exact if_neg fun h => hf e he h.2

theorem complete_fresh {m : Metadata} (hf : ∀ e ∈ lib, e.id ≠ d.id)
    (hm : m.vmID = d.vmID ∧ m.id = d.id) :
    (lib ++ [d]).complete m = lib ++ [d.save { m with state := .complete } hm] := by
  rw [complete, List.map_append, List.map_congr_left (g := id)]
  · simp [hm]
  · intro e he
    exact dif_neg fun h => hf e he (h.2.symm.trans hm.2)

end Fresh

end Library

end Ultrav
