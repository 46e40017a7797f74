import Ultrav.MetadataFile

/-!
# Creation of a backup point

A provider fills a fresh point through its handle and completes it; `metadata.json` is written in
place, byte by byte. The process can stop anywhere.

* `FileEntry` / `FileLibrary` — the library on disk; `list` and `get` read its files.
* `Creation` — the handle and its directory; `Creation.Step` — what the provider does.
* `Creation.Inv` — what holds after any number of steps (`inv_run`).
* `hidden_or_shown` — what the library shows wherever the process stops.
* `FileEntry.Of` — the files of a library of the model above, which shows the same.
-/

namespace Ultrav

/-! ## The library on disk -/

/-- An entry of the directory of a machine. -/
structure FileEntry where
  /-- name of the VM directory -/
  vmID : String
  /-- name of the entry -/
  id : String
  /-- its files, if it is a directory -/
  files : Option (String → Option (List UInt8))

namespace FileEntry

/-- `pointFromDir` -/
def pointFromDir (e : FileEntry) : Option PointMeta :=
  (e.files.bind fun files => files "metadata.json").bind readMeta

/-- The metadata an entry shows: only complete points are visible. -/
def completed (e : FileEntry) : Option PointMeta :=
  e.pointFromDir.filter fun m => m.state = "complete"

end FileEntry

/-- The entries of all VM directories, in directory order. -/
abbrev FileLibrary : Type := List FileEntry

namespace FileLibrary

variable (srt : SortDesc PointMeta PointMeta.createdAt)

/-- The completed points of a VM in directory order. -/
def completed (lib : FileLibrary) (vmID : String) : List PointMeta :=
  (lib.filter fun e => e.vmID = vmID && e.files.isSome && idPattern e.id).filterMap
    FileEntry.completed

/-- `List` -/
def list (lib : FileLibrary) (vmID : String) : Except StoreError (List PointMeta) :=
  if idSafe vmID then .ok (srt.sort (lib.completed vmID)) else .error .invalidID

/-- `Get` -/
def get (lib : FileLibrary) (id : String) : Except StoreError PointMeta :=
  if idPattern id then
    match (lib.find? fun e => e.id = id).bind FileEntry.completed with
    | some m => .ok m
    | none => .error .notFound
  else .error .invalidID

end FileLibrary

/-! ## The handle -/

/-- The text of a format. -/
def Format.text : Format → String
  | .qcow2 => "qcow2"
  | .raw => "raw"

namespace PointMeta

variable (m : PointMeta)

/-- The metadata of a new point. -/
def create (vmID id : String) (now : Time) : PointMeta :=
  { zero with id := id, vmID := vmID, vmName := vmID, type := "full", createdAt := now }

/-- The image file of a disk. -/
def diskFile (name : String) (format : Format) : String := name ++ "." ++ format.text

/-- `DiskPath` -/
def diskPath (name : String) (format : Format) : PointMeta :=
  { m with disks := m.disks ++ [⟨name, diskFile name format, format.text, 0⟩] }

/-- `SetDiskSize` -/
def setDiskSize (name : String) (size : Int64) : PointMeta :=
  { m with disks := m.disks.map fun d => if d.name = name then { d with sizeBytes := size } else d }

/-- `SetDomainXML` -/
def setDomainXML (has : Bool) : PointMeta := { m with hasDomainXML := has }

/-- `SetParent` -/
def setParent (id : String) : PointMeta := { m with parentID := id, type := "incremental" }

/-- `SetCheckpoint` -/
def setCheckpoint (name : String) : PointMeta := { m with checkpoint := name }

/-- The state `Complete` sets. -/
def complete : PointMeta := { m with state := "complete" }

end PointMeta

/-- A point being created. -/
structure Creation where
  /-- the metadata in memory -/
  pt : PointMeta
  /-- the files of its directory -/
  files : String → Option (List UInt8)
  /-- once `Complete` has been called, what it has not written yet -/
  saving : Option (List UInt8)
  /-- the disks that `DiskPath` has allocated -/
  allocated : List (String × Format)

namespace Creation

/-- A file is written: its content becomes this, or any part of it that was written. -/
def writeFile (s : Creation) (file : String) (content : List UInt8) : Creation :=
  { s with files := Function.update s.files file (some content) }

/-- `Create` -/
def create (vmID id : String) (now : Time) : Except StoreError Creation :=
  if idSafe vmID then .ok ⟨.create vmID id now, fun _ => none, none, []⟩ else .error .invalidID

/-- What a provider does with the handle of a point, and the bytes `Complete` writes. -/
inductive Step : Creation → Creation → Prop
  | diskPath {s : Creation} (name : String) (format : Format) : s.saving = none →
      Step s { s with
        pt := s.pt.diskPath name format, allocated := s.allocated ++ [(name, format)] }
  | setDiskSize {s : Creation} (name : String) (size : Int64) : s.saving = none →
      Step s { s with pt := s.pt.setDiskSize name size }
  | setParent {s : Creation} (id : String) : s.saving = none →
      Step s { s with pt := s.pt.setParent id }
  | setCheckpoint {s : Creation} (name : String) : s.saving = none →
      Step s { s with pt := s.pt.setCheckpoint name }
  | setDomainXML {s : Creation} (has : Bool) : s.saving = none →
      Step s { s with pt := s.pt.setDomainXML has }
  /-- an image is written, or a part of it -/
  | image {s : Creation} {d : DiskMeta} (content : List UInt8) : d ∈ s.pt.disks →
      Step s (s.writeFile d.file content)
  /-- `domain.xml` is written, or a part of it -/
  | domainXML {s : Creation} (content : List UInt8) : Step s (s.writeFile "domain.xml" content)
  /-- `Complete` opens the file, which empties it -/
  | complete {s : Creation} {bytes : List UInt8} : s.saving = none →
      s.pt.complete.bytes = some bytes →
      Step s { s.writeFile "metadata.json" [] with pt := s.pt.complete, saving := some bytes }
  /-- `Complete` fails before it opens the file -/
  | completeFails {s : Creation} : s.saving = none → s.pt.complete.bytes = none →
      Step s { s with pt := s.pt.complete }
  /-- one more byte of the file is written -/
  | write {s : Creation} {b : UInt8} {rest written : List UInt8} : s.saving = some (b :: rest) →
      s.files "metadata.json" = some written →
      Step s { s.writeFile "metadata.json" (written ++ [b]) with saving := some rest }

/-- Any number of steps. -/
abbrev Run : Creation → Creation → Prop := Relation.ReflTransGen Step

/-- The entry of the point. -/
def entry (s : Creation) (vmID id : String) : FileEntry := ⟨vmID, id, some s.files⟩

/-! ## What holds while a point is created -/

/-- No image is written over the metadata. -/
theorem diskFile_ne (name : String) (format : Format) :
    PointMeta.diskFile name format ≠ "metadata.json" := by
  intro h
  have hlast := congrArg (fun s : String => s.toList.getLast?) h
  cases format <;> simp [PointMeta.diskFile, Format.text, String.toList_append] at hlast

/-- The metadata has the disks that were allocated, and its file is there only once `Complete`
writes it: then it is a first part of the bytes of the metadata. -/
structure Inv (s : Creation) : Prop where
  disks : (s.pt.disks.map fun d => (d.name, d.file, d.format)) =
    s.allocated.map fun a => (a.1, PointMeta.diskFile a.1 a.2, a.2.text)
  unsaved : s.saving = none → s.files "metadata.json" = none
  saved : ∀ rest, s.saving = some rest → s.pt.state = "complete" ∧
    ∃ bytes written, s.pt.bytes = some bytes ∧ s.files "metadata.json" = some written ∧
      bytes = written ++ rest

variable {s s' : Creation}

theorem Inv.file_ne (h : s.Inv) {d : DiskMeta} (hd : d ∈ s.pt.disks) :
    d.file ≠ "metadata.json" := by
  have hmem := List.mem_map_of_mem (f := fun d : DiskMeta => (d.name, d.file, d.format)) hd
  rw [h.disks] at hmem
  obtain ⟨a, -, ha⟩ := List.mem_map.mp hmem
  have hfile : PointMeta.diskFile a.1 a.2 = d.file := congrArg (fun p => p.2.1) ha
  rw [← hfile]
  exact diskFile_ne a.1 a.2

theorem writeFile_self (s : Creation) (file : String) (content : List UInt8) :
    (s.writeFile file content).files file = some content := Function.update_self _ _ _

/-- Other files do not matter. -/
theorem Inv.writeFile (h : s.Inv) {file : String} (hfile : file ≠ "metadata.json")
    (content : List UInt8) : (s.writeFile file content).Inv := by
  have hsame : (s.writeFile file content).files "metadata.json" = s.files "metadata.json" :=
    Function.update_of_ne hfile.symm _ _
  exact ⟨h.disks, fun hs => hsame.trans (h.unsaved hs), fun rest hs => by
    rw [hsame]
    exact h.saved rest hs⟩

/-- Before `Complete`, only the disks of the metadata matter. -/
theorem Inv.unsaved_of (h : s.Inv) (hs : s.saving = none) {pt : PointMeta}
    {allocated : List (String × Format)}
    (hdisks : (pt.disks.map fun d => (d.name, d.file, d.format)) =
      allocated.map fun a => (a.1, PointMeta.diskFile a.1 a.2, a.2.text)) :
    Inv { s with pt := pt, allocated := allocated } :=
  ⟨hdisks, h.unsaved, fun rest hrest => by cases hs.symm.trans hrest⟩

theorem inv_create {vmID id : String} {now : Time} (h : create vmID id now = .ok s) : s.Inv := by
  rw [create] at h
  split at h <;> cases h
  exact ⟨rfl, fun _ => rfl, fun _ h => by cases h⟩

/-- **One step** keeps the invariant. -/
theorem inv_step (h : s.Inv) (hstep : Step s s') : s'.Inv := by
  cases hstep with
  | diskPath name format hs =>
    refine h.unsaved_of hs ?_
    rw [PointMeta.diskPath, List.map_append, List.map_append, h.disks]
    rfl
  | setDiskSize name size hs =>
    refine h.unsaved_of hs ?_
    rw [PointMeta.setDiskSize, List.map_map, ← h.disks]
    refine List.map_congr_left fun d _ => ?_
    rw [Function.comp_apply]
    split <;> rfl
  | setParent id hs => exact h.unsaved_of hs h.disks
  | setCheckpoint name hs => exact h.unsaved_of hs h.disks
  | setDomainXML has hs => exact h.unsaved_of hs h.disks
  | image content hd => exact h.writeFile (h.file_ne hd) content
  | domainXML content => exact h.writeFile (by decide) content
  -- `Complete` cuts the file to nothing before its first byte
  | @complete bytes hs hbytes =>
    refine ⟨h.disks, fun hs => (by cases hs), fun rest hrest => ⟨rfl, bytes, [], hbytes, ?_, ?_⟩⟩
    · exact s.writeFile_self "metadata.json" []
    · cases hrest
      rfl
  | completeFails hs _ => exact h.unsaved_of hs h.disks
  | @write b rest written hs hwritten =>
    obtain ⟨hstate, bytes, written', hbytes, hfile, hsplit⟩ := h.saved _ hs
    obtain rfl := Option.some.inj (hwritten.symm.trans hfile)
    refine ⟨h.disks, fun hs => (by cases hs), fun rest' hrest =>
      ⟨hstate, bytes, written ++ [b], hbytes, s.writeFile_self "metadata.json" _, ?_⟩⟩
    cases hrest
    rw [hsplit, List.append_assoc]
    rfl

/-- **Any number of steps** from a new point. -/
theorem inv_run {vmID id : String} {now : Time} {s₀ : Creation}
    (hcreate : create vmID id now = .ok s₀) (hrun : Run s₀ s) : s.Inv := by
  induction hrun with
  | refl => exact inv_create hcreate
  | tail _ hstep ih => exact inv_step ih hstep

/-- What is read from the directory: nothing, and once all bytes are written the metadata. -/
theorem Inv.pointFromDir (h : s.Inv) (vmID id : String) :
    (s.entry vmID id).pointFromDir = if s.saving = some [] then some s.pt else none := by
  have hread : (s.entry vmID id).pointFromDir = (s.files "metadata.json").bind readMeta := rfl
  rw [hread]
  cases hsaving : s.saving with
  | none =>
    rw [h.unsaved hsaving]
    rfl
  | some rest =>
    obtain ⟨-, bytes, written, hbytes, hfile, rfl⟩ := h.saved rest hsaving
    rw [hfile, Option.bind_some]
    by_cases hrest : rest = []
    · subst hrest
      rw [List.append_nil] at hbytes
      rw [readMeta_bytes hbytes, if_pos rfl]
    -- the bytes so far are a proper prefix, which is not read
    · have hcut : written ≠ written ++ rest := fun heq =>
        hrest (List.append_cancel_left (heq.symm.trans (List.append_nil written).symm))
      have hnot : ¬ some rest = some [] := fun heq => hrest (Option.some.inj heq)
      rw [readMeta_cut hbytes (List.prefix_append _ _) hcut, if_neg hnot]

theorem Inv.completed (h : s.Inv) (vmID id : String) :
    (s.entry vmID id).completed = if s.saving = some [] then some s.pt else none := by
  rw [FileEntry.completed, h.pointFromDir]
  split
  · rename_i hs
    rw [Option.filter_some, if_pos (decide_eq_true (h.saved [] hs).1)]
  · rfl

end Creation

/-! ## What the library shows -/

namespace FileLibrary

variable {srt : SortDesc PointMeta PointMeta.createdAt} {before after : FileLibrary}
  {e : FileEntry}

theorem completed_append (as bs : FileLibrary) (vmID : String) :
    completed (as ++ bs) vmID = completed as vmID ++ completed bs vmID := by
  rw [completed, List.filter_append, List.filterMap_append]
  rfl

/-- An entry that is of another machine or shows nothing is not listed. -/
theorem completed_insert_hidden {vmID : String}
    (h : e.vmID ≠ vmID ∨ idPattern e.id = false ∨ e.completed = none) :
    completed (before ++ e :: after) vmID = completed (before ++ after) vmID := by
  have hcons : completed (e :: after) vmID = completed after vmID := by
    rw [completed, List.filter_cons]
    split
    · rename_i hp
      simp only [Bool.and_eq_true, decide_eq_true_eq] at hp
      obtain ⟨⟨hvm, -⟩, hid⟩ := hp
      rcases h with h | h | h
      · exact absurd hvm h
      · cases h.symm.trans hid
      · rw [List.filterMap_cons_none h]
        rfl
    · rfl
  rw [completed_append, completed_append, hcons]

/-- A complete point is listed beside the others. -/
theorem completed_insert_shown {m : PointMeta} (hfiles : e.files.isSome = true)
    (hid : idPattern e.id = true) (hm : e.completed = some m) :
    (completed (before ++ e :: after) e.vmID).Perm (m :: completed (before ++ after) e.vmID) := by
  have hcons : completed (e :: after) e.vmID = m :: completed after e.vmID := by
    rw [completed, List.filter_cons_of_pos (by simp [hfiles, hid]), List.filterMap_cons_some hm]
    rfl
  rw [completed_append, completed_append, hcons]
  exact List.perm_middle

/-- Other ids are not affected. -/
theorem get_insert_ne {id : String} (h : e.id ≠ id) :
    get (before ++ e :: after) id = get (before ++ after) id := by
  rw [get, get, List.find?_append, List.find?_append,
    List.find?_cons_of_neg (by simpa using h)]

/-- An entry of a fresh name is found by it. -/
theorem get_insert_self (hfresh : ∀ f ∈ before ++ after, f.id ≠ e.id) :
    get (before ++ e :: after) e.id =
      if idPattern e.id then
        match e.completed with
        | some m => .ok m
        | none => .error .notFound
      else .error .invalidID := by
  have hbefore : before.find? (fun f => f.id = e.id) = none :=
    List.find?_eq_none.mpr fun f hf => by
      simpa using hfresh f (List.mem_append_left _ hf)
  rw [get, List.find?_append, hbefore, Option.none_or,
    List.find?_cons_of_pos (by simp), Option.bind_some]

/-- A fresh name is not found. -/
theorem get_fresh {id : String} {lib : FileLibrary} (hfresh : ∀ f ∈ lib, f.id ≠ id) :
    lib.get id = if idPattern id then .error .notFound else .error .invalidID := by
  have hnone : lib.find? (fun f => f.id = id) = none :=
    List.find?_eq_none.mpr fun f hf => by simpa using hfresh f hf
  rw [get, hnone]
  rfl

end FileLibrary

/-- The library shows what it would show without the point, which it does not show. -/
structure Hidden (srt : SortDesc PointMeta PointMeta.createdAt) (lib others : FileLibrary)
    (id : String) : Prop where
  list : ∀ vmID, lib.list srt vmID = others.list srt vmID
  get : ∀ i, lib.get i = others.get i
  get_none : ∀ m, lib.get id ≠ .ok m

/-- The library shows the metadata of the point beside what it would show without it. -/
structure Shown (srt : SortDesc PointMeta PointMeta.createdAt) (lib others : FileLibrary)
    (vmID id : String) (m : PointMeta) : Prop where
  get : lib.get id = .ok m
  get_others : ∀ i, i ≠ id → lib.get i = others.get i
  list : ∃ ms ms₀, lib.list srt vmID = .ok ms ∧ others.list srt vmID = .ok ms₀ ∧
    ms.Perm (m :: ms₀)
  list_others : ∀ vmID', vmID' ≠ vmID → lib.list srt vmID' = others.list srt vmID'

namespace Creation

variable {srt : SortDesc PointMeta PointMeta.createdAt} {before after : FileLibrary}
  {vmID id : String} {now : Time} {s₀ s : Creation}

theorem Inv.hidden (h : s.Inv) (hfresh : ∀ e ∈ before ++ after, e.id ≠ id)
    (hs : idPattern id = false ∨ s.saving ≠ some []) :
    Hidden srt (before ++ s.entry vmID id :: after) (before ++ after) id := by
  have hnone : idPattern id = false ∨ (s.entry vmID id).completed = none :=
    hs.imp_right fun hs => by rw [h.completed, if_neg hs]
  have hself : (before ++ s.entry vmID id :: after : FileLibrary).get id =
      if idPattern id then .error .notFound else .error .invalidID := by
    refine (FileLibrary.get_insert_self (e := s.entry vmID id) hfresh).trans ?_
    rcases hnone with hid | hc
    · have hentry : idPattern (s.entry vmID id).id = false := hid
      rw [hentry, hid]
      rfl
    · rw [hc]
      rfl
  refine ⟨fun vm => ?_, fun i => ?_, fun m hm => ?_⟩
  · rw [FileLibrary.list, FileLibrary.list, FileLibrary.completed_insert_hidden (.inr hnone)]
  · by_cases hi : id = i
    · subst hi
      rw [hself, FileLibrary.get_fresh hfresh]
    · exact FileLibrary.get_insert_ne hi
  · rw [hself] at hm
    split at hm <;> cases hm

theorem Inv.shown (h : s.Inv) (hfresh : ∀ e ∈ before ++ after, e.id ≠ id)
    (hsafe : idSafe vmID = true) (hid : idPattern id = true) (hs : s.saving = some []) :
    Shown srt (before ++ s.entry vmID id :: after) (before ++ after) vmID id s.pt := by
  have hc : (s.entry vmID id).completed = some s.pt := by rw [h.completed, if_pos hs]
  refine ⟨?_, fun i hi => FileLibrary.get_insert_ne hi.symm,
    ⟨_, _, if_pos hsafe, if_pos hsafe, ?_⟩, fun vm hvm => ?_⟩
  · refine (FileLibrary.get_insert_self (e := s.entry vmID id) hfresh).trans ?_
    rw [hc]
    exact if_pos hid
  · have hperm : (FileLibrary.completed (before ++ s.entry vmID id :: after) vmID).Perm
        (s.pt :: FileLibrary.completed (before ++ after) vmID) :=
      FileLibrary.completed_insert_shown rfl hid hc
    exact (srt.perm _).trans (hperm.trans ((srt.perm _).symm.cons s.pt))
  · rw [FileLibrary.list, FileLibrary.list,
      FileLibrary.completed_insert_hidden (.inl hvm.symm)]

/-- The bytes that are left can be written. -/
theorem run_write {rest written : List UInt8} (hs : s.saving = some rest)
    (hfile : s.files "metadata.json" = some written) :
    ∃ s', Run s s' ∧ s'.saving = some [] ∧ s'.pt = s.pt := by
  induction rest generalizing s written with
  | nil => exact ⟨s, .refl, hs, rfl⟩
  | cons b rest ih =>
    obtain ⟨s', hrun, hsaving, hpt⟩ := ih (s := { s.writeFile "metadata.json" (written ++ [b]) with
      saving := some rest }) rfl (s.writeFile_self "metadata.json" _)
    exact ⟨s', .head (.write hs hfile) hrun, hsaving, hpt⟩

end Creation

/-! ## The library without its files -/

/-- The text of a type. -/
def PointType.text : PointType → String
  | .full => "full"
  | .incremental => "incremental"

/-- The text of a state. -/
def PointState.text : PointState → String
  | .writing => ""
  | .complete => "complete"

/-- A disk, as it is written. -/
def DiskEntry.written (d : DiskEntry) : DiskMeta :=
  ⟨d.name, d.file, d.format.text, .ofInt d.sizeBytes⟩

namespace Metadata

/-- Metadata, as it is written. -/
def written (m : Metadata) : PointMeta :=
  ⟨m.id, m.vmID, m.vmName, m.type.text, m.state.text, m.createdAt, m.disks.map DiskEntry.written,
    m.hasDomainXML, m.parentID, m.checkpoint⟩

variable (m : Metadata)

theorem written_setParent (id : String) :
    (m.setParent id).written = m.written.setParent id := rfl

theorem written_setCheckpoint (name : String) :
    (m.setCheckpoint name).written = m.written.setCheckpoint name := rfl

theorem written_setDomainXML (has : Bool) :
    (m.setDomainXML has).written = m.written.setDomainXML has := rfl

theorem written_diskPath (name : String) (format : Format) :
    (m.diskPath name format).written = m.written.diskPath name format := by
  have hfile : diskFile name format = PointMeta.diskFile name format := by
    cases format with
    | qcow2 => exact (String.append_assoc : name ++ "." ++ "qcow2" = _).symm
    | raw => exact (String.append_assoc : name ++ "." ++ "raw" = _).symm
  simp only [written, diskPath, PointMeta.diskPath, List.map_append, hfile]
  rfl

theorem written_setDiskSize (name : String) (size : Int64) :
    (m.setDiskSize name size.toInt).written = m.written.setDiskSize name size := by
  have hdisk : ∀ d : DiskEntry,
      (if d.name = name then { d with sizeBytes := size.toInt } else d : DiskEntry).written =
        if d.written.name = name then { d.written with sizeBytes := size } else d.written := by
    intro d
    by_cases hd : d.name = name
    · rw [if_pos hd]
      refine Eq.trans ?_ (if_pos hd).symm
      simp only [DiskEntry.written, Int64.ofInt_toInt]
    · rw [if_neg hd]
      exact (if_neg hd).symm
  simp only [written, setDiskSize, PointMeta.setDiskSize, List.map_map]
  congr 1
  exact List.map_congr_left fun d _ => hdisk d

theorem written_complete : ({ m with state := .complete } : Metadata).written =
    m.written.complete := rfl

end Metadata

namespace FileEntry

/-- The entry of a directory: its file is the metadata as it is written. -/
structure Of (e : FileEntry) (d : PointDir) : Prop where
  vmID : e.vmID = d.vmID
  id : e.id = d.id
  isDir : e.files.isSome = true
  metadata : e.pointFromDir = d.metadata.map Metadata.written

theorem Of.completed {e : FileEntry} {d : PointDir} (h : e.Of d) :
    e.completed = d.completed.map Metadata.written := by
  rw [FileEntry.completed, PointDir.completed, h.metadata]
  cases d.metadata with
  | none => rfl
  | some m =>
    obtain ⟨id, vmID, vmName, type, state, createdAt, disks, has, parent, checkpoint⟩ := m
    cases state with
    | writing => rfl
    | complete => rfl

end FileEntry

variable {files : FileLibrary} {lib : Library}

/-- **The library on disk** shows the points of the library, as they are written. -/
theorem FileLibrary.completed_of (h : List.Forall₂ FileEntry.Of files lib) (vmID : String) :
    files.completed vmID = (lib.completed vmID).map Metadata.written := by
  induction h with
  | nil => rfl
  | @cons e d files lib hed _ ih =>
    have hp : (e.vmID = vmID && e.files.isSome && idPattern e.id) =
        (d.vmID = vmID && idPattern d.id) := by
      rw [hed.vmID, hed.id, hed.isDir, Bool.and_true]
    rw [FileLibrary.completed, Library.completed] at ih ⊢
    rw [List.filter_cons, List.filter_cons, hp]
    split
    · rw [List.filterMap_cons, List.filterMap_cons, hed.completed, ih]
      cases d.completed with
      | none => rfl
      | some m => rfl
    · exact ih

theorem FileLibrary.get_of (h : List.Forall₂ FileEntry.Of files lib) (id : String) :
    files.get id = (lib.get id).map Metadata.written := by
  have hfind : (files.find? fun e => e.id = id).bind FileEntry.completed =
      ((lib.find? fun d => d.id = id).bind PointDir.completed).map Metadata.written := by
    induction h with
    | nil => rfl
    | @cons e d files lib hed _ ih =>
      rw [List.find?_cons, List.find?_cons, hed.id]
      split
      · exact hed.completed
      · exact ih
  rw [FileLibrary.get, Library.get, Library.pointDir, hfind]
  split
  · cases lib.find? fun d => d.id = id with
    | none => rfl
    | some d =>
      simp only [Option.bind_some]
      cases d.completed with
      | none => rfl
      | some m => rfl
  · rfl

/-- A point whose file was written is what `save` makes of its directory. -/
theorem Creation.Inv.of_save {s : Creation} (h : s.Inv) {d : PointDir} {m : Metadata}
    (hm : m.vmID = d.vmID ∧ m.id = d.id) (hs : s.saving = some []) (hpt : s.pt = m.written) :
    (s.entry d.vmID d.id).Of (d.save m hm) :=
  ⟨rfl, rfl, rfl, by rw [h.pointFromDir, if_pos hs, hpt]; rfl⟩

end Ultrav
