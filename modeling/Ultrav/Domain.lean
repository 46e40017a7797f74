import Mathlib.Logic.Function.Basic
import Ultrav.DirtyLog

/-!
# Disk images and domains

What the libvirt provider works on, outside the backup library:

* `Image` — a disk image file: container format, backing file, allocated clusters.
  `convert`, `convertInto` and `detach` are the three `qemu-img` runs of a restore.
* `Path` / `Files` — the files a backup or a restore touches.
* `Definition` — the part of the domain XML that backups read: the disks.
* `Domain` — definition, power state, and the checkpoints libvirt keeps.

A domain's dirty bitmaps are one `DirtyLog`: the marked cells are pairs of an image
file and a block number.
-/

namespace Ultrav

/-- The image formats a disk or a backup can be declared with. -/
inductive Format where
  /-- `FormatQcow2` -/
  | qcow2
  /-- `FormatRaw` -/
  | raw
  deriving DecidableEq, Repr

/-! ## Images -/

/-- A disk image file. -/
structure Image where
  /-- container format of the file -/
  format : Format
  /-- backing file recorded in the header, if any -/
  backing : Option String
  /-- allocated clusters and their contents -/
  clusters : ℕ → Option ℕ

namespace Image

/-- What a guest reads at a block of a detached image: unallocated reads as zero. -/
def read (img : Image) (b : ℕ) : ℕ := (img.clusters b).getD 0

/-- `qemu-img rebase -u -b ""`: only the backing pointer is rewritten. -/
def detach (img : Image) : Image := { img with backing := none }

/-- `qemu-img convert -O format src`: a new image with the contents of `src`. The
backing file of a source belongs to qemu, so a source that still has one cannot be
opened. -/
def convert (format : Format) (src : Image) : Option Image :=
  match src.backing with
  | some _ => none
  | none => some ⟨format, none, fun b => some (src.read b)⟩

/-- `qemu-img convert -n -O format src dst`: the existing image `dst` is opened as
`format`, the allocated clusters of `src` are written into it, all others stay. -/
def convertInto (format : Format) (src dst : Image) : Option Image :=
  match src.backing with
  | some _ => none
  | none =>
    if dst.format = format then
      some { dst with clusters := fun b => (src.clusters b).or (dst.clusters b) }
    else none

@[simp] theorem detach_clusters (img : Image) : img.detach.clusters = img.clusters := rfl

/-- Inversion for `convert`. -/
theorem convert_eq_some {format : Format} {src img : Image} (h : src.convert format = some img) :
    src.backing = none ∧ img.format = format ∧ img.read = src.read := by
  rw [convert] at h
  split at h
  · cases h
  · rename_i hb
    cases h
    exact ⟨hb, rfl, rfl⟩

theorem convert_isSome {format : Format} {src : Image} (h : src.backing = none) :
    (src.convert format).isSome := by
  simp only [convert, h, Option.isSome_some]

theorem convertInto_isSome {format : Format} {src dst : Image} (h : src.backing = none)
    (hf : dst.format = format) : (convertInto format src dst).isSome := by
  simp only [convertInto, h, if_pos hf, Option.isSome_some]

/-- Inversion for `convertInto`: the contents are a replay. -/
theorem convertInto_eq_some {format : Format} {src dst img : Image}
    (h : convertInto format src dst = some img) :
    src.backing = none ∧ dst.format = format ∧ img.format = format ∧
      img.read = replay dst.read src.clusters := by
  rw [convertInto] at h
  split at h
  · cases h
  · rename_i hb
    split at h
    · rename_i hf
      cases h
      refine ⟨hb, hf, hf, ?_⟩
      funext b
      rcases hc : src.clusters b with _ | v
      · simp [read, replay, hc]
      · simp [read, replay, hc]
    · cases h

end Image

/-! ## Files -/

/-- The files a backup or a restore touches. The scratch names are derived from the
names of a disk or of a backup image by a suffix no disk carries. -/
inductive Path where
  /-- a disk image of a domain -/
  | volume : String → Path
  /-- `dst + backupDiskTempSuffix` -/
  | restoreTmp : String → Path
  /-- an image in the directory of a backup point -/
  | point : String → String → Path
  /-- `image + backupDiskDownloadSuffix` -/
  | download : String → String → Path
  deriving DecidableEq, Repr

/-- Present files and their contents. -/
abbrev Files : Type := Path → Option Image

namespace Files

/-- Write a file. -/
def put (fs : Files) (p : Path) (img : Image) : Files := Function.update fs p (some img)

/-- `os.Remove`; a missing file is no error here. -/
def remove (fs : Files) (p : Path) : Files := Function.update fs p none

/-- `os.RemoveAll` of the directory of a backup point. -/
def removePoint (fs : Files) (id : String) : Files
  | .point i file => if i = id then none else fs (.point i file)
  | .download i file => if i = id then none else fs (.download i file)
  | p => fs p

@[simp] theorem put_self (fs : Files) (p : Path) (img : Image) : fs.put p img p = some img :=
  Function.update_self ..

theorem put_of_ne (fs : Files) {p q : Path} (img : Image) (h : q ≠ p) :
    fs.put p img q = fs q := Function.update_of_ne h ..

@[simp] theorem remove_self (fs : Files) (p : Path) : fs.remove p p = none :=
  Function.update_self ..

theorem remove_of_ne (fs : Files) {p q : Path} (h : q ≠ p) : fs.remove p q = fs q :=
  Function.update_of_ne h ..

theorem removePoint_point_ne (fs : Files) {id i : String} (file : String) (h : i ≠ id) :
    fs.removePoint id (.point i file) = fs (.point i file) := if_neg h

/-- What the guest reads from the image file of a disk. -/
def readVolume (fs : Files) (v : String) (b : ℕ) : ℕ :=
  match fs (.volume v) with
  | some img => img.read b
  | none => 0

end Files

/-! ## Definitions -/

/-- The `device` attribute of a disk element. -/
inductive Device where
  /-- a disk -/
  | disk
  /-- a CD-ROM -/
  | cdrom
  /-- a floppy -/
  | floppy
  /-- a LUN passed through -/
  | lun
  deriving DecidableEq, Repr

/-- A disk element of the domain XML. -/
structure DomainDisk where
  /-- `device` -/
  device : Device
  /-- `driver type` -/
  driverType : Format
  /-- `target dev` -/
  targetDev : String
  /-- `source file`, empty for a source that is not a file -/
  sourceFile : String
  deriving DecidableEq, Repr

/-- The part of the domain XML that backups consume. libvirt refuses two disks on
one target. -/
structure Definition where
  /-- the disks, in definition order -/
  disks : List DomainDisk
  /-- targets are unique -/
  targets_nodup : (disks.map DomainDisk.targetDev).Nodup

namespace Definition

theorem nodup_nil : (([] : List DomainDisk).map DomainDisk.targetDev).Nodup := .nil

/-- The disks a backup copies: `Device == "disk"` with a source file. -/
def fileDisks (D : Definition) : List DomainDisk :=
  D.disks.filter fun d => d.device = .disk && d.sourceFile != ""

/-- The map from disk targets to their image files that a restore builds. -/
def sources (D : Definition) (dev : String) : Option String :=
  (D.fileDisks.find? fun d => d.targetDev = dev).map DomainDisk.sourceFile

theorem fileDisks_nodup (D : Definition) :
    (D.fileDisks.map DomainDisk.targetDev).Nodup :=
  D.targets_nodup.sublist (List.filter_sublist.map _)

/-- Each disk that is backed up is found under its target. -/
theorem sources_of_mem {D : Definition} {d : DomainDisk} (hd : d ∈ D.fileDisks) :
    D.sources d.targetDev = some d.sourceFile := by
  have hnd := D.fileDisks_nodup
  rw [sources]
  generalize D.fileDisks = l at hd hnd
  induction l with
  | nil => cases hd
  | cons e l ih =>
    rw [List.map_cons, List.nodup_cons] at hnd
    rcases List.mem_cons.mp hd with rfl | hd
    · rw [List.find?_cons_of_pos (by simp)]
      rfl
    · have hne : e.targetDev ≠ d.targetDev := fun h =>
        hnd.1 (h ▸ List.mem_map_of_mem (f := DomainDisk.targetDev) hd)
      rw [List.find?_cons_of_neg (by simpa using hne)]
      exact ih hd hnd.2

end Definition

/-! ## Domains -/

/-- `virDomainState`. -/
inductive DomainState where
  | nostate
  | running
  | blocked
  | paused
  | shutdown
  | shutoff
  | crashed
  | pmsuspended
  deriving DecidableEq, Repr

/-- A defined domain. -/
structure Domain where
  /-- the definition in force -/
  definition : Definition
  /-- power state -/
  state : DomainState
  /-- checkpoints, newest first, with the blocks the guest wrote after each -/
  checkpoints : DirtyLog String (String × ℕ)

/-- A guest write: block `block` of image file `file` becomes `value`. -/
structure GuestWrite where
  /-- image file of the disk -/
  file : String
  /-- block number -/
  block : ℕ
  /-- new contents -/
  value : ℕ

/-- The effect of a guest write on an image file. -/
def Image.write (img : Image) (b v : ℕ) : Image :=
  { img with clusters := Function.update img.clusters b (some v) }

/-- The effect of a guest write on the files; nothing happens to a missing image. -/
def Files.guestWrite (fs : Files) (w : GuestWrite) : Files :=
  match fs (.volume w.file) with
  | some img => fs.put (.volume w.file) (img.write w.block w.value)
  | none => fs

end Ultrav
