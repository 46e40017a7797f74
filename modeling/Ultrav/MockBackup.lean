import Ultrav.BackupChain
import Ultrav.UpdateMachine

/-!
# Backups of the mock provider

`BackupVirtualMachine`, `DeleteBackup` and `RestoreBackup` of the mock provider. Its machines are
simulated and its images are placeholders, the library is the real one. It keeps no checkpoints: the
chain is inferred from the newest point.

* `MockSite` — the machines, and the library with its directories and files.
* `mockChain` / `mockParent` — the chain decision.
* `mockBackupVirtualMachine` — a backup; a failure after `Create` leaves the directory.
-/

namespace Ultrav

/-! ## Machines and library -/

/-- A disk of a simulated machine. -/
structure MockDisk where
  name : String
  format : Format
  deriving DecidableEq, Repr

/-- The part of `vmState` that backups read. -/
structure MockVM where
  state : MockState
  /-- the disks of a created machine, none for one of the fleet -/
  disks : List MockDisk
  names_nodup : (disks.map MockDisk.name).Nodup

namespace MockVM

theorem nodup_nil : (([] : List MockDisk).map MockDisk.name).Nodup := .nil

/-- `vmDisks` -/
def vmDisks (vm : MockVM) : List MockDisk :=
  if vm.disks = [] then [⟨"vda", .qcow2⟩] else vm.disks

theorem vmDisks_nodup (vm : MockVM) : (vm.vmDisks.map MockDisk.name).Nodup := by
  rw [vmDisks]
  split
  · exact List.nodup_singleton _
  · exact vm.names_nodup

/-- `mockDomainXML`: the disks have neither a driver nor a source. -/
def mockDomainXML (vm : MockVM) : Definition where
  disks := vm.vmDisks.map fun d => ⟨.disk, .raw, d.name, ""⟩
  targets_nodup := by
    rw [List.map_map]
    exact vm.vmDisks_nodup

end MockVM

/-- The mock provider with its library. -/
structure MockSite where
  vms : String → Option MockVM
  library : Library
  /-- the directories of machines in the library -/
  vmDirs : List String
  /-- the size of a placeholder image of a point -/
  images : String → String → Option ℤ

/-- What a backup of the mock provider meets outside its own code. -/
structure MockBackupEnv where
  /-- the provider has a backup library -/
  hasLibrary : Bool
  /-- the library cannot be listed -/
  listFails : Bool
  /-- the identifier `newID` draws -/
  id : String
  id_valid : idPattern id = true
  /-- the clock reading in `Create` -/
  now : Time
  /-- the point directory cannot be created -/
  createFails : Bool
  /-- in that case: the directory of the machine was -/
  vmDirMade : Bool
  /-- the image of a disk cannot be written -/
  writeFails : String → Bool
  /-- in that case: what there is of it -/
  partSize : String → Option ℤ
  /-- `domain.xml` cannot be written -/
  writeXMLFails : Bool
  /-- `metadata.json` cannot be written -/
  completeFails : Bool

/-- A backup that meets no trouble. -/
def MockBackupEnv.smooth (id : String) (id_valid : idPattern id = true) (now : Time) :
    MockBackupEnv :=
  ⟨true, false, id, id_valid, now, false, false, fun _ => false, fun _ => none, false, false⟩

/-- `MkdirAll` makes the directory of a machine. -/
def addVMDir (vmDirs : List String) (vm : String) : List String :=
  if vm ∈ vmDirs then vmDirs else vmDirs ++ [vm]

/-! ## The chain -/

/-- The newest point, if the next backup can continue from it. -/
def mockChain (srt : SortDesc Metadata Metadata.createdAt) (listFails : Bool) (lib : Library)
    (id : String) : Option Metadata :=
  if listFails then none
  else
    match lib.list srt id with
    | .ok (newest :: _) => if newest.checkpoint ≠ "" then some newest else none
    | _ => none

/-- The parent of the requested backup, none for a full. -/
def mockParent (chain : Option Metadata) (running : Bool) (id : String)
    (req : Option CreateType) : Except ProviderError (Option Metadata) :=
  match req with
  | none => .ok (if running then chain else none)
  | some .full => .ok none
  | some .incremental =>
    match chain with
    | none =>
      .error (.invalidState ("no valid backup chain for \"" ++ id ++
        "\" (take a full backup first)"))
    | some parent => .ok (some parent)

/-! ## Backup -/

/-- `backupImageHeaderBytes` and `backupIncrementalHeaderBytes` -/
def mockImageSize (incremental : Bool) : ℤ := if incremental then 8 * 1024 else 64 * 1024

/-- A file of a point. -/
def putImage (images : String → String → Option ℤ) (id file : String) (size : Option ℤ) :
    String → String → Option ℤ :=
  fun i f => if i = id ∧ f = file then size else images i f

/-- The loop that writes an image per disk. -/
def mockWriteImages (env : MockBackupEnv) (size : ℤ) :
    List MockDisk → Metadata → (String → String → Option ℤ) →
      Except ProviderError Metadata × (String → String → Option ℤ)
  | [], m, images => (.ok m, images)
  | d :: rest, m, images =>
    let file := Metadata.diskFile d.name d.format
    if env.writeFails d.name then
      (.error (.other "write image"), putImage images env.id file (env.partSize d.name))
    else
      mockWriteImages env size rest ((m.diskPath d.name d.format).setDiskSize d.name size)
        (putImage images env.id file (some size))

/-- The metadata of a new point: its parent, and its checkpoint when the machine is running. -/
def mockPoint (env : MockBackupEnv) (vmID : String) (parent : Option Metadata)
    (running : Bool) : Metadata :=
  let m : Metadata := ⟨env.id, vmID, vmID, .full, .writing, env.now, [], false, "", ""⟩
  let m := match parent with
    | none => m
    | some p => m.setParent p.id
  if running then m.setCheckpoint (checkpointName env.id) else m

/-- `BackupVirtualMachine` of the mock provider, from `Create` on. The deferred `Abort` looks at
the `err` of `Create`: the errors that follow are other variables, so it never runs. -/
def mockWritePoint (env : MockBackupEnv) (p : MockSite) (vmID : String) (vm : MockVM)
    (parent : Option Metadata) : Except ProviderError Metadata × MockSite :=
  if !idSafe vmID then (.error (.store .invalidID), p)
  else if env.createFails then
    (.error (.other "create backup point directory"),
      if env.vmDirMade then { p with vmDirs := addVMDir p.vmDirs vmID } else p)
  else
    let p := { p with
      library := p.library.mkdir vmID env.id
      vmDirs := addVMDir p.vmDirs vmID }
    match mockWriteImages env (mockImageSize parent.isSome) vm.vmDisks
        (mockPoint env vmID parent (vm.state = .running)) p.images with
    | (.error e, images) => (.error e, { p with images := images })
    | (.ok m, images) =>
      let p := { p with images := images }
      if env.writeXMLFails then (.error (.other "write domain.xml"), p)
      else
        let p := { p with library := p.library.writeDomainXML vmID env.id vm.mockDomainXML }
        let m := m.setDomainXML true
        if env.completeFails then (.error (.other "write metadata.json"), p)
        else (.ok { m with state := .complete }, { p with library := p.library.complete m })

/-- `BackupVirtualMachine` of the mock provider. -/
def mockBackupVirtualMachine (srt : SortDesc Metadata Metadata.createdAt) (env : MockBackupEnv)
    (p : MockSite) (id : String) (req : Option CreateType) :
    Except ProviderError Metadata × MockSite :=
  match p.vms id with
  | none => (.error .vmNotFound, p)
  | some vm =>
    if vm.state = .shuttingDown then
      (.error (.other "operation is not valid for the current virtual machine state"), p)
    else if !env.hasLibrary then
      (.error (.other "mock provider has no backup library configured"), p)
    else
      match mockParent (mockChain srt env.listFails p.library id) (vm.state = .running) id req with
      | .error e => (.error e, p)
      | .ok parent => mockWritePoint env p id vm parent

/-! ## Deletion and restore -/

/-- `DeleteBackup` of the mock provider, when the removal succeeds. -/
def mockDeleteBackup (p : MockSite) (id : String) : Except ProviderError Unit × MockSite :=
  match p.library.delete id with
  | .error .notFound => (.error .backupNotFound, p)
  | .error e => (.error (.store e), p)
  | .ok lib =>
    (.ok (), { p with
      library := lib
      images := fun i f => if i = id then none else p.images i f })

/-- `RestoreBackup` of the mock provider: its checks, nothing is restored. `fuel` bounds the loop
over the parent ids. -/
def mockRestoreBackup (fuel : ℕ) (p : MockSite) (id : String) :
    Option (Except ProviderError MockVM) :=
  match p.library.get id with
  | .error .notFound => some (.error .backupNotFound)
  | .error e => some (.error (.store e))
  | .ok m =>
    (Lineage.climb p.library.lookup Metadata.parent fuel m [m]).map fun r =>
      match r with
      | .error _ =>
        .error (.invalidState ("the chain of backup " ++ m.id ++ " is broken"))
      | .ok _ =>
        match p.vms m.vmID with
        | none =>
          .error (.invalidState ("the VM \"" ++ m.vmID ++ "\" of this backup no longer exists"))
        | some vm =>
          if vm.state ≠ .stopped then
            .error (.invalidState "restore requires the VM to be stopped")
          else .ok vm

end Ultrav
