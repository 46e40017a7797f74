import Ultrav.BackupChain

/-!
# Taking and deleting backups

`backupVirtualMachine` and `deleteBackup` of the libvirt provider, over a `Host`.
Everything a call meets outside its own code is its environment: the drawn id, the
clock, which libvirt or file operation fails, what the guest writes while the job
runs. A call that is still polling its job has no result (`none`).

The hypervisor's side of a backup job is `Host.backupBegin`: images and checkpoint
come into being together, an incremental holds the blocks written since the
checkpoint it names, and what the guest writes afterwards goes to the new
checkpoint.
-/

namespace Ultrav

/-! ## The environment of a backup -/

/-- What one round of the job poll finds. -/
inductive Poll where
  /-- the context is done -/
  | canceled
  /-- `GetJobInfo` fails -/
  | queryFailed
  /-- any other job type: wait and poll again -/
  | pending
  /-- `DOMAIN_JOB_COMPLETED` -/
  | completed
  /-- `DOMAIN_JOB_NONE` -/
  | gone
  deriving DecidableEq, Repr

/-- What a `BackupVirtualMachine` call meets outside its own code. -/
structure BackupEnv where
  /-- the libvirt connection can be opened -/
  connected : Bool
  /-- the identifier `newID` draws -/
  id : String
  /-- `newID` builds `bk-` ids -/
  id_valid : idPattern id = true
  /-- the clock reading in `Create` -/
  now : Time
  /-- the point directory cannot be created -/
  createFails : Bool
  /-- the domain XML cannot be read or parsed -/
  xmlFails : Bool
  /-- `BackupBegin` fails -/
  beginFails : Bool
  /-- guest writes between the start of the job and its end -/
  writes : List GuestWrite
  /-- the rounds of the job poll -/
  polls : List Poll
  /-- `os.Stat` of an image in the point directory -/
  stat : String → Option ℤ
  /-- the download of a disk fails -/
  downloadFails : String → Bool
  /-- `domain.xml` cannot be written -/
  writeXMLFails : Bool
  /-- `metadata.json` cannot be written -/
  completeFails : Bool

theorem idPattern_bk1 : idPattern "bk-1" = true := by decide

/-- A backup that meets no trouble. -/
def BackupEnv.smooth (id : String) (id_valid : idPattern id = true) (now : Time) : BackupEnv :=
  ⟨true, id, id_valid, now, false, false, false, [], [.completed], fun _ => some 1,
    fun _ => false, false, false⟩

/-! ## Host operations -/

namespace Host

/-- `Store.Create`: the directory of a new point. -/
def create (h : Host) (vm id : String) : Host := { h with library := h.library.mkdir vm id }

/-- `Point.Abort` -/
def abort (h : Host) (vm id : String) : Host :=
  { h with library := h.library.removeDir vm id, files := h.files.removePoint id }

/-- A guest write reaches the image and the newest checkpoint. -/
def guestWrite (h : Host) (w : GuestWrite) : Host :=
  match h.domain with
  | none => h
  | some dom =>
    { h with
      files := h.files.guestWrite w
      domain := some { dom with checkpoints := dom.checkpoints.mark (w.file, w.block) } }

end Host

/-- The image a backup job writes for a disk: everything, or the blocks written since
the checkpoint the incremental names. Incremental images keep the original disk as
their backing file. -/
def backupImage (fs : Files) (log : DirtyLog String (String × ℕ)) (parentCheckpoint : String)
    (src : String) : Image :=
  if parentCheckpoint = "" then ⟨.qcow2, none, fun b => some (fs.readVolume src b)⟩
  else
    ⟨.qcow2, some src, fun b =>
      if (src, b) ∈ log.since parentCheckpoint then some (fs.readVolume src b) else none⟩

/-- Write one image per disk into a point directory. -/
def putImages (id : String) (image : DomainDisk → Image) (disks : List DomainDisk)
    (fs : Files) : Files :=
  disks.foldl
    (fun fs d => fs.put (.point id (Metadata.diskFile d.targetDev .qcow2)) (image d)) fs

/-- `virDomainBackupBegin`: the images of all disks at this moment, and the checkpoint
of the point. -/
def Host.backupBegin (h : Host) (dom : Domain) (id parentCheckpoint : String) : Host :=
  { h with
    files := putImages id
      (fun d => backupImage h.files dom.checkpoints parentCheckpoint d.sourceFile)
      dom.definition.fileDisks h.files
    domain := some { dom with checkpoints := dom.checkpoints.begin (checkpointName id) } }

/-! ## BackupVirtualMachine -/

/-- The metadata `Create` starts from. -/
def newPoint (env : BackupEnv) (vm : String) : Metadata :=
  ⟨env.id, vm, vm, .full, .writing, env.now, [], false, "", ""⟩

/-- `recordDiskSizes` -/
def recordDiskSizes (stat : String → Option ℤ) (m : Metadata) : Metadata :=
  m.disks.foldl
    (fun m d =>
      match stat d.file with
      | some size => m.setDiskSize d.name size
      | none => m) m

/-- The tail both backup paths share: save the domain XML, record the sizes, complete
the point. -/
def completePoint (env : BackupEnv) (h : Host) (D : Definition) (m : Metadata) :
    Except ProviderError Unit × Host :=
  if env.writeXMLFails then (.error (.other "write domain.xml"), h.abort m.vmID m.id)
  else
    let h₁ := { h with library := h.library.writeDomainXML m.vmID m.id D }
    -- the only failure after `Create` that does not abort the point
    if env.completeFails then (.error (.other "write metadata.json"), h₁)
    else
      (.ok (), { h₁ with
        library := h₁.library.complete (recordDiskSizes env.stat (m.setDomainXML true)) })

/-- The job poll; `none` while the job is still pending. -/
def pollJob : List Poll → Option (Except ProviderError Unit)
  | [] => none
  | .canceled :: _ => some (.error (.other "backup canceled"))
  | .queryFailed :: _ => some (.error (.other "query backup job"))
  | .pending :: rest => pollJob rest
  | .completed :: _ => some (.ok ())
  | .gone :: _ => some (.ok ())

/-- Every disk of the point has a non-empty image. -/
def imagesProduced (stat : String → Option ℤ) (m : Metadata) : Bool :=
  m.disks.all fun d =>
    match stat d.file with
    | some size => size != 0
    | none => false

/-- The metadata of an online point before its job starts. -/
def onlinePoint (env : BackupEnv) (dom : Domain) (vm parentID : String) : Metadata :=
  let m := newPoint env vm
  let m := if parentID = "" then m else m.setParent parentID
  dom.definition.fileDisks.foldl (fun m d => m.diskPath d.targetDev .qcow2)
    (m.setCheckpoint (checkpointName env.id))

/-- `backupOnline`: a push-mode backup job on a running domain. -/
def backupOnline (env : BackupEnv) (h : Host) (dom : Domain)
    (vm parentID parentCheckpoint : String) : Option (Except ProviderError Unit × Host) :=
  if !idSafe vm then some (.error (.store .invalidID), h)
  else if env.createFails then some (.error (.other "create backup point directory"), h)
  else
    let h := h.create vm env.id
    if env.xmlFails then some (.error (.other "read domain XML"), h.abort vm env.id)
    else if dom.definition.fileDisks = [] then
      some (.error (.other ("domain \"" ++ vm ++ "\" has no file-backed disks to back up")),
        h.abort vm env.id)
    else if env.beginFails then
      some (.error (.other "begin backup job"), h.abort vm env.id)
    else
      let m := onlinePoint env dom vm parentID
      let h := env.writes.foldl Host.guestWrite (h.backupBegin dom env.id parentCheckpoint)
      match pollJob env.polls with
      | none => none
      | some (.error e) => some (.error e, h.abort vm env.id)
      | some (.ok ()) =>
        if imagesProduced env.stat m then some (completePoint env h dom.definition m)
        else
          some (.error (.other "backup job produced no image for disk"), h.abort vm env.id)

/-- The copy loop of `backupOffline`. -/
def copyDisks (env : BackupEnv) :
    List DomainDisk → Metadata → Files → Except ProviderError Metadata × Files
  | [], m, fs => (.ok m, fs)
  | d :: rest, m, fs =>
    if env.downloadFails d.targetDev then (.error (.other ("copy disk " ++ d.targetDev)), fs)
    else
      match fs (.volume d.sourceFile) with
      | none => (.error (.other ("copy disk " ++ d.targetDev)), fs)
      | some img =>
        copyDisks env rest (m.diskPath d.targetDev .qcow2)
          (fs.put (.point env.id (Metadata.diskFile d.targetDev .qcow2)) img)

/-- `backupOffline`: image copies of a stopped domain. -/
def backupOffline (env : BackupEnv) (h : Host) (dom : Domain) (vm : String) :
    Except ProviderError Unit × Host :=
  if !idSafe vm then (.error (.store .invalidID), h)
  else if env.createFails then (.error (.other "create backup point directory"), h)
  else
    -- every failure from here to the copies removes the new directory
    let h := h.create vm env.id
    if env.xmlFails then (.error (.other "read domain XML"), h.abort vm env.id)
    else
      match copyDisks env dom.definition.fileDisks (newPoint env vm) h.files with
      | (.error e, fs) => (.error e, { h with files := fs }.abort vm env.id)
      | (.ok m, fs) => completePoint env { h with files := fs } dom.definition m

/-- `BackupVirtualMachine`. A successful call reports the newest completed point; with
an empty listing it reports an empty backup. -/
def backupVirtualMachine (srt : SortDesc Metadata Metadata.createdAt) (env : BackupEnv)
    (h : Host) (id : String) (req : Option CreateType) :
    Option (Except ProviderError (Option Metadata) × Host) :=
  if !env.connected then some (.error (.other "connect"), h)
  else
    match h.lookupDomain id with
    | none => some (.error .vmNotFound, h)
    | some dom =>
      match backupChainParent srt h.library dom id req with
      | .error e => some (.error e, h)
      | .ok (parentID, parentCheckpoint) =>
        (if dom.state = .shutoff then some (backupOffline env h dom id)
          else backupOnline env h dom id parentID parentCheckpoint).map fun r =>
          match r with
          | (.error e, h') => (.error e, h')
          | (.ok (), h') =>
            match h'.library.list srt id with
            -- the point stays when only the listing fails
            | .error e => (.error (.store e), h')
            | .ok metas => (.ok metas.head?, h')

/-! ## DeleteBackup -/

/-- What a `DeleteBackup` call meets outside its own code. -/
structure DeleteEnv where
  /-- `RemoveAll` stops part way -/
  removeFails : Bool
  /-- in that case: the files of the point that are still there -/
  survives : Path → Bool
  /-- in that case: what is left of the directory, if anything -/
  remains : PointDir → Option PointDir
  /-- `RemoveAll` adds nothing -/
  remnant : ∀ d d', remains d = some d' → d'.RemnantOf d
  /-- the libvirt connection can be opened -/
  connected : Bool
  /-- the checkpoint cannot be deleted -/
  dropFails : Bool

/-- A deletion that meets no trouble. -/
def DeleteEnv.smooth : DeleteEnv :=
  ⟨false, fun _ => false, fun _ => none, by simp, true, false⟩

/-- `CheckpointLookupByName` and `Delete` -/
def Host.dropCheckpoint (h : Host) (vmID name : String) : Host :=
  match h.lookupDomain vmID with
  | none => h
  | some dom =>
    { h with domain := some { dom with checkpoints := dom.checkpoints.drop name } }

/-- `DeleteBackup`: the directory first, then the checkpoint of the point. -/
def deleteBackup (env : DeleteEnv) (h : Host) (id : String) :
    Except ProviderError Unit × Host :=
  match h.library.get id with
  | .error .notFound => (.error .backupNotFound, h)
  | .error e => (.error (.store e), h)
  | .ok m =>
    if env.removeFails then
      (.error (.other "remove backup point directory"), { h with
        library := h.library.filterMap fun d => if d.id = id then env.remains d else some d
        files := fun p =>
          if env.survives p then h.files p else h.files.removePoint id p })
    else
      match h.library.delete id with
      | .error e => (.error (.store e), h)
      | .ok lib =>
        let h := { h with library := lib, files := h.files.removePoint id }
        if m.checkpoint = "" ∨ !env.connected ∨ env.dropFails then (.ok (), h)
        else (.ok (), h.dropCheckpoint m.vmID m.checkpoint)

end Ultrav
