import Ultrav.Backup

/-!
# What a backup does to the host

`backupVirtualMachine` has many ways to fail. For a freshly drawn id they come down to
few effects, collected in one inversion theorem, `backupVirtualMachine_eq_some`:

* `BackupFrame` — the images of other points stay; the guest side stays too, or a
  checkpoint was begun and the guest kept writing.
* `BackupOutcome` — the library stays, or gets a directory without metadata, or gets
  the directory of one completed point.
* `PointTaken` — what a completed point records and which images it holds.
-/

namespace Ultrav

/-! ## Guest writes -/

/-- The checkpoints after guest writes. -/
def markAll (ws : List GuestWrite) (log : DirtyLog String (String × ℕ)) :
    DirtyLog String (String × ℕ) :=
  ws.foldl (fun log w => log.mark (w.file, w.block)) log

@[simp] theorem names_markAll (ws : List GuestWrite) :
    ∀ log : DirtyLog String (String × ℕ), (markAll ws log).names = log.names := by
  induction ws with
  | nil => intro log; rfl
  | cons w ws ih =>
    intro log
    rw [markAll, List.foldl_cons]
    exact (ih _).trans (DirtyLog.names_mark _ _)

theorem Files.guestWrite_of_not_volume (fs : Files) (w : GuestWrite) {p : Path}
    (hp : ∀ v, p ≠ .volume v) : fs.guestWrite w p = fs p := by
  rcases hw : fs (.volume w.file) with _ | img
  · simp only [Files.guestWrite, hw]
  · simp only [Files.guestWrite, hw]
    exact Files.put_of_ne fs _ (hp w.file)

theorem Files.guestWrite_volume_congr {fs gs : Files}
    (h : ∀ v, fs (.volume v) = gs (.volume v)) (w : GuestWrite) (v : String) :
    fs.guestWrite w (.volume v) = gs.guestWrite w (.volume v) := by
  have hfw := h w.file
  rcases hw : gs (.volume w.file) with _ | img
  · rw [hw] at hfw
    simp only [Files.guestWrite, hfw, hw]
    exact h v
  · rw [hw] at hfw
    simp only [Files.guestWrite, hfw, hw]
    by_cases hv : v = w.file
    · rw [hv, Files.put_self, Files.put_self]
    · rw [Files.put_of_ne _ _ (by simpa using hv), Files.put_of_ne _ _ (by simpa using hv), h v]

theorem guestWrites_of_not_volume (ws : List GuestWrite) {p : Path} (hp : ∀ v, p ≠ .volume v) :
    ∀ fs : Files, ws.foldl Files.guestWrite fs p = fs p := by
  induction ws with
  | nil => intro fs; rfl
  | cons w ws ih =>
    intro fs
    rw [List.foldl_cons, ih, Files.guestWrite_of_not_volume fs w hp]

theorem guestWrites_volume_congr (ws : List GuestWrite) :
    ∀ {fs gs : Files}, (∀ v, fs (.volume v) = gs (.volume v)) → ∀ v,
      ws.foldl Files.guestWrite fs (.volume v) = ws.foldl Files.guestWrite gs (.volume v) := by
  induction ws with
  | nil => intro fs gs h; exact h
  | cons w ws ih =>
    intro fs gs h
    exact ih fun v => Files.guestWrite_volume_congr h w v

/-- Guest writes reach the files and the checkpoints, nothing else. -/
theorem Host.guestWrites_eq (ws : List GuestWrite) :
    ∀ {h : Host} {dom : Domain}, h.domain = some dom →
      ws.foldl Host.guestWrite h = { h with
        files := ws.foldl Files.guestWrite h.files
        domain := some { dom with checkpoints := markAll ws dom.checkpoints } } := by
  induction ws with
  | nil =>
    intro h dom hd
    rw [List.foldl_nil, List.foldl_nil, markAll, List.foldl_nil, ← hd]
  | cons w ws ih =>
    intro h dom hd
    have hstep : h.guestWrite w = { h with
        files := h.files.guestWrite w
        domain := some { dom with checkpoints := dom.checkpoints.mark (w.file, w.block) } } := by
      simp only [Host.guestWrite, hd]
    rw [List.foldl_cons, hstep, ih rfl]
    rfl

/-! ## The images of a job -/

theorem diskFile_inj {a b : String} {f : Format}
    (h : Metadata.diskFile a f = Metadata.diskFile b f) : a = b := by
  cases f <;> exact String.append_left_inj _ |>.mp h

/-- `putImages` writes only the images it is given. -/
theorem putImages_of_ne {id : String} {image : DomainDisk → Image} {p : Path} :
    ∀ {disks : List DomainDisk} (fs : Files),
      (∀ d ∈ disks, p ≠ .point id (Metadata.diskFile d.targetDev .qcow2)) →
        putImages id image disks fs p = fs p := by
  intro disks
  induction disks with
  | nil => intro fs _; rfl
  | cons d disks ih =>
    intro fs hp
    rw [putImages, List.foldl_cons]
    exact (ih _ fun e he => hp e (List.mem_cons_of_mem _ he)).trans
      (Files.put_of_ne fs _ (hp d List.mem_cons_self))

/-- Each disk gets its image. -/
theorem putImages_of_mem {id : String} {image : DomainDisk → Image} :
    ∀ {disks : List DomainDisk} (fs : Files), (disks.map DomainDisk.targetDev).Nodup →
      ∀ d ∈ disks, putImages id image disks fs (.point id (Metadata.diskFile d.targetDev .qcow2)) =
        some (image d) := by
  intro disks
  induction disks with
  | nil => intro fs _ d hd; cases hd
  | cons e disks ih =>
    intro fs hnd d hd
    rw [List.map_cons, List.nodup_cons] at hnd
    rcases List.mem_cons.mp hd with rfl | hd
    · -- the images that follow go to other files
      have hother : ∀ x ∈ disks, Path.point id (Metadata.diskFile d.targetDev .qcow2) ≠
          .point id (Metadata.diskFile x.targetDev .qcow2) := by
        intro x hx heq
        rw [diskFile_inj (Path.point.inj heq).2] at hnd
        exact hnd.1 (List.mem_map_of_mem hx)
      rw [putImages, List.foldl_cons]
      exact (putImages_of_ne _ hother).trans (Files.put_self _ _ _)
    · exact ih _ hnd.2 d hd

/-! ## The metadata of a point -/

/-- What an entry says about its image, apart from the size. -/
def DiskEntry.image (d : DiskEntry) : String × String × Format := (d.name, d.file, d.format)

/-- The entry both backup paths allocate for a disk of the domain. -/
def DomainDisk.image (d : DomainDisk) : String × String × Format :=
  (d.targetDev, Metadata.diskFile d.targetDev .qcow2, .qcow2)

/-- `m` is the completed point `id` of a VM, taken of a domain with definition `D`. -/
structure IsPoint (id vm : String) (D : Definition) (m : Metadata) : Prop where
  id : m.id = id
  vmID : m.vmID = vm
  state : m.state = .complete
  hasDomainXML : m.hasDomainXML = true
  images : m.disks.map DiskEntry.image = D.fileDisks.map DomainDisk.image

/-- A completed point in a directory of its own, new name is visible. -/
theorem IsPoint.get_append {id vm : String} {D : Definition} {m : Metadata} {lib : Library}
    {d : PointDir} (h : IsPoint id vm D m) (hf : ∀ e ∈ lib, e.id ≠ id)
    (hvalid : idPattern id = true) (hi : d.id = id) (hm : d.metadata = some m) :
    Library.get (lib ++ [d]) id = .ok m := by
  subst hi
  exact Library.get_append_self hf hvalid (PointDir.completed_eq_some.mpr ⟨hm, h.state⟩)

theorem setDiskSize_eq (m : Metadata) (name : String) (size : ℤ) :
    ∃ disks, m.setDiskSize name size = { m with disks := disks } ∧
      disks.map DiskEntry.image = m.disks.map DiskEntry.image := by
  refine ⟨_, rfl, ?_⟩
  rw [List.map_map]
  refine List.map_congr_left fun d _ => ?_
  by_cases hd : d.name = name
  · simp [hd, DiskEntry.image]
  · simp [hd]

/-- A loop whose steps change nothing but sizes. -/
theorem foldl_sizes {f : Metadata → DiskEntry → Metadata}
    (hf : ∀ m d, ∃ disks, f m d = { m with disks := disks } ∧
      disks.map DiskEntry.image = m.disks.map DiskEntry.image) (l : List DiskEntry) :
    ∀ m : Metadata, ∃ disks, l.foldl f m = { m with disks := disks } ∧
      disks.map DiskEntry.image = m.disks.map DiskEntry.image := by
  induction l with
  | nil => exact fun m => ⟨m.disks, rfl, rfl⟩
  | cons d l ih =>
    intro m
    obtain ⟨ds, hstep, himg⟩ := hf m d
    obtain ⟨ds', hrest, himg'⟩ := ih (f m d)
    rw [List.foldl_cons]
    refine ⟨ds', hrest.trans (by rw [hstep]), himg'.trans ?_⟩
    rw [hstep]
    exact himg

/-- Sizes are all that `recordDiskSizes` changes. -/
theorem recordDiskSizes_eq (stat : String → Option ℤ) (m : Metadata) :
    ∃ disks, recordDiskSizes stat m = { m with disks := disks } ∧
      disks.map DiskEntry.image = m.disks.map DiskEntry.image := by
  refine foldl_sizes (fun m d => ?_) m.disks m
  rcases stat d.file with _ | size
  · exact ⟨m.disks, rfl, rfl⟩
  · exact setDiskSize_eq m d.name size

/-- Allocating the images of several disks. -/
theorem diskPath_foldl (ds : List DomainDisk) :
    ∀ m : Metadata, ∃ disks,
      ds.foldl (fun m d => m.diskPath d.targetDev .qcow2) m = { m with disks := disks } ∧
        disks.map DiskEntry.image = m.disks.map DiskEntry.image ++ ds.map DomainDisk.image := by
  induction ds with
  | nil => exact fun m => ⟨m.disks, rfl, by simp⟩
  | cons d ds ih =>
    intro m
    obtain ⟨disks, hfold, himg⟩ := ih (m.diskPath d.targetDev .qcow2)
    refine ⟨disks, ?_, ?_⟩
    · rw [List.foldl_cons, hfold]
      rfl
    · rw [himg]
      simp [Metadata.diskPath, DiskEntry.image, DomainDisk.image]

/-- The metadata a completed backup ends with. -/
theorem isPoint_complete {env : BackupEnv} {vm : String} {D : Definition} {m m' : Metadata}
    (hid : m.id = env.id) (hvm : m.vmID = vm)
    (himg : m.disks.map DiskEntry.image = D.fileDisks.map DomainDisk.image)
    (hm' : m' = { recordDiskSizes env.stat (m.setDomainXML true) with state := .complete }) :
    IsPoint env.id vm D m' ∧ m'.parentID = m.parentID ∧ m'.checkpoint = m.checkpoint := by
  obtain ⟨disks, heq, hdisks⟩ := recordDiskSizes_eq env.stat (m.setDomainXML true)
  rw [heq] at hm'
  subst hm'
  exact ⟨⟨hid, hvm, rfl, rfl, hdisks.trans himg⟩, rfl, rfl⟩

/-! ## Completing a point -/

/-- How the tail of a backup can end, over a library `lib` that has no directory of the
new name. -/
inductive Completion (lib : Library) (D : Definition) (env : BackupEnv) (h : Host)
    (m : Metadata) : Except ProviderError Unit → Host → Prop where
  /-- the directory was removed again -/
  | aborted {e : ProviderError} : Completion lib D env h m (.error e)
      { h with library := lib, files := h.files.removePoint m.id }
  /-- the directory stays, without metadata -/
  | leftover {e : ProviderError} {d : PointDir} : d.vmID = m.vmID → d.id = m.id →
      d.metadata = none → d.domainXML = some D →
      Completion lib D env h m (.error e) { h with library := lib ++ [d] }
  /-- the point is complete -/
  | done {d : PointDir} : d.vmID = m.vmID → d.id = m.id → d.domainXML = some D →
      d.metadata =
        some { recordDiskSizes env.stat (m.setDomainXML true) with state := .complete } →
      Completion lib D env h m (.ok ()) { h with library := lib ++ [d] }

theorem completePoint_eq {env : BackupEnv} {h h' : Host} (lib : Library) {D : Definition}
    {m : Metadata} {r : Except ProviderError Unit} (hf : ∀ d ∈ lib, d.id ≠ m.id)
    (hlib : h.library = lib ++ [.empty m.vmID m.id])
    (hr : completePoint env h D m = (r, h')) : Completion lib D env h m r h' := by
  have hrem : (lib ++ [PointDir.empty m.vmID m.id]).removeDir m.vmID m.id = lib :=
    Library.removeDir_fresh (d := .empty m.vmID m.id) hf
  have hxml : (lib ++ [PointDir.empty m.vmID m.id]).writeDomainXML m.vmID m.id D =
      lib ++ [{ PointDir.empty m.vmID m.id with domainXML := some D }] :=
    Library.writeDomainXML_fresh (d := .empty m.vmID m.id) hf D
  rw [completePoint] at hr
  split at hr
  · cases hr
    rw [Host.abort, hlib, hrem]
    exact .aborted
  · dsimp only at hr
    rw [hlib, hxml] at hr
    split at hr
    · cases hr
      exact .leftover rfl rfl rfl rfl
    · cases hr
      obtain ⟨disks, heq, -⟩ := recordDiskSizes_eq env.stat (m.setDomainXML true)
      have hkey : (recordDiskSizes env.stat (m.setDomainXML true)).vmID = m.vmID ∧
          (recordDiskSizes env.stat (m.setDomainXML true)).id = m.id := by
        rw [heq]
        exact ⟨rfl, rfl⟩
      rw [Library.complete_fresh (d := { PointDir.empty m.vmID m.id with domainXML := some D })
        hf hkey]
      exact .done rfl rfl rfl rfl

/-! ## The effects of a backup -/

/-- The domain once a job has begun and the guest kept writing. -/
def begunDomain (env : BackupEnv) (dom : Domain) : Domain :=
  { dom with checkpoints := markAll env.writes (dom.checkpoints.begin (checkpointName env.id)) }

/-- The guest's side of a backup. -/
inductive GuestSide (env : BackupEnv) (h h' : Host) : Prop where
  /-- no job was begun -/
  | untouched : h'.domain = h.domain →
      (∀ v, h'.files (.volume v) = h.files (.volume v)) → GuestSide env h h'
  /-- a job was begun -/
  | begun {dom : Domain} : h.domain = some dom → dom.state ≠ .shutoff →
      h'.domain = some (begunDomain env dom) →
      (∀ v, h'.files (.volume v) = env.writes.foldl Files.guestWrite h.files (.volume v)) →
      GuestSide env h h'

/-- What every backup leaves alone. -/
structure BackupFrame (env : BackupEnv) (h h' : Host) : Prop where
  vm : h'.vm = h.vm
  points : ∀ i file, i ≠ env.id → h'.files (.point i file) = h.files (.point i file)
  guest : GuestSide env h h'

/-- `m` is the point a backup of `dom` completed, with its images. -/
inductive PointTaken (srt : SortDesc Metadata Metadata.createdAt) (env : BackupEnv) (h : Host)
    (req : Option CreateType) (dom : Domain) (h' : Host) (m : Metadata) : Prop where
  /-- copies of the images of a stopped domain; no chain, no checkpoint -/
  | offline : dom.state = .shutoff → m.parentID = "" → m.checkpoint = "" →
      (∀ d ∈ dom.definition.fileDisks, ∃ img, h.files (.volume d.sourceFile) = some img ∧
        h'.files (.point env.id (Metadata.diskFile d.targetDev .qcow2)) = some img) →
      PointTaken srt env h req dom h' m
  /-- a backup job that continues the chain `backupChainParent` decided on -/
  | online {parentID parentCheckpoint : String} : dom.state ≠ .shutoff →
      backupChainParent srt h.library dom h.vm req = .ok (parentID, parentCheckpoint) →
      m.parentID = parentID → m.checkpoint = checkpointName env.id →
      (∀ d ∈ dom.definition.fileDisks,
        h'.files (.point env.id (Metadata.diskFile d.targetDev .qcow2)) =
          some (backupImage h.files dom.checkpoints parentCheckpoint d.sourceFile)) →
      h'.domain = some (begunDomain env dom) →
      (∀ v, h'.files (.volume v) = env.writes.foldl Files.guestWrite h.files (.volume v)) →
      PointTaken srt env h req dom h' m

/-- How a backup can end. -/
inductive BackupOutcome {β : Type} (srt : SortDesc Metadata Metadata.createdAt)
    (env : BackupEnv) (h : Host) (req : Option CreateType) :
    Except ProviderError β → Host → Prop where
  /-- the library is as it was -/
  | kept {e : ProviderError} {h' : Host} : BackupFrame env h h' → h'.library = h.library →
      BackupOutcome srt env h req (.error e) h'
  /-- a directory without metadata stays behind -/
  | leftover {e : ProviderError} {h' : Host} {d : PointDir} {dom : Domain} :
      BackupFrame env h h' → h'.library = h.library ++ [d] → d.vmID = h.vm → d.id = env.id →
      h.domain = some dom → d.domainXML = some dom.definition → d.metadata = none →
      BackupOutcome srt env h req (.error e) h'
  /-- a point was completed -/
  | taken {r : Except ProviderError β} {h' : Host} {d : PointDir} {dom : Domain}
      {m : Metadata} :
      BackupFrame env h h' → h'.library = h.library ++ [d] → d.vmID = h.vm → d.id = env.id →
      h.domain = some dom → d.domainXML = some dom.definition → d.metadata = some m →
      IsPoint env.id h.vm dom.definition m → PointTaken srt env h req dom h' m →
      BackupOutcome srt env h req r h'

section Outcome

variable {srt : SortDesc Metadata Metadata.createdAt} {env : BackupEnv} {h h' : Host}
  {req : Option CreateType} {dom : Domain}

/-- Only the point's own files are removed with it. -/
theorem BackupFrame.refl (env : BackupEnv) (h : Host) : BackupFrame env h h :=
  ⟨rfl, fun _ _ _ => rfl, .untouched rfl fun _ => rfl⟩

/-- The tail of a backup turns a host whose files and guest side are settled into an
outcome. -/
theorem Completion.outcome {h₁ : Host} {m : Metadata} {r : Except ProviderError Unit}
    (hc : Completion h.library dom.definition env h₁ m r h') (hid : m.id = env.id)
    (hvm : m.vmID = h.vm) (hframe : BackupFrame env h h₁) (hdom : h.domain = some dom)
    (himg : m.disks.map DiskEntry.image = dom.definition.fileDisks.map DomainDisk.image)
    (htaken : ∀ lib m', m'.parentID = m.parentID → m'.checkpoint = m.checkpoint →
      PointTaken srt env h req dom { h₁ with library := lib } m') :
    BackupOutcome srt env h req r h' := by
  have hkeep : ∀ lib, BackupFrame env h { h₁ with library := lib } := fun lib =>
    ⟨hframe.vm, hframe.points, by
      cases hframe.guest with
      | untouched hd hv => exact .untouched hd hv
      | begun hd hs hd' hv => exact .begun hd hs hd' hv⟩
  cases hc with
  | aborted =>
    refine .kept ⟨hframe.vm, fun i file hi => ?_, ?_⟩ rfl
    · rw [← hframe.points i file hi]
      exact Files.removePoint_point_ne _ _ (by rwa [hid])
    · cases hframe.guest with
      | untouched hd hv => exact .untouched hd hv
      | begun hd hs hd' hv => exact .begun hd hs hd' hv
  | leftover hdv hdi hmeta hxml =>
    exact .leftover (hkeep _) rfl (hdv.trans hvm) (hdi.trans hid) hdom hxml hmeta
  | done hdv hdi hxml hmeta =>
    obtain ⟨hpoint, hpar, hckpt⟩ := isPoint_complete hid hvm himg rfl
    exact .taken (hkeep _) rfl (hdv.trans hvm) (hdi.trans hid) hdom hxml hmeta hpoint
      (htaken _ _ hpar hckpt)

/-- A host whose point directory is removed again keeps its library. -/
theorem abort_outcome {β : Type} {h₁ : Host} {e : ProviderError}
    (hf : ∀ d ∈ h.library, d.id ≠ env.id)
    (hlib : h₁.library = h.library ++ [.empty h.vm env.id]) (hframe : BackupFrame env h h₁) :
    BackupOutcome (β := β) srt env h req (.error e) (h₁.abort h.vm env.id) := by
  refine .kept ⟨hframe.vm, fun i file hi => ?_, ?_⟩ ?_
  · rw [← hframe.points i file hi]
    exact Files.removePoint_point_ne _ _ hi
  · cases hframe.guest with
    | untouched hd hv => exact .untouched hd hv
    | begun hd hs hd' hv => exact .begun hd hs hd' hv
  · change h₁.library.removeDir h.vm env.id = h.library
    rw [hlib]
    exact Library.removeDir_fresh (d := .empty h.vm env.id) hf

/-- The new directory alone. -/
theorem create_frame (hf : ∀ d ∈ h.library, d.id ≠ env.id) :
    (h.create h.vm env.id).library = h.library ++ [.empty h.vm env.id] ∧
      BackupFrame env h (h.create h.vm env.id) :=
  ⟨Library.mkdir_fresh hf, rfl, fun _ _ _ => rfl, .untouched rfl fun _ => rfl⟩

/-- A begun job and the writes that follow it. -/
theorem backupBegin_frame (env : BackupEnv) (hf : ∀ d ∈ h.library, d.id ≠ env.id)
    (hdom : h.domain = some dom) (hst : dom.state ≠ .shutoff) (parentCheckpoint : String)
    {h₁ : Host}
    (hh₁ : h₁ = env.writes.foldl Host.guestWrite
      ((h.create h.vm env.id).backupBegin dom env.id parentCheckpoint)) :
    h₁.library = h.library ++ [.empty h.vm env.id] ∧ BackupFrame env h h₁ ∧
      h₁.domain = some (begunDomain env dom) ∧
      (∀ v, h₁.files (.volume v) = env.writes.foldl Files.guestWrite h.files (.volume v)) ∧
      ∀ d ∈ dom.definition.fileDisks,
        h₁.files (.point env.id (Metadata.diskFile d.targetDev .qcow2)) =
          some (backupImage h.files dom.checkpoints parentCheckpoint d.sourceFile) := by
  have heq := Host.guestWrites_eq env.writes
    (h := (h.create h.vm env.id).backupBegin dom env.id parentCheckpoint) rfl
  rw [← hh₁] at heq
  subst heq
  have hvol : ∀ v, env.writes.foldl Files.guestWrite
      (putImages env.id
        (fun d => backupImage h.files dom.checkpoints parentCheckpoint d.sourceFile)
        dom.definition.fileDisks h.files) (.volume v) =
        env.writes.foldl Files.guestWrite h.files (.volume v) :=
    guestWrites_volume_congr env.writes fun v => putImages_of_ne h.files (by simp)
  refine ⟨(create_frame hf).1, ⟨rfl, fun i file hi => ?_, .begun hdom hst rfl hvol⟩, rfl,
    hvol, fun d hd => ?_⟩
  · refine (guestWrites_of_not_volume env.writes (by simp) _).trans ?_
    exact putImages_of_ne h.files (by simp [hi])
  · refine (guestWrites_of_not_volume env.writes (by simp) _).trans ?_
    exact putImages_of_mem h.files dom.definition.fileDisks_nodup d hd

/-- The metadata of an online point. -/
theorem onlinePoint_eq (env : BackupEnv) (dom : Domain) (vm parentID : String) :
    (onlinePoint env dom vm parentID).id = env.id ∧
      (onlinePoint env dom vm parentID).vmID = vm ∧
      (onlinePoint env dom vm parentID).parentID = parentID ∧
      (onlinePoint env dom vm parentID).checkpoint = checkpointName env.id ∧
      (onlinePoint env dom vm parentID).disks.map DiskEntry.image =
        dom.definition.fileDisks.map DomainDisk.image := by
  obtain ⟨disks, heq, himg⟩ := diskPath_foldl dom.definition.fileDisks
    ((if parentID = "" then newPoint env vm else (newPoint env vm).setParent parentID).setCheckpoint
      (checkpointName env.id))
  rw [onlinePoint, heq]
  by_cases hp : parentID = ""
  · simp only [if_pos hp] at himg ⊢
    exact ⟨rfl, rfl, hp.symm, rfl, himg⟩
  · simp only [if_neg hp] at himg ⊢
    exact ⟨rfl, rfl, rfl, rfl, himg⟩

theorem backupOnline_eq_some {parentID parentCheckpoint : String}
    {r : Except ProviderError Unit} (hf : ∀ d ∈ h.library, d.id ≠ env.id)
    (hdom : h.domain = some dom) (hst : dom.state ≠ .shutoff)
    (hchain : backupChainParent srt h.library dom h.vm req = .ok (parentID, parentCheckpoint))
    (hr : backupOnline env h dom h.vm parentID parentCheckpoint = some (r, h')) :
    BackupOutcome srt env h req r h' := by
  obtain ⟨hlib₀, hframe₀⟩ := create_frame hf
  obtain ⟨hlib, hframe, hdom', hvol, himages⟩ :=
    backupBegin_frame env hf hdom hst parentCheckpoint rfl
  obtain ⟨hid, hvm, hpar, hckpt, himg⟩ := onlinePoint_eq env dom h.vm parentID
  rw [backupOnline] at hr
  split at hr
  · cases hr
    exact .kept (.refl env h) rfl
  split at hr
  · cases hr
    exact .kept (.refl env h) rfl
  dsimp only at hr
  split at hr
  · cases hr
    exact abort_outcome hf hlib₀ hframe₀
  split at hr
  · cases hr
    exact abort_outcome hf hlib₀ hframe₀
  split at hr
  · cases hr
    exact abort_outcome hf hlib₀ hframe₀
  split at hr
  · cases hr
  · cases hr
    exact abort_outcome hf hlib hframe
  split at hr
  · have hc := completePoint_eq h.library (by rwa [hid]) (by rw [hid, hvm]; exact hlib)
      (Option.some.inj hr)
    refine hc.outcome hid hvm hframe hdom himg fun lib m' hp hk => ?_
    exact .online hst hchain (hp.trans hpar) (hk.trans hckpt) himages hdom' hvol
  · cases hr
    exact abort_outcome hf hlib hframe

/-- The copy loop: every image is copied, or it stops within the directory of the point. -/
theorem copyDisks_eq {ds : List DomainDisk} :
    ∀ {m : Metadata} {fs fs' : Files} {r : Except ProviderError Metadata},
      (ds.map DomainDisk.targetDev).Nodup → copyDisks env ds m fs = (r, fs') →
      (∀ p, (∀ d ∈ ds, p ≠ .point env.id (Metadata.diskFile d.targetDev .qcow2)) →
        fs' p = fs p) ∧
      ∀ m', r = .ok m' →
        m' = ds.foldl (fun m d => m.diskPath d.targetDev .qcow2) m ∧
        ∀ d ∈ ds, ∃ img, fs (.volume d.sourceFile) = some img ∧
          fs' (.point env.id (Metadata.diskFile d.targetDev .qcow2)) = some img := by
  induction ds with
  | nil =>
    intro m fs fs' r _ h
    cases h
    exact ⟨fun _ _ => rfl, fun m' hm' => by cases hm'; exact ⟨rfl, by simp⟩⟩
  | cons d ds ih =>
    intro m fs fs' r hnd h
    rw [List.map_cons, List.nodup_cons] at hnd
    rw [copyDisks] at h
    split at h
    · cases h
      exact ⟨fun _ _ => rfl, fun m' hm' => by cases hm'⟩
    split at h
    · cases h
      exact ⟨fun _ _ => rfl, fun m' hm' => by cases hm'⟩
    · rename_i img himg
      obtain ⟨hframe, hok⟩ := ih hnd.2 h
      refine ⟨fun p hp => ?_, fun m' hm' => ?_⟩
      · rw [hframe p fun e he => hp e (List.mem_cons_of_mem _ he),
          Files.put_of_ne _ _ (hp d List.mem_cons_self)]
      · obtain ⟨hm, himages⟩ := hok m' hm'
        refine ⟨hm, fun e he => ?_⟩
        rcases List.mem_cons.mp he with rfl | he
        · refine ⟨img, himg, ?_⟩
          rw [hframe, Files.put_self]
          -- the disks that follow have other targets
          intro x hx heq
          rw [diskFile_inj (Path.point.inj heq).2] at hnd
          exact hnd.1 (List.mem_map_of_mem hx)
        · obtain ⟨img', hvol, hcopy⟩ := himages e he
          exact ⟨img', by rwa [Files.put_of_ne _ _ (by simp)] at hvol, hcopy⟩

theorem backupOffline_eq {r : Except ProviderError Unit}
    (hf : ∀ d ∈ h.library, d.id ≠ env.id) (hdom : h.domain = some dom)
    (hst : dom.state = .shutoff) (hr : backupOffline env h dom h.vm = (r, h')) :
    BackupOutcome srt env h req r h' := by
  obtain ⟨hlib₀, hframe₀⟩ := create_frame hf
  rw [backupOffline] at hr
  split at hr
  · cases hr
    exact .kept (.refl env h) rfl
  split at hr
  · cases hr
    exact .kept (.refl env h) rfl
  dsimp only at hr
  split at hr
  · cases hr
    exact abort_outcome hf hlib₀ hframe₀
  have hcopied : ∀ {c : Except ProviderError Metadata} {fs : Files},
      copyDisks env dom.definition.fileDisks (newPoint env h.vm) (h.create h.vm env.id).files =
        (c, fs) → BackupFrame env h { h.create h.vm env.id with files := fs } := by
    intro c fs hc
    obtain ⟨hsame, -⟩ := copyDisks_eq dom.definition.fileDisks_nodup hc
    exact ⟨rfl, fun i file hi => hsame _ (by simp [hi]),
      .untouched rfl fun v => hsame _ (by simp)⟩
  split at hr
  · rename_i e fs hc
    cases hr
    exact abort_outcome hf hlib₀ (hcopied hc)
  · rename_i m fs hc
    obtain ⟨-, hok⟩ := copyDisks_eq dom.definition.fileDisks_nodup hc
    obtain ⟨rfl, himages⟩ := hok m rfl
    obtain ⟨disks, heq, himg⟩ := diskPath_foldl dom.definition.fileDisks (newPoint env h.vm)
    rw [heq] at hr
    have hcomp := completePoint_eq h.library hf hlib₀ hr
    exact hcomp.outcome rfl rfl (hcopied hc) hdom himg fun lib m' hp hk =>
      .offline hst hp hk himages

/-- **Inversion for `backupVirtualMachine`** with a freshly drawn id: one of the three
outcomes, and a successful call is one that completed a point. -/
theorem backupVirtualMachine_eq_some {r : Except ProviderError (Option Metadata)}
    (hf : ∀ d ∈ h.library, d.id ≠ env.id)
    (hr : backupVirtualMachine srt env h h.vm req = some (r, h')) :
    BackupOutcome srt env h req r h' := by
  rw [backupVirtualMachine] at hr
  split at hr
  · cases hr
    exact .kept (.refl env h) rfl
  split at hr
  · cases hr
    exact .kept (.refl env h) rfl
  rename_i dom hlook
  have hdom : h.domain = some dom := by simpa [Host.lookupDomain] using hlook
  split at hr
  · cases hr
    exact .kept (.refl env h) rfl
  rename_i parentID parentCheckpoint hchain
  obtain ⟨⟨r₁, h₁⟩, hrun, hr⟩ := Option.map_eq_some_iff.mp hr
  have hout : BackupOutcome srt env h req r₁ h₁ := by
    by_cases hst : dom.state = .shutoff
    · rw [if_pos hst] at hrun
      exact backupOffline_eq hf hdom hst (Option.some.inj hrun)
    · rw [if_neg hst] at hrun
      exact backupOnline_eq_some hf hdom hst hchain hrun
  -- reading the newest point back changes the result of a completed backup only
  cases hout with
  | kept hframe hlib =>
    cases hr
    exact .kept hframe hlib
  | leftover hframe hlib hv hi hd hx hm =>
    cases hr
    exact .leftover hframe hlib hv hi hd hx hm
  | taken hframe hlib hv hi hd hx hm hpt ht =>
    have hh : h₁ = h' := by
      rcases r₁ with e | ⟨⟨⟩⟩
      · exact (Prod.mk.inj hr).2
      · dsimp only at hr
        split at hr
        · exact (Prod.mk.inj hr).2
        · exact (Prod.mk.inj hr).2
    rw [hh] at hframe hlib ht
    exact .taken hframe hlib hv hi hd hx hm hpt ht

end Outcome

/-! ## The effects of a deletion -/

/-- What `deleteBackup` can do: directories and images can only go, and the checkpoint of
the point can go with its directory. -/
structure DeleteEffect (h : Host) (id : String) (h' : Host) : Prop where
  vm : h'.vm = h.vm
  ids : (h'.library.map PointDir.id).Sublist (h.library.map PointDir.id)
  remnants : ∀ d' ∈ h'.library, ∃ d ∈ h.library, d'.RemnantOf d
  volumes : ∀ v, h'.files (.volume v) = h.files (.volume v)
  images : ∀ i file, h'.files (.point i file) = h.files (.point i file) ∨
    h'.files (.point i file) = none
  domain : h'.domain = h.domain ∨ ∃ dom m, h.domain = some dom ∧ h.library.get id = .ok m ∧
    h'.domain = some { dom with checkpoints := dom.checkpoints.drop m.checkpoint }

theorem PointDir.RemnantOf.refl (d : PointDir) : d.RemnantOf d :=
  ⟨rfl, rfl, .inl rfl, .inl rfl⟩

/-- Removals do not rename directories. -/
theorem Library.sublist_filterMap {lib : Library} {f : PointDir → Option PointDir}
    (hf : ∀ d d', f d = some d' → d'.RemnantOf d) :
    ((lib.filterMap f).map PointDir.id).Sublist (lib.map PointDir.id) := by
  induction lib with
  | nil => exact .slnil
  | cons d lib ih =>
    rw [List.filterMap_cons, List.map_cons]
    split
    · exact ih.cons _
    · rename_i d' hd'
      rw [List.map_cons, (hf d d' hd').2.1]
      exact ih.cons_cons _

theorem DeleteEffect.refl (h : Host) (id : String) : DeleteEffect h id h :=
  ⟨rfl, .refl _, fun d hd => ⟨d, hd, .refl d⟩, fun _ => rfl, fun _ _ => .inl rfl, .inl rfl⟩

theorem removePoint_images (fs : Files) (id i file : String) :
    fs.removePoint id (.point i file) = fs (.point i file) ∨
      fs.removePoint id (.point i file) = none := by
  by_cases hi : i = id
  · exact .inr (if_pos hi)
  · exact .inl (if_neg hi)

/-- A removal that stops part way. -/
theorem partialRemoval_effect (env : DeleteEnv) (h : Host) (id : String) :
    DeleteEffect h id { h with
      library := h.library.filterMap fun d => if d.id = id then env.remains d else some d
      files := fun p => if env.survives p then h.files p else h.files.removePoint id p } := by
  have hremnant : ∀ d d', (if d.id = id then env.remains d else some d) = some d' →
      d'.RemnantOf d := by
    intro d d' hd
    split at hd
    · exact env.remnant d d' hd
    · cases hd
      exact .refl d
  refine ⟨rfl, Library.sublist_filterMap hremnant, fun d' hd' => ?_, fun v => ?_,
    fun i file => ?_, .inl rfl⟩
  · obtain ⟨d, hd, hrem⟩ := List.mem_filterMap.mp hd'
    exact ⟨d, hd, hremnant d d' hrem⟩
  · dsimp only
    split
    · rfl
    · rfl
  · dsimp only
    split
    · exact .inl rfl
    · exact removePoint_images h.files id i file

/-- **Inversion for `deleteBackup`.** -/
theorem deleteBackup_eq {env : DeleteEnv} {h h' : Host} {id : String}
    {r : Except ProviderError Unit} (hr : deleteBackup env h id = (r, h')) :
    DeleteEffect h id h' := by
  rw [deleteBackup] at hr
  split at hr
  · cases hr
    exact .refl h id
  · cases hr
    exact .refl h id
  rename_i m hm
  split at hr
  · cases hr
    exact partialRemoval_effect env h id
  split at hr
  · cases hr
    exact .refl h id
  rename_i lib hlib
  obtain ⟨d, hd, rfl⟩ := Library.delete_eq_ok hlib
  have heff : DeleteEffect h id { h with
      library := h.library.removeDir d.vmID d.id, files := h.files.removePoint id } :=
    ⟨rfl, List.filter_sublist.map _,
      fun d' hd' => ⟨d', (Library.mem_removeDir.mp hd').1, .refl d'⟩, fun _ => rfl,
      removePoint_images h.files id, .inl rfl⟩
  dsimp only at hr
  split at hr
  · cases hr
    exact heff
  · cases hr
    rw [Host.dropCheckpoint]
    split
    · exact heff
    · rename_i dom hdom
      have hdom' : h.domain = some dom := by
        rw [Host.lookupDomain] at hdom
        split at hdom
        · exact hdom
        · cases hdom
      exact ⟨rfl, heff.ids, heff.remnants, heff.volumes, heff.images,
        .inr ⟨dom, m, hdom', hm, rfl⟩⟩

end Ultrav
