import Ultrav.History

/-!
# The blocks of a backup chain

Restoring a point gives back the blocks the disks had when it was taken, as long as the
dirty bitmaps describe the disks. A restore that replaces a disk and then fails leaves
the checkpoints of the replaced contents alive: writes behind the back of the bitmaps.

* `ImageHolds` — what the image of a point must hold: everything, or at least the blocks
  that changed since its parent.
* `Blocks` — the invariant: images hold what they must, and the checkpoint of each
  visible point covers the changes since that point.
* `CleanRestore` — the restore that keeps it.
* `restored_blocks` — every point that `restoreChain` accepts is rebuilt exactly.
-/

namespace Ultrav

/-! ## Cells -/

theorem Files.cells_guestWrite (fs : Files) (w : GuestWrite) {c : String × ℕ}
    (hc : c ≠ (w.file, w.block)) : (fs.guestWrite w).cells c = fs.cells c := by
  obtain ⟨v, b⟩ := c
  rcases hw : fs (.volume w.file) with _ | img
  · simp only [Files.guestWrite, hw]
  · simp only [Files.guestWrite, hw, Files.cells, Files.readVolume]
    by_cases hv : v = w.file
    · have hb : b ≠ w.block := by
        rintro rfl
        exact hc (by rw [hv])
      rw [hv, Files.put_self, hw]
      simp only [Image.read, Image.write, Function.update_of_ne hb]
    · rw [Files.put_of_ne _ _ (by simpa using hv)]

theorem Files.cells_congr {fs gs : Files} (h : ∀ v, fs (.volume v) = gs (.volume v)) :
    fs.cells = gs.cells := by
  funext c
  rw [Files.cells, Files.cells, Files.readVolume, Files.readVolume, h]

/-- Whatever the restore gets through reads as the volume it is put onto. -/
def RestorePlan.KeepsBlocks (plan : RestorePlan) (env : RestoreEnv) (fs : Files) : Prop :=
  ∀ v disk img, lastOnto v (plan.restored env fs) = some disk →
    assemble fs plan.chain disk = some img → ∀ b, img.read b = fs.readVolume v b

/-- Such a restore leaves every block. -/
theorem cells_of_keepsBlocks {env : RestoreEnv} {h h' : Host} {id : String}
    {r : Except ProviderError Domain} {plan : RestorePlan}
    (hr : restoreBackup env h id = some (r, h')) (ho : openRestore env h id = some (.ok plan))
    (hkeep : plan.KeepsBlocks env h.files) : h'.files.cells = h.files.cells := by
  obtain ⟨-, -, hvol⟩ := restoreBackup_eq_some hr
  funext ⟨v, b⟩
  have hv := hvol plan ho v
  rw [Files.cells, Files.readVolume, hv]
  rcases hlast : lastOnto v (plan.restored env h.files) with _ | disk
  · rfl
  · obtain ⟨-, hsome⟩ := mem_restoredDisks (mem_of_lastOnto hlast)
    obtain ⟨img, himg⟩ := Option.isSome_iff_exists.mp hsome
    simp only [himg]
    exact hkeep v disk img hlast himg b

/-- Guest writes keep what a checkpoint covers. -/
theorem covers_guestWrites (ws : List GuestWrite) {k : String} {old : String × ℕ → ℕ} :
    ∀ {log : DirtyLog String (String × ℕ)} {fs : Files}, log.Covers k old fs.cells →
      k ∈ log.names → (markAll ws log).Covers k old (ws.foldl Files.guestWrite fs).cells := by
  induction ws with
  | nil => exact fun h _ => h
  | cons w ws ih =>
    intro log fs h hk
    exact ih (h.write hk fun c hc => Files.cells_guestWrite fs w hc)
      (by rwa [DirtyLog.names_mark])

/-! ## The invariant -/

/-- What the image of a disk in a completed point holds: the whole disk, or the blocks
that changed since the parent was taken. -/
inductive ImageHolds (made : List Taken) (t : Taken) (src : String) (img : Image) : Prop where
  /-- a full image -/
  | full : t.metadata.parentID = "" → (∀ b, img.read b = t.contents (src, b)) →
      ImageHolds made t src img
  /-- an incremental image -/
  | incremental {q : Taken} : t.metadata.parentID ≠ "" → q ∈ made →
      q.metadata.id = t.metadata.parentID →
      Delta (fun b => q.contents (src, b)) (fun b => t.contents (src, b)) img.clusters →
      ImageHolds made t src img

theorem ImageHolds.mono {made made' : List Taken} {t : Taken} {src : String} {img : Image}
    (h : ImageHolds made t src img) (hsub : made ⊆ made') : ImageHolds made' t src img := by
  cases h with
  | full hp hr => exact .full hp hr
  | incremental hp hq hid hd => exact .incremental hp (hsub hq) hid hd

/-- The library shows the point. -/
def Library.Shows (lib : Library) (m : Metadata) : Prop := ∃ d ∈ lib, d.metadata = some m

theorem Library.shows_append {lib : Library} {d : PointDir} {m : Metadata} :
    Library.Shows (lib ++ [d]) m ↔ lib.Shows m ∨ d.metadata = some m := by
  simp [Shows, or_and_right, exists_or]

namespace History

/-- Images and checkpoints tell the truth about the disks. -/
structure Blocks (D : Definition) (s : History) : Prop where
  /-- the images of completed points hold what they must -/
  images : ∀ t ∈ s.made, ∀ d ∈ D.fileDisks, ∀ img,
    s.host.files (.point t.metadata.id (Metadata.diskFile d.targetDev .qcow2)) = some img →
      ImageHolds s.made t d.sourceFile img
  /-- the checkpoint of a visible point covers what changed since -/
  live : ∀ dom, s.host.domain = some dom → ∀ t ∈ s.made, s.host.library.Shows t.metadata →
    t.metadata.checkpoint ≠ "" → t.metadata.checkpoint ∈ dom.checkpoints.names →
      dom.checkpoints.Covers t.metadata.checkpoint t.contents s.host.files.cells

/-- A restore that leaves the blocks of the disks, or leaves no checkpoint of a visible
point alive: it gets through every disk and then drops each of them. -/
def CleanRestore (s : History) : HistoryOp → Prop
  | .restore env id => ∀ plan, openRestore env s.host id = some (.ok plan) →
      plan.KeepsBlocks env s.host.files ∨
        ∀ m, s.host.library.Shows m → m.checkpoint ∈ plan.domain.checkpoints.names →
          (plan.restored env s.host.files).map Prod.fst =
              plan.metadata.disks.map DiskEntry.name ∧
            env.listFails = false ∧ env.dropFails m.checkpoint = false
  | _ => True

/-- Each disk of a point is rebuilt: the temp image that the steps of `restoreDiskChain`
assemble has the contents the disk had when the point was taken, and they do assemble it
while the images of the chain are all there. -/
def Rebuilds (D : Definition) (fs : Files) (chain : List Metadata) (t : Taken) : Prop :=
  ∀ e ∈ t.metadata.disks, ∃ src, D.sources e.name = some src ∧ ∀ dst,
    (∀ sc fs', execAll (assembleSteps chain e.name) ⟨dst, []⟩ fs = some (sc, fs') →
      ∃ img, fs' (.restoreTmp dst) = some img ∧ ∀ b, img.read b = t.contents (src, b)) ∧
    ((∀ p ∈ chain, ∃ img, fs (.point p.id (Metadata.diskFile e.name .qcow2)) = some img ∧
        (p.parentID = "" → img.backing = none)) →
      (execAll (assembleSteps chain e.name) ⟨dst, []⟩ fs).isSome)

section Blocks

variable {D : Definition} {s s' : History}

/-! ## Each operation keeps the blocks -/

theorem Blocks.write (hb : Blocks D s) (w : GuestWrite) :
    Blocks D { s with host := s.host.guestWrite w } := by
  rcases hd : s.host.domain with _ | dom
  · have heq : s.host.guestWrite w = s.host := by simp only [Host.guestWrite, hd]
    rw [heq]
    exact hb
  · have heq := Host.guestWrites_eq [w] hd
    simp only [List.foldl_cons, List.foldl_nil] at heq
    rw [heq]
    refine ⟨fun t ht d hdisk img himg => ?_, fun dom' hd' t ht hshow hne hmem => ?_⟩
    · dsimp only at himg
      rw [Files.guestWrite_of_not_volume _ _ (by simp)] at himg
      exact hb.images t ht d hdisk img himg
    · cases hd'
      rw [names_markAll] at hmem
      exact covers_guestWrites [w] (hb.live dom hd t ht hshow hne hmem) hmem

theorem Blocks.power (hb : Blocks D s) {dom : Domain} (hd : s.host.domain = some dom)
    (state : DomainState) :
    Blocks D { s with host := { s.host with domain := some { dom with state := state } } } := by
  refine ⟨hb.images, fun dom' hd' t ht hshow hne hmem => ?_⟩
  cases hd'
  exact hb.live dom hd t ht hshow hne hmem

theorem Blocks.delete (hw : Wf D s) (hb : Blocks D s) (env : DeleteEnv) (id : String) :
    Blocks D { s with host := (deleteBackup env s.host id).2 } := by
  rcases hr : deleteBackup env s.host id with ⟨r, h'⟩
  obtain ⟨-, -, hrem, hvol, himages, hdom⟩ := deleteBackup_eq hr
  have hshows : ∀ m, h'.library.Shows m → s.host.library.Shows m := by
    rintro m ⟨d', hd', hm⟩
    obtain ⟨d, hd, -, -, hmeta, -⟩ := hrem d' hd'
    refine ⟨d, hd, ?_⟩
    rcases hmeta with hmeta | hmeta
    · rw [← hmeta, hm]
    · rw [hmeta] at hm
      cases hm
  refine ⟨fun t ht d hd img himg => ?_, fun dom hd t ht hshow hne hmem => ?_⟩
  · rcases himages t.metadata.id (Metadata.diskFile d.targetDev .qcow2) with heq | heq
    · exact hb.images t ht d hd img (heq ▸ himg)
    · dsimp only at himg
      rw [heq] at himg
      cases himg
  · dsimp only
    rw [Files.cells_congr hvol]
    rcases hdom with heq | ⟨dom₀, m, hd₀, -, heq⟩
    · exact hb.live dom (heq ▸ hd) t ht (hshows _ hshow) hne hmem
    · obtain rfl : { dom₀ with checkpoints := dom₀.checkpoints.drop m.checkpoint } = dom :=
        Option.some.inj (heq.symm.trans hd)
      rw [DirtyLog.names_drop] at hmem
      have hmem₀ := List.mem_of_mem_erase hmem
      have hother : m.checkpoint ≠ t.metadata.checkpoint := by
        intro hck
        rw [hck, (hw.domain dom₀ hd₀).names_nodup.mem_erase_iff] at hmem
        exact hmem.1 rfl
      exact (hb.live dom₀ hd₀ t ht (hshows _ hshow) hne hmem₀).drop hmem₀ hother

/-- What a backup does to the checkpoints that were alive. -/
theorem Blocks.live_of_frame (hw : Wf D s) (hb : Blocks D s) {env : BackupEnv} {h' : Host}
    (hnew : env.id ∉ s.drawn) (hf : BackupFrame env s.host h') :
    ∀ dom, h'.domain = some dom → ∀ t ∈ s.made, s.host.library.Shows t.metadata →
      t.metadata.checkpoint ≠ "" → t.metadata.checkpoint ∈ dom.checkpoints.names →
        dom.checkpoints.Covers t.metadata.checkpoint t.contents h'.files.cells := by
  intro dom hd t ht hshow hne hmem
  cases hf.guest with
  | untouched heq hvol =>
    rw [Files.cells_congr hvol]
    exact hb.live dom (heq ▸ hd) t ht hshow hne hmem
  | @begun dom₀ hd₀ _ heq hvol =>
    obtain rfl : begunDomain env dom₀ = dom := Option.some.inj (heq.symm.trans hd)
    rw [Files.cells_congr hvol]
    have hpoint := hw.points t.metadata (List.mem_map_of_mem ht)
    have hother : checkpointName env.id ≠ t.metadata.checkpoint := by
      intro hck
      rw [hpoint.checkpoint.resolve_left hne] at hck
      have hid := checkpointName_inj env.id_valid (hw.drawn _ hpoint.drawn) hck
      exact hnew (hid ▸ hpoint.drawn)
    have hmem' : t.metadata.checkpoint ∈
        (dom₀.checkpoints.begin (checkpointName env.id)).names := by
      simpa [begunDomain] using hmem
    have hmem₀ : t.metadata.checkpoint ∈ dom₀.checkpoints.names := by
      rw [DirtyLog.names_begin, List.mem_cons] at hmem'
      exact hmem'.resolve_left (Ne.symm hother)
    exact covers_guestWrites env.writes
      ((hb.live dom₀ hd₀ t ht hshow hne hmem₀).begin_ne hother) hmem'

/-- The images of old points after a backup. -/
theorem Blocks.images_of_frame (hw : Wf D s) (hb : Blocks D s) {env : BackupEnv} {h' : Host}
    (hnew : env.id ∉ s.drawn) (hf : BackupFrame env s.host h') :
    ∀ t ∈ s.made, ∀ d ∈ D.fileDisks, ∀ img,
      h'.files (.point t.metadata.id (Metadata.diskFile d.targetDev .qcow2)) = some img →
        ImageHolds s.made t d.sourceFile img := by
  intro t ht d hd img himg
  have hid : t.metadata.id ≠ env.id := by
    intro heq
    exact hnew (heq ▸ (hw.points t.metadata (List.mem_map_of_mem ht)).drawn)
  rw [hf.points _ _ hid] at himg
  exact hb.images t ht d hd img himg

/-- **The images of a new point hold what they must.** -/
theorem Blocks.imageHolds_taken (hw : Wf D s) (hb : Blocks D s)
    {srt : SortDesc Metadata Metadata.createdAt} {env : BackupEnv} {req : Option CreateType}
    {dom : Domain} {h' : Host} {m : Metadata} (hd : s.host.domain = some dom)
    (ht : PointTaken srt env s.host req dom h' m) (made : List Taken) (hmade : s.made ⊆ made) :
    ∀ d ∈ D.fileDisks, ∀ img,
      h'.files (.point env.id (Metadata.diskFile d.targetDev .qcow2)) = some img →
        ImageHolds made ⟨m, s.host.files.cells⟩ d.sourceFile img := by
  intro d hdisk img himg
  have hdisk' : d ∈ dom.definition.fileDisks := by rwa [(hw.domain dom hd).definition]
  cases ht with
  | offline _ hp _ himages =>
    obtain ⟨img', hvol, hcopy⟩ := himages d hdisk'
    obtain rfl : img' = img := Option.some.inj (hcopy.symm.trans himg)
    refine .full hp fun b => ?_
    simp only [Files.cells, Files.readVolume, hvol]
  | @online parentID parentCheckpoint _ hchain hp _ himages _ _ =>
    obtain rfl : backupImage s.host.files dom.checkpoints parentCheckpoint d.sourceFile = img :=
      Option.some.inj ((himages d hdisk').symm.trans himg)
    by_cases hne : parentID = ""
    · -- a full: `backupChainParent` returns both names empty
      have hck : parentCheckpoint = "" := by
        rcases backupChainParent_eq_ok hchain with heq | ⟨newest, rest, hl, heq, -, -⟩
        · cases heq
          rfl
        · cases heq
          have hvalid := hw.drawn _ (hw.points newest
            (hw.get_mem (hw.get_of_list hl newest List.mem_cons_self)).1).drawn
          rw [hne, idPattern_empty] at hvalid
          cases hvalid
      rw [backupImage, if_pos hck]
      exact .full (hp.trans hne) fun b => rfl
    · obtain ⟨newest, rest, hl, hmem, hnid, hnck, hck, halive⟩ := hw.parent_mem hchain hne
      obtain ⟨q, hq, rfl⟩ := List.mem_map.mp hmem
      obtain ⟨dir, hdir, -, -, hshow⟩ := Library.mem_of_get
        (hw.get_of_list hl q.metadata List.mem_cons_self)
      have hcovers := hb.live dom hd q hq
        ⟨dir, hdir, (PointDir.completed_eq_some.mp hshow).1⟩ hck halive
      rw [hnck] at hcovers hck
      rw [backupImage, if_neg hck]
      refine .incremental (by rw [hp]; exact hne) (hmade hq) (hnid.trans hp.symm) ?_
      exact hcovers.delta (fun b => (d.sourceFile, b)) (fun b hb => if_pos hb)
        fun b hb => if_neg hb

theorem Blocks.backup (hw : Wf D s) (hb : Blocks D s)
    {srt : SortDesc Metadata Metadata.createdAt} {env : BackupEnv} {req : Option CreateType}
    (hnew : env.id ∉ s.drawn) (hs : step srt s (.backup env req) = some s') : Blocks D s' := by
  obtain ⟨⟨r, h'⟩, hr, rfl⟩ := Option.map_eq_some_iff.mp hs
  have hfresh := hw.fresh_dirs hnew
  cases backupVirtualMachine_eq_some hfresh hr with
  | kept hf hlib =>
    have hnone : h'.library.lookup env.id = none :=
      Library.lookup_eq_none fun d hd hi => absurd hi (hfresh d (hlib ▸ hd))
    simp only [hnone, Option.toList_none, List.map_nil, List.nil_append]
    refine ⟨hb.images_of_frame hw hnew hf,
      fun dom hd t ht hshow => hb.live_of_frame hw hnew hf dom hd t ht ?_⟩
    rwa [← hlib]
  | @leftover _ _ d₀ dom hf hlib hv hi hd₀ hx hm₀ =>
    have hnone : h'.library.lookup env.id = none := by
      rw [hlib]
      exact Library.lookup_append_bare hfresh hm₀
    simp only [hnone, Option.toList_none, List.map_nil, List.nil_append]
    refine ⟨hb.images_of_frame hw hnew hf,
      fun dom hd t ht hshow => hb.live_of_frame hw hnew hf dom hd t ht ?_⟩
    dsimp only at hshow
    rw [hlib, Library.shows_append, hm₀] at hshow
    exact hshow.resolve_right (by simp)
  | @taken _ _ d₀ dom m₀ hf hlib hv hi hd₀ hx hm₀ hpt ht =>
    have hsome : h'.library.lookup env.id = some m₀ := by
      rw [Library.lookup_eq_some, hlib]
      exact hpt.get_append hfresh env.id_valid hi hm₀
    simp only [hsome, Option.toList_some, List.map_cons, List.map_nil, List.cons_append,
      List.nil_append]
    refine ⟨fun t ht' d hd img himg => ?_,
      fun dom' hd' t ht' hshow hne hmem => ?_⟩
    · rcases List.mem_cons.mp ht' with rfl | ht'
      · dsimp only at himg
        rw [hpt.id] at himg
        exact hb.imageHolds_taken hw hd₀ ht _ (List.subset_cons_self _ _) d hd img himg
      · exact (hb.images_of_frame hw hnew hf t ht' d hd img himg).mono
          (List.subset_cons_self _ _)
    · rcases List.mem_cons.mp ht' with rfl | ht'
      · -- the new point: its checkpoint was begun with the job
        cases ht with
        | offline _ _ hck _ => exact absurd hck hne
        | online _ _ _ hck _ hdom hvol =>
          obtain rfl : begunDomain env dom = dom' := Option.some.inj (hdom.symm.trans hd')
          dsimp only at hne hmem ⊢
          rw [Files.cells_congr hvol, hck]
          exact covers_guestWrites env.writes (.begin_self _ _ _) (by simp)
      · refine hb.live_of_frame hw hnew hf dom' hd' t ht' ?_ hne hmem
        dsimp only at hshow
        rw [hlib, Library.shows_append, hm₀] at hshow
        refine hshow.resolve_right fun hm => hnew ?_
        -- an old point has an old id
        rw [← hpt.id, Option.some.inj hm]
        exact (hw.points t.metadata (List.mem_map_of_mem ht')).drawn

theorem Blocks.restore (hw : Wf D s) (hb : Blocks D s) {env : RestoreEnv} {id : String}
    {r : Except ProviderError Domain} {h' : Host} (hclean : CleanRestore s (.restore env id))
    (hr : restoreBackup env s.host id = some (r, h')) : Blocks D { s with host := h' } := by
  obtain ⟨hout, hpts, -⟩ := restoreBackup_eq_some hr
  refine ⟨fun t ht d hd img himg => hb.images t ht d hd img ((hpts _ _).symm.trans himg),
    fun dom hd t ht hshow hne hmem => ?_⟩
  cases hout with
  | refused _ => exact hb.live dom hd t ht hshow hne hmem
  | @stopped plan e fs ho hpart =>
    rcases hclean plan ho with hkeep | hdrop
    · have hcells : fs.cells = s.host.files.cells := cells_of_keepsBlocks hr ho hkeep
      dsimp only
      rw [hcells]
      exact hb.live dom hd t ht hshow hne hmem
    · obtain ⟨-, -, -, hdom₀, -, -⟩ := openRestore_eq_ok ho
      obtain rfl : plan.domain = dom := Option.some.inj (hdom₀.symm.trans hd)
      exact absurd (hdrop t.metadata hshow hmem).1 hpart
  | @restored plan fs dom' ho hall hdom =>
    obtain ⟨-, -, -, hdom₀, -, -⟩ := openRestore_eq_ok ho
    rcases redefine_eq_some (hdom.symm.trans hd) with rfl | ⟨saved, -, rfl⟩
    · have hnames := (hw.domain plan.domain hdom₀).names_nodup
      have hkept : t.metadata.checkpoint ∈ plan.domain.checkpoints.names := by
        rw [deleteUltravCheckpoints] at hmem
        split at hmem
        · exact hmem
        · exact DirtyLog.mem_of_mem_dropWhere hmem
      rcases hclean plan ho with hkeep | hdrop
      · have hcells : fs.cells = s.host.files.cells := cells_of_keepsBlocks hr ho hkeep
        have hlive := hb.live plan.domain hdom₀ t ht hshow hne hkept
        dsimp only
        rw [hcells]
        rw [deleteUltravCheckpoints] at hmem ⊢
        split
        · exact hlive
        · rename_i hlist
          rw [if_neg hlist] at hmem
          exact hlive.dropWhere hnames hmem
      · -- the checkpoint of a visible point was dropped
        obtain ⟨-, hlist, hdrop⟩ := hdrop t.metadata hshow hkept
        have hname := (hw.points t.metadata (List.mem_map_of_mem ht)).checkpoint.resolve_left hne
        rw [deleteUltravCheckpoints] at hmem
        rw [if_neg (by simp [hlist])] at hmem
        refine absurd hmem (DirtyLog.not_mem_dropWhere ?_ hnames)
        rw [hdrop, hname, isUltravCheckpoint_checkpointName]
        rfl
    · cases hmem

/-- Every operation keeps the blocks, if restores are clean. -/
theorem Blocks.step (hw : Wf D s) (hb : Blocks D s)
    {srt : SortDesc Metadata Metadata.createdAt} {op : HistoryOp} (hnew : Fresh s op)
    (hclean : CleanRestore s op) (hs : History.step srt s op = some s') : Blocks D s' := by
  cases op with
  | write w =>
    rw [History.step] at hs
    split at hs
    · cases hs
    · split at hs
      · cases hs
      · cases hs
        exact hb.write w
  | power state =>
    obtain ⟨dom, hd, rfl⟩ := Option.map_eq_some_iff.mp hs
    exact hb.power hd state
  | backup env req => exact hb.backup hw hnew hs
  | delete env id =>
    cases hs
    exact hb.delete hw env id
  | restore env id =>
    obtain ⟨⟨r, h'⟩, hr, rfl⟩ := Option.map_eq_some_iff.mp hs
    exact hb.restore hw hclean hr

/-! ## What a chain assembles -/

/-- What a chain makes of a disk is what the disk held at the time, and it makes something once
all its images are there. -/
structure Assembled (fs : Files) (chain : List Metadata) (d : DomainDisk) (t : Taken) : Prop where
  exact : ∀ img, assemble fs chain d.targetDev = some img →
    img.format = .qcow2 ∧ ∀ b, img.read b = t.contents (d.sourceFile, b)
  total : (∀ p ∈ chain, ∃ img,
    fs (.point p.id (Metadata.diskFile d.targetDev .qcow2)) = some img ∧
      (p.parentID = "" → img.backing = none)) → (assemble fs chain d.targetDev).isSome

/-- A full point alone: its image is converted. -/
theorem Blocks.assembled_root (hw : Wf D s) (hb : Blocks D s) {t : Taken} (ht : t ∈ s.made)
    {d : DomainDisk} (hd : d ∈ D.fileDisks) (hp : t.metadata.parentID = "") :
    Assembled s.host.files [t.metadata] d t := by
  have himage := (hw.points t.metadata (List.mem_map_of_mem ht)).diskImage_of_mem hd
  have hasm : assemble s.host.files [t.metadata] d.targetDev =
      (s.host.files (.point t.metadata.id (Metadata.diskFile d.targetDev .qcow2))).bind
        fun src => src.convert .qcow2 := by
    rw [assemble_singleton]
    simp only [localImage, himage, if_pos hp]
    rcases s.host.files (.point t.metadata.id (Metadata.diskFile d.targetDev .qcow2)) <;> rfl
  refine ⟨fun img himg => ?_, fun hall => ?_⟩
  · rw [hasm] at himg
    obtain ⟨src, hfile, himg⟩ := Option.bind_eq_some_iff.mp himg
    obtain ⟨-, hformat, hread⟩ := Image.convert_eq_some himg
    refine ⟨hformat, fun b => ?_⟩
    cases hb.images t ht d hd src hfile with
    | full _ hcontents => rw [hread, hcontents]
    | incremental hne _ _ _ => exact absurd hp hne
  · obtain ⟨img, hfile, hback⟩ := hall t.metadata List.mem_cons_self
    rw [hasm, hfile]
    exact Image.convert_isSome (hback hp)

/-- An incremental at the end of a chain: what the chain of its parent `q` makes, and the blocks
that changed since. -/
theorem Blocks.assembled_child (hw : Wf D s) (hb : Blocks D s) {t q : Taken} (ht : t ∈ s.made)
    (hq : q ∈ s.made) {d : DomainDisk} (hd : d ∈ D.fileDisks) {l : List Metadata} (hne : l ≠ [])
    (hpid : t.metadata.parentID = q.metadata.id) (hp : t.metadata.parentID ≠ "")
    (hold : Assembled s.host.files l d q) :
    Assembled s.host.files (l ++ [t.metadata]) d t := by
  have himage := (hw.points t.metadata (List.mem_map_of_mem ht)).diskImage_of_mem hd
  have hasm : assemble s.host.files (l ++ [t.metadata]) d.targetDev =
      (assemble s.host.files l d.targetDev).bind fun tmp =>
        (s.host.files (.point t.metadata.id (Metadata.diskFile d.targetDev .qcow2))).bind
          fun src => Image.convertInto .qcow2 src.detach tmp := by
    rw [assemble_concat s.host.files hne]
    simp only [localImage, himage, if_neg hp]
    rcases s.host.files (.point t.metadata.id (Metadata.diskFile d.targetDev .qcow2)) <;> rfl
  refine ⟨fun img himg => ?_, fun hall => ?_⟩
  · rw [hasm] at himg
    obtain ⟨tmp, htmp, himg⟩ := Option.bind_eq_some_iff.mp himg
    obtain ⟨src, hfile, hinto⟩ := Option.bind_eq_some_iff.mp himg
    obtain ⟨-, -, hformat, hread⟩ := Image.convertInto_eq_some hinto
    refine ⟨hformat, fun b => ?_⟩
    cases hb.images t ht d hd src hfile with
    | full hfull _ => exact absurd hfull hp
    | @incremental q' _ hq' hid hdelta =>
      obtain rfl : q' = q := hw.made_inj hq' hq (hid.trans hpid)
      have htmpread : tmp.read = fun b => q'.contents (d.sourceFile, b) :=
        funext (hold.exact tmp htmp).2
      rw [hread, Image.detach_clusters, htmpread, hdelta.replay_eq]
  · obtain ⟨tmp, htmp⟩ := Option.isSome_iff_exists.mp
      (hold.total fun x hx => hall x (List.mem_append_left _ hx))
    obtain ⟨src, hfile, -⟩ := hall t.metadata (List.mem_append_right _ List.mem_cons_self)
    rw [hasm, htmp, hfile]
    have hback : src.detach.backing = none := rfl
    exact Image.convertInto_isSome hback (hold.exact tmp htmp).1

/-- **The chain of a completed point assembles to the contents of the disk when it was
taken**: the full image first, then each incremental replayed. -/
theorem Blocks.assemble_line (hw : Wf D s) (hb : Blocks D s) {m : Metadata}
    {chain : List Metadata}
    (hline : Lineage.Line s.host.library.lookup Metadata.parent m chain) :
    ∀ {t : Taken}, t ∈ s.made → t.metadata = m → ∀ d ∈ D.fileDisks,
      Assembled s.host.files chain d t := by
  induction hline with
  | root hroot =>
    rintro t ht rfl d hd
    exact hb.assembled_root hw ht hd (Metadata.parent_eq_none.mp hroot)
  | child hpar hlook hl ih =>
    rintro t ht rfl d hd
    obtain ⟨hpk, hne⟩ := Metadata.parent_eq_some.mp hpar
    obtain ⟨hpmem, hpid⟩ := hw.get_mem (Library.lookup_eq_some.mp hlook)
    obtain ⟨q, hq, rfl⟩ := List.mem_map.mp hpmem
    exact hb.assembled_child hw ht hq hd hl.ne_nil (hpk.trans hpid.symm) (hpk ▸ hne)
      (ih hq rfl d hd)

theorem Started.blocks {s : History} (h : Started D s) : Blocks D s := by
  refine ⟨fun t ht => ?_, fun dom _ t ht => ?_⟩
  · rw [h.made] at ht
    cases ht
  · rw [h.made] at ht
    cases ht

/-- Histories with clean restores keep both invariants. -/
theorem blocks_of_run {s₀ : History} {srt : SortDesc Metadata Metadata.createdAt}
    {ops : List HistoryOp} (hstart : Started D s₀)
    (hguard : Machine.Along (History.step srt) (fun s op => Fresh s op ∧ CleanRestore s op) s₀ ops)
    (hrun : Machine.run (History.step srt) s₀ ops = some s) : Wf D s ∧ Blocks D s :=
  Machine.run_inv (I := fun s => Wf D s ∧ Blocks D s)
    (fun _ _ _ h hg hs => ⟨h.1.step hg.1 hs, h.2.step h.1 hg.1 hg.2 hs⟩)
    ⟨hstart.wf, hstart.blocks⟩ hguard hrun

/-- **Restore undoes backup, block by block**, in every history whose restores are clean,
for every point of the library that `restoreChain` accepts. -/
theorem restored_blocks {s₀ : History} {srt : SortDesc Metadata Metadata.createdAt}
    {ops : List HistoryOp} {rounds : ℕ} {m : Metadata} {chain : List Metadata}
    (hstart : Started D s₀)
    (hguard : Machine.Along (History.step srt) (fun s op => Fresh s op ∧ CleanRestore s op) s₀ ops)
    (hrun : Machine.run (History.step srt) s₀ ops = some s)
    (hget : s.host.library.get m.id = .ok m)
    (hchain : restoreChain rounds s.host.library m = some (.ok chain)) :
    ∃ t ∈ s.made, t.metadata = m ∧ Rebuilds D s.host.files chain t := by
  obtain ⟨hw, hb⟩ := blocks_of_run hstart hguard hrun
  have hmem := (hw.get_mem hget).1
  obtain ⟨t, ht, htm⟩ := List.mem_map.mp hmem
  refine ⟨t, ht, htm, fun e he => ?_⟩
  have himage : e.image ∈ D.fileDisks.map DomainDisk.image := by
    rw [← (hw.points m hmem).shape.images, ← htm]
    exact List.mem_map_of_mem he
  obtain ⟨d, hd, heq⟩ := List.mem_map.mp himage
  have hname : d.targetDev = e.name := congrArg Prod.fst heq
  obtain ⟨hne, hnd⟩ := restoreChain_nodup hget hchain
  obtain ⟨hread, hsome⟩ := hb.assemble_line hw (restoreChain_eq_ok hchain) ht htm d hd
  rw [hname] at hread hsome
  refine ⟨d.sourceFile, hname ▸ Definition.sources_of_mem hd, fun dst => ?_⟩
  have hbuild := assembleSteps_execAll hne hnd dst e.name s.host.files
  refine ⟨fun sc fs hex => ?_, fun hall => ?_⟩
  · rcases himg : assemble s.host.files chain e.name with _ | img
    · rw [himg] at hbuild
      rw [hbuild] at hex
      cases hex
    · rw [himg] at hbuild
      obtain ⟨sc', fs', hex', -, htmp⟩ := hbuild
      rw [hex'] at hex
      cases hex
      exact ⟨img, htmp, (hread img himg).2⟩
  · obtain ⟨img, himg⟩ := Option.isSome_iff_exists.mp (hsome hall)
    rw [himg] at hbuild
    obtain ⟨sc', fs', hex', -, -⟩ := hbuild
    rw [hex']
    rfl

end Blocks

end History

/-! ### A restore that fails on its second disk -/

namespace Stale

/-- Two qcow2 disks. -/
def definition : Definition :=
  ⟨[⟨.disk, .qcow2, "vda", "/vm1-a.qcow2"⟩, ⟨.disk, .qcow2, "vdb", "/vm1-b.qcow2"⟩], by decide⟩

/-- The running VM before its first backup, all blocks zero. -/
def start : History :=
  .initial "vm1" definition .running fun p =>
    if p = .volume "/vm1-a.qcow2" ∨ p = .volume "/vm1-b.qcow2" then
      some ⟨.qcow2, none, fun _ => none⟩
    else none

/-- The download of the second disk fails. -/
def restore : RestoreEnv := { RestoreEnv.smooth 1 with steps := ⟨(· == 5), fun _ => none⟩ }

/-- A block is written after the full and saved by an incremental; the restore of the full
undoes it on the first disk and fails. The next incremental continues the chain. -/
def ops : List HistoryOp :=
  [.backup (.smooth "bk-1" (.refl true) 1) none, .write ⟨"/vm1-a.qcow2", 0, 1⟩,
    .backup (.smooth "bk-2" (.refl true) 2) none, .power .shutoff, .restore restore "bk-1",
    .power .running, .backup (.smooth "bk-3" (.refl true) 3) none]

theorem started : History.Started definition start := History.initial_started ..

theorem fresh :
    Machine.Along (History.step (.insertion Metadata.createdAt)) History.Fresh start ops :=
  .cons (List.not_mem_nil : "bk-1" ∉ []) rfl <| .cons trivial rfl <|
    .cons (by decide : "bk-2" ∉ ["bk-1"]) rfl <| .cons trivial rfl <| .cons trivial rfl <|
      .cons trivial rfl <| .cons (by decide : "bk-3" ∉ ["bk-2", "bk-1"]) rfl <| .nil _

/-- The point of the last backup. -/
def last : Metadata :=
  ⟨"bk-3", "vm1", "vm1", .incremental, .complete, 3,
    [⟨"vda", "vda.qcow2", .qcow2, 1⟩, ⟨"vdb", "vdb.qcow2", .qcow2, 1⟩], true, "bk-2", "chk-3"⟩

/-- The part of the history before the restore. -/
def before : List HistoryOp := ops.take 3

theorem before_clean :
    Machine.Along (History.step (.insertion Metadata.createdAt))
      (fun s op => History.Fresh s op ∧ History.CleanRestore s op) start before :=
  .cons ⟨(List.not_mem_nil : "bk-1" ∉ []), trivial⟩ rfl <| .cons ⟨trivial, trivial⟩ rfl <|
    .cons ⟨(by decide : "bk-2" ∉ ["bk-1"]), trivial⟩ rfl <| .nil _

end Stale

/-- The theorem, at work on the incremental before the restore. -/
theorem History.restored_blocks_stale :
    ∃ s m chain, Machine.run (History.step (.insertion Metadata.createdAt)) Stale.start
        Stale.before = some s ∧ s.host.library.get "bk-2" = .ok m ∧
      restoreChain 2 s.host.library m = some (.ok chain) ∧
      ∃ t ∈ s.made, t.metadata = m ∧ History.Rebuilds Stale.definition s.host.files chain t :=
  ⟨_, _, _, rfl, rfl, rfl, @History.restored_blocks _ _ _ _ _ 2 _ _ Stale.started
    Stale.before_clean rfl rfl rfl⟩

/-- Without clean restores a point can be rebuilt wrongly: the last incremental relies on a
checkpoint that does not know the first disk was replaced. -/
theorem restored_blocks_wrong :
    ¬ ∀ (srt : SortDesc Metadata Metadata.createdAt) (D : Definition) (s₀ s : History)
        (ops : List HistoryOp) (rounds : ℕ) (m : Metadata) (chain : List Metadata),
      History.Started D s₀ → Machine.Along (History.step srt) History.Fresh s₀ ops →
      Machine.run (History.step srt) s₀ ops = some s → s.host.library.get m.id = .ok m →
      restoreChain rounds s.host.library m = some (.ok chain) →
      ∃ t ∈ s.made, t.metadata = m ∧ History.Rebuilds D s.host.files chain t := by
  intro hall
  obtain ⟨t, ht, htm, hreb⟩ := hall (.insertion _) Stale.definition Stale.start _ Stale.ops 3
    Stale.last _ Stale.started Stale.fresh rfl rfl rfl
  obtain ⟨src, hsrc, hdst⟩ := hreb ⟨"vda", "vda.qcow2", .qcow2, 1⟩ (by rw [htm]; decide)
  obtain ⟨img, himg, hread⟩ := (hdst "/vm1-a.qcow2").1 _ _ rfl
  obtain rfl : "/vm1-a.qcow2" = src := Option.some.inj hsrc
  -- the temp image has the block of the first incremental, which the restore had undone
  have himg' := congrArg (Option.map fun i => i.read 0) himg
  have hone : 1 = img.read 0 := Option.some.inj himg'
  rw [hread 0] at hone
  rcases List.mem_cons.mp ht with rfl | ht
  · exact absurd hone (by decide)
  rcases List.mem_cons.mp ht with rfl | ht
  · exact absurd (congrArg Metadata.id htm) (by decide)
  rcases List.mem_cons.mp ht with rfl | ht
  · exact absurd (congrArg Metadata.id htm) (by decide)
  · exact absurd ht List.not_mem_nil

end Ultrav
