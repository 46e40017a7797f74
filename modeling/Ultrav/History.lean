import Ultrav.BackupEffects
import Ultrav.Machine
import Ultrav.Restore

/-!
# Histories of one VM

Backups, deletions and restores of one VM, one after the other, with guest writes and
power changes in between: an event machine over the `Host`.

* `History` — the host, and what happened so far: the points ever completed with the
  contents of the disks at that moment, and the ids ever drawn.
* `HistoryOp` / `History.step` — the operations. `Fresh` says that a backup draws an id
  that was not drawn before.
* `History.Wf` — what ties library, domain and past together in every reachable
  history (`wf_of_run`).
-/

namespace Ultrav

/-- The contents of all image files: what the guest reads at each block. -/
def Files.cells (fs : Files) (c : String × ℕ) : ℕ := fs.readVolume c.1 c.2

/-- A completed backup. -/
structure Taken where
  /-- the metadata the point was completed with -/
  metadata : Metadata
  /-- the contents of the disks when it was taken -/
  contents : String × ℕ → ℕ

/-- A host with its past. -/
structure History where
  /-- the host -/
  host : Host
  /-- the points ever completed, newest first -/
  made : List Taken
  /-- the ids ever drawn -/
  drawn : List String

/-- An operation of a history. -/
inductive HistoryOp where
  /-- the running guest writes a block -/
  | write : GuestWrite → HistoryOp
  /-- the domain changes its power state -/
  | power : DomainState → HistoryOp
  /-- `BackupVirtualMachine` -/
  | backup : BackupEnv → Option CreateType → HistoryOp
  /-- `DeleteBackup` -/
  | delete : DeleteEnv → String → HistoryOp
  /-- `RestoreBackup` -/
  | restore : RestoreEnv → String → HistoryOp

namespace History

/-- The metadata of every point ever completed, newest first. -/
def points (s : History) : List Metadata := s.made.map Taken.metadata

/-- One operation. A stopped guest does not write, and a call that has not returned has
no successor. -/
def step (srt : SortDesc Metadata Metadata.createdAt) (s : History) :
    HistoryOp → Option History
  | .write w =>
    match s.host.domain with
    | none => none
    | some dom => if dom.state = .shutoff then none else some { s with host := s.host.guestWrite w }
  | .power state =>
    s.host.domain.map fun dom => { s with
      host := { s.host with domain := some { dom with state := state } } }
  | .backup env req =>
    (backupVirtualMachine srt env s.host s.host.vm req).map fun r =>
      { host := r.2
        made := ((r.2.library.lookup env.id).toList.map fun m => ⟨m, s.host.files.cells⟩) ++ s.made
        drawn := env.id :: s.drawn }
  | .delete env id => some { s with host := (deleteBackup env s.host id).2 }
  | .restore env id => (restoreBackup env s.host id).map fun r => { s with host := r.2 }

/-- A backup draws an id that was not drawn before. -/
def Fresh (s : History) : HistoryOp → Prop
  | .backup env _ => env.id ∉ s.drawn
  | _ => True

/-- A VM that was never backed up: its domain with definition `D`, none of UltraV's
checkpoints. -/
structure Started (D : Definition) (s : History) : Prop where
  library : s.host.library = []
  made : s.made = []
  drawn : s.drawn = []
  definition : ∀ dom, s.host.domain = some dom → dom.definition = D
  names_nodup : ∀ dom, s.host.domain = some dom → dom.checkpoints.names.Nodup
  names : ∀ dom, s.host.domain = some dom → ∀ k ∈ dom.checkpoints.names,
    isUltravCheckpoint k = false

/-- What a library directory records about its point: nothing, or one of the completed
points. -/
structure DirOf (D : Definition) (s : History) (d : PointDir) : Prop where
  vmID : d.vmID = s.host.vm
  id : d.id ∈ s.drawn
  saved : ∀ D', d.domainXML = some D' → D' = D
  recorded : ∀ m, d.metadata = some m → m ∈ s.points

/-- What a completed point looks like. -/
structure PointOf (D : Definition) (s : History) (m : Metadata) : Prop where
  drawn : m.id ∈ s.drawn
  shape : IsPoint m.id s.host.vm D m
  checkpoint : m.checkpoint = "" ∨ m.checkpoint = checkpointName m.id

/-- What a domain looks like: the definition never changes, and UltraV's checkpoints are
those of drawn ids. -/
structure DomainOf (D : Definition) (s : History) (dom : Domain) : Prop where
  definition : dom.definition = D
  names_nodup : dom.checkpoints.names.Nodup
  names : ∀ k ∈ dom.checkpoints.names, isUltravCheckpoint k = true →
    ∃ i ∈ s.drawn, k = checkpointName i

/-- Library, domain and past fit together. -/
structure Wf (D : Definition) (s : History) : Prop where
  domain : ∀ dom, s.host.domain = some dom → DomainOf D s dom
  dirs : ∀ d ∈ s.host.library, DirOf D s d
  dirs_nodup : (s.host.library.map PointDir.id).Nodup
  points : ∀ m ∈ s.points, PointOf D s m
  drawn : ∀ i ∈ s.drawn, idPattern i = true
  founded : Lineage.Founded Metadata.id Metadata.parent s.points

/-- A VM before its first backup. -/
def initial (vm : String) (D : Definition) (state : DomainState) (files : Files) : History where
  host := ⟨vm, [], files, some ⟨D, state, []⟩⟩
  made := []
  drawn := []

theorem initial_started (vm : String) (D : Definition) (state : DomainState) (files : Files) :
    Started D (initial vm D state files) where
  library := rfl
  made := rfl
  drawn := rfl
  definition dom hdom := by
    cases hdom
    rfl
  names_nodup dom hdom := by
    cases hdom
    exact List.nodup_nil
  names dom hdom k hk := by
    cases hdom
    cases hk

theorem Started.wf {D : Definition} {s : History} (h : Started D s) : Wf D s where
  domain dom hdom :=
    ⟨h.definition dom hdom, h.names_nodup dom hdom, fun k hk hu => by
      rw [h.names dom hdom k hk] at hu
      cases hu⟩
  dirs d hd := by
    rw [h.library] at hd
    cases hd
  dirs_nodup := by
    rw [h.library]
    exact List.nodup_nil
  points m hm := by
    rw [History.points, h.made] at hm
    cases hm
  drawn i hi := by
    rw [h.drawn] at hi
    cases hi
  founded := by
    rw [History.points, h.made]
    exact .nil

section Wf

variable {D : Definition} {s s' : History}

/-- A visible point is a completed one, under its own id. -/
theorem Wf.get_mem (hw : Wf D s) {id : String} {m : Metadata}
    (h : s.host.library.get id = .ok m) : m ∈ s.points ∧ m.id = id := by
  obtain ⟨d, hd, -, -, hm⟩ := Library.mem_of_get h
  exact ⟨(hw.dirs d hd).recorded m (PointDir.completed_eq_some.mp hm).1, Library.get_keyed h⟩

/-- The library shows points under the metadata they were completed with. -/
theorem Wf.lookup_sub (hw : Wf D s) (k : String) (p : Metadata)
    (h : s.host.library.lookup k = some p) :
    Lineage.lookupIn Metadata.id s.points k = some p := by
  obtain ⟨hmem, rfl⟩ := hw.get_mem (Library.lookup_eq_some.mp h)
  exact hw.founded.lookupIn_of_mem hmem

/-- The chain loop ends on every visible point: parents are older, so there is no cycle. -/
theorem Wf.restoreChain_isSome (hw : Wf D s) {id : String} {m : Metadata}
    (h : s.host.library.get id = .ok m) :
    (restoreChain (s.points.length + 1) s.host.library m).isSome = true := by
  have hmem := hw.founded.lookupIn_of_mem (hw.get_mem h).1
  rw [restoreChain, Option.isSome_map]
  refine hw.founded.pedigree.climb_isSome hw.lookup_sub ?_ hmem
  exact Nat.lt_succ_of_le (Lineage.height_le Metadata.id m.id s.points)

/-- What `list` returns is visible to `get`. -/
theorem Wf.get_of_list (hw : Wf D s) {srt : SortDesc Metadata Metadata.createdAt}
    {ms : List Metadata} (h : s.host.library.list srt s.host.vm = .ok ms) :
    ∀ m ∈ ms, s.host.library.get m.id = .ok m := by
  obtain ⟨-, rfl⟩ := Library.list_eq_ok h
  intro m hm
  obtain ⟨d, hd, -, hi, hc⟩ := Library.mem_completed.mp ((SortDesc.mem_sort srt).mp hm)
  rw [(PointDir.completed_keyed hc).2]
  exact Library.get_of_mem hw.dirs_nodup hd hi hc

/-- Only the domain changed, and it still fits. -/
theorem Wf.of_domain (hw : Wf D s) (hvm : s'.host.vm = s.host.vm)
    (hlib : s'.host.library = s.host.library) (hmade : s'.made = s.made)
    (hdrawn : s'.drawn = s.drawn)
    (hdom : ∀ dom, s'.host.domain = some dom → DomainOf D s dom) : Wf D s' := by
  have hpts : s'.points = s.points := by rw [History.points, hmade]; rfl
  refine ⟨fun dom hd => ?_, fun d hd => ?_, ?_, fun m hm => ?_, ?_, ?_⟩
  · obtain ⟨h₁, h₂, h₃⟩ := hdom dom hd
    exact ⟨h₁, h₂, by rwa [hdrawn]⟩
  · rw [hlib] at hd
    obtain ⟨h₁, h₂, h₃, h₄⟩ := hw.dirs d hd
    exact ⟨by rwa [hvm], by rwa [hdrawn], h₃, by rwa [hpts]⟩
  · rw [hlib]
    exact hw.dirs_nodup
  · rw [hpts] at hm
    obtain ⟨h₁, h₂, h₃⟩ := hw.points m hm
    exact ⟨by rwa [hdrawn], by rwa [hvm], h₃⟩
  · rw [hdrawn]
    exact hw.drawn
  · rw [hpts]
    exact hw.founded

/-- The chain of a restore consists of completed points that are still there. -/
theorem Wf.chain_points (hw : Wf D s) {env : RestoreEnv} {id : String} {plan : RestorePlan}
    (ho : openRestore env s.host id = some (.ok plan)) :
    ∀ m ∈ plan.chain, m ∈ s.points ∧ s.host.library.get m.id = .ok m := by
  obtain ⟨hget, -, -, -, -, hchain⟩ := openRestore_eq_ok ho
  obtain rfl := Library.get_keyed hget
  intro m hm
  have hm' := Library.lookup_eq_some.mp ((restoreChain_eq_ok hchain).stored
    (fun _ _ hk => Library.get_keyed (Library.lookup_eq_some.mp hk))
    (Library.lookup_eq_some.mpr hget) m hm)
  exact ⟨(hw.get_mem hm').1, hm'⟩

/-- The entry of a disk in a completed point: a qcow2 image named after the disk. -/
theorem PointOf.diskImage_eq {m : Metadata} (h : PointOf D s m) {disk file : String}
    {format : Format} (hd : diskImage m disk = .ok (file, format)) :
    format = .qcow2 ∧ file = Metadata.diskFile disk .qcow2 ∧
      ∃ d ∈ D.fileDisks, d.targetDev = disk := by
  obtain ⟨e, he, rfl, rfl, rfl⟩ := diskImage_eq_ok hd
  have hmem : e.image ∈ D.fileDisks.map DomainDisk.image := by
    rw [← h.shape.images]
    exact List.mem_map_of_mem he
  obtain ⟨d, hd, heq⟩ := List.mem_map.mp hmem
  obtain ⟨hname, hfile, hformat⟩ : d.targetDev = e.name ∧
      Metadata.diskFile d.targetDev .qcow2 = e.file ∧ Format.qcow2 = e.format := by
    simpa [DiskEntry.image, DomainDisk.image] using heq
  exact ⟨hformat.symm, by rw [← hname, hfile], d, hd, hname⟩

/-- Every file-backed disk has an entry in a completed point. -/
theorem PointOf.entry {m : Metadata} (h : PointOf D s m) {d : DomainDisk}
    (hd : d ∈ D.fileDisks) : ∃ e ∈ m.disks, e.name = d.targetDev := by
  have hmem : d.image ∈ m.disks.map DiskEntry.image := by
    rw [h.shape.images]
    exact List.mem_map_of_mem hd
  obtain ⟨e, he, heq⟩ := List.mem_map.mp hmem
  exact ⟨e, he, congrArg Prod.fst heq⟩

/-- The image of each file-backed disk is found. -/
theorem PointOf.diskImage_of_mem {m : Metadata} (h : PointOf D s m) {d : DomainDisk}
    (hd : d ∈ D.fileDisks) :
    diskImage m d.targetDev = .ok (Metadata.diskFile d.targetDev .qcow2, .qcow2) := by
  obtain ⟨e, he, hname⟩ := h.entry hd
  rcases himg : diskImage m d.targetDev with err | ⟨file, format⟩
  · rw [diskImage] at himg
    split at himg
    · cases himg
    · rename_i hnone
      have := List.find?_eq_none.mp hnone e he
      simp [hname] at this
  · obtain ⟨rfl, rfl, -⟩ := h.diskImage_eq himg
    rfl

/-- Points are told apart by their ids. -/
theorem Wf.made_inj (hw : Wf D s) {t q : Taken} (ht : t ∈ s.made) (hq : q ∈ s.made)
    (h : t.metadata.id = q.metadata.id) : t = q := by
  have hnd := hw.founded.nodup_keys
  rw [History.points, List.map_map] at hnd
  exact List.inj_on_of_nodup_map hnd ht hq h

/-! ## Each operation keeps the invariant -/

theorem Wf.write (hw : Wf D s) (w : GuestWrite) :
    Wf D { s with host := s.host.guestWrite w } := by
  rcases hd : s.host.domain with _ | dom
  · have heq : s.host.guestWrite w = s.host := by simp only [Host.guestWrite, hd]
    rw [heq]
    exact hw
  · refine hw.of_domain ?_ ?_ rfl rfl fun dom' hd' => ?_
    · simp only [Host.guestWrite, hd]
    · simp only [Host.guestWrite, hd]
    · simp only [Host.guestWrite, hd] at hd'
      cases hd'
      obtain ⟨h₁, h₂, h₃⟩ := hw.domain dom hd
      exact ⟨h₁, by rwa [DirtyLog.names_mark], by rwa [DirtyLog.names_mark]⟩

theorem Wf.power (hw : Wf D s) {dom : Domain} (hd : s.host.domain = some dom)
    (state : DomainState) :
    Wf D { s with host := { s.host with domain := some { dom with state := state } } } := by
  refine hw.of_domain rfl rfl rfl rfl fun dom' hd' => ?_
  cases hd'
  obtain ⟨h₁, h₂, h₃⟩ := hw.domain dom hd
  exact ⟨h₁, h₂, h₃⟩

/-- A new checkpoint of a fresh id is a new name. -/
theorem Wf.checkpointName_not_mem (hw : Wf D s) {dom : Domain} (hd : s.host.domain = some dom)
    {id : String} (hi : idPattern id = true) (hnew : id ∉ s.drawn) :
    checkpointName id ∉ dom.checkpoints.names := by
  intro hmem
  obtain ⟨i, hdrawn, heq⟩ := (hw.domain dom hd).names _ hmem
    (isUltravCheckpoint_checkpointName id)
  exact hnew (checkpointName_inj hi (hw.drawn i hdrawn) heq ▸ hdrawn)

/-- The names of directories in use were all drawn. -/
theorem Wf.fresh_dirs (hw : Wf D s) {id : String} (hnew : id ∉ s.drawn) :
    ∀ d ∈ s.host.library, d.id ≠ id :=
  fun d hd heq => hnew (heq ▸ (hw.dirs d hd).id)

theorem Wf.delete (hw : Wf D s) (env : DeleteEnv) (id : String) :
    Wf D { s with host := (deleteBackup env s.host id).2 } := by
  rcases hr : deleteBackup env s.host id with ⟨r, h'⟩
  obtain ⟨hvm, hids, hrem, -, -, hdom⟩ := deleteBackup_eq hr
  refine ⟨fun dom hd => ?_, fun d hd => ?_, hids.nodup hw.dirs_nodup, fun m hm => ?_, hw.drawn,
    hw.founded⟩
  · rcases hdom with heq | ⟨dom₀, m, hd₀, -, heq⟩
    · obtain ⟨h₁, h₂, h₃⟩ := hw.domain dom (heq ▸ hd)
      exact ⟨h₁, h₂, h₃⟩
    · obtain rfl : { dom₀ with checkpoints := dom₀.checkpoints.drop m.checkpoint } = dom :=
        Option.some.inj (heq.symm.trans hd)
      obtain ⟨h₁, h₂, h₃⟩ := hw.domain dom₀ hd₀
      refine ⟨h₁, ?_, fun k hk => ?_⟩
      · rw [DirtyLog.names_drop]
        exact h₂.erase _
      · rw [DirtyLog.names_drop] at hk
        exact h₃ k (List.mem_of_mem_erase hk)
  · obtain ⟨d₀, hd₀, hv, hi, hm, hx⟩ := hrem d hd
    obtain ⟨h₁, h₂, h₃, h₄⟩ := hw.dirs d₀ hd₀
    refine ⟨hv.trans (h₁.trans hvm.symm), hi ▸ h₂, fun D' hD' => ?_, fun m hm' => ?_⟩
    · rcases hx with hx | hx
      · exact h₃ D' (hx ▸ hD')
      · rw [hx] at hD'
        cases hD'
    · rcases hm with hm | hm
      · exact h₄ m (hm ▸ hm')
      · rw [hm] at hm'
        cases hm'
  · obtain ⟨h₁, h₂, h₃⟩ := hw.points m hm
    exact ⟨h₁, by rwa [hvm], h₃⟩

theorem Wf.restore (hw : Wf D s) {env : RestoreEnv} {id : String}
    {r : Except ProviderError Domain} {h' : Host}
    (hr : restoreBackup env s.host id = some (r, h')) : Wf D { s with host := h' } := by
  obtain ⟨hout, -, -⟩ := restoreBackup_eq_some hr
  cases hout with
  | refused _ => exact hw
  | stopped _ _ => exact hw.of_domain rfl rfl rfl rfl fun dom hd => hw.domain dom hd
  | @restored plan fs dom' ho _ hdom =>
    obtain ⟨-, hdir, -, hdom₀, -, -⟩ := openRestore_eq_ok ho
    refine hw.of_domain rfl rfl rfl rfl fun dom hd => ?_
    have hred : redefine env plan.metadata plan.dir (deleteUltravCheckpoints env plan.domain) =
        some dom := hdom.symm.trans hd
    obtain ⟨h₁, h₂, h₃⟩ := hw.domain plan.domain hdom₀
    rcases redefine_eq_some hred with rfl | ⟨saved, hsaved, rfl⟩
    · rw [deleteUltravCheckpoints]
      split
      · exact ⟨h₁, h₂, h₃⟩
      · exact ⟨h₁, DirtyLog.nodup_dropWhere h₂,
          fun k hk => h₃ k (DirtyLog.mem_of_mem_dropWhere hk)⟩
    · obtain ⟨hmem, -⟩ := Library.mem_of_pointDir (Library.readableDir_eq_ok hdir)
      exact ⟨(hw.dirs _ hmem).saved saved hsaved, List.nodup_nil, fun k hk => by cases hk⟩

/-- The newest point a new backup continues is a completed one. -/
theorem Wf.parent_mem (hw : Wf D s) {srt : SortDesc Metadata Metadata.createdAt} {dom : Domain}
    {req : Option CreateType} {parentID parentCheckpoint : String}
    (h : backupChainParent srt s.host.library dom s.host.vm req = .ok (parentID, parentCheckpoint))
    (hne : parentID ≠ "") :
    ∃ newest rest, s.host.library.list srt s.host.vm = .ok (newest :: rest) ∧
      newest ∈ s.points ∧ newest.id = parentID ∧ newest.checkpoint = parentCheckpoint ∧
      newest.checkpoint ≠ "" ∧ newest.checkpoint ∈ dom.checkpoints.names := by
  rcases backupChainParent_eq_ok h with hp | ⟨newest, rest, hl, hp, hck, hmem⟩
  · cases hp
    exact absurd rfl hne
  · cases hp
    exact ⟨newest, rest, hl, (hw.get_mem (hw.get_of_list hl newest List.mem_cons_self)).1, rfl,
      rfl, hck, hmem⟩

/-- The domain after a backup. -/
theorem Wf.domain_of_frame (hw : Wf D s) {env : BackupEnv} {h' : Host}
    (hnew : env.id ∉ s.drawn) (hf : BackupFrame env s.host h') (hs' : s'.host = h')
    (hdrawn : s'.drawn = env.id :: s.drawn) :
    ∀ dom, s'.host.domain = some dom → DomainOf D s' dom := by
  intro dom hd
  rw [hs'] at hd
  cases hf.guest with
  | untouched heq _ =>
    obtain ⟨h₁, h₂, h₃⟩ := hw.domain dom (heq ▸ hd)
    refine ⟨h₁, h₂, fun k hk hu => ?_⟩
    obtain ⟨i, hi, rfl⟩ := h₃ k hk hu
    exact ⟨i, hdrawn ▸ List.mem_cons_of_mem _ hi, rfl⟩
  | @begun dom₀ hd₀ _ heq _ =>
    obtain rfl : begunDomain env dom₀ = dom := Option.some.inj (heq.symm.trans hd)
    obtain ⟨h₁, h₂, h₃⟩ := hw.domain dom₀ hd₀
    have hnames : (begunDomain env dom₀).checkpoints.names =
        checkpointName env.id :: dom₀.checkpoints.names := names_markAll _ _
    refine ⟨h₁, ?_, fun k hk hu => ?_⟩
    · rw [hnames]
      exact List.nodup_cons.mpr ⟨hw.checkpointName_not_mem hd₀ env.id_valid hnew, h₂⟩
    · rw [hnames] at hk
      rw [hdrawn]
      rcases List.mem_cons.mp hk with rfl | hk
      · exact ⟨env.id, List.mem_cons_self, rfl⟩
      · obtain ⟨i, hi, rfl⟩ := h₃ k hk hu
        exact ⟨i, List.mem_cons_of_mem _ hi, rfl⟩

/-- A directory that records nothing new fits as before. -/
theorem DirOf.mono {d : PointDir} (h : DirOf D s d) (hvm : s'.host.vm = s.host.vm)
    (hdrawn : s.drawn ⊆ s'.drawn) (hpts : s.points ⊆ s'.points) : DirOf D s' d :=
  ⟨h.vmID.trans hvm.symm, hdrawn h.id, h.saved, fun m hm => hpts (h.recorded m hm)⟩

theorem PointOf.mono {m : Metadata} (h : PointOf D s m) (hvm : s'.host.vm = s.host.vm)
    (hdrawn : s.drawn ⊆ s'.drawn) : PointOf D s' m :=
  ⟨hdrawn h.drawn, by rw [hvm]; exact h.shape, h.checkpoint⟩

/-- With one more directory of a new name, the names stay distinct. -/
theorem Wf.dirs_nodup_append (hw : Wf D s) {d : PointDir} (hnew : d.id ∉ s.drawn) :
    ((s.host.library ++ [d]).map PointDir.id).Nodup := by
  rw [List.map_append, List.nodup_append]
  refine ⟨hw.dirs_nodup, List.nodup_singleton _, ?_⟩
  intro i hi j hj
  obtain ⟨e, he, rfl⟩ := List.mem_map.mp hi
  rw [List.map_singleton, List.mem_singleton] at hj
  subst hj
  exact hw.fresh_dirs hnew e he

/-- The directory of a new id fits, when what it records does. -/
theorem Wf.dirOf_fresh (hw : Wf D s) {dom : Domain} {id : String} {d : PointDir}
    (hd : s.host.domain = some dom) (hv : d.vmID = s.host.vm) (hi : d.id = id)
    (hx : d.domainXML = some dom.definition) (hvm : s'.host.vm = s.host.vm)
    (hdrawn : s'.drawn = id :: s.drawn) (hm : ∀ m, d.metadata = some m → m ∈ s'.points) :
    DirOf D s' d where
  vmID := hv.trans hvm.symm
  id := by
    rw [hdrawn, hi]
    exact List.mem_cons_self
  saved D' hD' := by
    rw [hx] at hD'
    cases hD'
    exact (hw.domain dom hd).definition
  recorded := hm

/-- A completed backup: what its point looks like. -/
theorem Wf.pointOf_taken (hw : Wf D s) {srt : SortDesc Metadata Metadata.createdAt}
    {env : BackupEnv} {req : Option CreateType} {dom : Domain} {h' : Host} {m : Metadata}
    (hd : s.host.domain = some dom) (hpt : IsPoint env.id s.host.vm dom.definition m)
    (ht : PointTaken srt env s.host req dom h' m) (hvm : s'.host.vm = s.host.vm)
    (hdrawn : s'.drawn = env.id :: s.drawn) : PointOf D s' m := by
  refine ⟨by rw [hdrawn, hpt.id]; exact List.mem_cons_self, ?_, ?_⟩
  · rw [hpt.id, hvm, ← (hw.domain dom hd).definition]
    exact hpt
  · cases ht with
    | offline _ _ hc _ => exact .inl hc
    | online _ _ _ hc _ _ _ => exact .inr (by rw [hc, hpt.id])

/-- A completed backup extends the pedigree: its parent was completed before. -/
theorem Wf.founded_taken (hw : Wf D s) {srt : SortDesc Metadata Metadata.createdAt}
    {env : BackupEnv} {req : Option CreateType} {dom : Domain} {h' : Host} {m : Metadata}
    (hnew : env.id ∉ s.drawn) (hid : m.id = env.id)
    (ht : PointTaken srt env s.host req dom h' m) :
    Lineage.Founded Metadata.id Metadata.parent (m :: s.points) := by
  refine .cons hw.founded (fun p hp heq => hnew ?_) fun j hj => ?_
  · rw [← hid, ← heq]
    exact (hw.points p hp).drawn
  · obtain ⟨hpar, hne⟩ := Metadata.parent_eq_some.mp hj
    cases ht with
    | offline _ hp _ _ => exact absurd (hpar.symm.trans hp) hne
    | online _ hchain hp _ _ _ _ =>
      obtain ⟨newest, -, -, hmem, hnid, -⟩ :=
        hw.parent_mem hchain (by rw [← hp, hpar]; exact hne)
      exact ⟨newest, hmem, by rw [hnid, ← hp, hpar]⟩

/-- **A backup keeps the invariant**: no point is completed, or one, which goes to the
front. -/
theorem Wf.backup (hw : Wf D s) {srt : SortDesc Metadata Metadata.createdAt} {env : BackupEnv}
    {req : Option CreateType} (hnew : env.id ∉ s.drawn)
    (hs : step srt s (.backup env req) = some s') : Wf D s' := by
  obtain ⟨⟨r, h'⟩, hr, rfl⟩ := Option.map_eq_some_iff.mp hs
  have hfresh := hw.fresh_dirs hnew
  have hvalid : ∀ i ∈ env.id :: s.drawn, idPattern i = true := by
    intro i hi
    rcases List.mem_cons.mp hi with rfl | hi
    · exact env.id_valid
    · exact hw.drawn i hi
  have hsub : s.drawn ⊆ env.id :: s.drawn := List.subset_cons_self _ _
  cases backupVirtualMachine_eq_some hfresh hr with
  | kept hf hlib =>
    have hnone : h'.library.lookup env.id = none :=
      Library.lookup_eq_none fun d hd hi => absurd hi (hfresh d (hlib ▸ hd))
    simp only [hnone, Option.toList_none, List.map_nil, List.nil_append]
    refine ⟨hw.domain_of_frame hnew hf rfl rfl, fun d hd => ?_, ?_, fun m hm => ?_, hvalid,
      hw.founded⟩
    · exact (hw.dirs d (hlib ▸ hd)).mono hf.vm hsub (List.Subset.refl _)
    · dsimp only
      rw [hlib]
      exact hw.dirs_nodup
    · exact (hw.points m hm).mono hf.vm hsub
  | @leftover _ _ d₀ dom hf hlib hv hi hd₀ hx hm₀ =>
    have hnone : h'.library.lookup env.id = none := by
      rw [hlib]
      exact Library.lookup_append_bare hfresh hm₀
    simp only [hnone, Option.toList_none, List.map_nil, List.nil_append]
    refine ⟨hw.domain_of_frame hnew hf rfl rfl, fun d hd => ?_, ?_, fun m hm => ?_, hvalid,
      hw.founded⟩
    · dsimp only at hd
      rw [hlib] at hd
      rcases List.mem_append.mp hd with hd | hd
      · exact (hw.dirs d hd).mono hf.vm hsub (List.Subset.refl _)
      · obtain rfl := List.mem_singleton.mp hd
        refine hw.dirOf_fresh hd₀ hv hi hx hf.vm rfl fun m hm => ?_
        rw [hm₀] at hm
        cases hm
    · dsimp only
      rw [hlib]
      exact hw.dirs_nodup_append (hi ▸ hnew)
    · exact (hw.points m hm).mono hf.vm hsub
  | @taken _ _ d₀ dom m₀ hf hlib hv hi hd₀ hx hm₀ hpt ht =>
    have hsome : h'.library.lookup env.id = some m₀ := by
      rw [Library.lookup_eq_some, hlib]
      exact hpt.get_append hfresh env.id_valid hi hm₀
    simp only [hsome, Option.toList_some, List.map_cons, List.map_nil, List.cons_append,
      List.nil_append]
    refine ⟨hw.domain_of_frame hnew hf rfl rfl, fun d hd => ?_, ?_, fun m hm => ?_, hvalid,
      hw.founded_taken hnew hpt.id ht⟩
    · dsimp only at hd
      rw [hlib] at hd
      rcases List.mem_append.mp hd with hd | hd
      · exact (hw.dirs d hd).mono hf.vm hsub (List.subset_cons_self _ _)
      · obtain rfl := List.mem_singleton.mp hd
        refine hw.dirOf_fresh hd₀ hv hi hx hf.vm rfl fun m hm => ?_
        rw [hm₀] at hm
        cases hm
        exact List.mem_cons_self
    · dsimp only
      rw [hlib]
      exact hw.dirs_nodup_append (hi ▸ hnew)
    · rcases List.mem_cons.mp hm with rfl | hm
      · exact hw.pointOf_taken hd₀ hpt ht hf.vm rfl
      · exact (hw.points m hm).mono hf.vm hsub

/-- **Every operation keeps the invariant.** -/
theorem Wf.step (hw : Wf D s) {srt : SortDesc Metadata Metadata.createdAt} {op : HistoryOp}
    (hnew : Fresh s op) (hs : History.step srt s op = some s') : Wf D s' := by
  cases op with
  | write w =>
    rw [History.step] at hs
    split at hs
    · cases hs
    · split at hs
      · cases hs
      · cases hs
        exact hw.write w
  | power state =>
    obtain ⟨dom, hd, rfl⟩ := Option.map_eq_some_iff.mp hs
    exact hw.power hd state
  | backup env req => exact hw.backup hnew hs
  | delete env id =>
    cases hs
    exact hw.delete env id
  | restore env id =>
    obtain ⟨⟨r, h'⟩, hr, rfl⟩ := Option.map_eq_some_iff.mp hs
    exact hw.restore hr

/-- Every history of a VM that was never backed up before is well formed. -/
theorem wf_of_run {srt : SortDesc Metadata Metadata.createdAt} {ops : List HistoryOp}
    (hstart : Started D s) (hfresh : Machine.Along (History.step srt) Fresh s ops)
    (hrun : Machine.run (History.step srt) s ops = some s') : Wf D s' :=
  Machine.run_inv (fun _ _ _ hw hnew hs => hw.step hnew hs) hstart.wf hfresh hrun

end Wf

end History

end Ultrav
