import Ultrav.ProviderCalls

/-!
# The disks that the two backup paths cover

`backupOnline` and `backupOffline` select the disks, refuse and verify each on its own.

* `recordDiskSizes_disks` — what the last loop of both records.
* `Covers` — a completed point that holds the file-backed disks of a definition.
* `BackupEnv.onlineQuiet` / `offlineQuiet` — no operation of the host fails.
* `backupOnline_covered_iff` / `backupOffline_covered_iff` — what the paths cover.
* `same_coverage_iff` — where they agree.
-/

namespace Ultrav

/-! ## Recorded sizes -/

/-- An entry with the size of its image, if that can be read. -/
def DiskEntry.sized (stat : String → Option ℤ) (d : DiskEntry) : DiskEntry :=
  match stat d.file with
  | some size => { d with sizeBytes := size }
  | none => d

section Sizes

variable {stat : String → Option ℤ}

@[simp] theorem DiskEntry.sized_image (d : DiskEntry) : (d.sized stat).image = d.image := by
  rw [sized]
  split <;> rfl

@[simp] theorem DiskEntry.sized_name (d : DiskEntry) : (d.sized stat).name = d.name :=
  congrArg Prod.fst d.sized_image

@[simp] theorem DiskEntry.sized_file (d : DiskEntry) : (d.sized stat).file = d.file :=
  congrArg (fun i => i.2.1) d.sized_image

/-- An entry has its size when the image has one. -/
theorem DiskEntry.stat_sized_iff (d : DiskEntry) :
    stat d.file = some (d.sized stat).sizeBytes ∧ (d.sized stat).sizeBytes ≠ 0 ↔
      (stat d.file).any (· != 0) = true := by
  rw [sized]
  cases hstat : stat d.file with
  | none => simp
  | some size => simp

/-- A size is set for the one entry of that name. -/
theorem setDiskSize_middle {m : Metadata} {pre l : List DiskEntry} {d : DiskEntry} (size : ℤ)
    (hm : m.disks = pre ++ d :: l) (hnd : (m.disks.map DiskEntry.name).Nodup) :
    (m.setDiskSize d.name size).disks = pre ++ { d with sizeBytes := size } :: l := by
  have hkept : ∀ l' : List DiskEntry, (∀ e ∈ l', e.name ≠ d.name) →
      l'.map (fun e => if e.name = d.name then { e with sizeBytes := size } else e) = l' := by
    intro l' hl'
    refine (List.map_congr_left fun e he => ?_).trans (List.map_id l')
    exact if_neg (hl' e he)
  rw [hm, List.map_append, List.map_cons, List.nodup_append, List.nodup_cons] at hnd
  obtain ⟨-, ⟨hl, -⟩, hpre⟩ := hnd
  rw [Metadata.setDiskSize, hm, List.map_append, List.map_cons, if_pos rfl, hkept pre, hkept l]
  · intro e he heq
    exact hl (heq ▸ List.mem_map_of_mem he)
  · intro e he
    exact hpre _ (List.mem_map_of_mem he) _ List.mem_cons_self

/-- The loop of `recordDiskSizes`, after the first entries. -/
theorem foldl_setDiskSize (l : List DiskEntry) : ∀ (pre : List DiskEntry) (m : Metadata),
    m.disks = pre ++ l → (m.disks.map DiskEntry.name).Nodup →
      (l.foldl (fun m d =>
        match stat d.file with
        | some size => m.setDiskSize d.name size
        | none => m) m).disks = pre ++ l.map (DiskEntry.sized stat) := by
  induction l with
  | nil =>
    intro pre m hm _
    exact hm
  | cons d l ih =>
    intro pre m hm hnd
    have hshift : ∀ e : DiskEntry, pre ++ e :: l = (pre ++ [e]) ++ l := by simp
    rw [List.foldl_cons, List.map_cons]
    cases hstat : stat d.file with
    | none =>
      have hsame : d.sized stat = d := by rw [DiskEntry.sized, hstat]
      rw [ih (pre ++ [d]) m (hm.trans (hshift d)) hnd, hsame, List.append_assoc,
        List.singleton_append]
    | some size =>
      have hsize : d.sized stat = { d with sizeBytes := size } := by rw [DiskEntry.sized, hstat]
      have hset := setDiskSize_middle size hm hnd
      have hnames : (m.setDiskSize d.name size).disks.map DiskEntry.name =
          m.disks.map DiskEntry.name := by
        rw [hset, hm]
        simp
      rw [ih (pre ++ [{ d with sizeBytes := size }]) _ (hset.trans (hshift _)) (hnames ▸ hnd),
        hsize, List.append_assoc, List.singleton_append]

/-- **The recorded sizes**: each entry gets the size of its own image. -/
theorem recordDiskSizes_disks {m : Metadata} (hnd : (m.disks.map DiskEntry.name).Nodup) :
    (recordDiskSizes stat m).disks = m.disks.map (DiskEntry.sized stat) :=
  foldl_setDiskSize m.disks [] m rfl hnd

end Sizes

/-! ## Coverage -/

/-- The point `env.id` is complete, lists the file-backed disks of the definition in their order,
and each has an image that is not empty, of the recorded size. -/
structure Covers (env : BackupEnv) (D : Definition) (h : Host) (m : Metadata) : Prop where
  found : h.library.get env.id = .ok m
  disks : m.disks.map DiskEntry.name = D.fileDisks.map DomainDisk.targetDev
  images : ∀ e ∈ m.disks, (h.files (.point env.id e.file)).isSome = true ∧
    env.stat e.file = some e.sizeBytes ∧ e.sizeBytes ≠ 0

/-- The backup completed such a point. -/
def Covered (env : BackupEnv) (D : Definition) (r : Except ProviderError Unit × Host) : Prop :=
  r.1 = .ok () ∧ ∃ m, Covers env D r.2 m

/-- Both paths refuse a definition without file-backed disks, or both cover its disks. -/
def SameCoverage (env env' : BackupEnv) (D : Definition)
    (r r' : Except ProviderError Unit × Host) : Prop :=
  D.fileDisks = [] ∧ r.1.toBool = false ∧ r'.1.toBool = false ∨ Covered env D r ∧ Covered env' D r'

namespace BackupEnv

variable (env : BackupEnv)

/-- The image of every file-backed disk is there and not empty. -/
def written (D : Definition) : Bool :=
  D.fileDisks.all fun d => (env.stat (Metadata.diskFile d.targetDev .qcow2)).any (· != 0)

/-- No operation of the host fails in a backup of a running machine. -/
def onlineQuiet (vm : String) : Bool :=
  idSafe vm && !env.createFails && !env.xmlFails && !env.beginFails &&
    (pollJob env.polls).any Except.toBool && !env.writeXMLFails && !env.completeFails

/-- No operation of the host fails in a backup of a stopped machine. -/
def offlineQuiet (h : Host) (dom : Domain) : Bool :=
  idSafe h.vm && !env.createFails && !env.xmlFails && env.copies h dom && !env.writeXMLFails &&
    !env.completeFails

end BackupEnv

section Paths

variable {env : BackupEnv} {h h₁ : Host} {dom : Domain}

/-- The job is verified by the images of all entries. -/
theorem imagesProduced_iff {m : Metadata} : imagesProduced env.stat m = true ↔
    ∀ e ∈ m.disks, (env.stat e.file).any (· != 0) = true := by
  rw [imagesProduced, List.all_eq_true]
  refine forall₂_congr fun e _ => ?_
  cases env.stat e.file <;> rfl

/-- These are the images of the file-backed disks. -/
theorem imagesProduced_iff_written {D : Definition} {m : Metadata}
    (himg : m.disks.map DiskEntry.image = D.fileDisks.map DomainDisk.image) :
    imagesProduced env.stat m = true ↔ env.written D = true := by
  have hfiles : m.disks.map DiskEntry.file =
      D.fileDisks.map fun d => Metadata.diskFile d.targetDev .qcow2 := by
    have hmap := congrArg (List.map fun i : String × String × Format => i.2.1) himg
    rwa [List.map_map, List.map_map] at hmap
  have hall := congrArg (List.all · fun file => (env.stat file).any (· != 0)) hfiles
  rw [List.all_map, List.all_map] at hall
  rw [imagesProduced_iff, ← List.all_eq_true, BackupEnv.written]
  exact Bool.eq_iff_iff.mp hall

/-- The tail of both paths covers the definition when it goes through and the images are there. -/
theorem completePoint_covered_iff {D : Definition} {m : Metadata}
    (hf : ∀ d ∈ h.library, d.id ≠ env.id) (hid : m.id = env.id) (hvm : m.vmID = h.vm)
    (himg : m.disks.map DiskEntry.image = D.fileDisks.map DomainDisk.image)
    (hlib : h₁.library = h.library ++ [.empty h.vm env.id])
    (himages : ∀ d ∈ D.fileDisks,
      (h₁.files (.point env.id (Metadata.diskFile d.targetDev .qcow2))).isSome = true) :
    Covered env D (completePoint env h₁ D m) ↔
      (!env.writeXMLFails && !env.completeFails && env.written D) = true := by
  have hc : Completion h.library D env h₁ m (completePoint env h₁ D m).1
      (completePoint env h₁ D m).2 :=
    completePoint_eq h.library (by rwa [hid]) (by rw [hid, hvm]; exact hlib) rfl
  have htoBool : (completePoint env h₁ D m).1.toBool =
      (!env.writeXMLFails && !env.completeFails) := completePoint_toBool D m
  rw [Bool.and_eq_true, ← htoBool]
  generalize completePoint env h₁ D m = r at hc ⊢
  obtain ⟨r, h'⟩ := r
  cases hc with
  | aborted => exact iff_of_false (fun hcov => by cases hcov.1) (fun hok => by cases hok.1)
  | leftover => exact iff_of_false (fun hcov => by cases hcov.1) (fun hok => by cases hok.1)
  | @done d hdv hdi hxml hmeta =>
    have hnames : m.disks.map DiskEntry.name = D.fileDisks.map DomainDisk.targetDev := by
      have hmap := congrArg (List.map Prod.fst) himg
      rwa [List.map_map, List.map_map] at hmap
    have hnd : ((m.setDomainXML true).disks.map DiskEntry.name).Nodup :=
      hnames ▸ D.fileDisks_nodup
    have hsizes : (recordDiskSizes env.stat (m.setDomainXML true)).disks = _ :=
      recordDiskSizes_disks hnd
    obtain ⟨hpoint, -, -⟩ := isPoint_complete hid hvm himg rfl
    have hget := hpoint.get_append hf env.id_valid (hdi.trans hid) hmeta
    rw [← imagesProduced_iff_written himg, imagesProduced_iff]
    have hdisks : ∀ {e : DiskEntry},
        e ∈ (recordDiskSizes env.stat (m.setDomainXML true)).disks ↔
          ∃ e₀ ∈ m.disks, e₀.sized env.stat = e := by
      intro e
      rw [hsizes]
      exact List.mem_map
    constructor
    · rintro ⟨-, m', hcov⟩
      obtain rfl := Except.ok.inj (hget.symm.trans hcov.found)
      refine ⟨rfl, fun e he => e.stat_sized_iff.mp ?_⟩
      have hstat := (hcov.images _ (hdisks.mpr ⟨e, he, rfl⟩)).2
      rwa [DiskEntry.sized_file] at hstat
    · rintro ⟨-, hwritten⟩
      refine ⟨rfl, _, hget, ?_, fun e he => ?_⟩
      · change (recordDiskSizes env.stat (m.setDomainXML true)).disks.map DiskEntry.name = _
        rw [hsizes, List.map_map]
        exact (List.map_congr_left fun e _ => e.sized_name).trans hnames
      · obtain ⟨e, hmem, rfl⟩ := hdisks.mp he
        have himage : e.image ∈ D.fileDisks.map DomainDisk.image :=
          himg ▸ List.mem_map_of_mem hmem
        obtain ⟨d, hd, heq⟩ := List.mem_map.mp himage
        have hfile : Metadata.diskFile d.targetDev .qcow2 = e.file :=
          congrArg (fun i => i.2.1) heq
        rw [DiskEntry.sized_file]
        exact ⟨hfile ▸ himages d hd, e.stat_sized_iff.mpr (hwritten e hmem)⟩

/-- A backup of a running machine that goes through ends with the tail. -/
theorem backupOnline_ok {vm parentID parentCheckpoint : String}
    {r : Except ProviderError Unit × Host}
    (hr : backupOnline env h dom vm parentID parentCheckpoint = some r) (hok : r.1 = .ok ()) :
    r = completePoint env
      (env.writes.foldl Host.guestWrite
        ((h.create vm env.id).backupBegin dom env.id parentCheckpoint))
      dom.definition (onlinePoint env dom vm parentID) := by
  rw [backupOnline] at hr
  split at hr
  · cases hr
    cases hok
  split at hr
  · cases hr
    cases hok
  dsimp only at hr
  split at hr
  · cases hr
    cases hok
  split at hr
  · cases hr
    cases hok
  split at hr
  · cases hr
    cases hok
  split at hr
  · cases hr
  · cases hr
    cases hok
  split at hr
  · exact (Option.some.inj hr).symm
  · cases hr
    cases hok

/-- **Online**: the disks are covered when there are some, nothing fails and their images are
there. -/
theorem backupOnline_covered_iff {parentID parentCheckpoint : String}
    {r : Except ProviderError Unit × Host} (hf : ∀ d ∈ h.library, d.id ≠ env.id)
    (hdom : h.domain = some dom) (hst : dom.state ≠ .shutoff)
    (hr : backupOnline env h dom h.vm parentID parentCheckpoint = some r) :
    Covered env dom.definition r ↔ dom.definition.fileDisks ≠ [] ∧
      env.onlineQuiet h.vm = true ∧ env.written dom.definition = true := by
  obtain ⟨hid, hvm, -, -, himg⟩ := onlinePoint_eq env dom h.vm parentID
  have hends : r.1 = .ok () ↔ dom.definition.fileDisks ≠ [] ∧
      env.onlineQuiet h.vm = true ∧ env.written dom.definition = true := by
    have htoBool : r.1.toBool = _ := (backupOnline_completed hf hdom hst hr).1
    have hok : r.1 = .ok () ↔ r.1.toBool = true := by
      rcases r.1 with e | ⟨⟩ <;> simp [Except.toBool]
    rw [hok, htoBool, ← imagesProduced_iff_written himg]
    simp only [BackupEnv.jobCompletes, BackupEnv.onlineQuiet, Bool.and_eq_true, Bool.not_eq_true',
      decide_eq_false_iff_not]
    tauto
  refine ⟨fun hcov => hends.mp hcov.1, fun hquiet => ?_⟩
  obtain ⟨hlib, -, -, -, himages⟩ := backupBegin_frame env hf hdom hst parentCheckpoint rfl
  have hok := hends.mpr hquiet
  obtain rfl := backupOnline_ok hr hok
  rw [completePoint_covered_iff hf hid hvm himg hlib fun d hd => by rw [himages d hd]; rfl]
  rw [← completePoint_toBool, hok, hquiet.2.2]
  rfl

/-- A backup of a stopped machine that goes through has copied all disks and ends with the
tail. -/
theorem backupOffline_ok {vm : String} (hok : (backupOffline env h dom vm).1.toBool = true) :
    ∃ m fs, copyDisks env dom.definition.fileDisks (newPoint env vm) (h.create vm env.id).files =
        (.ok m, fs) ∧
      backupOffline env h dom vm =
        completePoint env { h.create vm env.id with files := fs } dom.definition m := by
  rw [backupOffline] at hok ⊢
  split at hok
  · cases hok
  rename_i hsafe
  split at hok
  · cases hok
  rename_i hcreate
  dsimp only at hok ⊢
  split at hok
  · cases hok
  rename_i hxml
  rw [if_neg hsafe, if_neg hcreate, if_neg hxml]
  split at hok
  · cases hok
  · rename_i m fs hcopy
    exact ⟨m, fs, hcopy, rfl⟩

/-- **Offline**: the backup goes through when nothing fails, and the disks are covered when their
images are there as well. -/
theorem backupOffline_covered_iff (hf : ∀ d ∈ h.library, d.id ≠ env.id) :
    (backupOffline env h dom h.vm).1.toBool = env.offlineQuiet h dom ∧
      (Covered env dom.definition (backupOffline env h dom h.vm) ↔
        env.offlineQuiet h dom = true ∧ env.written dom.definition = true) := by
  have htoBool : (backupOffline env h dom h.vm).1.toBool = env.offlineQuiet h dom := by
    rw [(backupOffline_completed hf).1]
    simp only [BackupEnv.offlineQuiet, Bool.and_assoc]
  refine ⟨htoBool, ?_⟩
  rw [← htoBool]
  by_cases hok : (backupOffline env h dom h.vm).1.toBool = true
  · obtain ⟨m, fs, hcopy, heq⟩ := backupOffline_ok hok
    obtain ⟨-, hcopied⟩ := copyDisks_eq dom.definition.fileDisks_nodup hcopy
    obtain ⟨rfl, himages⟩ := hcopied m rfl
    obtain ⟨disks, hm, himg⟩ := diskPath_foldl dom.definition.fileDisks (newPoint env h.vm)
    rw [heq] at hok ⊢
    rw [hm] at hok ⊢
    have hput : ∀ d ∈ dom.definition.fileDisks,
        (fs (.point env.id (Metadata.diskFile d.targetDev .qcow2))).isSome = true := by
      intro d hd
      obtain ⟨img, -, hput⟩ := himages d hd
      rw [hput]
      rfl
    have hcov : Covered env dom.definition
        (completePoint env { h.create h.vm env.id with files := fs } dom.definition
          { newPoint env h.vm with disks := disks }) ↔ _ :=
      completePoint_covered_iff hf rfl rfl himg (create_frame hf).1 hput
    rw [hcov, Bool.and_eq_true, ← completePoint_toBool]
  · refine iff_of_false (fun hcov => hok ?_) fun hquiet => hok hquiet.1
    rw [hcov.1]
    rfl

end Paths

/-! ## Where the paths agree -/

/-- **Coverage**: for backups of one definition, running and stopped, the two paths agree exactly
when there are disks, no operation of the host fails and all images are there and not empty, or
when there are none and the offline path fails for another reason. -/
theorem same_coverage_iff {env env' : BackupEnv} {h h' : Host} {dom dom' : Domain}
    {parentID parentCheckpoint : String} {r : Except ProviderError Unit × Host}
    (hf : ∀ d ∈ h.library, d.id ≠ env.id) (hf' : ∀ d ∈ h'.library, d.id ≠ env'.id)
    (hdom : h.domain = some dom) (hrunning : dom.state ≠ .shutoff)
    (hsame : dom'.definition = dom.definition)
    (hr : backupOnline env h dom h.vm parentID parentCheckpoint = some r) :
    SameCoverage env env' dom.definition r (backupOffline env' h' dom' h'.vm) ↔
      if dom.definition.fileDisks = [] then env'.offlineQuiet h' dom' = false
      else (env.onlineQuiet h.vm = true ∧ env.written dom.definition = true) ∧
        env'.offlineQuiet h' dom' = true ∧ env'.written dom.definition = true := by
  have hon := backupOnline_covered_iff hf hdom hrunning hr
  have hoffline : (backupOffline env' h' dom' h'.vm).1.toBool = env'.offlineQuiet h' dom' ∧
      (Covered env' dom'.definition (backupOffline env' h' dom' h'.vm) ↔ _) :=
    backupOffline_covered_iff hf'
  obtain ⟨hends, hoff⟩ := hoffline
  rw [hsame] at hoff
  rw [SameCoverage, hon, hoff, hends]
  split
  · rename_i hnone
    have hrefused : r.1.toBool = false := by
      rw [(backupOnline_completed hf hdom hrunning hr).1, BackupEnv.jobCompletes, hnone]
      simp
    simp [hnone, hrefused]
  · rename_i hsome
    simp [hsome]

/-- A machine whose disks are those of a definition. -/
def coverageHost (D : Definition) (state : DomainState) : Host :=
  ⟨"erp01", [], fun _ => some ⟨.qcow2, none, fun _ => none⟩, some ⟨D, state, []⟩⟩

/-- A machine without disks. -/
def diskless : Definition := ⟨[], Definition.nodup_nil⟩

/-- One disk. -/
def oneDisk : Definition :=
  ⟨[⟨.disk, .qcow2, "vda", "/images/erp01.qcow2"⟩], List.nodup_singleton _⟩

/-- Backups that meet no trouble. -/
def coverageEnv : BackupEnv := .smooth "bk-1" idPattern_bk1 0

theorem same_coverage_oneDisk : ∃ r,
    backupOnline coverageEnv (coverageHost oneDisk .running) ⟨oneDisk, .running, []⟩ "erp01" "" "" =
      some r ∧
    SameCoverage coverageEnv coverageEnv oneDisk r (backupOffline coverageEnv
      (coverageHost oneDisk .shutoff) ⟨oneDisk, .shutoff, []⟩ "erp01") := by
  have hfresh : ∀ state, ∀ d ∈ (coverageHost oneDisk state).library, d.id ≠ coverageEnv.id :=
    fun _ _ hd => by cases hd
  have hon : backupOnline coverageEnv (coverageHost oneDisk .running) ⟨oneDisk, .running, []⟩
    (coverageHost oneDisk .running).vm "" "" = some _ := rfl
  have hagree := same_coverage_iff (hfresh .running) (hfresh .shutoff) rfl (by decide)
    (show (⟨oneDisk, .shutoff, []⟩ : Domain).definition = oneDisk from rfl) hon
  exact ⟨_, hon, hagree.mpr (by decide)⟩

/-- Backups whose images come out empty. -/
def emptyEnv : BackupEnv := { coverageEnv with stat := fun _ => some 0 }

/-- A machine without disks is refused while it runs and backed up when it is stopped, and so is
one whose images come out empty. -/
theorem coverage_differs :
    (∃ r, backupOnline coverageEnv (coverageHost diskless .running) ⟨diskless, .running, []⟩
        "erp01" "" "" = some r ∧
      ¬ SameCoverage coverageEnv coverageEnv diskless r (backupOffline coverageEnv
        (coverageHost diskless .shutoff) ⟨diskless, .shutoff, []⟩ "erp01")) ∧
    ∃ r, backupOnline emptyEnv (coverageHost oneDisk .running) ⟨oneDisk, .running, []⟩
        "erp01" "" "" = some r ∧
      ¬ SameCoverage emptyEnv emptyEnv oneDisk r (backupOffline emptyEnv
        (coverageHost oneDisk .shutoff) ⟨oneDisk, .shutoff, []⟩ "erp01") := by
  refine ⟨⟨_, rfl, ?_⟩, _, rfl, ?_⟩
  · rintro (⟨-, -, hoff⟩ | ⟨⟨hon, -⟩, -⟩)
    · cases hoff
    · cases hon
  · rintro (⟨hnone, -⟩ | ⟨⟨hon, -⟩, -⟩)
    · exact absurd hnone (by decide)
    · cases hon

end Ultrav
