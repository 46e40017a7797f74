import Ultrav.MockBackup
import Ultrav.ProviderCalls

/-!
# What a failed backup leaves

The library as a tree: the directories of machines, the directories of points, their files. A
backup creates the first two with `Create`; a failure removes the second at most.

* `Site` / `Site.backupVirtualMachine` — the libvirt provider with the directories of machines.
* `Leaves` — what a backup leaves when the directory of its point stays, or goes.
* `failed_backup_iff` — when a failed backup of either provider leaves the tree as it was.
-/

namespace Ultrav

/-- The directory tree of the library. -/
@[ext] structure LibraryTree (α : Type) where
  vmDirs : List String
  dirs : Library
  /-- the files of the points besides the metadata and the domain XML -/
  files : String → String → Option α

theorem addVMDir_eq_self {vmDirs : List String} {vm : String} :
    addVMDir vmDirs vm = vmDirs ↔ vm ∈ vmDirs := by
  rw [addVMDir]
  split
  · exact iff_of_true rfl ‹_›
  · exact iff_of_false (by simp) ‹_›

/-! ## The libvirt provider -/

/-- A host with the directories of machines in its library. -/
structure Site where
  host : Host
  vmDirs : List String

/-- What a backup meets outside its own code, the library's tree included. -/
structure SiteEnv extends BackupEnv where
  /-- when the point directory cannot be created: the directory of the machine was -/
  vmDirMade : Bool
  /-- the library cannot be listed at the end -/
  listFails : Bool

namespace Site

def tree (s : Site) : LibraryTree Image :=
  ⟨s.vmDirs, s.host.library, fun id file => s.host.files (.point id file)⟩

/-- The directories of machines after `Create`, the only step that touches them. -/
def created (env : SiteEnv) (vm : String) (vmDirs : List String) : List String :=
  if idSafe vm && (!env.createFails || env.vmDirMade) then addVMDir vmDirs vm else vmDirs

/-- `backupOnline`, which begins with `Create` -/
def backupOnline (env : SiteEnv) (s : Site) (dom : Domain) (vm parentID parentCheckpoint : String) :
    Option (Except ProviderError Unit × Site) :=
  (Ultrav.backupOnline env.toBackupEnv s.host dom vm parentID parentCheckpoint).map fun r =>
    (r.1, ⟨r.2, created env vm s.vmDirs⟩)

/-- `backupOffline`, which begins with `Create` -/
def backupOffline (env : SiteEnv) (s : Site) (dom : Domain) (vm : String) :
    Except ProviderError Unit × Site :=
  let r := Ultrav.backupOffline env.toBackupEnv s.host dom vm
  (r.1, ⟨r.2, created env vm s.vmDirs⟩)

/-- The end of a call: the newest point is read back. -/
def readBack (srt : SortDesc Metadata Metadata.createdAt) (env : SiteEnv) (id : String) :
    Except ProviderError Unit × Site → Except ProviderError (Option Metadata) × Site
  | (.error e, s) => (.error e, s)
  | (.ok (), s) =>
    if env.listFails then (.error (.other "list backups"), s)
    else
      match s.host.library.list srt id with
      | .error e => (.error (.store e), s)
      | .ok metas => (.ok metas.head?, s)

/-- `BackupVirtualMachine` -/
def backupVirtualMachine (srt : SortDesc Metadata Metadata.createdAt) (env : SiteEnv) (s : Site)
    (id : String) (req : Option CreateType) :
    Option (Except ProviderError (Option Metadata) × Site) :=
  if !env.connected then some (.error (.other "connect"), s)
  else
    match s.host.lookupDomain id with
    | none => some (.error .vmNotFound, s)
    | some dom =>
      match backupChainParent srt s.host.library dom id req with
      | .error e => some (.error e, s)
      | .ok (parentID, parentCheckpoint) =>
        (if dom.state = .shutoff then some (s.backupOffline env dom id)
          else s.backupOnline env dom id parentID parentCheckpoint).map (readBack srt env id)

theorem readBack_host {srt : SortDesc Metadata Metadata.createdAt} {env : SiteEnv}
    (hlist : env.listFails = false) (id : String) (s : Site) :
    ((readBack srt env id (.ok (), s)).1, (readBack srt env id (.ok (), s)).2.host) =
      match s.host.library.list srt id with
      | .error e => (.error (.store e), s.host)
      | .ok metas => (.ok metas.head?, s.host) := by
  rw [readBack, hlist, if_neg Bool.false_ne_true]
  cases s.host.library.list srt id with
  | error e => rfl
  | ok metas => rfl

/-- Without its directories, and with a listing that succeeds, it is the backup of a host. -/
theorem backupVirtualMachine_host (srt : SortDesc Metadata Metadata.createdAt) {env : SiteEnv}
    (hlist : env.listFails = false) (s : Site) (id : String) (req : Option CreateType) :
    (s.backupVirtualMachine srt env id req).map (fun r => (r.1, r.2.host)) =
      Ultrav.backupVirtualMachine srt env.toBackupEnv s.host id req := by
  rw [backupVirtualMachine, Ultrav.backupVirtualMachine]
  split
  · rfl
  cases s.host.lookupDomain id with
  | none => rfl
  | some dom =>
    dsimp only
    cases backupChainParent srt s.host.library dom id req with
    | error e => rfl
    | ok p =>
      dsimp only
      split
      · rw [Option.map_some, Option.map_some, Option.map_some, backupOffline]
        obtain ⟨e | ⟨⟩, h⟩ := Ultrav.backupOffline env.toBackupEnv s.host dom id
        · rfl
        · exact congrArg some (readBack_host hlist id ⟨h, _⟩)
      · rw [backupOnline, Option.map_map, Option.map_map]
        refine congrArg (fun f => Option.map f _) (funext fun r => ?_)
        obtain ⟨e | ⟨⟩, h⟩ := r
        · rfl
        · exact readBack_host hlist id ⟨h, _⟩

end Site

/-! ## What stays of a point -/

section Leaves

variable {env : BackupEnv} {h h₁ : Host} {dom : Domain}

/-- The directory of the new point is there, or the library is as it was. -/
def Leaves (h : Host) (stays : Bool) (h' : Host) : Prop :=
  if stays then ∃ d, h'.library = h.library ++ [d]
  else h'.library = h.library ∧ ∀ i file, h'.files (.point i file) = h.files (.point i file)

/-- A step in front of the rest. -/
theorem Leaves.step {b c : Bool} {e : ProviderError} {r : Except ProviderError Unit × Host}
    {stays : Bool} (hc : c = !b) (hgone : Leaves h false h₁) (hr : Leaves h stays r.2) :
    Leaves h (c && stays) (if b then (.error e, h₁) else r).2 := by
  subst hc
  cases b with
  | false => exact hr
  | true => exact hgone

/-- The same in front of a rest that may still be polling. -/
theorem Leaves.step_some {p : Prop} [Decidable p] {c : Bool} {e : ProviderError}
    {x : Option (Except ProviderError Unit × Host)} {r : Except ProviderError Unit × Host}
    {stays : Bool} (hr : (if p then some (.error e, h₁) else x) = some r) (hc : c = !decide p)
    (hgone : Leaves h false h₁) (hx : x = some r → Leaves h stays r.2) :
    Leaves h (c && stays) r.2 := by
  subst hc
  by_cases hp : p
  · rw [if_pos hp] at hr
    obtain rfl := Option.some.inj hr
    rw [decide_eq_true hp]
    exact hgone
  · rw [if_neg hp] at hr
    rw [decide_eq_false hp]
    exact hx hr

/-- `Abort` removes what was there since `Create`. -/
theorem Leaves.abort (hf : ∀ d ∈ h.library, d.id ≠ env.id)
    (hfiles : ∀ file, h.files (.point env.id file) = none)
    (hlib : h₁.library = h.library ++ [.empty h.vm env.id]) (hframe : BackupFrame env h h₁) :
    Leaves h false (h₁.abort h.vm env.id) := by
  refine ⟨abort_library hf hlib, fun i file => ?_⟩
  by_cases hi : i = env.id
  · subst hi
    rw [hfiles]
    exact if_pos rfl
  · rw [← hframe.points i file hi]
    exact Files.removePoint_point_ne _ _ hi

/-- The tail of a backup: once the domain XML is written the directory stays. -/
theorem completePoint_leaves {D : Definition} {m : Metadata}
    (hf : ∀ d ∈ h.library, d.id ≠ env.id) (hfiles : ∀ file, h.files (.point env.id file) = none)
    (hid : m.id = env.id) (hvm : m.vmID = h.vm)
    (hlib : h₁.library = h.library ++ [.empty h.vm env.id]) (hframe : BackupFrame env h h₁) :
    Leaves h (!env.writeXMLFails) (completePoint env h₁ D m).2 := by
  rw [completePoint]
  cases hxml : env.writeXMLFails with
  | true =>
    rw [if_pos rfl, hid, hvm]
    exact .abort hf hfiles hlib hframe
  | false =>
    rw [if_neg Bool.false_ne_true]
    dsimp only
    obtain ⟨disks, heq, -⟩ := recordDiskSizes_eq env.stat (m.setDomainXML true)
    have hwrite : (h.library ++ [PointDir.empty h.vm env.id]).writeDomainXML h.vm env.id D =
        h.library ++ [{ PointDir.empty h.vm env.id with domainXML := some D }] :=
      Library.writeDomainXML_fresh (d := .empty h.vm env.id) hf D
    rw [hlib, hid, hvm, hwrite, heq]
    cases env.completeFails with
    | true => exact ⟨_, rfl⟩
    | false =>
      have hdone := Library.complete_fresh
        (d := { PointDir.empty h.vm env.id with domainXML := some D })
        (m := { m.setDomainXML true with disks := disks }) hf ⟨hvm, hid⟩
      exact ⟨_, hdone⟩

theorem backupOffline_leaves (hf : ∀ d ∈ h.library, d.id ≠ env.id)
    (hfiles : ∀ file, h.files (.point env.id file) = none) :
    Leaves h (idSafe h.vm && (!env.createFails && (!env.xmlFails &&
      (env.copies h dom && !env.writeXMLFails)))) (backupOffline env h dom h.vm).2 := by
  have hkept : Leaves h false h := ⟨rfl, fun _ _ => rfl⟩
  obtain ⟨hlib, hframe⟩ := create_frame hf
  rw [backupOffline]
  refine .step (Bool.not_not _).symm hkept (.step rfl hkept
    (.step rfl (.abort hf hfiles hlib hframe) ?_))
  have hcopies : env.copies h dom = (copyDisks env dom.definition.fileDisks (newPoint env h.vm)
      (h.create h.vm env.id).files).1.toBool := (copyDisks_toBool _ _ _).symm
  have hcopied : ∀ {c fs}, copyDisks env dom.definition.fileDisks (newPoint env h.vm)
      (h.create h.vm env.id).files = (c, fs) →
        BackupFrame env h { h.create h.vm env.id with files := fs } := by
    intro c fs hc
    obtain ⟨hsame, -⟩ := copyDisks_eq dom.definition.fileDisks_nodup hc
    exact ⟨rfl, fun i file hi => hsame _ (by simp [hi]), .untouched rfl fun v => hsame _ (by simp)⟩
  rw [hcopies]
  rcases hc : copyDisks env dom.definition.fileDisks (newPoint env h.vm)
    (h.create h.vm env.id).files with ⟨e | m, fs⟩
  · exact .abort hf hfiles hlib (hcopied hc)
  · obtain ⟨-, hok⟩ := copyDisks_eq dom.definition.fileDisks_nodup hc
    obtain ⟨rfl, -⟩ := hok m rfl
    obtain ⟨disks, heq, -⟩ := diskPath_foldl dom.definition.fileDisks (newPoint env h.vm)
    rw [heq]
    exact completePoint_leaves hf hfiles rfl rfl hlib (hcopied hc)

theorem backupOnline_leaves {parentID parentCheckpoint : String}
    {r : Except ProviderError Unit × Host} (hf : ∀ d ∈ h.library, d.id ≠ env.id)
    (hfiles : ∀ file, h.files (.point env.id file) = none) (hdom : h.domain = some dom)
    (hst : dom.state ≠ .shutoff)
    (hr : Ultrav.backupOnline env h dom h.vm parentID parentCheckpoint = some r) :
    Leaves h (idSafe h.vm && (!env.createFails && (!env.xmlFails &&
      (env.jobCompletes h dom parentID && !env.writeXMLFails)))) r.2 := by
  have hkept : Leaves h false h := ⟨rfl, fun _ _ => rfl⟩
  obtain ⟨hlib₀, hframe₀⟩ := create_frame hf
  obtain ⟨hlib, hframe, -⟩ := backupBegin_frame env hf hdom hst parentCheckpoint rfl
  obtain ⟨hid, hvm, -⟩ := onlinePoint_eq env dom h.vm parentID
  have habort₀ := Leaves.abort hf hfiles hlib₀ hframe₀
  have habort := Leaves.abort hf hfiles hlib hframe
  rw [Ultrav.backupOnline] at hr
  refine .step_some hr (by simp) hkept fun hr => .step_some hr (by simp) hkept fun hr =>
    .step_some hr (by simp) habort₀ fun hr => ?_
  rw [BackupEnv.jobCompletes, Bool.and_assoc, Bool.and_assoc, Bool.and_assoc]
  refine .step_some hr rfl habort₀ fun hr => .step_some hr (by simp) habort₀ fun hr => ?_
  dsimp only at hr
  rcases hpoll : pollJob env.polls with _ | ⟨e | ⟨⟩⟩
  · rw [hpoll] at hr
    cases hr
  · rw [hpoll] at hr
    obtain rfl := Option.some.inj hr
    exact habort
  · rw [hpoll] at hr
    dsimp only at hr
    cases himg : imagesProduced env.stat (onlinePoint env dom h.vm parentID) with
    | false =>
      rw [himg] at hr
      obtain rfl := Option.some.inj hr
      exact habort
    | true =>
      rw [himg, if_pos rfl] at hr
      obtain rfl := Option.some.inj hr
      exact completePoint_leaves hf hfiles hid hvm hlib hframe

end Leaves

namespace Site

variable {srt : SortDesc Metadata Metadata.createdAt} {env : SiteEnv} {s s' : Site}
  {req : Option CreateType}

/-- The call comes to `Create`, and that creates a directory. -/
def touches (srt : SortDesc Metadata Metadata.createdAt) (env : SiteEnv) (h : Host)
    (req : Option CreateType) : Bool :=
  env.connected &&
    match h.domain with
    | none => false
    | some dom =>
      match backupChainParent srt h.library dom h.vm req with
      | .error _ => false
      | .ok _ => idSafe h.vm && (!env.createFails || env.vmDirMade)

/-- Every step before the final metadata write goes through. -/
def fills (srt : SortDesc Metadata Metadata.createdAt) (env : BackupEnv) (h : Host)
    (req : Option CreateType) : Bool :=
  env.connected &&
    match h.domain with
    | none => false
    | some dom =>
      match backupChainParent srt h.library dom h.vm req with
      | .error _ => false
      | .ok (parentID, _) =>
        idSafe h.vm && (!env.createFails && (!env.xmlFails &&
          ((if dom.state = .shutoff then env.copies h dom else env.jobCompletes h dom parentID) &&
            !env.writeXMLFails)))

/-- A backup completes its point when that write goes through as well. -/
theorem completes_eq (env : BackupEnv) (h : Host) :
    env.completes srt h req = (fills srt env h req && !env.completeFails) := by
  rw [BackupEnv.completes, fills, Bool.and_assoc]
  cases h.domain with
  | none => rfl
  | some dom =>
    dsimp only
    cases backupChainParent srt h.library dom h.vm req with
    | error e => rfl
    | ok p => simp only [Bool.and_assoc]

/-- The tree is as it was when no directory of a machine is new and none of a point stays. -/
theorem tree_eq_iff {stays : Bool} (hleaves : Leaves s.host stays s'.host) :
    s'.tree = s.tree ↔ s'.vmDirs = s.vmDirs ∧ stays = false := by
  rw [LibraryTree.ext_iff]
  cases stays with
  | false => exact ⟨fun h => ⟨h.1, rfl⟩, fun h => ⟨h.1, hleaves.1, funext₂ hleaves.2⟩⟩
  | true =>
    obtain ⟨d, hd⟩ := hleaves
    refine iff_of_false (fun h => ?_) (by simp)
    have hlib : s'.host.library = s.host.library := h.2.1
    rw [hd] at hlib
    simp at hlib

theorem readBack_site (r : Except ProviderError Unit × Site) (id : String) :
    (readBack srt env id r).2 = r.2 := by
  obtain ⟨e | ⟨⟩, s⟩ := r
  · rfl
  · rw [readBack]
    split
    · rfl
    · split <;> rfl

/-- **A backup of the libvirt provider**, failed or not: what it leaves of the directories. -/
theorem backupVirtualMachine_leaves (hf : ∀ d ∈ s.host.library, d.id ≠ env.id)
    (hfiles : ∀ file, s.host.files (.point env.id file) = none)
    {r : Except ProviderError (Option Metadata)}
    (hr : s.backupVirtualMachine srt env s.host.vm req = some (r, s')) :
    Leaves s.host (fills srt env.toBackupEnv s.host req) s'.host ∧
      s'.vmDirs =
        if touches srt env s.host req then addVMDir s.vmDirs s.host.vm else s.vmDirs := by
  have hkept : Leaves s.host false s.host := ⟨rfl, fun _ _ => rfl⟩
  have hlook : s.host.lookupDomain s.host.vm = s.host.domain := if_pos rfl
  rw [backupVirtualMachine, hlook] at hr
  -- before `Create` nothing is touched
  have hrefused : touches srt env s.host req = false →
      fills srt env.toBackupEnv s.host req = false →
      s' = s → Leaves s.host (fills srt env.toBackupEnv s.host req) s'.host ∧
        s'.vmDirs =
          if touches srt env s.host req then addVMDir s.vmDirs s.host.vm else s.vmDirs := by
    rintro ht hfl rfl
    rw [ht, hfl]
    exact ⟨hkept, rfl⟩
  cases hconn : env.connected with
  | false =>
    rw [hconn] at hr
    exact hrefused (by simp [touches, hconn]) (by simp [fills, hconn])
      (Prod.mk.inj (Option.some.inj hr)).2.symm
  | true =>
    rw [hconn, if_neg (by simp)] at hr
    rcases hdom : s.host.domain with _ | dom
    · rw [hdom] at hr
      exact hrefused (by simp [touches, hdom]) (by simp [fills, hdom])
        (Prod.mk.inj (Option.some.inj hr)).2.symm
    rw [hdom] at hr
    dsimp only at hr
    rcases hchain : backupChainParent srt s.host.library dom s.host.vm req with e | p
    · rw [hchain] at hr
      exact hrefused (by simp [touches, hdom, hchain]) (by simp [fills, hdom, hchain])
        (Prod.mk.inj (Option.some.inj hr)).2.symm
    rw [hchain] at hr
    obtain ⟨r₁, hrun, hr⟩ := Option.map_eq_some_iff.mp hr
    have hs' : s' = r₁.2 := by rw [← readBack_site r₁ s.host.vm, hr]
    subst hs'
    have ht : touches srt env s.host req =
        (idSafe s.host.vm && (!env.createFails || env.vmDirMade)) := by
      simp only [touches, hconn, hdom, hchain, Bool.true_and]
    have hfl : fills srt env.toBackupEnv s.host req = (idSafe s.host.vm && (!env.createFails &&
        (!env.xmlFails && ((if dom.state = .shutoff then env.copies s.host dom
          else env.jobCompletes s.host dom p.1) && !env.writeXMLFails)))) := by
      simp only [fills, hconn, hdom, hchain, Bool.true_and]
    rw [ht, hfl]
    by_cases hst : dom.state = .shutoff
    · rw [if_pos hst] at hrun ⊢
      obtain rfl := Option.some.inj hrun
      exact ⟨backupOffline_leaves hf hfiles, rfl⟩
    · rw [if_neg hst] at hrun ⊢
      obtain ⟨r₂, honline, rfl⟩ := Option.map_eq_some_iff.mp hrun
      exact ⟨backupOnline_leaves hf hfiles hdom hst honline, rfl⟩

/-- **Failed backups of the libvirt provider.** -/
theorem tree_eq_iff_of_backup (hf : ∀ d ∈ s.host.library, d.id ≠ env.id)
    (hfiles : ∀ file, s.host.files (.point env.id file) = none)
    {r : Except ProviderError (Option Metadata)}
    (hr : s.backupVirtualMachine srt env s.host.vm req = some (r, s')) :
    s'.tree = s.tree ↔ (touches srt env s.host req = true → s.host.vm ∈ s.vmDirs) ∧
      fills srt env.toBackupEnv s.host req = false := by
  obtain ⟨hleaves, hdirs⟩ := backupVirtualMachine_leaves hf hfiles hr
  rw [tree_eq_iff hleaves, hdirs]
  refine and_congr_left fun _ => ?_
  split
  · rename_i ht
    rw [addVMDir_eq_self]
    exact ⟨fun h _ => h, fun h => h ht⟩
  · rename_i ht
    exact iff_of_true rfl fun h => absurd h ht

end Site

/-! ## The mock provider -/

namespace MockSite

variable {srt : SortDesc Metadata Metadata.createdAt} {env : MockBackupEnv} {p p' : MockSite}
  {id : String} {req : Option CreateType}

def tree (p : MockSite) : LibraryTree ℤ := ⟨p.vmDirs, p.library, p.images⟩

/-- The call comes to `Create`. -/
def reaches (srt : SortDesc Metadata Metadata.createdAt) (env : MockBackupEnv) (p : MockSite)
    (id : String) (req : Option CreateType) : Bool :=
  match p.vms id with
  | none => false
  | some vm =>
    vm.state ≠ .shuttingDown && env.hasLibrary && idSafe id &&
      match mockParent (mockChain srt env.listFails p.library id) (vm.state = .running) id req with
      | .error _ => false
      | .ok _ => true

/-- What a backup leaves once it has come to `Create`. -/
structure Leaves (env : MockBackupEnv) (p p' : MockSite) (id : String) : Prop where
  vmDirs : p'.vmDirs =
    if !env.createFails || env.vmDirMade then addVMDir p.vmDirs id else p.vmDirs
  library : env.createFails = false → p'.library.length = p.library.length + 1
  kept : env.createFails = true → p'.library = p.library ∧ p'.images = p.images

/-- The directory of the point stays, whatever fails after `Create`. -/
theorem mockWritePoint_leaves (hf : ∀ d ∈ p.library, d.id ≠ env.id) (hsafe : idSafe id = true)
    (vm : MockVM) (parent : Option Metadata) :
    Leaves env p (mockWritePoint env p id vm parent).2 id := by
  rw [mockWritePoint, hsafe, if_neg (by simp)]
  cases hcreate : env.createFails with
  | true =>
    rw [if_pos rfl]
    cases hmade : env.vmDirMade with
    | true => exact ⟨by simp [hcreate, hmade], by simp [hcreate], fun _ => ⟨rfl, rfl⟩⟩
    | false => exact ⟨by simp [hcreate, hmade], by simp [hcreate], fun _ => ⟨rfl, rfl⟩⟩
  | false =>
    have hlen : (p.library.mkdir id env.id).length = p.library.length + 1 := by
      rw [Library.mkdir_fresh hf, List.length_append, List.length_singleton]
    have hdirs : addVMDir p.vmDirs id =
        if !env.createFails || env.vmDirMade then addVMDir p.vmDirs id else p.vmDirs := by
      simp [hcreate]
    have hleaves : ∀ {q : MockSite}, q.vmDirs = addVMDir p.vmDirs id →
        q.library.length = (p.library.mkdir id env.id).length → Leaves env p q id :=
      fun hd hl => ⟨hd.trans hdirs, fun _ => hl.trans hlen, by simp [hcreate]⟩
    rw [if_neg (by simp)]
    dsimp only
    split
    · exact hleaves rfl rfl
    · split
      · exact hleaves rfl rfl
      · split
        · exact hleaves rfl (List.length_map _)
        · exact hleaves rfl ((List.length_map _).trans (List.length_map _))

/-- What a backup leaves: nothing, or what `Create` and the rest made. -/
theorem mockBackupVirtualMachine_leaves (hf : ∀ d ∈ p.library, d.id ≠ env.id)
    {r : Except ProviderError Metadata}
    (hr : mockBackupVirtualMachine srt env p id req = (r, p')) :
    reaches srt env p id req = false ∧ p' = p ∨
      reaches srt env p id req = true ∧ Leaves env p p' id := by
  rw [mockBackupVirtualMachine] at hr
  rw [reaches]
  cases hvm : p.vms id with
  | none =>
    rw [hvm] at hr
    cases hr
    exact .inl ⟨rfl, rfl⟩
  | some vm =>
    rw [hvm] at hr
    dsimp only at hr ⊢
    by_cases hstate : vm.state = .shuttingDown
    · rw [if_pos hstate] at hr
      cases hr
      exact .inl ⟨by simp [hstate], rfl⟩
    rw [if_neg hstate] at hr
    cases hlib : env.hasLibrary with
    | false =>
      rw [hlib] at hr
      cases hr
      exact .inl ⟨by simp, rfl⟩
    | true =>
      rw [hlib, if_neg (by simp)] at hr
      rcases hparent : mockParent (mockChain srt env.listFails p.library id)
        (vm.state = .running) id req with e | parent
      · rw [hparent] at hr
        cases hr
        exact .inl ⟨by simp, rfl⟩
      · rw [hparent] at hr
        dsimp only at hr
        cases hsafe : idSafe id with
        | false =>
          rw [mockWritePoint, hsafe] at hr
          cases hr
          exact .inl ⟨by simp, rfl⟩
        | true =>
          have hleaves := mockWritePoint_leaves hf hsafe vm parent
          rw [hr] at hleaves
          exact .inr ⟨by simp [hstate], hleaves⟩

/-- **Failed backups of the mock provider.** -/
theorem tree_eq_iff_of_backup (hf : ∀ d ∈ p.library, d.id ≠ env.id)
    {r : Except ProviderError Metadata}
    (hr : mockBackupVirtualMachine srt env p id req = (r, p')) :
    p'.tree = p.tree ↔ (reaches srt env p id req = true →
      env.createFails = true ∧ (env.vmDirMade = true → id ∈ p.vmDirs)) := by
  rcases mockBackupVirtualMachine_leaves hf hr with ⟨hreach, rfl⟩ | ⟨hreach, hleaves⟩
  · exact iff_of_true rfl (by simp [hreach])
  simp only [hreach, eq_self, forall_true_left]
  rw [LibraryTree.ext_iff]
  cases hcreate : env.createFails with
  | false =>
    refine iff_of_false (fun h => ?_) (by simp)
    have hlen := hleaves.library hcreate
    have hsame : p'.library = p.library := h.2.1
    rw [hsame] at hlen
    omega
  | true =>
    obtain ⟨hlib, himages⟩ := hleaves.kept hcreate
    have hdirs := hleaves.vmDirs
    rw [hcreate] at hdirs
    cases hmade : env.vmDirMade with
    | false =>
      rw [hmade] at hdirs
      exact iff_of_true ⟨hdirs, hlib, himages⟩ (by simp)
    | true =>
      rw [hmade] at hdirs
      have hadded : p'.vmDirs = addVMDir p.vmDirs id := hdirs
      have hsame : p'.tree.vmDirs = p.tree.vmDirs ↔ id ∈ p.vmDirs := by
        rw [← addVMDir_eq_self, ← hadded]
        rfl
      rw [hsame]
      exact ⟨fun h => ⟨rfl, fun _ => h.1⟩, fun h => ⟨h.2 rfl, hlib, himages⟩⟩

end MockSite

/-! ## Both providers -/

/-- The id that `newID` draws names nothing yet. -/
def Site.Fresh (env : SiteEnv) (s : Site) : Prop :=
  (∀ d ∈ s.host.library, d.id ≠ env.id) ∧ ∀ file, s.host.files (.point env.id file) = none

def MockSite.Fresh (env : MockBackupEnv) (p : MockSite) : Prop :=
  ∀ d ∈ p.library, d.id ≠ env.id

/-- **Failed backups**: what was the tree before the call is the tree after it exactly when the
libvirt provider made no directory of a machine and did not come to the final metadata write, and
when the mock provider did not come past `Create` and that made no directory of a machine. -/
theorem failed_backup_iff (srt : SortDesc Metadata Metadata.createdAt) (req : Option CreateType) :
    (∀ (env : SiteEnv) (s s' : Site) (e : ProviderError), s.Fresh env →
      s.backupVirtualMachine srt env s.host.vm req = some (.error e, s') →
      (s'.tree = s.tree ↔ (Site.touches srt env s.host req = true → s.host.vm ∈ s.vmDirs) ∧
        Site.fills srt env.toBackupEnv s.host req = false)) ∧
    ∀ (env : MockBackupEnv) (p p' : MockSite) (id : String) (e : ProviderError), p.Fresh env →
      mockBackupVirtualMachine srt env p id req = (.error e, p') →
      (p'.tree = p.tree ↔ (MockSite.reaches srt env p id req = true →
        env.createFails = true ∧ (env.vmDirMade = true → id ∈ p.vmDirs))) :=
  ⟨fun _ _ _ _ hf hr => Site.tree_eq_iff_of_backup hf.1 hf.2 hr,
    fun _ _ _ _ _ hf hr => MockSite.tree_eq_iff_of_backup hf hr⟩

/-- A stopped machine without disks, which has been backed up before. -/
def bareSite : Site :=
  ⟨⟨"erp01", [], fun _ => none, some ⟨⟨[], Definition.nodup_nil⟩, .shutoff, []⟩⟩, ["erp01"]⟩

/-- A machine of the mock provider, which has been backed up before. -/
def bareMock : MockSite :=
  ⟨fun id => if id = "erp01" then some ⟨.running, [], MockVM.nodup_nil⟩ else none, [], ["erp01"],
    fun _ _ => none⟩

/-- The metadata cannot be written. -/
def unsavedEnv : SiteEnv :=
  { BackupEnv.smooth "bk-1" idPattern_bk1 0 with
    completeFails := true, vmDirMade := false, listFails := false }

/-- The image of the disk cannot be written. -/
def unwrittenEnv : MockBackupEnv :=
  { MockBackupEnv.smooth "bk-1" idPattern_bk1 0 with writeFails := fun name => name = "vda" }

theorem failed_backup_iff_erp01 :
    ∃ s' e p' e', bareSite.backupVirtualMachine (.insertion Metadata.createdAt)
        { unsavedEnv with xmlFails := true } "erp01" none = some (.error e, s') ∧
      (s'.tree = bareSite.tree ↔ (Site.touches (.insertion Metadata.createdAt)
          { unsavedEnv with xmlFails := true } bareSite.host none = true →
            "erp01" ∈ bareSite.vmDirs) ∧
        Site.fills (.insertion Metadata.createdAt)
          { unsavedEnv.toBackupEnv with xmlFails := true } bareSite.host none = false) ∧
      mockBackupVirtualMachine (.insertion Metadata.createdAt) unwrittenEnv bareMock "erp01" none =
        (.error e', p') ∧
      (p'.tree = bareMock.tree ↔
        (MockSite.reaches (.insertion Metadata.createdAt) unwrittenEnv bareMock "erp01" none =
          true → unwrittenEnv.createFails = true ∧
            (unwrittenEnv.vmDirMade = true → "erp01" ∈ bareMock.vmDirs))) := by
  have hfresh : ∀ d ∈ ([] : Library), d.id ≠ "bk-1" := fun _ hd => by cases hd
  refine ⟨_, _, _, _, rfl, ?_, rfl, ?_⟩
  · exact (failed_backup_iff _ none).1 _ _ _ _ ⟨hfresh, fun _ => rfl⟩ rfl
  · exact (failed_backup_iff _ none).2 _ _ _ _ _ hfresh rfl

/-- A backup whose metadata cannot be written, and one of the mock provider whose image cannot
be: the directory of the point stays. -/
theorem failed_backup_leaves_point :
    (∃ s' e, bareSite.backupVirtualMachine (.insertion Metadata.createdAt) unsavedEnv "erp01" none =
      some (.error e, s') ∧ s'.tree ≠ bareSite.tree) ∧
    ∃ p' e, mockBackupVirtualMachine (.insertion Metadata.createdAt) unwrittenEnv bareMock "erp01"
      none = (.error e, p') ∧ p'.tree ≠ bareMock.tree := by
  refine ⟨⟨_, _, rfl, fun h => ?_⟩, ⟨_, _, rfl, fun h => ?_⟩⟩
  · have hlen := congrArg (fun t => t.dirs.length) h
    cases hlen
  · have hlen := congrArg (fun t => t.dirs.length) h
    cases hlen

end Ultrav
