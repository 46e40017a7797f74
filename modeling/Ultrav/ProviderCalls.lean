import Ultrav.BackupEffects
import Ultrav.CreateMachine

/-!
# What a task's call does to the provider

The functions of create-VM and create-backup tasks make one provider call each. This module
says what the call leaves and whether it fails, in terms of the steps that go through.

* `CreateEnv.defines` / `BackupEnv.completes` — every step up to the new domain, or the new
  point, goes through.
* `createVirtualMachine_effect` / `backupVirtualMachine_effect` — then it is there, else it is
  not.
* `ProviderCall` — one call with what it met; `made_eq` and `failed_eq` sum it up.
-/

namespace Ultrav

open Attempt

/-! ## Machines -/

section CreateVM

variable (env : CreateEnv) (req : VirtualMachineCreate) (hv : Hypervisor)

/-- Every step up to the definition of the domain goes through. -/
def CreateEnv.defines : Bool := ((createCheckpoints env req hv).take 13).all fun c => !c.fails

/-- A step after it fails. -/
def CreateEnv.failsLate : Bool := ((createCheckpoints env req hv).drop 13).any Checkpoint.fails

/-- The end of a call: a domain was defined or not, and it failed or not. -/
def Defined (r : Except CreateVMError (List String) × Hypervisor) (defined late : Bool) : Prop :=
  r.2.domains = (if defined then (hv.define req.name).domains else hv.domains) ∧
    r.1.toBool = (defined && !late)

variable {env req hv}

/-- A step in front of the rest. -/
theorem Defined.step {b : Bool} {e : CreateVMError} {hv' : Hypervisor}
    {r : Except CreateVMError (List String) × Hypervisor} {defined late : Bool}
    (hdom : hv'.domains = hv.domains) (h : b = false → Defined req hv r defined late) :
    Defined req hv (if b then (.error e, hv') else r) (!b && defined) late := by
  cases b with
  | false => exact h rfl
  | true => exact ⟨hdom, rfl⟩

/-- The second half of a call. -/
theorem defineDomain_defined (vol volPath : String) {hv' : Hypervisor}
    (hdom : hv'.domains = hv.domains) :
    Defined req hv (defineDomain env req vol volPath hv')
      (!env.refused req volPath && (!env.defineFails && true))
      (req.start.getD false && env.startFails || (env.readBackFails || false)) := by
  rw [defineDomain, CreateEnv.refused]
  rcases appliedProfile (env.spec req volPath) env.caps with e | profile
  · exact ⟨hdom, rfl⟩
  · cases hdef : env.defineFails with
    | true => exact ⟨hdom, rfl⟩
    | false =>
      have hdefined : (hv'.define req.name).domains = (hv.define req.name).domains := by
        rw [Hypervisor.define, Hypervisor.define, hdom]
      dsimp only
      rw [if_neg Bool.false_ne_true, modify_bind_apply, failIf_bind_apply]
      cases req.start.getD false && env.startFails with
      | true => exact ⟨hdefined, rfl⟩
      | false =>
        rw [if_neg Bool.false_ne_true, failIf_bind_apply]
        cases env.readBackFails with
        | true => exact ⟨hdefined, rfl⟩
        | false => exact ⟨hdefined, rfl⟩

/-- The volume is created or not, and the rest follows. -/
theorem storageVolCreateXML_bind_defined
    {f : String → Attempt CreateVMError Hypervisor (List String)} {defined late : Bool}
    (h : ∀ vol, env.created req hv = some vol →
      Defined req hv (f vol (hv.addVolume req.disk.poolId vol)) defined late) :
    Defined req hv ((storageVolCreateXML env req.disk.poolId req.volumeXML >>= f) hv)
      (!(env.created req hv).isNone && defined) late := by
  rw [storageVolCreateXML, Attempt.bind_assoc, get_bind_apply]
  rcases hname : env.volumeName req.volumeXML with _ | name
  · rw [CreateEnv.created, hname]
    exact ⟨rfl, rfl⟩
  · have hcreated : env.created req hv = if
        (!(env.volumeCreateFails || (hv.volumes req.disk.poolId).contains name)) = true
        then some name else none := by
      rw [CreateEnv.created, hname]
      rfl
    dsimp only
    rw [Attempt.bind_assoc, failIf_bind_apply]
    cases hfails : env.volumeCreateFails || (hv.volumes req.disk.poolId).contains name with
    | true =>
      rw [hfails] at hcreated
      rw [hcreated]
      exact ⟨rfl, rfl⟩
    | false =>
      rw [hfails] at hcreated
      rw [if_neg Bool.false_ne_true, Attempt.bind_assoc, modify_bind_apply, Attempt.pure_bind,
        hcreated]
      exact h name hcreated

/-- **Creation of a machine**: the domain is defined exactly when every step up to that goes
through, and the call succeeds when the steps after it go through as well. -/
theorem createVirtualMachine_effect (env : CreateEnv) (req : VirtualMachineCreate)
    (hv : Hypervisor) :
    Defined req hv (createVirtualMachine env req hv) (env.defines req hv)
      (env.failsLate req hv) := by
  rw [createVirtualMachine, failIf_bind_apply]
  refine .step rfl fun _ => ?_
  rw [get_bind_apply, failIf_bind_apply]
  refine .step rfl fun _ => ?_
  rw [failIf_bind_apply]
  refine .step rfl fun _ => ?_
  rw [failIf_bind_apply]
  refine .step rfl fun _ => storageVolCreateXML_bind_defined fun vol _ => ?_
  rcases hpath : env.volumePath with _ | volPath
  · exact ⟨rfl, rfl⟩
  · dsimp only
    rw [failIf_bind_apply]
    refine .step rfl fun _ => ?_
    rw [checkISO, checkISO, Attempt.bind_assoc, failIf_bind_apply]
    refine .step rfl fun _ => ?_
    rw [failIf_bind_apply]
    refine .step rfl fun _ => ?_
    rw [Attempt.bind_assoc, failIf_bind_apply]
    refine .step rfl fun _ => ?_
    rw [failIf_bind_apply]
    refine .step rfl fun _ => ?_
    exact defineDomain_defined vol volPath rfl

end CreateVM

/-! ## Backups -/

/-- The completed points of a library. -/
def Library.visible (lib : Library) : List Metadata := lib.filterMap PointDir.completed

section CreateBackup

variable (srt : SortDesc Metadata Metadata.createdAt) (env : BackupEnv) (h : Host)
  (req : Option CreateType)

/-- Every disk of a stopped domain is copied. -/
def BackupEnv.copies (dom : Domain) : Bool :=
  dom.definition.fileDisks.all fun d =>
    !env.downloadFails d.targetDev && (h.files (.volume d.sourceFile)).isSome

/-- The job of a running domain is begun, completes, and leaves its images. -/
def BackupEnv.jobCompletes (dom : Domain) (parentID : String) : Bool :=
  !decide (dom.definition.fileDisks = []) && (!env.beginFails &&
    ((pollJob env.polls).any Except.toBool &&
      imagesProduced env.stat (onlinePoint env dom h.vm parentID)))

/-- Every step up to the point, from the connection on, goes through. -/
def BackupEnv.completes : Bool :=
  env.connected &&
    match h.domain with
    | none => false
    | some dom =>
      match backupChainParent srt h.library dom h.vm req with
      | .error _ => false
      | .ok (parentID, _) =>
        idSafe h.vm && (!env.createFails && (!env.xmlFails &&
          ((if dom.state = .shutoff then env.copies h dom else env.jobCompletes h dom parentID) &&
            (!env.writeXMLFails && !env.completeFails))))

/-- The end of a backup: a point was completed, or the call failed and there is none. -/
def Completed {β : Type} (completed : Bool) (r : Except ProviderError β × Host) : Prop :=
  r.1.toBool = completed ∧
    if completed then ∃ m, m.id = env.id ∧ r.2.library.visible = h.library.visible ++ [m]
    else r.2.library.visible = h.library.visible

variable {env h} {h₁ h' : Host} {β : Type}

/-- A step in front of the rest. -/
theorem Completed.step {b c : Bool} {e : ProviderError} {r : Except ProviderError β × Host}
    {completed : Bool} (hc : c = !b) (hkept : h₁.library = h.library)
    (hr : Completed env h completed r) :
    Completed env h (c && completed) (if b then (.error e, h₁) else r) := by
  subst hc
  cases b with
  | false => exact hr
  | true => exact ⟨rfl, congrArg Library.visible hkept⟩

/-- The same in front of a rest that may still be polling. -/
theorem Completed.step_some {p : Prop} [Decidable p] {c : Bool} {e : ProviderError}
    {x : Option (Except ProviderError β × Host)} {r : Except ProviderError β × Host}
    {completed : Bool} (hr : (if p then some (.error e, h₁) else x) = some r)
    (hc : c = !decide p) (hkept : h₁.library = h.library)
    (hx : x = some r → Completed env h completed r) : Completed env h (c && completed) r := by
  subst hc
  by_cases hp : p
  · rw [if_pos hp] at hr
    obtain rfl := Option.some.inj hr
    rw [decide_eq_true hp]
    exact ⟨rfl, congrArg Library.visible hkept⟩
  · rw [if_neg hp] at hr
    rw [decide_eq_false hp]
    exact hx hr

/-- A directory that is removed again. -/
theorem abort_library (hf : ∀ d ∈ h.library, d.id ≠ env.id)
    (hlib : h₁.library = h.library ++ [.empty h.vm env.id]) :
    (h₁.abort h.vm env.id).library = h.library := by
  rw [Host.abort, hlib]
  exact Library.removeDir_fresh (d := .empty h.vm env.id) hf

/-- The tail of a backup completes the point when it succeeds. -/
theorem Completion.completed {D : Definition} {m : Metadata} {r : Except ProviderError Unit}
    (hid : m.id = env.id) (hc : Completion h.library D env h₁ m r h') :
    Completed env h r.toBool (r, h') := by
  cases hc with
  | aborted => exact ⟨rfl, rfl⟩
  | @leftover e d _ _ hmeta _ =>
    have hnone : d.completed = none := by rw [PointDir.completed, hmeta]; rfl
    refine ⟨rfl, ?_⟩
    change (h.library ++ [d]).filterMap PointDir.completed = h.library.visible
    rw [List.filterMap_append, List.filterMap_cons_none hnone]
    exact List.append_nil _
  | @done d _ _ _ hmeta =>
    obtain ⟨disks, heq, -⟩ := recordDiskSizes_eq env.stat (m.setDomainXML true)
    have hsome : d.completed = some
        { recordDiskSizes env.stat (m.setDomainXML true) with state := .complete } :=
      PointDir.completed_eq_some.mpr ⟨hmeta, rfl⟩
    refine ⟨rfl, { recordDiskSizes env.stat (m.setDomainXML true) with state := .complete },
      (congrArg Metadata.id heq).trans hid, ?_⟩
    change (h.library ++ [d]).filterMap PointDir.completed = _
    rw [List.filterMap_append, List.filterMap_cons_some hsome]
    rfl

/-- When the tail of a backup succeeds. -/
theorem completePoint_toBool (D : Definition) (m : Metadata) :
    (completePoint env h₁ D m).1.toBool = (!env.writeXMLFails && !env.completeFails) := by
  rw [completePoint.eq_def]
  cases env.writeXMLFails <;> cases env.completeFails <;> rfl

theorem completePoint_completed {D : Definition} {m : Metadata}
    (hf : ∀ d ∈ h.library, d.id ≠ env.id) (hid : m.id = env.id) (hvm : m.vmID = h.vm)
    (hlib : h₁.library = h.library ++ [.empty h.vm env.id]) :
    Completed env h (!env.writeXMLFails && !env.completeFails) (completePoint env h₁ D m) := by
  have hc : Completion h.library D env h₁ m (completePoint env h₁ D m).1
      (completePoint env h₁ D m).2 :=
    completePoint_eq h.library (by rwa [hid]) (by rw [hid, hvm]; exact hlib) rfl
  have hsucceeds : (completePoint env h₁ D m).1.toBool = _ := completePoint_toBool D m
  rw [← hsucceeds]
  exact hc.completed hid

/-- The copy loop goes through when every copy does. -/
theorem copyDisks_toBool (ds : List DomainDisk) :
    ∀ (m : Metadata) (fs : Files), (copyDisks env ds m fs).1.toBool =
      ds.all fun d => !env.downloadFails d.targetDev && (fs (.volume d.sourceFile)).isSome := by
  induction ds with
  | nil => intro m fs; rfl
  | cons d ds ih =>
    intro m fs
    rw [copyDisks, List.all_cons]
    cases env.downloadFails d.targetDev with
    | true => rfl
    | false =>
      rcases hfs : fs (.volume d.sourceFile) with _ | img
      · rfl
      · -- the copy goes to the directory of the point, not to a volume
        have hvol : ∀ v, (fs.put (.point env.id (Metadata.diskFile d.targetDev .qcow2)) img)
            (.volume v) = fs (.volume v) := fun v => Files.put_of_ne _ _ (by simp)
        rw [if_neg Bool.false_ne_true]
        refine (ih _ _).trans ?_
        simp only [hvol, Option.isSome_some, Bool.not_false, Bool.and_self, Bool.true_and]

theorem backupOffline_completed {dom : Domain} (hf : ∀ d ∈ h.library, d.id ≠ env.id) :
    Completed env h
      (idSafe h.vm && (!env.createFails && (!env.xmlFails &&
        (env.copies h dom && (!env.writeXMLFails && !env.completeFails)))))
      (backupOffline env h dom h.vm) := by
  have hlib := (create_frame hf).1
  rw [backupOffline]
  refine .step (Bool.not_not _).symm rfl (.step rfl rfl (.step rfl (abort_library hf hlib) ?_))
  have hcopies : env.copies h dom = (copyDisks env dom.definition.fileDisks (newPoint env h.vm)
      (h.create h.vm env.id).files).1.toBool := (copyDisks_toBool _ _ _).symm
  rw [hcopies]
  rcases hc : copyDisks env dom.definition.fileDisks (newPoint env h.vm)
    (h.create h.vm env.id).files with ⟨e | m, fs⟩
  · have habort : (Host.abort { h.create h.vm env.id with files := fs } h.vm env.id).library =
        h.library := abort_library hf hlib
    exact ⟨rfl, congrArg Library.visible habort⟩
  · obtain ⟨-, hok⟩ := copyDisks_eq dom.definition.fileDisks_nodup hc
    obtain ⟨rfl, -⟩ := hok m rfl
    obtain ⟨disks, heq, -⟩ := diskPath_foldl dom.definition.fileDisks (newPoint env h.vm)
    rw [heq]
    exact completePoint_completed hf rfl rfl hlib

theorem backupOnline_completed {dom : Domain} {parentID parentCheckpoint : String}
    {r : Except ProviderError Unit × Host} (hf : ∀ d ∈ h.library, d.id ≠ env.id)
    (hdom : h.domain = some dom) (hst : dom.state ≠ .shutoff)
    (hr : backupOnline env h dom h.vm parentID parentCheckpoint = some r) :
    Completed env h
      (idSafe h.vm && (!env.createFails && (!env.xmlFails &&
        (env.jobCompletes h dom parentID && (!env.writeXMLFails && !env.completeFails))))) r := by
  have hlib₀ := (create_frame hf).1
  obtain ⟨hlib, -⟩ := backupBegin_frame env hf hdom hst parentCheckpoint rfl
  obtain ⟨hid, hvm, -⟩ := onlinePoint_eq env dom h.vm parentID
  rw [backupOnline] at hr
  refine .step_some hr (by simp) rfl fun hr => .step_some hr (by simp) rfl fun hr =>
    .step_some hr (by simp) (abort_library hf hlib₀) fun hr => ?_
  rw [BackupEnv.jobCompletes, Bool.and_assoc, Bool.and_assoc, Bool.and_assoc]
  refine .step_some hr rfl (abort_library hf hlib₀) fun hr =>
    .step_some hr (by simp) (abort_library hf hlib₀) fun hr => ?_
  have hstop : ∀ e, Completed (β := Unit) env h false (.error e, Host.abort _ h.vm env.id) :=
    fun e => ⟨rfl, congrArg Library.visible (abort_library hf hlib)⟩
  -- the job was begun: a poll that fails and a missing image both remove the point again
  dsimp only at hr
  rcases hpoll : pollJob env.polls with _ | ⟨e | ⟨⟩⟩
  · rw [hpoll] at hr
    cases hr
  · rw [hpoll] at hr
    obtain rfl := Option.some.inj hr
    exact hstop e
  · rw [hpoll] at hr
    dsimp only at hr
    cases himg : imagesProduced env.stat (onlinePoint env dom h.vm parentID) with
    | false =>
      rw [himg] at hr
      obtain rfl := Option.some.inj hr
      exact hstop _
    | true =>
      rw [himg, if_pos rfl] at hr
      obtain rfl := Option.some.inj hr
      exact completePoint_completed hf hid hvm hlib

/-- **Backups**: the point is completed exactly when every step up to that goes through, and
then the call succeeds. -/
theorem backupVirtualMachine_effect {r : Except ProviderError (Option Metadata) × Host}
    (hf : ∀ d ∈ h.library, d.id ≠ env.id)
    (hr : backupVirtualMachine srt env h h.vm req = some r) :
    Completed env h (env.completes srt h req) r := by
  rw [backupVirtualMachine] at hr
  refine .step_some hr (by simp) rfl fun hr => ?_
  have hlook : h.lookupDomain h.vm = h.domain := if_pos rfl
  rw [hlook] at hr
  rcases hdom : h.domain with _ | dom
  · rw [hdom] at hr
    obtain rfl := Option.some.inj hr
    exact ⟨rfl, rfl⟩
  rw [hdom] at hr
  dsimp only at hr ⊢
  rcases hchain : backupChainParent srt h.library dom h.vm req with e | ⟨parentID, parentCheckpoint⟩
  · rw [hchain] at hr
    obtain rfl := Option.some.inj hr
    exact ⟨rfl, rfl⟩
  rw [hchain] at hr
  obtain ⟨r₁, hrun, hr⟩ := Option.map_eq_some_iff.mp hr
  dsimp only
  have hr₁ : Completed env h
      (idSafe h.vm && (!env.createFails && (!env.xmlFails &&
        ((if dom.state = .shutoff then env.copies h dom else env.jobCompletes h dom parentID) &&
          (!env.writeXMLFails && !env.completeFails))))) r₁ := by
    by_cases hst : dom.state = .shutoff
    · rw [if_pos hst] at hrun ⊢
      obtain rfl := Option.some.inj hrun
      exact backupOffline_completed hf
    · rw [if_neg hst] at hrun ⊢
      exact backupOnline_completed hf hdom hst hrun
  -- the newest point is read back, which changes the value of a success only
  obtain ⟨e | ⟨⟩, h₁⟩ := r₁
  · obtain rfl := hr
    exact hr₁
  · have hsafe : idSafe h.vm = true := by
      exact (Bool.and_eq_true_iff.mp (hr₁.1.symm.trans rfl)).1
    have hlist : h₁.library.list srt h.vm = .ok (srt.sort (h₁.library.completed h.vm)) :=
      if_pos hsafe
    dsimp only at hr
    rw [hlist] at hr
    obtain rfl := hr
    exact hr₁

end CreateBackup

/-! ## One call -/

/-- The entries of a list that are not in another one. -/
def newIn (old now : List String) : List String := now.filter fun s => s ∉ old

theorem newIn_self (l : List String) : newIn l l = [] := by simp [newIn]

theorem newIn_append (l : List String) (s : String) :
    newIn l (l ++ [s]) = if s ∈ l then [] else [s] := by
  by_cases hs : s ∈ l <;> simp [newIn, hs]

/-- A provider call of a task, with what it meets. -/
inductive ProviderCall where
  | createVM (env : CreateEnv) (req : VirtualMachineCreate) (hv : Hypervisor)
  /-- the result and the host it leaves; the listing at the end of the call can fail -/
  | createBackup (env : BackupEnv) (req : Option CreateType) (h : Host) (listFails : Bool)
    (r : Except ProviderError (Option Metadata) × Host)

namespace ProviderCall

/-- The call returns an error. -/
def failed : ProviderCall → Bool
  | createVM env req hv => !(createVirtualMachine env req hv).1.toBool
  | createBackup _ _ _ listFails r => !r.1.toBool || listFails

/-- The domains, or the completed points, that are there after the call and were not before. -/
def made : ProviderCall → List String
  | createVM env req hv => newIn hv.domains (createVirtualMachine env req hv).2.domains
  | createBackup _ _ h _ r =>
    newIn (h.library.visible.map Metadata.id) (r.2.library.visible.map Metadata.id)

/-- The one the task is for. -/
def wanted : ProviderCall → String
  | createVM _ req _ => req.name
  | createBackup env _ _ _ _ => env.id

variable (srt : SortDesc Metadata Metadata.createdAt)

/-- Every step up to the domain, or the point, goes through. -/
def produces : ProviderCall → Bool
  | createVM env req hv => env.defines req hv
  | createBackup env req h _ _ => env.completes srt h req

/-- A step after that fails. -/
def failsLate : ProviderCall → Bool
  | createVM env req hv => env.failsLate req hv
  | createBackup _ _ _ listFails _ => listFails

/-- The one the task is for was not there before. -/
def fresh : ProviderCall → Bool
  | createVM _ req hv => !hv.domains.contains req.name
  | createBackup env _ h _ _ => !(h.library.visible.map Metadata.id).contains env.id

/-- What a backup returned is what it returns. -/
def Ran : ProviderCall → Prop
  | createVM _ _ _ => True
  | createBackup env req h _ r =>
    (∀ d ∈ h.library, d.id ≠ env.id) ∧ backupVirtualMachine srt env h h.vm req = some r

variable {srt}

/-- A call fails when a step does. -/
theorem failed_eq {c : ProviderCall} (hc : c.Ran srt) :
    c.failed = (!c.produces srt || c.failsLate) := by
  cases c with
  | createVM env req hv =>
    rw [failed, produces, failsLate, (createVirtualMachine_effect env req hv).2, Bool.not_and,
      Bool.not_not]
  | createBackup env req h listFails r =>
    rw [failed, produces, failsLate, (backupVirtualMachine_effect srt req hc.1 hc.2).1]

/-- A call makes the one it is for, or nothing. -/
theorem made_eq {c : ProviderCall} (hc : c.Ran srt) :
    c.made = if c.produces srt && c.fresh then [c.wanted] else [] := by
  cases c with
  | createVM env req hv =>
    rw [made, (createVirtualMachine_effect env req hv).1, produces, fresh, wanted,
      Hypervisor.define]
    cases env.defines req hv with
    | false => exact newIn_self _
    | true =>
      cases hmem : hv.domains.contains req.name with
      | true => exact newIn_self _
      | false =>
        simp only [Bool.false_eq_true, if_true, if_false, newIn_append, Bool.not_false,
          Bool.and_self]
        exact if_neg (by simpa using hmem)
  | createBackup env req h listFails r =>
    have heff := (backupVirtualMachine_effect srt req hc.1 hc.2).2
    rw [made, produces, fresh, wanted]
    cases hcomp : env.completes srt h req with
    | false =>
      rw [hcomp] at heff
      rw [(heff : r.2.library.visible = h.library.visible)]
      exact newIn_self _
    | true =>
      rw [hcomp] at heff
      obtain ⟨m, hid, hvis⟩ := heff
      rw [hvis, List.map_append, List.map_singleton, hid, newIn_append]
      simp only [Bool.true_and, Bool.not_eq_true', List.contains_eq_mem, decide_eq_false_iff_not,
        ite_not]

end ProviderCall

end Ultrav
