import Ultrav.Attempts
import Ultrav.Domain

/-!
# Deletion of a machine with its disks

`DeleteVirtualMachine` undefines the domain first, and then deletes the volumes of its disks one
after the other. A volume that cannot be deleted ends the loop, and the domain is gone by then.

* `Inventory` — the defined domains and the volumes the pools know.
* `deleteVolumes` / `deleteVirtualMachine` — the loop and the call.
* `deleteVolumes_eq_ok` / `deleteVolumes_eq_error` — what the loop does, whatever fails.
* `AllOrRetryable` — what a caller may expect, `VolumesGo` — what it takes.
* `allOrRetryable_iff` — the calls that live up to it.
-/

namespace Ultrav

open Attempt

/-! ## The hypervisor -/

/-- A domain that has a definition. -/
structure DefinedDomain where
  definition : Definition
  state : DomainState

/-- What a deletion works on. -/
structure Inventory where
  /-- the defined domains, by name -/
  domains : String → Option DefinedDomain
  /-- the volumes known to a pool, by the path the pool has for them -/
  volumes : String → Bool

namespace Inventory

/-- `dom.UndefineFlags` and `dom.Undefine` -/
def undefine (s : Inventory) (id : String) : Inventory :=
  { s with domains := Function.update s.domains id none }

/-- `vol.Delete` -/
def deleteVolume (s : Inventory) (volume : String) : Inventory :=
  { s with volumes := Function.update s.volumes volume false }

@[simp] theorem undefine_domains_self (s : Inventory) (id : String) :
    (s.undefine id).domains id = none := Function.update_self ..

@[simp] theorem undefine_volumes (s : Inventory) (id : String) :
    (s.undefine id).volumes = s.volumes := rfl

@[simp] theorem deleteVolume_volumes (s : Inventory) (volume v : String) :
    (s.deleteVolume volume).volumes v = if v = volume then false else s.volumes v :=
  Function.update_apply ..

end Inventory

/-- How a deletion fails. -/
inductive DeletionError where
  /-- `ErrVMNotFound` -/
  | vmNotFound
  /-- `ErrInvalidVMState` -/
  | invalidVMState
  /-- a call whose error is passed on -/
  | libvirt (call : String)
  /-- `undefine domain: …` -/
  | undefineDomain
  /-- `delete volume …: …` -/
  | deleteVolume (path : String)
  deriving DecidableEq, Repr

/-- What the calls to libvirt answer in one deletion. -/
structure DeletionEnv where
  lookupFails : Bool
  stateFails : Bool
  xmlFails : Bool
  unmarshalFails : Bool
  undefineFlagsFails : Bool
  undefineFails : Bool
  /-- the lookup of a volume fails although a pool knows it, by the position of its path -/
  volumeLookupFails : ℕ → Bool
  /-- the deletion of a volume fails, by the position of its path -/
  volumeDeleteFails : ℕ → Bool

/-- The states a machine can be deleted in. -/
def DomainState.deletable : DomainState → Bool
  | shutoff | shutdown | crashed => true
  | nostate | running | blocked | paused | pmsuspended => false

/-- The files of the disks, in the order of the definition. -/
def Definition.diskPaths (D : Definition) : List String := D.fileDisks.map DomainDisk.sourceFile

/-! ## The call -/

section Deletion

-- A path of a definition need not be spelled as the pool spells it: libvirt cleans it first.
variable (sanitize : String → String)

/-- The loop over the disk paths, from position `k` on. -/
def deleteVolumes (env : DeletionEnv) : ℕ → List String → Attempt DeletionError Inventory Unit
  | _, [] => pure ()
  | k, path :: paths => do
    let s ← get
    if env.volumeLookupFails k || !s.volumes (sanitize path) then
      deleteVolumes env (k + 1) paths
    else do
      failIf (env.volumeDeleteFails k) (.deleteVolume path)
      modify fun s => s.deleteVolume (sanitize path)
      deleteVolumes env (k + 1) paths

/-- `DeleteVirtualMachine` -/
def deleteVirtualMachine (env : DeletionEnv) (id : String) (deleteDisks : Bool) :
    Attempt DeletionError Inventory Unit := do
  let s ← get
  match if env.lookupFails then none else s.domains id with
  | none => throw .vmNotFound
  | some dom => do
    failIf env.stateFails (.libvirt "get state")
    failIf (!dom.state.deletable) .invalidVMState
    failIf (deleteDisks && env.xmlFails) (.libvirt "get xml desc")
    failIf (deleteDisks && env.unmarshalFails) (.libvirt "unmarshal")
    failIf (env.undefineFlagsFails && env.undefineFails) .undefineDomain
    modify fun s => s.undefine id
    deleteVolumes sanitize env 0 (if deleteDisks then dom.definition.diskPaths else [])

end Deletion

/-! ## What is expected -/

/-- No call fails. -/
def DeletionEnv.quiet : DeletionEnv :=
  ⟨false, false, false, false, false, false, fun _ => false, fun _ => false⟩

/-- A call fails while the domain is defined. -/
def DeletionEnv.failsEarly (env : DeletionEnv) : Bool :=
  env.lookupFails || env.stateFails || env.xmlFails || env.unmarshalFails ||
    (env.undefineFlagsFails && env.undefineFails)

section Property

variable (sanitize : String → String)

/-- The volume is the media of a CD-ROM of some domain. -/
def Inventory.IsMedia (s : Inventory) (volume : String) : Prop :=
  ∃ id dom d, s.domains id = some dom ∧ d ∈ dom.definition.disks ∧ d.device = .cdrom ∧
    d.sourceFile ≠ "" ∧ sanitize d.sourceFile = volume

/-- The domain is gone, and with it the volumes of its disks. -/
structure Inventory.Without (s : Inventory) (id : String) (D : Definition) : Prop where
  undefined : s.domains id = none
  volumes : ∀ path ∈ D.diskPaths, s.volumes (sanitize path) = false

/-- Everything is removed, or the domain stays and another call can remove everything; the media
of CD-ROMs stay. -/
structure AllOrRetryable (env : DeletionEnv) (s : Inventory) (id : String) (dom : DefinedDomain) :
    Prop where
  all : ∀ s', deleteVirtualMachine sanitize env id true s = (.ok (), s') →
    s'.Without sanitize id dom.definition
  retryable : ∀ e s', deleteVirtualMachine sanitize env id true s = (.error e, s') →
    s'.domains id = some dom ∧ ∃ s'', s''.Without sanitize id dom.definition ∧
      deleteVirtualMachine sanitize .quiet id true s' = (.ok (), s'')
  media : ∀ result s', deleteVirtualMachine sanitize env id true s = (result, s') →
    ∀ volume, s.IsMedia sanitize volume → s'.volumes volume = s.volumes volume

end Property

/-! ## The loop -/

section Loop

variable {sanitize : String → String} {env : DeletionEnv} {k : ℕ} {path : String}
  {paths : List String} {known : String → Bool} {s : Inventory}

/-- The loop finds the volume at some path. -/
def Reached (sanitize : String → String) (env : DeletionEnv) (k : ℕ) (paths : List String)
    (volume : String) : Prop :=
  ∃ i path, paths[i]? = some path ∧ sanitize path = volume ∧
    env.volumeLookupFails (k + i) = false

/-- Where the loop finds a volume for the first time, it is deleted. -/
def DeletesGo (sanitize : String → String) (env : DeletionEnv) (known : String → Bool) (k : ℕ)
    (paths : List String) : Prop :=
  ∀ i path, paths[i]? = some path → known (sanitize path) = true →
    env.volumeLookupFails (k + i) = false →
    (∀ j path', j < i → paths[j]? = some path' → sanitize path' = sanitize path →
      env.volumeLookupFails (k + j) = true) →
    env.volumeDeleteFails (k + i) = false

theorem reached_cons {volume : String} : Reached sanitize env k (path :: paths) volume ↔
    sanitize path = volume ∧ env.volumeLookupFails k = false ∨
      Reached sanitize env (k + 1) paths volume := by
  constructor
  · rintro ⟨_ | i, path', hpath, hvolume, hlookup⟩
    · obtain rfl : path = path' := by simpa using hpath
      exact .inl ⟨hvolume, hlookup⟩
    · exact .inr ⟨i, path', by simpa using hpath, hvolume, by rwa [Nat.add_right_comm]⟩
  · rintro (⟨hvolume, hlookup⟩ | ⟨i, path', hpath, hvolume, hlookup⟩)
    · exact ⟨0, path, rfl, hvolume, hlookup⟩
    · rw [Nat.add_right_comm] at hlookup
      exact ⟨i + 1, path', by simpa using hpath, hvolume, hlookup⟩

/-- A lookup that fails is as if the path were not there. -/
theorem deletesGo_cons_of_fails (hfails : env.volumeLookupFails k = true) :
    DeletesGo sanitize env known k (path :: paths) ↔
      DeletesGo sanitize env known (k + 1) paths := by
  constructor
  · intro h i path' hpath hknown hlookup hfirst
    rw [Nat.add_right_comm] at hlookup ⊢
    refine h (i + 1) path' (by simpa using hpath) hknown hlookup ?_
    rintro (_ | j) path'' hj hpath'' hsame
    · exact hfails
    · rw [← Nat.add_assoc, ← Nat.add_right_comm]
      exact hfirst j path'' (by omega) (by simpa using hpath'') hsame
  · rintro h (_ | i) path' hpath hknown hlookup hfirst
    · simp [hfails] at hlookup
    · rw [← Nat.add_assoc, ← Nat.add_right_comm] at hlookup ⊢
      refine h i path' (by simpa using hpath) hknown hlookup fun j path'' hj hpath'' hsame => ?_
      rw [Nat.add_right_comm]
      exact hfirst (j + 1) path'' (by omega) (by simpa using hpath'') hsame

/-- A volume that is found is looked for no more. -/
theorem deletesGo_cons_of_finds (hfinds : env.volumeLookupFails k = false) :
    DeletesGo sanitize env known k (path :: paths) ↔
      (known (sanitize path) = true → env.volumeDeleteFails k = false) ∧
        DeletesGo sanitize env (Function.update known (sanitize path) false) (k + 1) paths := by
  constructor
  · refine fun h => ⟨fun hknown => h 0 path rfl hknown hfinds (by simp), ?_⟩
    intro i path' hpath hknown hlookup hfirst
    obtain ⟨hne, hknown⟩ : sanitize path' ≠ sanitize path ∧ known (sanitize path') = true := by
      simpa [Function.update_apply] using hknown
    rw [Nat.add_right_comm] at hlookup ⊢
    refine h (i + 1) path' (by simpa using hpath) hknown hlookup ?_
    rintro (_ | j) path'' hj hpath'' hsame
    · obtain rfl : path = path'' := by simpa using hpath''
      exact absurd hsame.symm hne
    · rw [← Nat.add_assoc, ← Nat.add_right_comm]
      exact hfirst j path'' (by omega) (by simpa using hpath'') hsame
  · rintro ⟨hhead, h⟩ (_ | i) path' hpath hknown hlookup hfirst
    · obtain rfl : path = path' := by simpa using hpath
      exact hhead hknown
    · have hne : sanitize path ≠ sanitize path' := fun hsame => by
        simpa [hfinds] using hfirst 0 path (by omega) rfl hsame
      rw [← Nat.add_assoc, ← Nat.add_right_comm] at hlookup ⊢
      refine h i path' (by simpa using hpath) (by simp [hne.symm, hknown]) hlookup
        fun j path'' hj hpath'' hsame => ?_
      rw [Nat.add_right_comm]
      exact hfirst (j + 1) path'' (by omega) (by simpa using hpath'') hsame

/-- **The loop goes through**: what it found is gone, and nothing else. -/
theorem deleteVolumes_eq_ok (hgo : DeletesGo sanitize env s.volumes k paths) :
    ∃ s', deleteVolumes sanitize env k paths s = (.ok (), s') ∧ s'.domains = s.domains ∧
      ∀ v, s'.volumes v = true ↔ s.volumes v = true ∧ ¬ Reached sanitize env k paths v := by
  induction paths generalizing k s with
  | nil => exact ⟨s, rfl, rfl, fun v => by simp [Reached]⟩
  | cons path paths ih =>
    rw [deleteVolumes, get_bind_apply]
    cases hlookup : env.volumeLookupFails k with
    | true =>
      obtain ⟨s', hrun, hdomains, hvolumes⟩ := ih ((deletesGo_cons_of_fails hlookup).mp hgo)
      exact ⟨s', hrun, hdomains, fun v => by simp [hvolumes, reached_cons, hlookup]⟩
    | false =>
      obtain ⟨hhead, hgo⟩ := (deletesGo_cons_of_finds hlookup).mp hgo
      cases hknown : s.volumes (sanitize path) with
      | false =>
        rw [Function.update_eq_self_iff.mpr hknown.symm] at hgo
        obtain ⟨s', hrun, hdomains, hvolumes⟩ := ih hgo
        refine ⟨s', hrun, hdomains, fun v => ?_⟩
        rw [hvolumes, reached_cons]
        grind
      | true =>
        obtain ⟨s', hrun, hdomains, hvolumes⟩ := ih (s := s.deleteVolume (sanitize path)) hgo
        refine ⟨s', ?_, hdomains, fun v => ?_⟩
        · simpa [failIf_bind_apply, modify_bind_apply, hhead hknown] using hrun
        · rw [hvolumes, reached_cons]
          simp [hlookup]
          grind

/-- **The loop ends early** and leaves the domains alone. -/
theorem deleteVolumes_eq_error (hgo : ¬ DeletesGo sanitize env s.volumes k paths) :
    ∃ e s', deleteVolumes sanitize env k paths s = (.error e, s') ∧ s'.domains = s.domains := by
  induction paths generalizing k s with
  | nil => exact absurd (fun i path hpath => by simp at hpath) hgo
  | cons path paths ih =>
    rw [deleteVolumes, get_bind_apply]
    cases hlookup : env.volumeLookupFails k with
    | true => simpa using ih (mt (deletesGo_cons_of_fails hlookup).mpr hgo)
    | false =>
      rw [deletesGo_cons_of_finds hlookup] at hgo
      cases hknown : s.volumes (sanitize path) with
      | false =>
        rw [Function.update_eq_self_iff.mpr hknown.symm] at hgo
        simpa [hknown] using ih (k := k + 1) (s := s) (by simpa [hknown] using hgo)
      | true =>
        cases hdelete : env.volumeDeleteFails k with
        | true =>
          exact ⟨.deleteVolume path, s, by simp [failIf_bind_apply], rfl⟩
        | false =>
          have hgo' : ¬ DeletesGo sanitize env (s.deleteVolume (sanitize path)).volumes (k + 1)
              paths := fun h => hgo ⟨fun _ => hdelete, h⟩
          obtain ⟨e, s', hrun, hdomains⟩ := ih hgo'
          refine ⟨e, s', ?_, hdomains⟩
          simpa [failIf_bind_apply, modify_bind_apply, hdelete] using hrun

end Loop

/-! ## The call as a whole -/

/-- Each volume of a disk is found, is no media of a CD-ROM, and is deleted when it is found. -/
structure VolumesGo (sanitize : String → String) (env : DeletionEnv) (s : Inventory)
    (paths : List String) : Prop where
  found : ∀ path ∈ paths, s.volumes (sanitize path) = true →
    Reached sanitize env 0 paths (sanitize path)
  deleted : DeletesGo sanitize env s.volumes 0 paths
  notMedia : ∀ path ∈ paths, s.volumes (sanitize path) = true →
    ¬ s.IsMedia sanitize (sanitize path)

section Call

variable {sanitize : String → String} {env : DeletionEnv} {s s' : Inventory} {id : String}
  {dom : DefinedDomain}

theorem deleteVirtualMachine_of_failsEarly (hdom : s.domains id = some dom)
    (hearly : env.failsEarly = true) :
    ∃ e, deleteVirtualMachine sanitize env id true s = (.error e, s) := by
  rw [deleteVirtualMachine, get_bind_apply]
  cases hlookup : env.lookupFails with
  | true => exact ⟨.vmNotFound, rfl⟩
  | false =>
    simp only [DeletionEnv.failsEarly, hlookup, Bool.false_or, Bool.or_eq_true] at hearly
    simp only [hdom, failIf_bind_apply, Bool.true_and, Bool.false_eq_true, if_false]
    split_ifs with hstate hstopped hxml hunmarshal hundefine
    · exact ⟨_, rfl⟩
    · exact ⟨_, rfl⟩
    · exact ⟨_, rfl⟩
    · exact ⟨_, rfl⟩
    · exact ⟨_, rfl⟩
    · simp [hstate, hxml, hunmarshal, hundefine] at hearly

/-- Behind the first calls, only the loop is left. -/
theorem deleteVirtualMachine_of_not_failsEarly (hdom : s.domains id = some dom)
    (hstopped : dom.state.deletable = true) (hearly : env.failsEarly = false) :
    deleteVirtualMachine sanitize env id true s =
      deleteVolumes sanitize env 0 dom.definition.diskPaths (s.undefine id) := by
  simp only [DeletionEnv.failsEarly, Bool.or_eq_false_iff] at hearly
  obtain ⟨⟨⟨⟨hlookup, hstate⟩, hxml⟩, hunmarshal⟩, hundefine⟩ := hearly
  rw [deleteVirtualMachine, get_bind_apply]
  simp [hlookup, hdom, hstate, hstopped, hxml, hunmarshal, hundefine, failIf_bind_apply,
    modify_bind_apply]

/-- When nothing fails, everything is removed. -/
theorem deleteVirtualMachine_quiet (hdom : s.domains id = some dom)
    (hstopped : dom.state.deletable = true) :
    ∃ s', s'.Without sanitize id dom.definition ∧
      deleteVirtualMachine sanitize .quiet id true s = (.ok (), s') := by
  have hgo : DeletesGo sanitize .quiet (s.undefine id).volumes 0 dom.definition.diskPaths :=
    fun _ _ _ _ _ _ => rfl
  obtain ⟨s', hrun, hdomains, hvolumes⟩ := deleteVolumes_eq_ok hgo
  refine ⟨s', ⟨by simp [hdomains], fun path hpath => ?_⟩, ?_⟩
  · obtain ⟨i, hi⟩ := List.mem_iff_getElem?.mp hpath
    have hreached : Reached sanitize .quiet 0 dom.definition.diskPaths (sanitize path) :=
      ⟨i, path, hi, rfl, rfl⟩
    simpa [hreached] using hvolumes (sanitize path)
  · rw [deleteVirtualMachine_of_not_failsEarly hdom hstopped rfl, hrun]

/-- A call that fails early can be repeated. -/
theorem allOrRetryable_of_failsEarly (hdom : s.domains id = some dom)
    (hstopped : dom.state.deletable = true) (hearly : env.failsEarly = true) :
    AllOrRetryable sanitize env s id dom := by
  obtain ⟨e, hcall⟩ : ∃ e, deleteVirtualMachine sanitize env id true s = (.error e, s) :=
    deleteVirtualMachine_of_failsEarly hdom hearly
  refine ⟨fun s' h => ?_, fun e' s' h => ?_, fun result s' h volume _ => ?_⟩
  · simp [hcall] at h
  · obtain ⟨-, rfl⟩ := Prod.mk.inj (hcall.symm.trans h)
    exact ⟨hdom, deleteVirtualMachine_quiet hdom hstopped⟩
  · obtain ⟨-, rfl⟩ := Prod.mk.inj (hcall.symm.trans h)
    rfl

/-- Otherwise the volumes decide. -/
theorem allOrRetryable_iff_volumesGo (hdom : s.domains id = some dom)
    (hstopped : dom.state.deletable = true) (hearly : env.failsEarly = false) :
    AllOrRetryable sanitize env s id dom ↔
      VolumesGo sanitize env s dom.definition.diskPaths := by
  have hcall : deleteVirtualMachine sanitize env id true s =
      deleteVolumes sanitize env 0 dom.definition.diskPaths (s.undefine id) :=
    deleteVirtualMachine_of_not_failsEarly hdom hstopped hearly
  constructor
  · rintro ⟨hall, hretry, hmedia⟩
    have hgo : DeletesGo sanitize env s.volumes 0 dom.definition.diskPaths := by
      by_contra hgo
      obtain ⟨e, s', hrun, hdomains⟩ := deleteVolumes_eq_error (s := s.undefine id) hgo
      simpa [hdomains] using (hretry e s' (hcall.trans hrun)).1
    obtain ⟨s', hrun, hdomains, hvolumes⟩ := deleteVolumes_eq_ok (s := s.undefine id) hgo
    rw [← hcall] at hrun
    have hgone := (hall s' hrun).volumes
    refine ⟨fun path hpath hknown => ?_, hgo, fun path hpath hknown hismedia => ?_⟩
    · by_contra hreached
      simpa [hgone path hpath] using (hvolumes _).mpr ⟨hknown, hreached⟩
    · simpa [hgone path hpath, hknown] using hmedia _ s' hrun _ hismedia
  · rintro ⟨hfound, hgo, hmedia⟩
    obtain ⟨s', hrun, hdomains, hvolumes⟩ := deleteVolumes_eq_ok (s := s.undefine id) hgo
    rw [← hcall] at hrun
    refine ⟨fun s'' h => ?_, fun e s'' h => ?_, fun result s'' h volume hismedia => ?_⟩
    · obtain ⟨-, rfl⟩ := Prod.mk.inj (hrun.symm.trans h)
      refine ⟨by simp [hdomains], fun path hpath => ?_⟩
      cases hknown : s.volumes (sanitize path) with
      | false => simpa [hknown] using hvolumes (sanitize path)
      | true => simpa [hfound path hpath hknown] using hvolumes (sanitize path)
    · simp [hrun] at h
    · obtain ⟨-, rfl⟩ := Prod.mk.inj (hrun.symm.trans h)
      rw [Bool.eq_iff_iff, hvolumes]
      refine and_iff_left_of_imp fun hknown hreached => ?_
      obtain ⟨i, path, hi, rfl, -⟩ := hreached
      exact hmedia path (List.mem_of_getElem? hi) hknown hismedia

/-- **Deletion of a machine with its disks**: all or retryable, as long as a call fails before the
domain is undefined, or none fails for a volume. -/
theorem allOrRetryable_iff (hdom : s.domains id = some dom)
    (hstopped : dom.state.deletable = true) :
    AllOrRetryable sanitize env s id dom ↔
      env.failsEarly = true ∨ VolumesGo sanitize env s dom.definition.diskPaths := by
  cases hearly : env.failsEarly with
  | true => simp [allOrRetryable_of_failsEarly hdom hstopped hearly]
  | false => simp [allOrRetryable_iff_volumesGo hdom hstopped hearly]

end Call

/-! ## A machine with a disk and install media -/

/-- The disks of a machine as they are created. -/
def webDisks : List DomainDisk :=
  [⟨.disk, .qcow2, "vda", "/pool/web.qcow2"⟩, ⟨.cdrom, .raw, "sda", "/iso/install.iso"⟩]

theorem webDisks_nodup : (webDisks.map DomainDisk.targetDev).Nodup := by simp [webDisks]

/-- A stopped machine with these. -/
def webDomain : DefinedDomain := ⟨⟨webDisks, webDisks_nodup⟩, .shutoff⟩

/-- It is the only one, and the pools know its disk and its install media. -/
def webInventory : Inventory :=
  ⟨Function.update (fun _ => none) "web" (some webDomain),
    fun v => v = "/pool/web.qcow2" || v = "/iso/install.iso"⟩

theorem webInventory_domains : webInventory.domains "web" = some webDomain := by
  simp [webInventory]

theorem webDomain_diskPaths : webDomain.definition.diskPaths = ["/pool/web.qcow2"] := by
  simp [Definition.diskPaths, Definition.fileDisks, webDomain, webDisks]

theorem webInventory_notMedia : ¬ webInventory.IsMedia id "/pool/web.qcow2" := by
  rintro ⟨name, dom, d, hdom, hd, hdevice, -, hfile⟩
  by_cases hname : name = "web"
  · subst hname
    obtain rfl : webDomain = dom := by simpa [webInventory_domains] using hdom
    simp only [webDomain, webDisks, List.mem_cons, List.not_mem_nil, or_false] at hd
    rcases hd with rfl | rfl
    · cases hdevice
    · simp at hfile
  · simp [webInventory, hname] at hdom

/-- Its deletion goes through when nothing fails. -/
theorem allOrRetryable_web : AllOrRetryable id .quiet webInventory "web" webDomain := by
  refine (allOrRetryable_iff webInventory_domains rfl).mpr (.inr ?_)
  rw [webDomain_diskPaths]
  refine ⟨fun path hpath _ => ?_, fun _ _ _ _ _ _ => rfl, fun path hpath _ => ?_⟩
  · exact ⟨0, path, by simpa using (List.mem_singleton.mp hpath).symm, rfl, rfl⟩
  · simpa [List.mem_singleton.mp hpath] using webInventory_notMedia

/-- When its volume cannot be deleted, the domain is gone all the same. -/
theorem not_allOrRetryable_web : ¬ AllOrRetryable id
    { DeletionEnv.quiet with volumeDeleteFails := fun _ => true } webInventory "web" webDomain := by
  rw [allOrRetryable_iff_volumesGo webInventory_domains rfl rfl, webDomain_diskPaths]
  intro hgo
  have := hgo.deleted 0 "/pool/web.qcow2" rfl (by simp [webInventory]) rfl (by simp)
  simp at this

end Ultrav
