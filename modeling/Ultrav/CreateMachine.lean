import Ultrav.DomainProfile
import Ultrav.ScheduleService
import Ultrav.UpdateMachine

/-!
# Creation of a machine

`CreateVirtualMachine` of the libvirt provider allocates a volume, checks the rest of the
request, and defines and optionally starts the domain.

* `VirtualMachineCreate` — the request; `volumeXML` — the document the volume is made from.
* `Hypervisor` — the volumes of the pools and the domains.
* `createVirtualMachine` — the call, step by step.
* `createCheckpoints` — where it can fail, with whether something new is left there.
* `create_atomic_iff` — which failing calls leave nothing behind.
-/

namespace Ultrav

open Attempt

/-! ## The request -/

/-- `DiskCreate` -/
structure DiskCreate where
  format : Option String
  poolId : String
  sizeBytes : ℤ
  deriving DecidableEq, Repr

/-- `VirtualMachineCreate` -/
structure VirtualMachineCreate where
  disk : DiskCreate
  isoId : Option String
  memoryBytes : ℤ
  name : String
  networkId : Option String
  nicModel : Option String
  osType : Option String
  start : Option Bool
  vcpus : ℤ
  virtioDriversIsoId : Option String
  deriving DecidableEq, Repr

namespace VirtualMachineCreate

variable (req : VirtualMachineCreate)

/-- `validateCreateVM`: the message for the first rule the request breaks, or the empty one.
The pattern for names is the one for schedules. -/
def validate : String :=
  if !namePattern req.name then "Invalid virtual machine name"
  else if req.vcpus < 1 || req.vcpus > 64 then "vcpus must be between 1 and 64"
  else if req.memoryBytes < 16 * 1024 * 1024 then "memoryBytes must be at least 16 MiB"
  else if req.disk.poolId = "" then "disk.poolId is required"
  else if req.disk.sizeBytes < 1024 * 1024 then "disk.sizeBytes must be at least 1 MiB"
  else ""

/-- The format of the volume, qcow2 by default. -/
def format : String := req.disk.format.getD "qcow2"

/-- The network, `default` when none is given or the given one is empty. -/
def network : String :=
  if req.networkId = none ∨ req.networkId = some "" then "default" else req.networkId.getD ""

/-- The OS type, linux when none is given or the given one is empty. -/
def os : String :=
  if req.osType = none ∨ req.osType = some "" then "linux" else req.osType.getD ""

/-- The install media asked for, empty for none. -/
def iso : String := req.isoId.getD ""

/-- The VirtIO drivers asked for, ignored unless the guest is windows. -/
def virtioISO : String := if req.os = "windows" then req.virtioDriversIsoId.getD "" else ""

/-- `volXML` -/
def volumeXML : String :=
  "<volume type='file'>\n  <name>" ++ req.name ++ "." ++ req.format ++
    "</name>\n  <capacity unit='bytes'>" ++ toString req.disk.sizeBytes ++
    "</capacity>\n  <target>\n    <format type='" ++ req.format ++ "'/>\n  </target>\n</volume>"

end VirtualMachineCreate

/-- `requireValidVMID`: the handler behind it, or an error. The pattern is the one for names. -/
def requireValidVMID {P : Type} (id : String) (writeError : String → P) (next : P) : P :=
  if namePattern id then next else writeError "Invalid virtual machine identifier"

/-! ## The hypervisor -/

/-- What a creation adds to. -/
structure Hypervisor where
  /-- the volumes of each storage pool -/
  volumes : String → List String
  /-- the defined domains -/
  domains : List String

namespace Hypervisor

/-- A volume is allocated. -/
def addVolume (hv : Hypervisor) (pool name : String) : Hypervisor :=
  { hv with volumes := Function.update hv.volumes pool (hv.volumes pool ++ [name]) }

/-- `vol.Delete` -/
def deleteVolume (hv : Hypervisor) (pool name : String) : Hypervisor :=
  { hv with
    volumes := Function.update hv.volumes pool ((hv.volumes pool).filter fun v => v ≠ name) }

/-- A domain is defined; one of that name is redefined. -/
def define (hv : Hypervisor) (name : String) : Hypervisor :=
  { hv with domains := if hv.domains.contains name then hv.domains else hv.domains ++ [name] }

end Hypervisor

/-- Nothing is there that was not there before. -/
def NothingNew (hv hv' : Hypervisor) : Prop :=
  (∀ pool, hv'.volumes pool ⊆ hv.volumes pool) ∧ hv'.domains ⊆ hv.domains

/-- Errors of a creation. -/
inductive CreateVMError where
  | vmAlreadyExists
  | poolNotFound
  /-- the size, the pool and the bytes available -/
  | poolInsufficientSpace : ℤ → String → ℤ → CreateVMError
  | networkNotFound
  | isoNotFound
  /-- `os.ErrInvalid` with a message -/
  | invalid : String → CreateVMError
  /-- `build domain XML` -/
  | build : BuildError → CreateVMError
  /-- a libvirt call fails, with the text it is wrapped in -/
  | libvirt : String → CreateVMError
  deriving DecidableEq, Repr

/-- What a creation meets: the host, the answers of libvirt, and the calls that fail. -/
structure CreateEnv where
  connectFails : Bool
  /-- the look-up of the domain fails although it is there -/
  lookupFails : Bool
  pools : List String
  /-- the answer of `IsActive`, if it gives one -/
  poolActive : Option Bool
  /-- the bytes available as an `int64`, if `GetInfo` gives them -/
  available : Option ℤ
  /-- the name of the volume libvirt reads from a document, if it takes the document -/
  volumeName : String → Option String
  volumeCreateFails : Bool
  /-- the path of the new volume, if `GetPath` gives one -/
  volumePath : Option String
  networks : List String
  isoDir : String
  isos : List String
  /-- `isoVisibilityWarning` of a path that is not empty -/
  isoWarning : String → String
  /-- the versions of the host, where the probe succeeds -/
  qemuVersion : Option ℕ
  libvirtVersion : Option ℕ
  defineFails : Bool
  startFails : Bool
  /-- `GetVirtualMachine` at the end -/
  readBackFails : Bool

/-! ## The call -/

section Create

variable (env : CreateEnv) (req : VirtualMachineCreate)

/-- The pool does not have the space, by the answers of libvirt. -/
def CreateEnv.exceeds : Bool :=
  env.poolActive = some true && req.disk.sizeBytes > 0 &&
    env.available.any fun n => req.disk.sizeBytes > n

/-- The path of an ISO, empty for none. -/
def CreateEnv.isoPath (isoID : String) : String :=
  if isoID = "" then "" else Ultrav.isoPath env.isoDir isoID

/-- The checks of an ISO, with the message for a bad file name. -/
def checkISO (isoID message : String) : Attempt CreateVMError Hypervisor Unit := do
  failIf (isoID ≠ "" && !isoValidID isoID) (.invalid message)
  failIf (isoID ≠ "" && !env.isos.contains isoID) .isoNotFound

/-- The visibility warning of a path. -/
def CreateEnv.warning (path : String) : List String :=
  if path = "" || env.isoWarning path = "" then [] else [env.isoWarning path]

/-- `StorageVolCreateXML` -/
def storageVolCreateXML (pool doc : String) : Attempt CreateVMError Hypervisor String := do
  let hv ← get
  match env.volumeName doc with
  | none => throw (.libvirt "create volume")
  | some name => do
    failIf (env.volumeCreateFails || (hv.volumes pool).contains name) (.libvirt "create volume")
    modify fun hv => hv.addVolume pool name
    pure name

/-- The argument of `buildDomainXML`. -/
def CreateEnv.spec (volPath : String) : DomainSpec where
  name := req.name
  memoryBytes := req.memoryBytes
  vcpus := req.vcpus
  osType := req.os
  diskPath := volPath
  diskFormat := req.format
  networkId := req.network
  isoPath := env.isoPath req.iso
  virtioISOPath := env.isoPath req.virtioISO
  nicModel := req.nicModel.getD ""

/-- The versions of the host; a probe that fails stands for a very old host. -/
def CreateEnv.caps : HostFeatures := ⟨env.qemuVersion.getD 0, env.libvirtVersion.getD 0⟩

/-- The warnings of the answer. -/
def CreateEnv.warnings (profile : AppliedProfile) : List String :=
  env.warning (env.isoPath req.iso) ++ env.warning (env.isoPath req.virtioISO) ++
    (if req.os = "windows" && env.isoPath req.virtioISO = "" then
      ["Windows without a VirtIO drivers ISO: the installer will not see the " ++
        "virtio-scsi disk until the vioscsi driver is loaded from another source " ++
        "(attach the virtio-win ISO in the library to avoid this)."] else []) ++
    if req.os = "windows" && profile.nicModel = "virtio" then
      ["Windows on a virtio network adapter has no network until the NetKVM driver is " ++
        "installed from the VirtIO drivers ISO (Device Manager shows the adapter with " ++
        "error 43 or as an unknown Ethernet controller). Create with nicModel e1000e " ++
        "if the guest needs network on first boot."] else []

/-- The second half of the call, once the volume has a path: the domain. -/
def defineDomain (vol volPath : String) : Attempt CreateVMError Hypervisor (List String) := do
  match appliedProfile (env.spec req volPath) env.caps with
  | .error e => do
    modify fun hv => hv.deleteVolume req.disk.poolId vol
    throw (.build e)
  | .ok profile =>
    if env.defineFails then do
      modify fun hv => hv.deleteVolume req.disk.poolId vol
      throw (.libvirt "define domain")
    -- past this point neither the domain nor its volume is taken back
    else do
      modify fun hv => hv.define req.name
      failIf (req.start.getD false && env.startFails) (.libvirt "start domain")
      failIf env.readBackFails (.libvirt "get virtual machine")
      pure (env.warnings req profile)

/-- `CreateVirtualMachine` of the libvirt provider. -/
def createVirtualMachine : Attempt CreateVMError Hypervisor (List String) := do
  failIf env.connectFails (.libvirt "connect")
  let hv ← get
  failIf (hv.domains.contains req.name && !env.lookupFails) .vmAlreadyExists
  failIf (!env.pools.contains req.disk.poolId) .poolNotFound
  failIf (env.exceeds req)
    (.poolInsufficientSpace req.disk.sizeBytes req.disk.poolId (env.available.getD 0))
  let vol ← storageVolCreateXML env req.disk.poolId req.volumeXML
  match env.volumePath with
  -- the volume is there by now, and nothing up to `defineDomain` deletes it
  | none => throw (.libvirt "resolve volume path")
  | some volPath => do
    failIf (!env.networks.contains req.network) .networkNotFound
    checkISO env req.iso "invalid ISO filename"
    checkISO env req.virtioISO "invalid VirtIO drivers ISO filename"
    defineDomain env req vol volPath

/-! ## Where it can fail -/

/-- The name the new volume gets, if it is created. -/
def CreateEnv.created (hv : Hypervisor) : Option String :=
  (env.volumeName req.volumeXML).filter fun name =>
    !(env.volumeCreateFails || (hv.volumes req.disk.poolId).contains name)

/-- The domain XML is refused. -/
def CreateEnv.refused (volPath : String) : Bool :=
  !(appliedProfile (env.spec req volPath) env.caps).toBool

/-- The points at which a creation can fail, in the order of the code, each with whether it
leaves something new. -/
def createCheckpoints (hv : Hypervisor) : List Checkpoint :=
  [⟨false, env.connectFails⟩, ⟨false, hv.domains.contains req.name && !env.lookupFails⟩,
    ⟨false, !env.pools.contains req.disk.poolId⟩, ⟨false, env.exceeds req⟩,
    ⟨false, (env.created req hv).isNone⟩, ⟨true, env.volumePath.isNone⟩,
    ⟨true, !env.networks.contains req.network⟩,
    ⟨true, req.iso ≠ "" && !isoValidID req.iso⟩,
    ⟨true, req.iso ≠ "" && !env.isos.contains req.iso⟩,
    ⟨true, req.virtioISO ≠ "" && !isoValidID req.virtioISO⟩,
    ⟨true, req.virtioISO ≠ "" && !env.isos.contains req.virtioISO⟩,
    ⟨false, env.refused req (env.volumePath.getD "")⟩, ⟨false, env.defineFails⟩,
    ⟨true, req.start.getD false && env.startFails⟩, ⟨true, env.readBackFails⟩]

end Create

section OnError

variable {env : CreateEnv} {req : VirtualMachineCreate} {β : Type}
  {Q : Hypervisor → Prop} {hv : Hypervisor}

theorem onError_checkISO_bind (isoID message : String)
    (f : Unit → Attempt CreateVMError Hypervisor β) :
    OnError (checkISO env isoID message >>= f) Q hv ↔
      if isoID ≠ "" && !isoValidID isoID then Q hv
      else if isoID ≠ "" && !env.isos.contains isoID then Q hv
      else OnError (f ()) Q hv := by
  simp only [checkISO, Attempt.bind_assoc, onError_failIf_bind]

/-- The volume is not created. -/
theorem onError_storageVolCreateXML_bind_none (f : String → Attempt CreateVMError Hypervisor β)
    (h : env.created req hv = none) :
    OnError (storageVolCreateXML env req.disk.poolId req.volumeXML >>= f) Q hv ↔ Q hv := by
  rw [CreateEnv.created] at h
  rw [storageVolCreateXML, Attempt.bind_assoc, onError_get_bind]
  rcases hname : env.volumeName req.volumeXML with _ | name
  · exact onError_throw_bind _ _
  · rw [hname, Option.filter_some, ite_eq_right_iff] at h
    have hfails : (env.volumeCreateFails || (hv.volumes req.disk.poolId).contains name) = true := by
      rw [← Bool.not_eq_false]
      exact fun hfalse => absurd (h (by rw [hfalse]; rfl)) (by simp)
    simp only [Attempt.bind_assoc, onError_failIf_bind, hfails, if_true]

/-- The volume is created. -/
theorem onError_storageVolCreateXML_bind_some {vol : String}
    (f : String → Attempt CreateVMError Hypervisor β) (h : env.created req hv = some vol) :
    OnError (storageVolCreateXML env req.disk.poolId req.volumeXML >>= f) Q hv ↔
      OnError (f vol) Q (hv.addVolume req.disk.poolId vol) := by
  obtain ⟨hname, hok⟩ := Option.filter_eq_some_iff.mp h
  rw [Bool.not_eq_true'] at hok
  simp only [storageVolCreateXML, Attempt.bind_assoc, onError_get_bind, hname, onError_failIf_bind,
    hok, Bool.false_eq_true, if_false, onError_modify_bind, Attempt.pure_bind]

/-- The domain. -/
theorem onError_defineDomain (vol volPath : String) :
    OnError (defineDomain env req vol volPath) Q hv ↔
      if env.refused req volPath then Q (hv.deleteVolume req.disk.poolId vol)
      else if env.defineFails then Q (hv.deleteVolume req.disk.poolId vol)
      else if req.start.getD false && env.startFails then Q (hv.define req.name)
      else if env.readBackFails then Q (hv.define req.name) else True := by
  rw [defineDomain, CreateEnv.refused]
  rcases appliedProfile (env.spec req volPath) env.caps with e | profile
  · simp [Except.toBool]
  · cases hdef : env.defineFails <;> simp [Except.toBool]

end OnError

/-! ## What is left -/

section Left

variable (hv : Hypervisor) {pool vol : String}

theorem nothingNew_refl : NothingNew hv hv := ⟨fun _ => List.Subset.refl _, List.Subset.refl _⟩

/-- A new volume is something new, whatever was defined since. -/
theorem not_nothingNew_of_mem {hv' : Hypervisor} (hnew : vol ∉ hv.volumes pool)
    (hmem : vol ∈ hv'.volumes pool) : ¬ NothingNew hv hv' := fun h => hnew (h.1 pool hmem)

theorem mem_addVolume (pool vol : String) : vol ∈ (hv.addVolume pool vol).volumes pool := by
  simp [Hypervisor.addVolume]

/-- The cleanup takes the new volume away. -/
theorem nothingNew_deleteVolume :
    NothingNew hv ((hv.addVolume pool vol).deleteVolume pool vol) := by
  refine ⟨fun p => ?_, List.Subset.refl _⟩
  by_cases hp : p = pool
  · subst hp
    intro v hv'
    simp only [Hypervisor.deleteVolume, Hypervisor.addVolume, Function.update_self,
      List.filter_append, List.mem_append, List.mem_filter] at hv'
    rcases hv' with hv' | hv'
    · exact hv'.1
    · simp [List.mem_singleton.mp hv'.1] at hv'
  · simp [Hypervisor.deleteVolume, Hypervisor.addVolume, Function.update_of_ne hp]

end Left

/-- **Creation of a machine**: for every request, host and failing steps, a call that fails
leaves no new volume and no new domain exactly when, at the first point that fails, the volume
was not allocated yet or is taken away again. -/
theorem create_atomic_iff (env : CreateEnv) (req : VirtualMachineCreate) (hv : Hypervisor) :
    OnError (createVirtualMachine env req) (NothingNew hv) hv ↔
      firstFailureClean (createCheckpoints env req hv) := by
  have hstart : NothingNew hv hv ↔ True := iff_true_intro (nothingNew_refl hv)
  simp only [createVirtualMachine, onError_failIf_bind, onError_get_bind, createCheckpoints,
    firstFailureClean_cons]
  refine lines_iff hstart <| lines_iff hstart <| lines_iff hstart <| lines_iff hstart ?_
  rcases hcreated : env.created req hv with _ | vol
  · rw [onError_storageVolCreateXML_bind_none _ hcreated]
    simpa using nothingNew_refl hv
  · rw [onError_storageVolCreateXML_bind_some _ hcreated]
    -- from here on the volume is there, until it is deleted
    have hnew : vol ∉ hv.volumes req.disk.poolId := by
      have hok := (Option.filter_eq_some_iff.mp hcreated).2
      rw [Bool.not_eq_true', Bool.or_eq_false_iff] at hok
      simpa using hok.2
    have hleft : NothingNew hv (hv.addVolume req.disk.poolId vol) ↔ False :=
      iff_false_intro (not_nothingNew_of_mem hv hnew (mem_addVolume hv _ _))
    have hdefined : NothingNew hv ((hv.addVolume req.disk.poolId vol).define req.name) ↔ False :=
      iff_false_intro (not_nothingNew_of_mem hv hnew (mem_addVolume hv _ _))
    have hdeleted : NothingNew hv
        ((hv.addVolume req.disk.poolId vol).deleteVolume req.disk.poolId vol) ↔ True :=
      iff_true_intro (nothingNew_deleteVolume hv)
    rcases env.volumePath with _ | volPath
    · simpa using hleft
    · simp only [onError_failIf_bind, onError_checkISO_bind, onError_defineDomain, hleft, hdefined,
        hdeleted, Option.isNone_some, Bool.false_eq_true, if_false, Option.getD_some,
        firstFailureClean_nil, reduceCtorEq]

/-! ### A network that does not exist -/

namespace UnknownNetwork

/-- A host with one pool, on which every libvirt call goes through. -/
def createEnv : CreateEnv where
  connectFails := false
  lookupFails := false
  pools := ["images"]
  poolActive := some true
  available := some 107374182400
  volumeName := fun _ => some "erp01.qcow2"
  volumeCreateFails := false
  volumePath := some "/images/erp01.qcow2"
  networks := ["default"]
  isoDir := "/isos"
  isos := []
  isoWarning := fun _ => ""
  qemuVersion := some 9000000
  libvirtVersion := some 9000000
  defineFails := false
  startFails := false
  readBackFails := false

/-- A machine on a network that does not exist. -/
def createRequest : VirtualMachineCreate where
  disk := ⟨none, "images", 10737418240⟩
  isoId := none
  memoryBytes := 2147483648
  name := "erp01"
  networkId := some "lan"
  nicModel := none
  osType := none
  start := none
  vcpus := 2
  virtioDriversIsoId := none

end UnknownNetwork

/-- A creation that fails can leave a volume: the network is looked up after it is allocated. -/
theorem create_not_atomic :
    ¬ ∀ (env : CreateEnv) (req : VirtualMachineCreate) (hv : Hypervisor),
      OnError (createVirtualMachine env req) (NothingNew hv) hv := by
  intro hall
  have h := hall UnknownNetwork.createEnv UnknownNetwork.createRequest ⟨fun _ => [], []⟩ _ rfl
  exact absurd (h.1 "images") (by decide)

end Ultrav
