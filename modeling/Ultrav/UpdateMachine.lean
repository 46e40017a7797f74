import Ultrav.MachineConfig

/-!
# Partial updates of a machine

`UpdateVirtualMachine` validates and applies four optional fields one after the other, in the
libvirt provider and in the mock provider.

* `updateVirtualMachine` — the libvirt provider, call by call.
* `checkpoints` — where it can fail, with whether the configuration was changed by then.
* `MockMachine.update` — the mock provider.
* `update_atomic_iff` — which updates leave the configuration as it was when they fail.
-/

namespace Ultrav

open Attempt

/-! ## The libvirt provider -/

/-- A partial update. -/
structure VMUpdate where
  vcpus : Option ℤ
  memoryBytes : Option ℤ
  networkId : Option String
  isoId : Option String
  deriving DecidableEq, Repr

/-- `iso.ValidID`: `^[a-zA-Z0-9][a-zA-Z0-9._ -]{0,127}\.iso$`. -/
def isoValidID (s : String) : Bool :=
  match s.toList with
  | [] => false
  | c :: cs => alnum c && cs.length ≥ 4 && cs.drop (cs.length - 4) = ".iso".toList &&
      cs.length - 4 ≤ 127 &&
      cs.all fun c => alnum c || c = '.' || c = '_' || c = ' ' || c = '-'

/-- `filepath.Join` of the ISO directory and a file name. -/
def isoPath (dir isoID : String) : String := dir ++ "/" ++ isoID

theorem isoPath_ne (dir isoID : String) : isoPath dir isoID ≠ "" := by
  intro h
  have hlen := congrArg String.length h
  simp [isoPath] at hlen

section Libvirt

variable (env : UpdateEnv)

/-- The vCPU part. -/
def applyVcpus : Option ℤ → Attempt UpdateError MachineConfig Unit
  | none => pure ()
  | some n => do
    failIf env.vcpusFails (.libvirt "set vcpus")
    modify fun c => { c with vcpus := n }

/-- The memory part. The number of bytes is passed on as it is. -/
def applyMemory : Option ℤ → Attempt UpdateError MachineConfig Unit
  | none => pure ()
  | some n => do
    failIf env.memoryFails (.libvirt "set memory")
    modify fun c => { c with memory := n }

/-- The network part. -/
def applyNetwork : Option String → Attempt UpdateError MachineConfig Unit
  | none => pure ()
  | some network => do
    failIf (env.state ≠ .shutoff)
      (.invalidState "network changes require the virtual machine to be stopped")
    -- looked up only now, when vCPUs and memory may have been set
    failIf (!env.networks.contains network) .networkNotFound
    setNICNetwork env network

/-- The ISO part. -/
def applyISO : Option String → Attempt UpdateError MachineConfig Unit
  | none => pure ()
  | some isoID => do
    failIf (isoID ≠ "" && !isoValidID isoID) (.invalid "invalid ISO filename")
    failIf (isoID ≠ "" && !env.isos.contains isoID) .isoNotFound
    setCDROM env (if isoID = "" then "" else isoPath env.isoDir isoID)

/-- Some field is present. -/
def VMUpdate.any (req : VMUpdate) : Bool :=
  req.vcpus.isSome || req.memoryBytes.isSome || req.networkId.isSome || req.isoId.isSome

/-- `UpdateVirtualMachine` of the libvirt provider. -/
def updateVirtualMachine (req : VMUpdate) : Attempt UpdateError MachineConfig Unit := do
  failIf env.lookupFails .vmNotFound
  failIf (req.any && env.stateFails) (.libvirt "read domain state")
  failIf ((req.vcpus.isSome || req.memoryBytes.isSome) && env.state ≠ .shutoff)
    (.invalidState "vCPU and memory changes require the virtual machine to be stopped")
  applyVcpus env req.vcpus
  applyMemory env req.memoryBytes
  applyNetwork env req.networkId
  applyISO env req.isoId
  failIf env.readBackFails (.libvirt "get virtual machine")

/-! ### Where it can fail -/

/-- The points at which the ISO part and the read at the end can fail, when the fields before
it left the configuration `dirty` or not. -/
def isoCheckpoints (c : MachineConfig) (dirty : Bool) : Option String → List Checkpoint
  | none => [⟨dirty, env.readBackFails⟩]
  | some isoID =>
    [⟨dirty, isoID ≠ "" && !isoValidID isoID⟩, ⟨dirty, isoID ≠ "" && !env.isos.contains isoID⟩,
      ⟨dirty, env.cdromXMLFails⟩] ++
    if isoID = "" then
      [⟨dirty || c.detaches env, c.orderFails env⟩,
        ⟨dirty || (c.detaches env || c.rewrittenBoot false ≠ c.osBoot), env.readBackFails⟩]
    else
      [⟨dirty || c.detaches env, (c.newCDROM env (isoPath env.isoDir isoID)).isNone ||
          (env.targetXMLFails || env.bootXMLFails || env.attachFails)⟩,
        ⟨dirty || !c.sameCDROM env (isoPath env.isoDir isoID), c.orderFails env⟩,
        ⟨dirty || (!c.sameCDROM env (isoPath env.isoDir isoID) ||
          c.rewrittenBoot true ≠ c.osBoot), env.readBackFails⟩]

/-- The network part fails. -/
def networkFails (c : MachineConfig) (network : String) : Bool :=
  env.state ≠ .shutoff || !env.networks.contains network || env.nicXMLFails || c.nics.isEmpty ||
    env.nicUpdateFails

/-- The points at which an update can fail, in the order of the code, each with whether a field
was changed to another value by then. -/
def checkpoints (c : MachineConfig) (req : VMUpdate) : List Checkpoint :=
  let vcpus := req.vcpus.any fun n => n ≠ c.vcpus
  let memory := vcpus || req.memoryBytes.any fun n => n ≠ c.memory
  let network := memory || req.networkId.any fun n =>
    (MachineConfig.moveFirst n c.nics).map Interface.source ≠ c.nics.map Interface.source
  [⟨false, env.lookupFails⟩, ⟨false, req.any && env.stateFails⟩,
    ⟨false, (req.vcpus.isSome || req.memoryBytes.isSome) && env.state ≠ .shutoff⟩,
    ⟨false, req.vcpus.isSome && env.vcpusFails⟩,
    ⟨vcpus, req.memoryBytes.isSome && env.memoryFails⟩,
    ⟨memory, req.networkId.any (networkFails env c)⟩] ++ isoCheckpoints env c network req.isoId

end Libvirt

section OnError

variable {env : UpdateEnv} {β : Type} {f : Unit → Attempt UpdateError MachineConfig β}
  {Q : MachineConfig → Prop} {c : MachineConfig}

theorem onError_applyVcpus_bind (n : Option ℤ) :
    OnError (applyVcpus env n >>= f) Q c ↔
      if n.isSome && env.vcpusFails then Q c
      else OnError (f ()) Q { c with vcpus := n.getD c.vcpus } := by
  cases n with
  | none => simp [applyVcpus]
  | some n => simp [applyVcpus]

theorem onError_applyMemory_bind (n : Option ℤ) :
    OnError (applyMemory env n >>= f) Q c ↔
      if n.isSome && env.memoryFails then Q c
      else OnError (f ()) Q { c with memory := n.getD c.memory } := by
  cases n with
  | none => simp [applyMemory]
  | some n => simp [applyMemory]

/-- The interfaces after the network part. -/
def movedNICs (c : MachineConfig) (network : Option String) : List Interface :=
  (network.map fun n => MachineConfig.moveFirst n c.nics).getD c.nics

theorem onError_applyNetwork_bind (network : Option String) :
    OnError (applyNetwork env network >>= f) Q c ↔
      if network.any (networkFails env c) then Q c
      else OnError (f ()) Q { c with nics := movedNICs c network } := by
  cases network with
  | none => simp [applyNetwork, movedNICs]
  | some n =>
    simp only [applyNetwork, setNICNetwork, Attempt.bind_assoc, onError_failIf_bind,
      onError_get_bind, onError_modify_bind, ite_or_iff, Option.any_some, networkFails, movedNICs,
      Option.map_some, Option.getD_some, Bool.or_assoc]

/-- The ISO part and the read at the end, after fields that left the sizing `dirty` or not. -/
theorem onError_applyISO_iff {c₀ : MachineConfig} {v m : ℤ} {nics : List Interface} {dirty : Bool}
    (hs : SameSizing c₀ { c₀ with vcpus := v, memory := m, nics := nics } ↔ dirty = false)
    (isoId : Option String) (e : UpdateError) :
    OnError (applyISO env isoId >>= fun _ => failIf env.readBackFails e) (SameConfig c₀)
        { c₀ with vcpus := v, memory := m, nics := nics } ↔
      firstFailureClean (isoCheckpoints env c₀ dirty isoId) := by
  -- the sizing is not touched any more
  have hsame : ∀ {b : MachineConfig} {media : Bool},
      (SameSizing c₀ b ↔ SameSizing c₀ { c₀ with vcpus := v, memory := m, nics := nics }) →
      (SameMedia c₀ b ↔ media = false) → (SameConfig c₀ b ↔ (dirty || media) = false) :=
    fun hb hm => sameConfig_iff (hb.trans hs) hm
  have hstart : SameConfig c₀ { c₀ with vcpus := v, memory := m, nics := nics } ↔
      dirty = false := by
    have hmedia : SameMedia c₀ { c₀ with vcpus := v, memory := m, nics := nics } ↔
        false = false := iff_of_true ⟨.refl _, rfl⟩ rfl
    rw [hsame Iff.rfl hmedia, Bool.or_false]
  cases isoId with
  | none =>
    simp only [applyISO, Attempt.pure_bind, onError_failIf, isoCheckpoints, firstFailureClean_cons,
      firstFailureClean_nil, hstart]
  | some isoID =>
    have hdetach : SameConfig c₀
        (MachineConfig.withoutCDROM env { c₀ with vcpus := v, memory := m, nics := nics }) ↔
        (dirty || c₀.detaches env) = false :=
      hsame Iff.rfl MachineConfig.sameMedia_withoutCDROM_iff
    simp only [applyISO, Attempt.bind_assoc, onError_failIf_bind, ite_or_iff, isoCheckpoints,
      List.cons_append, List.nil_append, firstFailureClean_cons, hstart, onError_setCDROM_bind]
    refine lines_iff Iff.rfl ?_
    by_cases hid : isoID = ""
    · simp only [hid, if_true, onError_setOSBootOrder_bind, onError_failIf, firstFailureClean_cons,
        firstFailureClean_nil]
      refine lines_iff hdetach (lines_iff ?_ Iff.rfl)
      exact hsame Iff.rfl (MachineConfig.sameMedia_iff MachineConfig.perm_withoutCDROM_iff)
    · simp only [hid, if_false, isoPath_ne]
      rcases ht : (MachineConfig.withoutCDROM env
        { c₀ with vcpus := v, memory := m, nics := nics }).nextCDROMTarget with _ | t
      · have hnew : c₀.newCDROM env (isoPath env.isoDir isoID) = none := by
          exact congrArg (Option.map _) ht
        rw [onError_attachCDROM_bind_none ht]
        simpa only [hnew, firstFailureClean_cons, Option.isNone_none, Bool.true_or, if_true]
          using hdetach
      · have hnew : c₀.newCDROM env (isoPath env.isoDir isoID) = some
            (MachineConfig.cdromXML t.1 t.2 (isoPath env.isoDir isoID) (!c₀.hasOSBootOrder)) := by
          exact congrArg (Option.map _) ht
        rw [onError_attachCDROM_bind_some ht]
        simp only [hnew, onError_setOSBootOrder_bind, onError_failIf, firstFailureClean_cons,
          firstFailureClean_nil, Option.isNone_some, Bool.false_or]
        refine lines_iff hdetach (lines_iff ?_ (lines_iff ?_ Iff.rfl))
        · exact hsame Iff.rfl (MachineConfig.sameMedia_attach_iff hnew)
        · exact hsame Iff.rfl (MachineConfig.sameMedia_iff
            ((MachineConfig.perm_attach_iff hnew).trans (by simp)))

end OnError

/-- **The libvirt provider**: an update that fails leaves the configuration as it was exactly
when nothing was changed at the first point that fails. -/
theorem onError_updateVirtualMachine_iff (env : UpdateEnv) (req : VMUpdate) (c : MachineConfig) :
    OnError (updateVirtualMachine env req) (SameConfig c) c ↔
      firstFailureClean (checkpoints env c req) := by
  have hsame : ∀ {b : MachineConfig} {sizing : Bool}, b.cdroms = c.cdroms → b.osBoot = c.osBoot →
      (SameSizing c b ↔ sizing = false) → (SameConfig c b ↔ sizing = false) := by
    intro b sizing hcdroms hboot hs
    have hmedia : SameMedia c b ↔ false = false :=
      iff_of_true ⟨hcdroms ▸ .refl _, hboot⟩ rfl
    rw [sameConfig_iff hs hmedia, Bool.or_false]
  have hv : SameSizing c { c with vcpus := req.vcpus.getD c.vcpus } ↔
      (req.vcpus.any fun n => n ≠ c.vcpus) = false := by
    cases req.vcpus <;> simp [SameSizing]
  have hm : SameSizing c
      { c with vcpus := req.vcpus.getD c.vcpus, memory := req.memoryBytes.getD c.memory } ↔
      ((req.vcpus.any fun n => n ≠ c.vcpus) ||
        req.memoryBytes.any fun n => n ≠ c.memory) = false := by
    rw [Bool.or_eq_false_iff, ← hv]
    cases req.memoryBytes <;> simp [SameSizing]
  have hn : SameSizing c
      { c with
        vcpus := req.vcpus.getD c.vcpus
        memory := req.memoryBytes.getD c.memory
        nics := movedNICs c req.networkId } ↔
      (((req.vcpus.any fun n => n ≠ c.vcpus) || req.memoryBytes.any fun n => n ≠ c.memory) ||
        req.networkId.any fun n =>
          (MachineConfig.moveFirst n c.nics).map Interface.source ≠
            c.nics.map Interface.source) = false := by
    rw [Bool.or_eq_false_iff, ← hm]
    cases req.networkId <;> simp [SameSizing, movedNICs, and_assoc]
  have hstart : SameConfig c c ↔ True := iff_true_intro ⟨⟨rfl, rfl, rfl⟩, .refl _, rfl⟩
  simp only [updateVirtualMachine, onError_failIf_bind, onError_applyVcpus_bind,
    onError_applyMemory_bind, onError_applyNetwork_bind, checkpoints, List.cons_append,
    List.nil_append, firstFailureClean_cons]
  -- nothing is changed at the first four points
  refine lines_iff hstart <| lines_iff hstart <| lines_iff hstart <| lines_iff hstart <|
    lines_iff (hsame rfl rfl hv) <| lines_iff (hsame rfl rfl hm) ?_
  exact onError_applyISO_iff hn req.isoId _

/-! ## The mock provider -/

/-- `types.VMState` of the mock provider. -/
inductive MockState where
  | running
  | shuttingDown
  | stopped
  deriving DecidableEq, Repr

/-- The part of `vmState` that an update reads and writes. -/
structure MockMachine where
  vcpus : ℤ
  memory : ℤ
  state : MockState
  /-- the attached ISO, empty for none -/
  iso : String
  network : String
  deriving DecidableEq, Repr

/-- The machines of the mock provider. -/
abbrev MockHost : Type := String → Option MockMachine

/-- vCPUs, memory and ISO, as the update sets them before it looks at the network. -/
def MockMachine.set (vm : MockMachine) (req : VMUpdate) : MockMachine :=
  { vm with
    vcpus := req.vcpus.getD vm.vcpus
    memory := req.memoryBytes.getD vm.memory
    iso := req.isoId.getD vm.iso }

/-- The update needs a stopped machine. -/
def VMUpdate.needsStop (req : VMUpdate) : Bool :=
  req.vcpus.isSome || req.memoryBytes.isSome || req.networkId.isSome

/-- `UpdateVirtualMachine` of the mock provider. -/
def mockUpdateVirtualMachine (networks : List String) (id : String) (req : VMUpdate) :
    Attempt UpdateError MockHost Unit := do
  let vms ← get
  match vms id with
  | none => throw .vmNotFound
  | some vm => do
    failIf (req.needsStop && vm.state ≠ .stopped) (.invalidState
      "vCPU, memory and network changes require the virtual machine to be stopped")
    modify fun vms => Function.update vms id (some (vm.set req))
    failIf (req.networkId.any fun n => !networks.contains n) .networkNotFound
    modify fun vms => Function.update vms id
      (some { vm.set req with network := req.networkId.getD vm.network })

/-- The points at which the update of a machine can fail. -/
def mockCheckpoints (networks : List String) (vm : MockMachine) (req : VMUpdate) :
    List Checkpoint :=
  [⟨false, req.needsStop && vm.state ≠ .stopped⟩,
    ⟨(req.vcpus.any fun n => n ≠ vm.vcpus) || (req.memoryBytes.any fun n => n ≠ vm.memory) ||
        req.isoId.any fun iso => iso ≠ vm.iso,
      req.networkId.any fun n => !networks.contains n⟩]

/-- The machine is set to what it was. -/
theorem MockMachine.set_eq_self_iff (vm : MockMachine) (req : VMUpdate) :
    vm.set req = vm ↔ ((req.vcpus.any fun n => n ≠ vm.vcpus) ||
      (req.memoryBytes.any fun n => n ≠ vm.memory) ||
        req.isoId.any fun iso => iso ≠ vm.iso) = false := by
  obtain ⟨vcpus, memory, state, iso, network⟩ := vm
  obtain ⟨v, m, n, i⟩ := req
  cases v <;> cases m <;> cases i <;> simp [set, and_assoc]

/-- **The mock provider**: the same for an update that fails there. -/
theorem onError_mockUpdate_iff (networks : List String) (id : String) (req : VMUpdate)
    (vms : MockHost) :
    OnError (mockUpdateVirtualMachine networks id req) (fun vms' => vms' id = vms id) vms ↔
      ∀ vm, vms id = some vm → firstFailureClean (mockCheckpoints networks vm req) := by
  rw [mockUpdateVirtualMachine, onError_get_bind]
  rcases hvm : vms id with _ | vm
  · exact iff_of_true (fun _ _ => hvm) fun vm h => by cases h
  · simp only [onError_failIf_bind, onError_modify_bind, onError_modify, Function.update_self]
    have hsame : some (vm.set req) = some vm ↔ _ := (Option.some_inj).trans (vm.set_eq_self_iff req)
    constructor
    · rintro h vm' ⟨⟩
      rw [hvm, hsame] at h
      simpa only [mockCheckpoints, firstFailureClean_cons, firstFailureClean_nil, ite_self] using h
    · intro h
      have h' := h vm rfl
      rw [hvm, hsame]
      simpa only [mockCheckpoints, firstFailureClean_cons, firstFailureClean_nil, ite_self] using h'

/-- **Partial updates**, of both providers and whatever fails: an update that returns an error
leaves the machine's configuration as it was exactly when no field had been changed to another
value at the first point that fails. -/
theorem update_atomic_iff (env : UpdateEnv) (req : VMUpdate) (c : MachineConfig)
    (networks : List String) (id : String) (vms : MockHost) :
    (OnError (updateVirtualMachine env req) (SameConfig c) c ↔
      firstFailureClean (checkpoints env c req)) ∧
      (OnError (mockUpdateVirtualMachine networks id req) (fun vms' => vms' id = vms id) vms ↔
        ∀ vm, vms id = some vm → firstFailureClean (mockCheckpoints networks vm req)) :=
  ⟨onError_updateVirtualMachine_iff env req c, onError_mockUpdate_iff networks id req vms⟩

/-! ### A network that does not exist -/

namespace UnknownNetwork

/-- More vCPUs, on a network that does not exist. -/
def request : VMUpdate := ⟨some 4, none, some "lan", none⟩

/-- A stopped machine on the default network. -/
def config : MachineConfig :=
  ⟨2, 2097152, [⟨"disk", "sda", "scsi", "/images/erp01.qcow2", "qcow2", none⟩],
    [⟨.network "default", "52:54:00:00:00:11", "virtio"⟩], ["hd"], false⟩

/-- The same machine in the mock provider. -/
def host : MockHost := fun id =>
  if id = "erp01" then some ⟨2, 2147483648, .stopped, "", "default"⟩ else none

end UnknownNetwork

/-- An update that fails can change the machine, in both providers: the vCPUs are set before
the network is looked up. -/
theorem update_not_atomic :
    (¬ ∀ (env : UpdateEnv) (req : VMUpdate) (c : MachineConfig),
      OnError (updateVirtualMachine env req) (SameConfig c) c) ∧
      ¬ ∀ (networks : List String) (id : String) (req : VMUpdate) (vms : MockHost),
        OnError (mockUpdateVirtualMachine networks id req) (fun vms' => vms' id = vms id) vms := by
  constructor
  · intro hall
    have h := hall (.smooth .shutoff ["default"] []) UnknownNetwork.request UnknownNetwork.config _
      rfl
    exact absurd h.1.1 (by decide)
  · intro hall
    have h := hall ["default"] "erp01" UnknownNetwork.request UnknownNetwork.host _ rfl
    exact absurd h (by decide)

end Ultrav
