import Ultrav.Attempts
import Ultrav.Domain
import Ultrav.ScheduleUpdate

/-!
# The persistent configuration of a machine

What `UpdateVirtualMachine` of the libvirt provider reads and writes of a domain, and the
operations on its CD-ROM and boot order.

* `MachineConfig` — vCPUs, memory, disks, network interfaces and the domain-level boot order.
* `MachineConfig.currentCDROM` / `nextCDROMTarget` / `hasOSBootOrder` — what is read.
* `setNICNetwork` / `setCDROM` / `setOSBootOrder` — what is written, call by call.
* `SameConfig` — the parts an update is about are the same.
* `onError_setCDROM_bind` — where a CD-ROM change can fail, and with what done by then.

A libvirt call takes effect entirely or fails without effect; the domain XML it reads and
writes is the configuration itself.
-/

namespace Ultrav

open Attempt

/-! ## The configuration -/

/-- A disk device of the domain. -/
structure DiskDevice where
  /-- disk, cdrom, … -/
  device : String
  /-- target name -/
  dev : String
  /-- target bus -/
  bus : String
  /-- source file -/
  source : String
  /-- driver type -/
  format : String
  /-- per-device boot order -/
  bootOrder : Option ℕ
  deriving DecidableEq, Repr

/-- What an interface is attached to. -/
inductive InterfaceSource where
  | network : String → InterfaceSource
  | bridge : String → InterfaceSource
  deriving DecidableEq, Repr

/-- A network interface of the domain. -/
structure Interface where
  source : InterfaceSource
  mac : String
  model : String
  deriving DecidableEq, Repr

/-- The persistent configuration. -/
structure MachineConfig where
  vcpus : ℤ
  /-- in the unit of `SetMemoryFlags` -/
  memory : ℤ
  disks : List DiskDevice
  nics : List Interface
  /-- the `<boot dev=…/>` elements of the os block -/
  osBoot : List String
  /-- the os element has attributes, such as firmware -/
  osAttrs : Bool
  deriving DecidableEq, Repr

namespace MachineConfig

/-- The CD-ROM drives. -/
def cdroms (c : MachineConfig) : List DiskDevice := c.disks.filter fun d => d.device = "cdrom"

/-- `currentCDROM`: target and bus of the first CD-ROM, empty when there is none. -/
def currentCDROM (c : MachineConfig) : String × String :=
  match c.disks.find? fun d => d.device = "cdrom" with
  | some d => (d.dev, d.bus)
  | none => ("", "")

/-- `hasOSBootOrder` -/
def hasOSBootOrder (c : MachineConfig) : Bool := !c.osBoot.isEmpty

/-- The bus of the first disk that is no CD-ROM and has one. -/
def systemBus (c : MachineConfig) : String :=
  ((c.disks.find? fun d => d.device ≠ "cdrom" && d.bus ≠ "").map DiskDevice.bus).getD ""

/-- The target names `sda` to `sdz`. -/
def targetNames : List String :=
  "abcdefghijklmnopqrstuvwxyz".toList.map fun c => "sd" ++ String.singleton c

/-- `nextCDROMTarget` -/
def nextCDROMTarget (c : MachineConfig) : Option (String × String) :=
  (targetNames.find? fun dev => !c.disks.any fun d => d.dev = dev).map fun dev =>
    (dev, if c.systemBus = "ide" || c.systemBus = "sata" then c.systemBus else "sata")

/-- `cdromXML` -/
def cdromXML (dev bus isoPath : String) (withBoot : Bool) : DiskDevice where
  device := "cdrom"
  dev := dev
  bus := bus
  source := isoPath
  format := "raw"
  bootOrder := if isoPath ≠ "" && withBoot then some 1 else none

/-- The device XML names a CD-ROM by its target. -/
def detach (c : MachineConfig) (dev : String) : MachineConfig :=
  { c with disks := c.disks.eraseP fun d => d.device = "cdrom" && d.dev = dev }

/-- A device is added. -/
def attach (c : MachineConfig) (d : DiskDevice) : MachineConfig :=
  { c with disks := c.disks ++ [d] }

/-- The boot devices after the rewrite of the os block; a block with attributes is not
matched. -/
def rewrittenBoot (c : MachineConfig) (cdromFirst : Bool) : List String :=
  if c.hasOSBootOrder && !c.osAttrs then if cdromFirst then ["cdrom", "hd"] else ["hd"]
  else c.osBoot

/-- The first interface on another network. -/
def moveFirst (network : String) : List Interface → List Interface
  | [] => []
  | nic :: nics =>
    ⟨.network network, nic.mac, if nic.model = "" then "virtio" else nic.model⟩ :: nics

end MachineConfig

/-! ## The calls -/

/-- Errors of an update. -/
inductive UpdateError where
  /-- `hypervisor.ErrVMNotFound` -/
  | vmNotFound
  /-- `hypervisor.ErrInvalidVMState` with a message -/
  | invalidState : String → UpdateError
  /-- `hypervisor.ErrNetworkNotFound` -/
  | networkNotFound
  /-- `hypervisor.ErrIsoNotFound` -/
  | isoNotFound
  /-- `os.ErrInvalid` with a message -/
  | invalid : String → UpdateError
  /-- a libvirt call fails, with the text it is wrapped in -/
  | libvirt : String → UpdateError
  deriving DecidableEq, Repr

/-- What an update meets: the domain's power state, the host's networks and ISOs, and the
libvirt calls that fail. -/
structure UpdateEnv where
  state : DomainState
  networks : List String
  isoDir : String
  isos : List String
  lookupFails : Bool
  stateFails : Bool
  vcpusFails : Bool
  memoryFails : Bool
  /-- the XML read of `setNICNetwork` -/
  nicXMLFails : Bool
  nicUpdateFails : Bool
  /-- the XML read of `currentCDROM` -/
  cdromXMLFails : Bool
  detachFails : Bool
  /-- the XML read of `nextCDROMTarget` -/
  targetXMLFails : Bool
  /-- the XML read of `hasOSBootOrder` -/
  bootXMLFails : Bool
  attachFails : Bool
  /-- the XML read of `setOSBootOrder` -/
  orderXMLFails : Bool
  defineFails : Bool
  /-- `GetVirtualMachine` at the end -/
  readBackFails : Bool
  deriving DecidableEq, Repr

/-- A running host where every call goes through. -/
def UpdateEnv.smooth (state : DomainState) (networks isos : List String) : UpdateEnv :=
  ⟨state, networks, "/isos", isos, false, false, false, false, false, false, false, false, false,
    false, false, false, false, false⟩

section Calls

variable (env : UpdateEnv)

/-- `setNICNetwork` -/
def setNICNetwork (network : String) : Attempt UpdateError MachineConfig Unit := do
  failIf env.nicXMLFails (.libvirt "read domain xml")
  let c ← get
  failIf c.nics.isEmpty (.invalidState "virtual machine has no network interface")
  failIf env.nicUpdateFails (.libvirt "update interface")
  modify fun c => { c with nics := MachineConfig.moveFirst network c.nics }

/-- `setOSBootOrder`. libvirt prints every child of the os block on a line of its own, so the
rewritten text is never the old one. -/
def setOSBootOrder (cdromFirst : Bool) : Attempt UpdateError MachineConfig Unit := do
  failIf env.orderXMLFails (.libvirt "read domain xml")
  let c ← get
  failIf (c.hasOSBootOrder && !c.osAttrs && env.defineFails) (.libvirt "update boot order")
  modify fun c => { c with osBoot := c.rewrittenBoot cdromFirst }

/-- The closure `detach` of `setCDROM`, for the CD-ROM at a target; its error is ignored. -/
def detachCDROM (dev : String) : Attempt UpdateError MachineConfig Unit :=
  modify fun c =>
    { c with disks := if dev = "" || env.detachFails then c.disks else (c.detach dev).disks }

/-- The end of `setCDROM`, once the old CD-ROM is gone. -/
def attachCDROM (isoPath : String) : Attempt UpdateError MachineConfig Unit := do
  failIf env.targetXMLFails (.libvirt "read domain xml")
  let c ← get
  match c.nextCDROMTarget with
  | none => throw (.libvirt "no free target device name for a cdrom")
  | some (dev, bus) => do
    failIf env.bootXMLFails (.libvirt "read domain xml")
    failIf env.attachFails (.libvirt "attach cdrom")
    modify fun c => c.attach (MachineConfig.cdromXML dev bus isoPath (!c.hasOSBootOrder))
    setOSBootOrder env true

/-- `setCDROM` -/
def setCDROM (isoPath : String) : Attempt UpdateError MachineConfig Unit := do
  failIf env.cdromXMLFails (.libvirt "read domain xml")
  let c ← get
  detachCDROM env c.currentCDROM.1
  -- the old CD-ROM is gone before anything that can refuse the new one
  if isoPath = "" then setOSBootOrder env false else attachCDROM env isoPath

end Calls

/-! ## What is compared -/

/-- vCPUs, memory and networks are the same. -/
def SameSizing (a b : MachineConfig) : Prop :=
  b.vcpus = a.vcpus ∧ b.memory = a.memory ∧
    b.nics.map Interface.source = a.nics.map Interface.source

/-- CD-ROMs and boot order are the same. -/
def SameMedia (a b : MachineConfig) : Prop := b.cdroms.Perm a.cdroms ∧ b.osBoot = a.osBoot

/-- Everything an update is about is the same. -/
def SameConfig (a b : MachineConfig) : Prop := SameSizing a b ∧ SameMedia a b

/-- A flag for each half gives one for the whole. -/
theorem sameConfig_iff {a b : MachineConfig} {sizing media : Bool}
    (hs : SameSizing a b ↔ sizing = false) (hm : SameMedia a b ↔ media = false) :
    SameConfig a b ↔ (sizing || media) = false := by
  rw [SameConfig, hs, hm, Bool.or_eq_false_iff]

/-! ## A change of the CD-ROM -/

namespace MachineConfig

variable (env : UpdateEnv) (c : MachineConfig)

/-- The old CD-ROM goes. -/
def detaches : Bool := c.currentCDROM.1 ≠ "" && !env.detachFails

/-- The configuration without the old CD-ROM, if it goes. -/
def withoutCDROM : MachineConfig :=
  { c with
    disks :=
      if c.currentCDROM.1 = "" || env.detachFails then c.disks
      else (c.detach c.currentCDROM.1).disks }

/-- The new CD-ROM, if a target is free. -/
def newCDROM (isoPath : String) : Option DiskDevice :=
  (c.withoutCDROM env).nextCDROMTarget.map fun t =>
    cdromXML t.1 t.2 isoPath (!c.hasOSBootOrder)

/-- The rewrite of the boot order fails. -/
def orderFails : Bool :=
  env.orderXMLFails || (c.hasOSBootOrder && !c.osAttrs && env.defineFails)

/-- The old CD-ROM goes and the very same one comes back. -/
def sameCDROM (isoPath : String) : Bool :=
  c.detaches env && c.newCDROM env isoPath = c.cdroms.head?

/-- The CD-ROM that is found first is the first of the CD-ROMs. -/
theorem head?_cdroms : c.cdroms.head? = c.disks.find? fun d => d.device = "cdrom" :=
  List.head?_filter

/-- The CD-ROMs without the old one. -/
theorem cdroms_withoutCDROM : (c.withoutCDROM env).cdroms =
    if c.detaches env then c.cdroms.tail else c.cdroms := by
  rw [detaches, withoutCDROM, cdroms]
  dsimp only
  by_cases hdev : c.currentCDROM.1 = ""
  · simp [hdev, cdroms]
  · by_cases hfail : env.detachFails = true
    · simp [hfail, cdroms]
    · rcases hfind : c.disks.find? fun d => d.device = "cdrom" with _ | d
      · exact absurd (by rw [currentCDROM, hfind]) hdev
      · have hcur : c.currentCDROM.1 = d.dev := by rw [currentCDROM, hfind]
        have hd := List.find?_some hfind
        rw [hcur] at hdev ⊢
        simp only [hdev, hfail, decide_false, Bool.or_self, Bool.false_eq_true, if_false, detach]
        rw [filter_eraseP (d := d) (by simp +contextual) (by simpa using hd) hfind]
        simp [cdroms, hdev]

/-- An old CD-ROM that goes was the first of the CD-ROMs. -/
theorem exists_cdroms_of_detaches (h : c.detaches env = true) : ∃ d ds, c.cdroms = d :: ds := by
  rw [detaches, Bool.and_eq_true] at h
  rcases hc : c.cdroms with _ | ⟨d, ds⟩
  · have hfind := c.head?_cdroms
    rw [hc, List.head?_nil] at hfind
    rw [currentCDROM, ← hfind] at h
    exact absurd h.1 (by simp)
  · exact ⟨d, ds, rfl⟩

variable {env c}

/-- Without the old CD-ROM the media are the same when none went. -/
theorem perm_withoutCDROM_iff :
    (c.withoutCDROM env).cdroms.Perm c.cdroms ↔ c.detaches env = false := by
  rw [cdroms_withoutCDROM]
  cases h : c.detaches env with
  | false => simp
  | true =>
    obtain ⟨d, ds, hc⟩ := c.exists_cdroms_of_detaches env h
    refine iff_of_false (fun hperm => ?_) (by simp)
    have := hperm.length_eq
    simp [hc] at this

/-- With the new CD-ROM the media are the same when it is the old one. -/
theorem perm_attach_iff {isoPath : String} {d : DiskDevice}
    (hd : c.newCDROM env isoPath = some d) :
    ((c.withoutCDROM env).attach d).cdroms.Perm c.cdroms ↔ c.sameCDROM env isoPath = true := by
  have hdevice : d.device = "cdrom" := by
    obtain ⟨t, -, rfl⟩ := Option.map_eq_some_iff.mp hd
    rfl
  have hcdroms : ((c.withoutCDROM env).attach d).cdroms = (c.withoutCDROM env).cdroms ++ [d] := by
    rw [attach, cdroms]
    dsimp only
    rw [List.filter_append, cdroms, List.filter_cons_of_pos (by simpa using hdevice),
      List.filter_nil]
  rw [hcdroms, cdroms_withoutCDROM, sameCDROM, hd]
  cases h : c.detaches env with
  | false =>
    refine iff_of_false (fun hperm => ?_) (by simp)
    have := hperm.length_eq
    simp at this
  | true =>
    obtain ⟨old, ds, hc⟩ := c.exists_cdroms_of_detaches env h
    rw [hc, if_pos rfl, List.tail_cons, List.head?_cons]
    calc (ds ++ [d]).Perm (old :: ds) ↔ ([d] ++ ds).Perm ([old] ++ ds) :=
          ⟨fun hp => List.perm_append_comm.trans hp, fun hp => List.perm_append_comm.trans hp⟩
      _ ↔ d = old := by rw [List.perm_append_right_iff, List.singleton_perm_singleton]
      _ ↔ (true && decide (some d = some old)) = true := by simp

/-- A flag for the CD-ROMs gives one for the media. -/
theorem sameMedia_iff {b : MachineConfig} {media : Bool}
    (hm : b.cdroms.Perm c.cdroms ↔ media = false) :
    SameMedia c b ↔ (media || decide (b.osBoot ≠ c.osBoot)) = false := by
  rw [SameMedia, hm, Bool.or_eq_false_iff, decide_eq_false_iff_not, not_not]

theorem sameMedia_withoutCDROM_iff :
    SameMedia c (c.withoutCDROM env) ↔ c.detaches env = false := by
  rw [sameMedia_iff perm_withoutCDROM_iff, Bool.or_eq_false_iff]
  exact and_iff_left (decide_eq_false (fun h => h rfl))

theorem sameMedia_attach_iff {isoPath : String} {d : DiskDevice}
    (hd : c.newCDROM env isoPath = some d) :
    SameMedia c ((c.withoutCDROM env).attach d) ↔ (!c.sameCDROM env isoPath) = false := by
  rw [SameMedia, perm_attach_iff hd, Bool.not_eq_false']
  exact and_iff_left rfl

end MachineConfig

section OnError

variable {env : UpdateEnv} {β : Type} {f : Unit → Attempt UpdateError MachineConfig β}
  {Q : MachineConfig → Prop} {c : MachineConfig}

theorem onError_setOSBootOrder_bind (cdromFirst : Bool) :
    OnError (setOSBootOrder env cdromFirst >>= f) Q c ↔
      if c.orderFails env then Q c
      else OnError (f ()) Q { c with osBoot := c.rewrittenBoot cdromFirst } := by
  simp only [setOSBootOrder, bind_assoc, onError_failIf_bind, onError_get_bind,
    onError_modify_bind, MachineConfig.orderFails]
  exact ite_or_iff

/-- The old CD-ROM goes first. -/
theorem onError_setCDROM_bind (isoPath : String) :
    OnError (setCDROM env isoPath >>= f) Q c ↔
      if env.cdromXMLFails then Q c
      else if isoPath = "" then OnError (setOSBootOrder env false >>= f) Q (c.withoutCDROM env)
      else OnError (attachCDROM env isoPath >>= f) Q (c.withoutCDROM env) := by
  simp only [setCDROM, detachCDROM, Attempt.bind_assoc, onError_failIf_bind, onError_get_bind,
    onError_modify_bind]
  split
  · exact Iff.rfl
  · split <;> exact Iff.rfl

/-- No target is free for the new CD-ROM. -/
theorem onError_attachCDROM_bind_none {isoPath : String} (h : c.nextCDROMTarget = none) :
    OnError (attachCDROM env isoPath >>= f) Q c ↔ Q c := by
  simp only [attachCDROM, Attempt.bind_assoc, onError_failIf_bind, onError_get_bind, h,
    onError_throw_bind, ite_self]

/-- The new CD-ROM is attached, and the boot order rewritten. -/
theorem onError_attachCDROM_bind_some {isoPath : String} {t : String × String}
    (h : c.nextCDROMTarget = some t) :
    OnError (attachCDROM env isoPath >>= f) Q c ↔
      if env.targetXMLFails || env.bootXMLFails || env.attachFails then Q c
      else OnError (setOSBootOrder env true >>= f) Q
        (c.attach (MachineConfig.cdromXML t.1 t.2 isoPath (!c.hasOSBootOrder))) := by
  simp only [attachCDROM, Attempt.bind_assoc, onError_failIf_bind, onError_get_bind, h,
    onError_modify_bind, ite_or_iff, Bool.or_assoc]

end OnError

end Ultrav
