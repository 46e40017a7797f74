import Ultrav.Daemon
import Ultrav.DomainDeletion
import Ultrav.MockPower
import Ultrav.ResourceUpdate
import Ultrav.VolumeDocument

/-!
# Requests for machines, call by call

The requests of the libvirt provider for machines, as programs that ask libvirt one call at a time.
What a call asks of a guest (to resume, to shut down, to reboot) comes as its state changes.

* `Machines.Act` — the calls that leave the domains as they are.
* `Machines.createVirtualMachine` … `Machines.deleteVirtualMachine` — the requests.
* `Machines.Request` / `Machines.Request.prog` — with the checks of the API.
-/

namespace Ultrav

namespace Machines

/-! ## What is asked -/

/-- The calls that leave the domains as they are. -/
inductive Act where
  | lookupPool (pool : String)
  /-- the free space of an active pool is exceeded, by `IsActive`, `Refresh` and `GetInfo` -/
  | exceeds (pool : String) (size : ℤ)
  | createVolume (pool doc : String)
  /-- `GetPath` of the new volume -/
  | volumePath (volume : String)
  | lookupNetwork (network : String)
  /-- `os.Stat` of an ISO -/
  | stat (path : String)
  | lookupVolume (path : String)
  | deleteVolume (path : String)
  | resume (id : String)
  | shutdown (id : String)
  | reboot (id : String)
  deriving DecidableEq

/-- How a request ends without an answer. -/
inductive Failure where
  /-- the check of the API -/
  | validation (text : String)
  | vmNotFound
  /-- `ErrInvalidVMState` -/
  | invalidVMState (text : String)
  | create (e : CreateVMError)
  | update (e : UpdateError)
  | deletion (e : DeletionError)
  /-- an error of libvirt -/
  | libvirt (call : String)
  deriving DecidableEq

/-- `stateToModel` -/
def stateToModel : DomainState → Fleet.VMState
  | .running | .blocked => .running
  | .paused => .paused
  | .shutdown | .shutoff | .crashed => .stopped
  | .pmsuspended => .paused
  | .nostate => .error

/-- A machine, with what its document was made from. -/
structure Report where
  id : String
  state : Fleet.VMState
  config : MachineConfig
  deriving DecidableEq

/-- A request at work. -/
abbrev Prog := Daemon.Prog String MachineConfig DomainState Act (Except Failure (Option Report))

/-- It ends without an answer. -/
def refuse (e : Failure) : Prog := .ret (.error e)

/-- What is live can do without a definition, and runs when it is started. -/
def kind : Daemon.Kind DomainState := ⟨true, .running⟩

/-- `GetState`, of what is live -/
def stateOf (live : Option DomainState) : DomainState := live.getD .shutoff

/-- The files of the disks, in the order of the configuration. -/
def diskPaths (c : MachineConfig) : List String :=
  (c.disks.filter fun d => d.device = "disk" && d.source ≠ "").map DiskDevice.source

/-! ## Reading and power -/

/-- `GetVirtualMachine` -/
def getVirtualMachine (id : String) : Prog :=
  .call (.lookup id) fun
    | none => refuse .vmNotFound
    | some h => .call (.describe h) fun
      | none => refuse (.libvirt "get xml desc")
      | some c => .call (.status h) fun
        | none => refuse (.libvirt "get state")
        | some live => .ret (.ok (some ⟨id, stateToModel (stateOf live), c⟩))

/-- A call for a guest, and the machine then. -/
def askGuest (id : String) (act : Act) (call : String) : Prog :=
  .call (.other act) fun
    | false => refuse (.libvirt call)
    | true => getVirtualMachine id

/-- `StartVirtualMachine` -/
def startVirtualMachine (id : String) : Prog :=
  .call (.lookup id) fun
    | none => refuse .vmNotFound
    | some h => .call (.status h) fun
      | none => refuse (.libvirt "get state")
      | some live => match stateOf live with
        | .running | .blocked => refuse (.invalidVMState "virtual machine is already running")
        | .paused | .pmsuspended => askGuest id (.resume id) "resume"
        | .nostate | .shutdown | .shutoff | .crashed => .call (.create h) fun
          | false => refuse (.libvirt "create")
          | true => getVirtualMachine id

/-- `ShutdownVirtualMachine` -/
def shutdownVirtualMachine (id : String) : Prog :=
  .call (.lookup id) fun
    | none => refuse .vmNotFound
    | some h => .call (.status h) fun
      | none => refuse (.libvirt "get state")
      | some live => match stateOf live with
        | .running | .blocked | .paused => askGuest id (.shutdown id) "shutdown"
        | .nostate | .shutdown | .shutoff | .crashed | .pmsuspended =>
          refuse (.invalidVMState "cannot gracefully shut down a stopped virtual machine")

/-- `RebootVirtualMachine` -/
def rebootVirtualMachine (id : String) : Prog :=
  .call (.lookup id) fun
    | none => refuse .vmNotFound
    | some h => .call (.status h) fun
      | none => refuse (.libvirt "get state")
      | some live => match stateOf live with
        | .running | .blocked => askGuest id (.reboot id) "reboot"
        | .nostate | .paused | .shutdown | .shutoff | .crashed | .pmsuspended =>
          refuse (.invalidVMState "cannot reboot a stopped virtual machine")

/-- `ForceStopVirtualMachine` -/
def forceStopVirtualMachine (id : String) : Prog :=
  .call (.lookup id) fun
    | none => refuse .vmNotFound
    | some h => .call (.status h) fun
      | none => refuse (.libvirt "get state")
      | some live =>
        if stateOf live = .shutoff then
          refuse (.invalidVMState "virtual machine is already stopped")
        else .call (.destroy h) fun
          | false => refuse (.libvirt "destroy")
          | true => getVirtualMachine id

/-! ## Creation -/

/-- What a creation meets of the host. -/
structure Host where
  isoDir : String
  /-- the versions of the host -/
  caps : HostFeatures
  /-- the bytes available in the pool -/
  available : ℤ
  /-- the path of the new volume -/
  volPath : String

/-- What libvirt makes of the document of a domain: its name and its configuration. -/
abbrev Reader := String → Option (String × MachineConfig)

section Create

variable (reads : Reader) (host : Host) (req : VirtualMachineCreate)

/-- The path of an ISO, empty for none. -/
def Host.isoPath (isoID : String) : String :=
  if isoID = "" then "" else Ultrav.isoPath host.isoDir isoID

/-- The checks of an ISO, with the message for a bad file name. -/
def checkISO (isoID message : String) (next : Prog) : Prog :=
  if isoID = "" then next
  else if !isoValidID isoID then refuse (.create (.invalid message))
  else .call (.other (.stat (host.isoPath isoID))) fun
    | false => refuse (.create .isoNotFound)
    | true => next

/-- The argument of `buildDomainXML`. -/
def Host.spec : DomainSpec where
  name := req.name
  memoryBytes := req.memoryBytes
  vcpus := req.vcpus
  osType := req.os
  diskPath := host.volPath
  diskFormat := req.format
  networkId := req.network
  isoPath := host.isoPath req.iso
  virtioISOPath := host.isoPath req.virtioISO
  nicModel := req.nicModel.getD ""

/-- The new volume is deleted, whether that goes through or not. -/
def takeBack (e : CreateVMError) : Prog :=
  .call (.other (.deleteVolume host.volPath)) fun _ => refuse (.create e)

/-- The end of `CreateVirtualMachine`, once the domain is defined. -/
def startCreated (h : Daemon.Handle String) : Prog :=
  if req.start.getD false then .call (.create h) fun
    | false => refuse (.create (.libvirt "start domain"))
    | true => getVirtualMachine req.name
  else getVirtualMachine req.name

/-- The second half of `CreateVirtualMachine`, once the volume has a path. -/
def defineDomain : Prog :=
  match buildDomainXML (host.spec req) host.caps with
  | .error e => takeBack host (.build e)
  | .ok (doc, _) => match reads doc with
    | none => takeBack host (.libvirt "define domain")
    | some (name, c) => .call (.define name c) fun
      | none => takeBack host (.libvirt "define domain")
      | some h => startCreated req h

/-- `CreateVirtualMachine` -/
def createVirtualMachine : Prog :=
  .call (.lookup req.name) fun
    | some _ => refuse (.create .vmAlreadyExists)
    | none => .call (.other (.lookupPool req.disk.poolId)) fun
      | false => refuse (.create .poolNotFound)
      | true => .call (.other (.exceeds req.disk.poolId req.disk.sizeBytes)) fun
        | true => refuse (.create
          (.poolInsufficientSpace req.disk.sizeBytes req.disk.poolId host.available))
        | false => .call (.other (.createVolume req.disk.poolId req.volumeXML)) fun
          | false => refuse (.create (.libvirt "create volume"))
          | true => .call (.other (.volumePath req.volumeXML)) fun
            | false => refuse (.create (.libvirt "resolve volume path"))
            | true => .call (.other (.lookupNetwork req.network)) fun
              | false => refuse (.create .networkNotFound)
              | true => checkISO host req.iso "invalid ISO filename" <|
                checkISO host req.virtioISO "invalid VirtIO drivers ISO filename" <|
                defineDomain reads host req

end Create

/-! ## Updates -/

section Update

variable (h : Daemon.Handle String) (state : DomainState)

/-- A call for a part of an update. -/
def change (f : MachineConfig → MachineConfig) (call : String) (next : Prog) : Prog :=
  .call (.modify h f) fun
    | false => refuse (.update (.libvirt call))
    | true => next

/-- The configuration, as the parts of an update read it. -/
def readConfig (next : MachineConfig → Prog) : Prog :=
  .call (.definition h) fun
    | none => refuse (.update (.libvirt "read domain xml"))
    | some c => next c

/-- The vCPU part. -/
def applyVcpus (n : Option ℤ) (next : Prog) : Prog :=
  match n with
  | none => next
  | some n => change h (fun c => { c with vcpus := n }) "set vcpus" next

/-- The memory part. -/
def applyMemory (n : Option ℤ) (next : Prog) : Prog :=
  match n with
  | none => next
  | some n => change h (fun c => { c with memory := n }) "set memory" next

/-- `setNICNetwork` -/
def setNICNetwork (network : String) (next : Prog) : Prog :=
  readConfig h fun c =>
    if c.nics.isEmpty then
      refuse (.update (.invalidState "virtual machine has no network interface"))
    else change h (fun c => { c with nics := MachineConfig.moveFirst network c.nics })
      "update interface" next

/-- The network part. -/
def applyNetwork (network : Option String) (next : Prog) : Prog :=
  match network with
  | none => next
  | some network =>
    if state ≠ .shutoff then
      refuse (.update (.invalidState "network changes require the virtual machine to be stopped"))
    else .call (.other (.lookupNetwork network)) fun
      | false => refuse (.update .networkNotFound)
      | true => setNICNetwork h network next

/-- `setOSBootOrder` -/
def setOSBootOrder (cdromFirst : Bool) (next : Prog) : Prog :=
  readConfig h fun c =>
    if c.hasOSBootOrder && !c.osAttrs then
      .call (.define h.name { c with osBoot := c.rewrittenBoot cdromFirst }) fun
        | none => refuse (.update (.libvirt "update boot order"))
        | some _ => next
    else next

/-- The closure `detach` of `setCDROM`; its error is ignored. -/
def detachCDROM (dev : String) (next : Prog) : Prog :=
  if dev = "" then next else .call (.modify h fun c => c.detach dev) fun _ => next

/-- The end of `setCDROM`, once the old CD-ROM is gone. -/
def attachCDROM (isoPath : String) (next : Prog) : Prog :=
  readConfig h fun c => match c.nextCDROMTarget with
    | none => refuse (.update (.libvirt "no free target device name for a cdrom"))
    | some (dev, bus) => readConfig h fun c' =>
      change h (fun c => c.attach (MachineConfig.cdromXML dev bus isoPath (!c'.hasOSBootOrder)))
        "attach cdrom" (setOSBootOrder h true next)

/-- `setCDROM` -/
def setCDROM (isoPath : String) (next : Prog) : Prog :=
  readConfig h fun c => detachCDROM h c.currentCDROM.1 <|
    if isoPath = "" then setOSBootOrder h false next else attachCDROM h isoPath next

/-- The ISO part. -/
def applyISO (isoDir : String) (isoID : Option String) (next : Prog) : Prog :=
  match isoID with
  | none => next
  | some isoID =>
    if isoID = "" then setCDROM h "" next
    else if !isoValidID isoID then refuse (.update (.invalid "invalid ISO filename"))
    else .call (.other (.stat (isoPath isoDir isoID))) fun
      | false => refuse (.update .isoNotFound)
      | true => setCDROM h (isoPath isoDir isoID) next

/-- `UpdateVirtualMachine`, with the state that it has read; that is none when no field needs it. -/
def applyUpdate (isoDir id : String) (req : VMUpdate) : Prog :=
  if (req.vcpus.isSome || req.memoryBytes.isSome) && state ≠ .shutoff then
    refuse (.update (.invalidState
      "vCPU and memory changes require the virtual machine to be stopped"))
  else applyVcpus h req.vcpus <| applyMemory h req.memoryBytes <|
    applyNetwork h state req.networkId <| applyISO h isoDir req.isoId <| getVirtualMachine id

end Update

/-- `UpdateVirtualMachine` -/
def updateVirtualMachine (isoDir id : String) (req : VMUpdate) : Prog :=
  .call (.lookup id) fun
    | none => refuse .vmNotFound
    | some h =>
      if req.any then .call (.status h) fun
        | none => refuse (.update (.libvirt "read domain state"))
        | some live => applyUpdate h (stateOf live) isoDir id req
      else applyUpdate h .nostate isoDir id req

/-! ## Deletion -/

/-- The loop over the files of the disks. -/
def deleteVolumes : List String → Prog
  | [] => .ret (.ok none)
  | path :: paths => .call (.other (.lookupVolume path)) fun
    | false => deleteVolumes paths
    | true => .call (.other (.deleteVolume path)) fun
      | false => refuse (.deletion (.deleteVolume path))
      | true => deleteVolumes paths

/-- `UndefineFlags`, or else `Undefine`, and the volumes then. -/
def undefineDomain (h : Daemon.Handle String) (paths : List String) : Prog :=
  .call (.undefine h) fun
    | true => deleteVolumes paths
    | false => .call (.undefine h) fun
      | true => deleteVolumes paths
      | false => refuse (.deletion .undefineDomain)

/-- The end of `DeleteVirtualMachine`, in a state that it accepts. -/
def removeDomain (h : Daemon.Handle String) (deleteDisks : Bool) : Prog :=
  if deleteDisks then .call (.describe h) fun
    | none => refuse (.deletion (.libvirt "get xml desc"))
    | some c => undefineDomain h (diskPaths c)
  else undefineDomain h []

/-- `DeleteVirtualMachine` -/
def deleteVirtualMachine (id : String) (deleteDisks : Bool) : Prog :=
  .call (.lookup id) fun
    | none => refuse (.deletion .vmNotFound)
    | some h => .call (.status h) fun
      | none => refuse (.deletion (.libvirt "get state"))
      | some live =>
        if !(stateOf live).deletable then refuse (.deletion .invalidVMState)
        else removeDomain h deleteDisks

/-! ## Requests -/

/-- A request. -/
inductive Request where
  | create (host : Host) (req : VirtualMachineCreate)
  | get (id : String)
  | update (isoDir id : String) (req : VMUpdate)
  | delete (id : String) (deleteDisks : Bool)
  | start (id : String)
  | shutdown (id : String)
  | reboot (id : String)
  | forceStop (id : String)

/-- What stands around a handler with an identifier. -/
def guarded (id : String) (p : Prog) : Prog :=
  requireValidVMID id (fun text => refuse (.validation text)) p

/-- What the handlers do with it. -/
def Request.prog (reads : Reader) : Request → Prog
  | create host req =>
    if req.validate = "" then createVirtualMachine reads host req
    else refuse (.validation req.validate)
  | get id => guarded id (getVirtualMachine id)
  | update isoDir id req => guarded id <|
    if validateUpdateVM req = "" then updateVirtualMachine isoDir id req
    else refuse (.validation (validateUpdateVM req))
  | delete id deleteDisks => guarded id (deleteVirtualMachine id deleteDisks)
  | start id => guarded id (startVirtualMachine id)
  | shutdown id => guarded id (shutdownVirtualMachine id)
  | reboot id => guarded id (rebootVirtualMachine id)
  | forceStop id => guarded id (forceStopVirtualMachine id)

/-- What happens: a request, the next call of one of them, or a guest that changes its state or
stops. -/
inductive Event where
  | request (r : Request)
  | act (i : ℕ) (fails : Bool)
  | guest (id : String) (state : Option DomainState)

/-- The steps of the daemon and its programs. -/
def Event.toDaemon (reads : Reader) : Event →
    Daemon.Event String MachineConfig DomainState Act (Except Failure (Option Report))
  | request r => .begin (r.prog reads)
  | act i fails => .act i fails
  | guest id state => .evolve id state

/-- libvirt and the requests at work. -/
abbrev System := Daemon.System String MachineConfig DomainState Act (Except Failure (Option Report))

/-- One step. -/
def step (reads : Reader) (s : System) (e : Event) : Option System := s.step kind (e.toDaemon reads)

end Machines

end Ultrav
