import Ultrav.CreateMachine
import Ultrav.Machine
import Ultrav.UpdateMachine

/-!
# Power states of the mock provider

The simulated machines live in memory. A graceful shutdown leaves a goroutine behind that sleeps for
a while and then powers the machine off, whatever has become of it.

* `Provider` — the machines, the names that they are registered under, and the goroutines.
* `Call.perform` — the calls; `Event` — a call, or a goroutine that wakes up.
* `Effect` — **what a step can do**.
* `VM.Coupled` — state, boot time and IP address fit together.
* `powerStates` — they do in every state that is reached, and a refused call changes nothing.
-/

namespace Ultrav.Fleet

/-! ## The provider -/

/-- `types.VMState` -/
inductive VMState where
  | error
  | paused
  | running
  | shuttingDown
  | starting
  | stopped
  deriving DecidableEq, Repr

/-- The text of a state. -/
def VMState.text : VMState → String
  | error => "error"
  | paused => "paused"
  | running => "running"
  | shuttingDown => "shutting-down"
  | starting => "starting"
  | stopped => "stopped"

/-- `vmSpec`, without the operating system and the disk. -/
structure VMSpec where
  id : String
  vcpus : ℤ
  memory : ℤ
  ip : String
  mac : String
  deriving DecidableEq, Repr

/-- `vmState`, without what only describes the machine. -/
structure VM where
  spec : VMSpec
  state : VMState
  /-- none: the zero time -/
  bootTime : Option ℤ
  ipAddress : String
  iso : String
  network : String
  deriving DecidableEq, Repr

/-- The goroutine of a shutdown, with the machine that it holds. -/
structure Sleeper where
  vm : ℕ
  asleep : Bool
  deriving DecidableEq, Repr

/-- `Provider`; a pointer to a machine is its place in the heap. -/
structure Provider where
  heap : List VM
  vms : List (String × ℕ)
  /-- in the order in which they were started -/
  sleepers : List Sleeper
  deriving DecidableEq, Repr

/-- The errors of the calls. -/
inductive FleetError where
  | vmNotFound
  | vmAlreadyExists
  | invalidVMState (message : String)
  | networkNotFound
  deriving DecidableEq, Repr

/-! ### The fleet -/

def gigabyte : ℤ := 1024 * 1024 * 1024

/-- `specs` -/
def specs : List VMSpec :=
  [ ⟨"erp01", 4, 8 * gigabyte, "10.0.0.11", "52:54:00:00:00:11"⟩,
    ⟨"web01", 2, 4 * gigabyte, "10.0.0.12", "52:54:00:00:00:12"⟩,
    ⟨"database01", 8, 32 * gigabyte, "10.0.0.13", "52:54:00:00:00:13"⟩,
    ⟨"monitoring01", 2, 4 * gigabyte, "10.0.0.14", "52:54:00:00:00:14"⟩ ]

/-- `boots`, in hours. -/
def boots : List (String × ℤ) :=
  [("erp01", 96), ("web01", 240), ("database01", 720), ("monitoring01", 0)]

/-- An hour, in nanoseconds. -/
def hour : ℤ := 3600000000000

/-- A machine of the fleet. -/
def seed (now : ℤ) (s : VMSpec) : VM :=
  match boots.lookup s.id with
  | some d => if d > 0 then ⟨s, .running, some (now - d * hour), s.ip, "", ""⟩
    else ⟨s, .stopped, none, "", "", ""⟩
  | none => ⟨s, .stopped, none, "", "", ""⟩

/-- `New` -/
def new (now : ℤ) : Provider where
  heap := specs.map (seed now)
  vms := [("erp01", 0), ("web01", 1), ("database01", 2), ("monitoring01", 3)]
  sleepers := []

/-! ### Reading and writing -/

namespace Provider

variable (p : Provider)

/-- A machine by its name. -/
def find (id : String) : Option (ℕ × VM) :=
  (p.vms.lookup id).bind fun r => (p.heap[r]?).map fun vm => (r, vm)

/-- A call of a machine, which has to be there. -/
def locked (id : String) (k : ℕ → VM → Except FleetError Unit × Provider) :
    Except FleetError Unit × Provider :=
  match p.find id with
  | none => (.error .vmNotFound, p)
  | some (r, vm) => k r vm

def put (r : ℕ) (vm : VM) : Provider := { p with heap := p.heap.set r vm }

/-- A new machine under a new name. -/
def register (id : String) (vm : VM) : Provider :=
  { p with heap := p.heap ++ [vm], vms := p.vms ++ [(id, p.heap.length)] }

def unregister (id : String) : Provider := { p with vms := p.vms.filter (·.1 ≠ id) }

/-- One more goroutine. -/
def spawn (r : ℕ) : Provider := { p with sleepers := p.sleepers ++ [⟨r, true⟩] }

/-- A goroutine ends. -/
def awake (i r : ℕ) : Provider := { p with sleepers := p.sleepers.set i ⟨r, false⟩ }

end Provider

/-- `powerOffLocked` -/
def VM.powerOff (vm : VM) : VM := { vm with state := .stopped, bootTime := none, ipAddress := "" }

/-! ## Calls -/

/-- `%02x` -/
def hex2 (n : ℕ) : String :=
  .ofList (List.replicate (2 - (Nat.toDigits 16 n).length) '0' ++ Nat.toDigits 16 n)

/-- The MAC address for the size of a fleet. -/
def macOf (n : ℕ) : String := "52:54:00:00:" ++ hex2 (n / 256) ++ ":" ++ hex2 (n % 256)

/-- The IP address for the size of a fleet. -/
def ipOf (n : ℕ) : String := "10.0.0." ++ toString (20 + n)

/-- The machine of a request, in a fleet that has this size with it. -/
def created (n : ℕ) (now : ℤ) (req : VirtualMachineCreate) : VM :=
  let st : VM :=
    ⟨⟨req.name, req.vcpus, req.memoryBytes, ipOf n, macOf n⟩, .stopped, none, "", "", ""⟩
  if req.start = some true then
    { st with state := .running, bootTime := some now, ipAddress := ipOf n }
  else st

/-- What an update changes before it looks at the network. -/
def VM.resize (vm : VM) (req : VMUpdate) : VM :=
  { vm with
    spec := { vm.spec with
      vcpus := req.vcpus.getD vm.spec.vcpus
      memory := req.memoryBytes.getD vm.spec.memory }
    iso := req.isoId.getD vm.iso }

/-- The calls, with the clock and with the networks that there are. -/
inductive Call where
  | create (now : ℤ) (req : VirtualMachineCreate)
  | start (now : ℤ) (id : String)
  | shutdown (id : String)
  | reboot (now : ℤ) (id : String)
  | forceStop (id : String)
  | delete (id : String) (deleteDisks : Bool)
  | update (networks : List String) (id : String) (req : VMUpdate)

/-- The calls that start, stop or delete a machine. -/
def Call.isPower : Call → Bool
  | start _ _ | shutdown _ | reboot _ _ | forceStop _ | delete _ _ => true
  | create _ _ | update _ _ _ => false

/-- `CreateVirtualMachine`, `StartVirtualMachine` and so on. -/
def Call.perform (p : Provider) : Call → Except FleetError Unit × Provider
  | create now req =>
    if (p.vms.lookup req.name).isSome then (.error .vmAlreadyExists, p)
    else (.ok (), p.register req.name (created (p.vms.length + 1) now req))
  | start now id => p.locked id fun r vm =>
    match vm.state with
    | .running | .starting | .shuttingDown =>
      (.error (.invalidVMState ("cannot start " ++ vm.state.text ++ " VM")), p)
    | .paused => (.ok (), p.put r { vm with state := .running })
    | _ =>
      (.ok (), p.put r
        { vm with state := .running, bootTime := some now, ipAddress := vm.spec.ip })
  | shutdown id => p.locked id fun r vm =>
    if vm.state ≠ .running then
      (.error (.invalidVMState ("cannot shutdown " ++ vm.state.text ++ " VM")), p)
    else (.ok (), (p.put r { vm with state := .shuttingDown }).spawn r)
  | reboot now id => p.locked id fun r vm =>
    if vm.state ≠ .running then
      (.error (.invalidVMState ("cannot reboot " ++ vm.state.text ++ " VM")), p)
    else (.ok (), p.put r { vm with bootTime := some now })
  | forceStop id => p.locked id fun r vm =>
    if vm.state = .stopped then (.error (.invalidVMState "VM is already stopped"), p)
    else (.ok (), p.put r vm.powerOff)
  | delete id _ => p.locked id fun _ vm =>
    if vm.state ≠ .stopped then
      (.error (.invalidVMState "cannot delete a virtual machine that is not stopped"), p)
    else (.ok (), p.unregister id)
  | update networks id req => p.locked id fun r vm =>
    if req.needsStop && vm.state ≠ .stopped then
      (.error (.invalidVMState
        "vCPU, memory and network changes require the virtual machine to be stopped"), p)
    else
      match req.networkId with
      | none => (.ok (), p.put r (vm.resize req))
      | some n =>
        if n ∈ networks then (.ok (), p.put r { vm.resize req with network := n })
        else (.error .networkNotFound, p.put r (vm.resize req))

/-- The end of a goroutine's sleep. -/
def wake (p : Provider) (i : ℕ) : Option Provider :=
  match p.sleepers[i]? with
  | some ⟨r, true⟩ =>
    let p := p.awake i r
    match p.heap[r]? with
    | some vm => if vm.state = .shuttingDown then some (p.put r vm.powerOff) else some p
    | none => some p
  | _ => none

/-- A step: a call as a whole, under the lock, or the end of a sleep. -/
inductive Event where
  | call (c : Call)
  | wake (i : ℕ)

def step (p : Provider) : Event → Option Provider
  | .call c => some (c.perform p).2
  | .wake i => wake p i

/-! ## What a step can do -/

/-- What a call does to a machine that stays where it is. -/
inductive Move (vm : VM) : VM → Prop
  | poweredOn (now : ℤ) (h : vm.state ∉ ([.running, .starting, .shuttingDown] : List VMState)) :
      Move vm { vm with state := .running, bootTime := some now, ipAddress := vm.spec.ip }
  | resumed (h : vm.state = .paused) : Move vm { vm with state := .running }
  | rebooted (now : ℤ) (h : vm.state = .running) : Move vm { vm with bootTime := some now }
  | poweredOff : Move vm vm.powerOff
  | updated (req : VMUpdate) (network : String) :
      Move vm { vm.resize req with network := network }

/-- What a step does to the provider. -/
inductive Effect (p : Provider) (e : Event) : Provider → Prop
  | same : Effect p e p
  | created {now : ℤ} {req : VirtualMachineCreate} (he : e = .call (.create now req))
      (fresh : p.vms.lookup req.name = none) :
      Effect p e (p.register req.name (created (p.vms.length + 1) now req))
  | moved {r : ℕ} {vm vm' : VM} (found : p.heap[r]? = some vm) (move : Move vm vm') :
      Effect p e (p.put r vm')
  | shutDown {id : String} {r : ℕ} {vm : VM} (he : e = .call (.shutdown id))
      (found : p.find id = some (r, vm)) (running : vm.state = .running) :
      Effect p e ((p.put r { vm with state := .shuttingDown }).spawn r)
  | deleted {id : String} {r : ℕ} {vm : VM} (found : p.find id = some (r, vm))
      (stopped : vm.state = .stopped) : Effect p e (p.unregister id)
  | woke {i r : ℕ} (he : e = .wake i) (asleep : p.sleepers[i]? = some ⟨r, true⟩) :
      Effect p e (p.awake i r)
  | wokeAndStopped {i r : ℕ} {vm : VM} (he : e = .wake i)
      (asleep : p.sleepers[i]? = some ⟨r, true⟩) (found : p.heap[r]? = some vm)
      (down : vm.state = .shuttingDown) : Effect p e ((p.awake i r).put r vm.powerOff)

variable {p p' : Provider}

theorem Provider.find_eq_some {id : String} {r : ℕ} {vm : VM} :
    p.find id = some (r, vm) ↔ p.vms.lookup id = some r ∧ p.heap[r]? = some vm := by
  rw [find]
  constructor
  · intro h
    obtain ⟨r', hr, h⟩ := Option.bind_eq_some_iff.mp h
    obtain ⟨vm', hvm, h⟩ := Option.map_eq_some_iff.mp h
    cases h
    exact ⟨hr, hvm⟩
  · rintro ⟨hr, hvm⟩
    rw [hr, Option.bind_some, hvm, Option.map_some]

/-- A call of a machine does nothing when the machine is not there. -/
theorem effect_locked {e : Event} {id : String} {k : ℕ → VM → Except FleetError Unit × Provider}
    (h : ∀ r vm, p.find id = some (r, vm) → Effect p e (k r vm).2) :
    Effect p e (p.locked id k).2 := by
  rw [Provider.locked]
  cases hfind : p.find id with
  | none => exact .same
  | some q => exact h q.1 q.2 hfind

/-- **Calls**. -/
theorem effect_perform (p : Provider) (c : Call) : Effect p (.call c) (c.perform p).2 := by
  cases c with
  | create now req =>
    rw [Call.perform]
    split
    · exact .same
    · rename_i h
      exact .created rfl (Option.not_isSome_iff_eq_none.mp h)
  | start now id =>
    refine effect_locked fun r vm hfind => ?_
    have hvm := (Provider.find_eq_some.mp hfind).2
    cases hs : vm.state with
    | running | starting | shuttingDown => exact .same
    | paused => exact .moved hvm (.resumed hs)
    | error | stopped => exact .moved hvm (.poweredOn now (by rw [hs]; decide))
  | shutdown id =>
    refine effect_locked fun r vm hfind => ?_
    split
    · exact .same
    · rename_i hs
      exact .shutDown rfl hfind (not_not.mp hs)
  | reboot now id =>
    refine effect_locked fun r vm hfind => ?_
    split
    · exact .same
    · rename_i hs
      exact .moved (Provider.find_eq_some.mp hfind).2 (.rebooted now (not_not.mp hs))
  | forceStop id =>
    refine effect_locked fun r vm hfind => ?_
    split
    · exact .same
    · exact .moved (Provider.find_eq_some.mp hfind).2 .poweredOff
  | delete id deleteDisks =>
    refine effect_locked fun r vm hfind => ?_
    split
    · exact .same
    · rename_i hs
      exact .deleted hfind (not_not.mp hs)
  | update networks id req =>
    refine effect_locked fun r vm hfind => ?_
    have hvm := (Provider.find_eq_some.mp hfind).2
    split
    · exact .same
    · cases req.networkId with
      | none => exact .moved hvm (.updated req vm.network)
      | some n =>
        simp only
        split
        · exact .moved hvm (.updated req n)
        · exact .moved hvm (.updated req vm.network)

/-- **Steps**. -/
theorem effect_step {e : Event} (h : step p e = some p') : Effect p e p' := by
  cases e with
  | call c =>
    obtain rfl := Option.some.inj h
    exact effect_perform p c
  | wake i =>
    rw [step, wake] at h
    split at h
    · rename_i r hs
      simp only at h
      cases hvm : (p.awake i r).heap[r]? with
      | none =>
        rw [hvm] at h
        obtain rfl := Option.some.inj h
        exact .woke rfl hs
      | some vm =>
        rw [hvm] at h
        simp only at h
        split at h
        · rename_i hdown
          obtain rfl := Option.some.inj h
          exact .wokeAndStopped rfl hs hvm hdown
        · obtain rfl := Option.some.inj h
          exact .woke rfl hs
    · cases h

/-! ## The invariant -/

/-- State, boot time and IP address fit together. -/
structure VM.Coupled (vm : VM) : Prop where
  state : vm.state ∈ ([.running, .shuttingDown, .stopped] : List VMState)
  bootTime : vm.bootTime.isSome = true ↔ vm.state ≠ .stopped
  ipAddress : vm.ipAddress ≠ "" ↔ vm.state ≠ .stopped

/-- A machine that is on has a boot time and an address. -/
theorem VM.Coupled.of_on {vm : VM} (hs : vm.state ∈ ([.running, .shuttingDown] : List VMState))
    (hb : vm.bootTime.isSome = true) (hip : vm.ipAddress ≠ "") : vm.Coupled := by
  have hne : vm.state ≠ .stopped := by
    rintro h
    rw [h] at hs
    exact absurd hs (by decide)
  refine ⟨?_, iff_of_true hb hne, iff_of_true hip hne⟩
  simp only [List.mem_cons, List.not_mem_nil, or_false] at hs ⊢
  exact hs.elim .inl fun h => .inr (.inl h)

theorem VM.coupled_powerOff (vm : VM) : vm.powerOff.Coupled :=
  ⟨by simp [powerOff], by simp [powerOff], by simp [powerOff]⟩

theorem VM.Coupled.on {vm : VM} (h : vm.Coupled) (hs : vm.state = .running) :
    vm.bootTime.isSome = true ∧ vm.ipAddress ≠ "" := by
  have hne : vm.state ≠ .stopped := by rw [hs]; decide
  exact ⟨h.bootTime.mpr hne, h.ipAddress.mpr hne⟩

/-- **Every call keeps a machine coupled.** -/
theorem Move.coupled {vm vm' : VM} (hmove : Move vm vm') (h : vm.Coupled)
    (hip : vm.spec.ip ≠ "") : vm'.Coupled ∧ vm'.spec.ip ≠ "" := by
  cases hmove with
  | poweredOn now hs => exact ⟨.of_on (by simp) rfl hip, hip⟩
  | resumed hs =>
    have hstate := h.state
    rw [hs] at hstate
    exact absurd hstate (by decide)
  | rebooted now hs =>
    have hon := h.on hs
    exact ⟨.of_on (by simp [hs]) rfl hon.2, hip⟩
  | poweredOff => exact ⟨vm.coupled_powerOff, hip⟩
  | updated req network => exact ⟨⟨h.state, h.bootTime, h.ipAddress⟩, hip⟩

/-- The machines are coupled, and the names stand for machines. -/
structure Provider.Sound (p : Provider) : Prop where
  coupled : ∀ vm ∈ p.heap, vm.Coupled ∧ vm.spec.ip ≠ ""
  registered : ∀ q ∈ p.vms, q.2 < p.heap.length

theorem ipOf_ne_empty (n : ℕ) : ipOf n ≠ "" := by
  intro h
  have hlen := congrArg String.length h
  rw [ipOf, String.length_append] at hlen
  exact absurd hlen (by have h7 : "10.0.0.".length = 7 := rfl; rw [h7]; simp)

theorem coupled_created (n : ℕ) (now : ℤ) (req : VirtualMachineCreate) :
    (created n now req).Coupled ∧ (created n now req).spec.ip ≠ "" := by
  rw [created]
  split
  · exact ⟨.of_on (by simp) rfl (ipOf_ne_empty n), ipOf_ne_empty n⟩
  · exact ⟨⟨by simp, by simp, by simp⟩, ipOf_ne_empty n⟩

theorem sound_put {r : ℕ} {vm : VM} (h : p.Sound) (hvm : vm.Coupled ∧ vm.spec.ip ≠ "") :
    (p.put r vm).Sound := by
  refine ⟨fun v hv => ?_, fun q hq => ?_⟩
  · rcases List.mem_or_eq_of_mem_set hv with hold | rfl
    · exact h.coupled v hold
    · exact hvm
  · rw [Provider.put, List.length_set]
    exact h.registered q hq

/-- **The invariant is kept** by every step. -/
theorem sound_step {e : Event} (h : p.Sound) (hstep : step p e = some p') : p'.Sound := by
  cases effect_step hstep with
  | same => exact h
  | @created now req he fresh =>
    refine ⟨fun v hv => ?_, fun q hq => ?_⟩
    · rcases List.mem_append.mp hv with hold | hnew
      · exact h.coupled v hold
      · rw [List.mem_singleton.mp hnew]
        exact coupled_created _ _ _
    · rw [Provider.register, List.length_append, List.length_singleton]
      rcases List.mem_append.mp hq with hold | hnew
      · exact Nat.lt_succ_of_lt (h.registered q hold)
      · rw [List.mem_singleton.mp hnew]
        exact Nat.lt_succ_self _
  | moved found move =>
    obtain ⟨hc, hip⟩ := h.coupled _ (List.mem_of_getElem? found)
    exact sound_put h (move.coupled hc hip)
  | @shutDown id r vm he found running =>
    obtain ⟨hc, hip⟩ := h.coupled _ (List.mem_of_getElem? (Provider.find_eq_some.mp found).2)
    have hon := hc.on running
    have hput : (p.put r { vm with state := .shuttingDown }).Sound :=
      sound_put h ⟨.of_on (by simp) hon.1 hon.2, hip⟩
    exact ⟨hput.coupled, hput.registered⟩
  | deleted found stopped =>
    exact ⟨h.coupled, fun q hq => h.registered q (List.mem_of_mem_filter hq)⟩
  | woke he asleep => exact ⟨h.coupled, h.registered⟩
  | @wokeAndStopped i r vm he asleep found down =>
    have hip := (h.coupled vm (List.mem_of_getElem? found)).2
    have hwoke : (p.awake i r).Sound := ⟨h.coupled, h.registered⟩
    exact sound_put hwoke ⟨vm.coupled_powerOff, hip⟩

theorem coupled_seed (now : ℤ) {spec : VMSpec} (hip : spec.ip ≠ "") :
    (seed now spec).Coupled ∧ (seed now spec).spec.ip ≠ "" := by
  have hoff : (⟨spec, .stopped, none, "", "", ""⟩ : VM).Coupled := ⟨by simp, by simp, by simp⟩
  rw [seed]
  cases boots.lookup spec.id with
  | none => exact ⟨hoff, hip⟩
  | some d =>
    simp only
    split
    · exact ⟨.of_on (by simp) rfl hip, hip⟩
    · exact ⟨hoff, hip⟩

theorem sound_new (now : ℤ) : (new now).Sound := by
  refine ⟨fun vm hvm => ?_, fun q hq => ?_⟩
  · obtain ⟨spec, hspec, rfl⟩ := List.mem_map.mp hvm
    refine coupled_seed now ?_
    simp only [specs, List.mem_cons, List.not_mem_nil, or_false] at hspec
    obtain rfl | rfl | rfl | rfl := hspec <;> decide
  · rw [new, List.length_map]
    simp only [new, List.mem_cons, List.not_mem_nil, or_false] at hq
    obtain rfl | rfl | rfl | rfl := hq <;> decide

/-! ## Refused calls -/

/-- A call that fails leaves the provider as it was, and says that the machine is not there or in
the wrong state. -/
def Refuses (p : Provider) (q : Except FleetError Unit × Provider) : Prop :=
  ∀ err, q.1 = .error err →
    (err = .vmNotFound ∨ ∃ message, err = .invalidVMState message) ∧ q.2 = p

theorem refuses_ok (p' : Provider) : Refuses p (.ok (), p') := fun _ h => nomatch h

theorem refuses_state (message : String) : Refuses p (.error (.invalidVMState message), p) := by
  intro err h
  cases h
  exact ⟨.inr ⟨message, rfl⟩, rfl⟩

theorem refuses_locked {id : String} {k : ℕ → VM → Except FleetError Unit × Provider}
    (h : ∀ r vm, Refuses p (k r vm)) : Refuses p (p.locked id k) := by
  rw [Provider.locked]
  cases p.find id with
  | none =>
    intro err herr
    cases herr
    exact ⟨.inl rfl, rfl⟩
  | some q => exact h q.1 q.2

/-- **A power or delete call that is refused** changes nothing. -/
theorem refuses_perform (p : Provider) {c : Call} (hc : c.isPower = true) :
    Refuses p (c.perform p) := by
  cases c with
  | create now req => cases hc
  | update networks id req => cases hc
  | start now id =>
    refine refuses_locked fun r vm => ?_
    split
    · exact refuses_state _
    · exact refuses_state _
    · exact refuses_state _
    · exact refuses_ok _
    · exact refuses_ok _
  | shutdown id =>
    refine refuses_locked fun r vm => ?_
    split
    · exact refuses_state _
    · exact refuses_ok _
  | reboot now id =>
    refine refuses_locked fun r vm => ?_
    split
    · exact refuses_state _
    · exact refuses_ok _
  | forceStop id =>
    refine refuses_locked fun r vm => ?_
    split
    · exact refuses_state _
    · exact refuses_ok _
  | delete id deleteDisks =>
    refine refuses_locked fun r vm => ?_
    split
    · exact refuses_state _
    · exact refuses_ok _

/-! ## Every state -/

/-- **Power states**: in every state that is reached, each registered machine is running, shutting
down or stopped, and has a boot time and an address exactly when it is not stopped; and a power or
delete call that is refused leaves the state as it is. -/
theorem powerStates (now : ℤ) (es : List Event) (p : Provider)
    (h : Machine.run step (new now) es = some p) :
    (∀ q ∈ p.vms, ∃ vm, p.heap[q.2]? = some vm ∧ vm.Coupled) ∧
      ∀ c : Call, c.isPower = true → Refuses p (c.perform p) := by
  have hsound : p.Sound := Machine.run_inv (fun _ _ _ hs _ hstep => sound_step hs hstep)
    (sound_new now) (.unguarded _ _) h
  refine ⟨fun q hq => ?_, fun c hc => refuses_perform p hc⟩
  have hlt := hsound.registered q hq
  exact ⟨p.heap[q.2], List.getElem?_eq_getElem hlt, (hsound.coupled _ (List.getElem_mem hlt)).1⟩

/-- A shutdown, a machine that is deleted while its goroutine sleeps, and the end of the sleep. -/
def deletedMeanwhile : List Event :=
  [.call (.shutdown "web01"), .call (.forceStop "web01"), .call (.delete "web01" true), .wake 0]

theorem powerStates_deletedMeanwhile :
    ∃ p, Machine.run step (new 0) deletedMeanwhile = some p ∧
      (∀ q ∈ p.vms, ∃ vm, p.heap[q.2]? = some vm ∧ vm.Coupled) ∧
        ∀ c : Call, c.isPower = true → Refuses p (c.perform p) :=
  ⟨_, rfl, powerStates 0 deletedMeanwhile _ rfl⟩

end Ultrav.Fleet
