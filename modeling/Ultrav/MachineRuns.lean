import Ultrav.DaemonRuns
import Ultrav.DomainStructure
import Ultrav.MachineRequests

/-!
# Machines over time

Requests for machines run side by side, while guests change their state or stop.

* `Machines.care` / `Machines.rules` — what the requests keep to: a machine is undefined, and the
  volumes of its disks are deleted, once it is seen not running.
* `Machines.Request.keeps` — every request does.
* `Machines.running_stays` — a machine that runs goes on running.
* `Machines.disks_stay` — it is defined, and its disks are not deleted, when no guest is crashed or
  about to shut down and no start slips in; `deletes_live_disk` is what happens else.
-/

namespace Ultrav

open Xml

namespace Machines

/-! ## What the requests keep to -/

/-- A machine that runs is defined; it does not run when it is undefined or its volumes are
deleted. -/
def care (owner : String → String) : Daemon.Care String MachineConfig Act where
  agrees _ defined := defined.isSome = true
  self _ := rfl
  needs id
    | .undefine h => h.name = id
    | .other (.deleteVolume path) => owner path = id
    | _ => False

/-- What the requests keep to, when only the machines of `stops` are stopped. It is about removals
when each disk has an owner, and what is live is in no state in which it can be deleted. -/
def rules (owned : Prop) (owner : String → String) (stops : String → Prop) :
    Daemon.Rules String MachineConfig DomainState Act where
  may held c := (owned → Daemon.Careful kind (care owner) held c) ∧
    (owned → ∀ path, c = .other (.deleteVolume path) → held = some (owner path)) ∧
    ∀ h, c = .destroy h → stops h.name
  sound id c := owned → ∀ path ∈ diskPaths c, owner path = id
  relies
    | .status _, some (some state) => owned → state.deletable = false
    | _, _ => True

/-- A call that neither stops nor removes anything. -/
def Harmless : Daemon.Call String MachineConfig Act → Prop
  | .destroy _ | .undefine _ => False
  | .other act => ∀ path, act ≠ .deleteVolume path
  | .lookup _ | .status _ | .describe _ | .definition _ | .define _ _ | .create _ | .modify _ _
  | .getAutostart _ | .setAutostart _ _ => True

/-- The name and the disks of a domain are those of the document it was made from. -/
def Faithful (reads : Reader) : Prop := ∀ spec caps doc profile root id c,
  buildDomainXML spec caps = .ok (doc, profile) → parse doc = some root →
    reads doc = some (id, c) →
      id ∈ root.textsAt ["name"] ∧ diskPaths c ⊆ SpecField.diskPath.read root

section Keeps

open Daemon.Prog

variable {owned : Prop} {owner : String → String} {stops : String → Prop} {reads : Reader}
  {host : Host} {req : VirtualMachineCreate} {name : String} {held : Option String} {next : Prog}
  {h : Daemon.Handle String}

theorem may_of_harmless {c : Daemon.Call String MachineConfig Act} (hc : Harmless c) :
    (rules owned owner stops).may held c := by
  cases c with
  | destroy | undefine => cases hc
  | define | modify =>
    refine ⟨fun _ => .inr fun _ => ?_, by rintro _ _ ⟨⟩, by rintro _ ⟨⟩⟩
    simp [care]
  | other act =>
    refine ⟨fun _ => trivial, ?_, by rintro _ ⟨⟩⟩
    rintro _ path ⟨⟩
    exact absurd rfl (hc path)
  | lookup | status | describe | definition | create | getAutostart | setAutostart =>
    exact ⟨fun _ => trivial, by rintro _ _ ⟨⟩, by rintro _ ⟨⟩⟩

/-! ### Reading and power -/

theorem getVirtualMachine_keeps :
    (getVirtualMachine name).Keeps (rules owned owner stops) held := by
  refine keeps_lookup (may_of_harmless trivial) trivial fun h c _ _ => ?_
  refine keeps_describe (may_of_harmless trivial) trivial fun c _ => ?_
  exact keeps_status (may_of_harmless trivial) trivial trivial fun _ _ => trivial

theorem askGuest_keeps {act : Act} {call : String} (hact : ∀ path, act ≠ .deleteVolume path) :
    (askGuest name act call).Keeps (rules owned owner stops) held :=
  keeps_other (may_of_harmless hact) trivial getVirtualMachine_keeps

theorem startVirtualMachine_keeps :
    (startVirtualMachine name).Keeps (rules owned owner stops) held := by
  refine keeps_lookup (may_of_harmless trivial) trivial fun h c _ _ => ?_
  refine keeps_status (may_of_harmless trivial) trivial ?_ fun state _ => ?_
  · exact keeps_create (may_of_harmless trivial) trivial getVirtualMachine_keeps
  cases state with
  | running | blocked => trivial
  | paused | pmsuspended => exact askGuest_keeps (by rintro _ ⟨⟩)
  | nostate | shutdown | shutoff | crashed =>
    exact keeps_create (may_of_harmless trivial) trivial getVirtualMachine_keeps

theorem shutdownVirtualMachine_keeps :
    (shutdownVirtualMachine name).Keeps (rules owned owner stops) held := by
  refine keeps_lookup (may_of_harmless trivial) trivial fun h c _ _ => ?_
  refine keeps_status (may_of_harmless trivial) trivial trivial fun state _ => ?_
  cases state with
  | running | blocked | paused => exact askGuest_keeps (by rintro _ ⟨⟩)
  | nostate | shutdown | shutoff | crashed | pmsuspended => trivial

theorem rebootVirtualMachine_keeps :
    (rebootVirtualMachine name).Keeps (rules owned owner stops) held := by
  refine keeps_lookup (may_of_harmless trivial) trivial fun h c _ _ => ?_
  refine keeps_status (may_of_harmless trivial) trivial trivial fun state _ => ?_
  cases state with
  | running | blocked => exact askGuest_keeps (by rintro _ ⟨⟩)
  | nostate | paused | shutdown | shutoff | crashed | pmsuspended => trivial

theorem forceStopVirtualMachine_keeps (hstops : stops name) :
    (forceStopVirtualMachine name).Keeps (rules owned owner stops) held := by
  refine keeps_lookup (may_of_harmless trivial) trivial fun h c hname _ => ?_
  have hmay : (rules owned owner stops).may held (.destroy h) := by
    refine ⟨fun _ => trivial, by rintro _ _ ⟨⟩, ?_⟩
    rintro _ ⟨⟩
    exact hname ▸ hstops
  refine keeps_status (may_of_harmless trivial) trivial trivial fun state _ => ?_
  cases state with
  | shutoff => trivial
  | nostate | running | blocked | paused | shutdown | crashed | pmsuspended =>
    exact keeps_destroy hmay trivial getVirtualMachine_keeps

/-! ### Creation -/

/-- What libvirt makes of a document that was built. -/
theorem reads_build (hreads : Faithful reads) {spec : DomainSpec} {caps : HostFeatures}
    {doc : String} {profile : AppliedProfile} {c : MachineConfig}
    (hdoc : buildDomainXML spec caps = .ok (doc, profile)) (hc : reads doc = some (name, c)) :
    name = legalText spec.name ∧ ∀ path ∈ diskPaths c, path = legalText spec.diskPath := by
  have hparse := parse_buildDomainXML hdoc
  obtain ⟨hname, hdisks⟩ := hreads _ _ _ _ _ _ _ hdoc hparse hc
  have hread : ∀ x : SpecField, ∀ y ∈ x.read ((domainXMLModel id (legalText ∘ spec.field)
      (spec.shape profile)).indented 0), y = legalText (spec.field x) := by
    intro x y hy
    rw [SpecField.read_root] at hy
    simpa using (mem_present.mp hy).2
  exact ⟨hread .name _ hname, fun path hpath => hread .diskPath _ (hdisks hpath)⟩

/-- The new volume is that of the machine, at a path that a document can hold. -/
structure Host.Owns (owner : String → String) (host : Host) (name : String) : Prop where
  owner : owner host.volPath = name
  legal : legalText host.volPath = host.volPath

theorem checkISO_keeps {isoID message : String}
    (hnext : next.Keeps (rules owned owner stops) held) :
    (checkISO host isoID message next).Keeps (rules owned owner stops) held := by
  rw [checkISO]
  split
  · exact hnext
  split
  · trivial
  exact keeps_other (may_of_harmless (by rintro _ ⟨⟩)) trivial hnext

theorem takeBack_keeps {e : CreateVMError} (hown : owned → host.Owns owner req.name) :
    (takeBack host e).Keeps (rules owned owner stops) (some req.name) := by
  refine keeps_other ⟨fun _ => trivial, ?_, by rintro _ ⟨⟩⟩ trivial trivial
  rintro howned _ ⟨⟩
  rw [(hown howned).owner]

theorem startCreated_keeps : (startCreated req h).Keeps (rules owned owner stops) held := by
  rw [startCreated]
  split
  · exact keeps_create (may_of_harmless trivial) trivial getVirtualMachine_keeps
  · exact getVirtualMachine_keeps

theorem defineDomain_keeps (hreads : owned → Faithful reads)
    (hown : owned → host.Owns owner req.name)
    (hlegal : legalText req.name = req.name) :
    (defineDomain reads host req).Keeps (rules owned owner stops) (some req.name) := by
  rw [defineDomain]
  cases hdoc : buildDomainXML (host.spec req) host.caps with
  | error e => exact takeBack_keeps hown
  | ok built =>
    obtain ⟨doc, profile⟩ := built
    cases hread : reads doc with
    | none =>
      simp only [hread]
      exact takeBack_keeps hown
    | some read =>
      obtain ⟨name', c⟩ := read
      simp only [hread]
      refine keeps_define (may_of_harmless trivial) (fun howned path hpath => ?_)
        (takeBack_keeps hown) fun h _ => startCreated_keeps
      obtain ⟨rfl, hdisks⟩ := reads_build (hreads howned) hdoc hread
      have hpath := (hdisks path hpath).trans (hown howned).legal
      exact (congrArg owner hpath).trans ((hown howned).owner.trans hlegal.symm)

theorem createVirtualMachine_keeps (hreads : owned → Faithful reads)
    (hown : owned → host.Owns owner req.name)
    (hlegal : legalText req.name = req.name) :
    (createVirtualMachine reads host req).Keeps (rules owned owner stops) held := by
  have hact : ∀ {act : Act}, (∀ path, act ≠ .deleteVolume path) →
      (rules owned owner stops).may (some req.name) (.other act) := fun hact => may_of_harmless hact
  refine keeps_lookup (may_of_harmless trivial) ?_ fun _ _ _ _ => trivial
  refine keeps_other (hact (by rintro _ ⟨⟩)) trivial ?_
  refine keeps_other (hact (by rintro _ ⟨⟩)) ?_ trivial
  refine keeps_other (hact (by rintro _ ⟨⟩)) trivial ?_
  refine keeps_other (hact (by rintro _ ⟨⟩)) trivial ?_
  refine keeps_other (hact (by rintro _ ⟨⟩)) trivial ?_
  exact checkISO_keeps (checkISO_keeps (defineDomain_keeps hreads hown hlegal))

/-! ### Updates -/

/-- The disks stay those of the machine when there are no other files. -/
theorem sound_of_subset {c c' : MachineConfig} (hsub : diskPaths c' ⊆ diskPaths c)
    (hsound : (rules owned owner stops).sound name c) : (rules owned owner stops).sound name c' :=
  fun howned path hpath => hsound howned path (hsub hpath)

theorem diskPaths_detach (c : MachineConfig) (dev : String) :
    diskPaths (c.detach dev) ⊆ diskPaths c := by
  intro path hpath
  obtain ⟨d, hd, rfl⟩ := List.mem_map.mp hpath
  obtain ⟨hmem, hdisk⟩ := List.mem_filter.mp hd
  exact List.mem_map_of_mem (List.mem_filter.mpr ⟨List.mem_of_mem_eraseP hmem, hdisk⟩)

/-- Media are no disks. -/
theorem diskPaths_attach (c : MachineConfig) (dev bus isoPath : String) (withBoot : Bool) :
    diskPaths (c.attach (MachineConfig.cdromXML dev bus isoPath withBoot)) = diskPaths c := by
  simp [diskPaths, MachineConfig.attach, MachineConfig.cdromXML]

theorem change_keeps {f : MachineConfig → MachineConfig} {call : String}
    (hf : ∀ c, diskPaths (f c) ⊆ diskPaths c) (hnext : next.Keeps (rules owned owner stops) held) :
    (change h f call next).Keeps (rules owned owner stops) held :=
  keeps_modify (may_of_harmless trivial) (fun c => sound_of_subset (hf c)) trivial hnext

theorem readConfig_keeps {next : MachineConfig → Prog}
    (hnext : ∀ c, (rules owned owner stops).sound h.name c →
      (next c).Keeps (rules owned owner stops) held) :
    (readConfig h next).Keeps (rules owned owner stops) held :=
  keeps_definition (may_of_harmless trivial) trivial hnext

theorem applyVcpus_keeps {n : Option ℤ} (hnext : next.Keeps (rules owned owner stops) held) :
    (applyVcpus h n next).Keeps (rules owned owner stops) held := by
  cases n with
  | none => exact hnext
  | some n => exact change_keeps (fun _ => List.Subset.refl _) hnext

theorem applyMemory_keeps {n : Option ℤ} (hnext : next.Keeps (rules owned owner stops) held) :
    (applyMemory h n next).Keeps (rules owned owner stops) held := by
  cases n with
  | none => exact hnext
  | some n => exact change_keeps (fun _ => List.Subset.refl _) hnext

theorem applyNetwork_keeps {state : DomainState} {network : Option String}
    (hnext : next.Keeps (rules owned owner stops) held) :
    (applyNetwork h state network next).Keeps (rules owned owner stops) held := by
  cases network with
  | none => exact hnext
  | some network =>
    rw [applyNetwork]
    split
    · trivial
    refine keeps_other (may_of_harmless (by rintro _ ⟨⟩)) trivial ?_
    refine readConfig_keeps fun c _ => ?_
    split
    · trivial
    · exact change_keeps (fun _ => List.Subset.refl _) hnext

theorem setOSBootOrder_keeps {cdromFirst : Bool}
    (hnext : next.Keeps (rules owned owner stops) held) :
    (setOSBootOrder h cdromFirst next).Keeps (rules owned owner stops) held := by
  refine readConfig_keeps fun c hsound => ?_
  split
  · exact keeps_define (may_of_harmless trivial) hsound trivial fun _ _ => hnext
  · exact hnext

theorem setCDROM_keeps {isoPath : String} (hnext : next.Keeps (rules owned owner stops) held) :
    (setCDROM h isoPath next).Keeps (rules owned owner stops) held := by
  refine readConfig_keeps fun c _ => ?_
  have hrest : (if isoPath = "" then setOSBootOrder h false next
      else attachCDROM h isoPath next).Keeps (rules owned owner stops) held := by
    split
    · exact setOSBootOrder_keeps hnext
    refine readConfig_keeps fun c _ => ?_
    split
    · trivial
    refine readConfig_keeps fun c' _ => ?_
    refine change_keeps (fun c => ?_) (setOSBootOrder_keeps hnext)
    rw [diskPaths_attach]
    exact List.Subset.refl _
  rw [detachCDROM]
  split
  · exact hrest
  · exact keeps_modify (may_of_harmless trivial)
      (fun c => sound_of_subset (diskPaths_detach c _)) hrest hrest

theorem applyISO_keeps {isoDir : String} {isoID : Option String}
    (hnext : next.Keeps (rules owned owner stops) held) :
    (applyISO h isoDir isoID next).Keeps (rules owned owner stops) held := by
  cases isoID with
  | none => exact hnext
  | some isoID =>
    rw [applyISO]
    split
    · exact setCDROM_keeps hnext
    split
    · trivial
    · exact keeps_other (may_of_harmless (by rintro _ ⟨⟩)) trivial (setCDROM_keeps hnext)

theorem applyUpdate_keeps {state : DomainState} {isoDir : String} {update : VMUpdate} :
    (applyUpdate h state isoDir name update).Keeps (rules owned owner stops) held := by
  rw [applyUpdate]
  split
  · trivial
  · exact applyVcpus_keeps (applyMemory_keeps (applyNetwork_keeps
      (applyISO_keeps getVirtualMachine_keeps)))

theorem updateVirtualMachine_keeps {isoDir : String} {update : VMUpdate} :
    (updateVirtualMachine isoDir name update).Keeps (rules owned owner stops) held := by
  refine keeps_lookup (may_of_harmless trivial) trivial fun h c _ _ => ?_
  by_cases hany : update.any = true
  · simp only [hany, if_true]
    exact keeps_status (may_of_harmless trivial) trivial applyUpdate_keeps
      fun _ _ => applyUpdate_keeps
  · simp only [hany]
    exact applyUpdate_keeps

/-! ### Deletion -/

/-- The machine is seen not running, and the files are its own. -/
theorem deleteVolumes_keeps {paths : List String} (hheld : owned → held = some name)
    (hown : owned → ∀ path ∈ paths, owner path = name) :
    (deleteVolumes paths).Keeps (rules owned owner stops) held := by
  induction paths with
  | nil => trivial
  | cons path paths ih =>
    have hrest := ih fun howned path hpath => hown howned path (List.mem_cons_of_mem _ hpath)
    refine keeps_other (may_of_harmless (by rintro _ ⟨⟩)) hrest ?_
    refine keeps_other ⟨fun _ => trivial, ?_, by rintro _ ⟨⟩⟩ trivial hrest
    rintro howned _ ⟨⟩
    rw [hheld howned, hown howned path List.mem_cons_self]

theorem undefineDomain_keeps {paths : List String} (hheld : owned → held = some h.name)
    (hown : owned → ∀ path ∈ paths, owner path = h.name) :
    (undefineDomain h paths).Keeps (rules owned owner stops) held := by
  have hmay : (rules owned owner stops).may held (.undefine h) :=
    ⟨fun howned _ => .inl ⟨hheld howned, rfl⟩, by rintro _ _ ⟨⟩, by rintro _ ⟨⟩⟩
  exact keeps_undefine hmay (keeps_undefine hmay trivial (deleteVolumes_keeps hheld hown))
    (deleteVolumes_keeps hheld hown)

theorem removeDomain_keeps {deleteDisks : Bool} (hheld : owned → held = some h.name) :
    (removeDomain h deleteDisks).Keeps (rules owned owner stops) held := by
  cases deleteDisks with
  | false => exact undefineDomain_keeps hheld (by simp)
  | true =>
    exact keeps_describe (may_of_harmless trivial) trivial fun c hsound =>
      undefineDomain_keeps hheld hsound

theorem deleteVirtualMachine_keeps {deleteDisks : Bool} :
    (deleteVirtualMachine name deleteDisks).Keeps (rules owned owner stops) held := by
  refine keeps_lookup (may_of_harmless trivial) trivial fun h c _ _ => ?_
  refine keeps_status (may_of_harmless trivial) trivial (removeDomain_keeps fun _ => rfl)
    fun state hstate => ?_
  cases state with
  | shutdown | shutoff | crashed =>
    exact removeDomain_keeps fun howned => absurd (hstate howned) (by decide)
  | nostate | running | blocked | paused | pmsuspended => trivial

theorem guarded_keeps {p : Prog} (hp : p.Keeps (rules owned owner stops) held) :
    (guarded name p).Keeps (rules owned owner stops) held := by
  rw [guarded, requireValidVMID]
  split
  · exact hp
  · trivial

/-- **Every request** removes a machine and its disks only once it has seen it not running. -/
theorem Request.keeps (hreads : owned → Faithful reads) (r : Request)
    (hown : owned → ∀ host req, r = .create host req → host.Owns owner req.name)
    (hstops : ∀ name, r = .forceStop name → stops name) :
    (r.prog reads).Keeps (rules owned owner stops) none := by
  cases r with
  | create host req =>
    rw [Request.prog]
    split
    · rename_i hvalid
      exact createVirtualMachine_keeps hreads (fun howned => hown howned host req rfl)
        (legalText_of_namePattern (VirtualMachineCreate.namePattern_and_size hvalid).1)
    · trivial
  | get name => exact guarded_keeps getVirtualMachine_keeps
  | update isoDir name update =>
    refine guarded_keeps ?_
    split
    · exact updateVirtualMachine_keeps
    · trivial
  | delete name deleteDisks => exact guarded_keeps deleteVirtualMachine_keeps
  | start name => exact guarded_keeps startVirtualMachine_keeps
  | shutdown name => exact guarded_keeps shutdownVirtualMachine_keeps
  | reboot name => exact guarded_keeps rebootVirtualMachine_keeps
  | forceStop name => exact guarded_keeps (forceStopVirtualMachine_keeps (hstops name rfl))

end Keeps

/-! ## Runs -/

/-- What libvirt keeps: machines that are defined or live. -/
def Proper (d : Daemon.State String MachineConfig DomainState) : Prop :=
  ∀ name o, d.objects name = some o → o.persistent.isSome ∨ o.live.isSome

/-- Each disk of a machine is its own. -/
def Owned (owner : String → String) (d : Daemon.State String MachineConfig DomainState) : Prop :=
  ∀ name o, d.objects name = some o →
    (∀ c, o.persistent = some c → ∀ path ∈ diskPaths c, owner path = name) ∧
    ∀ l, o.live = some l → ∀ path ∈ diskPaths l.config, owner path = name

/-- And so are those of the machines that are created. -/
def Creates (owner : String → String) (es : List Event) : Prop :=
  ∀ host req, .request (.create host req) ∈ es → host.Owns owner req.name

/-- What is live is in no state in which it can be deleted: it is not crashed, nor about to shut
down. -/
def Steady (d : Daemon.State String MachineConfig DomainState) : Prop :=
  ∀ name o l, d.objects name = some o → o.live = some l → l.guest.deletable = false

/-- No guest comes into such a state. -/
def Event.Steady : Event → Prop
  | guest _ state => ∀ g, state = some g → g.deletable = false
  | request _ | act _ _ => True

section Steady

variable {d d' : Daemon.State String MachineConfig DomainState}

theorem Steady.put {name : String} {o : Daemon.Object MachineConfig DomainState} (h : Steady d)
    (ho : ∀ l, o.live = some l → l.guest.deletable = false) : Steady (d.put name o) := by
  intro name' o' l ho' hl
  rcases Daemon.State.of_put ho' with ⟨-, rfl⟩ | ⟨-, ho'⟩
  · exact ho l hl
  · exact h name' o' l ho' hl

/-- A machine runs when it is started. -/
theorem Steady.leaves {fails : Bool} {c : Daemon.Call String MachineConfig Act} (h : Steady d)
    (hd : d.Leaves kind fails c d') : Steady d' := by
  cases hd with
  | same => exact h
  | define _ hlive =>
    refine h.put fun l hl => ?_
    rcases hlive with ⟨-, hlive⟩ | ⟨o₀, ho₀, hlive, -⟩
    · cases hlive.symm.trans hl
    · exact h _ o₀ l ho₀ (hlive.symm.trans hl)
  | create =>
    refine h.put fun l hl => ?_
    obtain rfl := Option.some.inj hl
    rfl
  | destroy => exact h.put (by rintro l ⟨⟩)
  | undefine ho | modify ho | setAutostart ho =>
    refine h.put fun l hl => ?_
    have hsteady := h _ _ l ho hl
    exact hsteady

theorem Steady.step {reads : Reader} {s s' : System} {e : Event} (h : Steady s.daemon)
    (he : e.Steady) (hs : step reads s e = some s') : Steady s'.daemon := by
  cases e with
  | request r =>
    obtain rfl := Option.some.inj hs
    exact h
  | act i fails =>
    obtain ⟨held, c, next, -, rfl⟩ := Daemon.System.act_eq_some hs
    exact h.leaves (s.daemon.leaves fails c)
  | guest name state =>
    obtain ⟨d, hd, rfl⟩ := Option.map_eq_some_iff.mp hs
    obtain ⟨o, l, -, -, rfl⟩ := Daemon.State.evolve_eq_some hd
    refine h.put fun l' hl' => ?_
    obtain ⟨g, hg, rfl⟩ := Option.map_eq_some_iff.mp hl'
    exact he g hg

end Steady

/-! ## Two machines -/

/-- A machine with one disk. -/
def machine (path : String) : MachineConfig :=
  ⟨1, 1048576, [⟨"disk", "sda", "scsi", path, "qcow2", none⟩], [], [], false⟩

/-- The one is stopped, and the other one runs. -/
def twoMachines : System :=
  ⟨⟨fun name =>
      if name = "vm" then some ⟨0, some (machine "/pool/vm.qcow2"), none, false⟩
      else if name = "db" then
        some ⟨1, some (machine "/pool/db.qcow2"), some ⟨machine "/pool/db.qcow2", .running⟩, false⟩
      else none, 2⟩, []⟩

/-- Whose disk it is. -/
def ownerOf (path : String) : String := if path = "/pool/vm.qcow2" then "vm" else "db"

/-- A reader that reads the name and the disks. -/
def readDomain (doc : String) : Option (String × MachineConfig) :=
  (parse doc).bind fun root => (root.textsAt ["name"]).head?.map fun name =>
    (name, ⟨0, 0, (readDisks root).flatMap fun d => d.file.map fun path =>
      ⟨d.device.getD "", "", "", path, "", none⟩, [], [], false⟩)

theorem faithful_readDomain : Faithful readDomain := by
  intro spec caps doc profile root name c hdoc hparse hread
  obtain ⟨root', hroot, hread⟩ := Option.bind_eq_some_iff.mp hread
  obtain rfl := Option.some.inj (hparse.symm.trans hroot)
  obtain ⟨name', hname, heq⟩ := Option.map_eq_some_iff.mp hread
  obtain ⟨rfl, rfl⟩ := Prod.mk.inj heq
  refine ⟨List.mem_of_head? hname, fun path hpath => ?_⟩
  obtain ⟨d, hd, rfl⟩ := List.mem_map.mp hpath
  obtain ⟨hmem, hdisk⟩ := List.mem_filter.mp hd
  obtain ⟨disk, hdisks, hmem⟩ := List.mem_flatMap.mp hmem
  obtain ⟨path, hfile, rfl⟩ := List.mem_map.mp hmem
  refine List.mem_flatMap.mpr ⟨disk, List.mem_filter.mpr ⟨hdisks, ?_⟩, hfile⟩
  cases hdevice : disk.device with
  | none => simp [hdevice] at hdisk
  | some device => simpa [hdevice] using (Bool.and_eq_true_iff.mp hdisk).1

/-- What holds of both machines holds of each of theirs. -/
theorem of_twoMachines {P : String → Daemon.Object MachineConfig DomainState → Prop}
    (hvm : P "vm" ⟨0, some (machine "/pool/vm.qcow2"), none, false⟩)
    (hdb : P "db" ⟨1, some (machine "/pool/db.qcow2"),
      some ⟨machine "/pool/db.qcow2", .running⟩, false⟩) :
    ∀ name o, twoMachines.daemon.objects name = some o → P name o := by
  intro name o ho
  by_cases hname : name = "vm"
  · obtain rfl := Option.some.inj ((if_pos hname).symm.trans ho)
    exact hname ▸ hvm
  · obtain ⟨rfl, ho⟩ := Option.ite_none_right_eq_some.mp ((if_neg hname).symm.trans ho)
    obtain rfl := Option.some.inj ho
    exact hdb

theorem proper_twoMachines : Proper twoMachines.daemon := of_twoMachines (.inl rfl) (.inl rfl)

theorem owned_twoMachines : Owned ownerOf twoMachines.daemon := by
  refine of_twoMachines ⟨?_, by rintro _ ⟨⟩⟩ ⟨?_, ?_⟩
  all_goals
    rintro _ ⟨⟩ path hpath
    obtain rfl := List.mem_singleton.mp hpath
    decide

/-- There is a request to delete the one with its disk, up to the call that deletes it. -/
def vmDelete : List Event :=
  [.request (.delete "vm" true), .act 0 false, .act 0 false, .act 0 false, .act 0 false,
    .act 0 false]

def vmDeleting : System := (Machine.run (step readDomain) twoMachines vmDelete).getD twoMachines

theorem run_vmDelete : Machine.run (step readDomain) twoMachines vmDelete = some vmDeleting := by
  rfl

section Runs

variable {owned : Prop} {owner : String → String} {reads : Reader} {s₀ s₁ s : System}
  {es es' : List Event} {name : String}

/-- The rules hold before a run. -/
theorem obeys (stops : String → Prop) (hproper : Proper s₀.daemon)
    (howned : owned → Owned owner s₀.daemon) (hstart : s₀.running = []) :
    s₀.Obeys (rules owned owner stops) := by
  refine ⟨fun name o ho => ⟨hproper name o ho, ?_, ?_⟩, by simp [hstart]⟩
  · exact fun c hc h => (howned h name o ho).1 c hc
  · exact fun l hl h => (howned h name o ho).2 l hl

/-- An answer about what is live is not that it can be deleted. -/
theorem relies_of_steady {stops : String → Prop} (hsteady : owned → Steady s.daemon) {fails : Bool}
    (c : Daemon.Call String MachineConfig Act) :
    (rules owned owner stops).relies c (s.daemon.answer kind fails c).1 := by
  cases c with
  | status h =>
    cases hanswer : (s.daemon.answer kind fails (.status h : Daemon.Call _ _ Act)).1 with
    | none => trivial
    | some live =>
      cases live with
      | none => trivial
      | some state =>
        obtain ⟨o, ho, hlive⟩ := Daemon.State.status_eq_some hanswer
        obtain ⟨l, hl, rfl⟩ := Option.map_eq_some_iff.mp hlive
        exact fun h => hsteady h _ o l ho hl
  | lookup | describe | definition | define | create | destroy | undefine | modify | getAutostart
  | setAutostart | other => trivial

/-- And along it, while what is live is steady, when nothing else is stopped. -/
theorem regular (s₀ : System) (stops : String → Prop) (hreads : owned → Faithful reads)
    (hcreates : owned → Creates owner es)
    (hsteady : owned → Machine.Along (step reads) (fun s _ => Steady s.daemon) s₀ es)
    (hstops : ∀ name, .request (.forceStop name) ∈ es → stops name) :
    Machine.Along (Daemon.System.step kind)
      (fun s e => s.Regular (rules owned owner stops) kind e) s₀
      (es.map (Event.toDaemon reads)) := by
  refine Machine.Along.map (f := Event.toDaemon reads) ?_
  refine Machine.along_of_prefixes fun pre e post t hes hrun => ?_
  cases e with
  | request r =>
    refine r.keeps hreads (fun h host req hr => hcreates h host req ?_) fun name hr =>
      hstops name ?_
    · simp [hes, hr]
    · simp [hes, hr]
  | act i fails =>
    intro held c _
    exact relies_of_steady (fun h => Machine.Along.of_run (hes ▸ hsteady h) hrun) c
  | guest => trivial

/-- **A machine that runs goes on running**, on the configuration it was started with, whatever is
asked meanwhile, unless a request forces it to stop or it stops by itself. -/
theorem running_stays {u : ℕ} {c : MachineConfig} (hproper : Proper s₀.daemon)
    (hstart : s₀.running = []) (hrun : Machine.run (step reads) s₀ es = some s₁)
    (hlive : s₁.daemon.Runs name u c) (hrun' : Machine.run (step reads) s₁ es' = some s)
    (hstop : .request (.forceStop name) ∉ es ++ es') (hself : .guest name none ∉ es') :
    s.daemon.Runs name u c := by
  have hstops : ∀ id, .request (.forceStop id) ∈ es ++ es' → id ≠ name := by
    rintro id hid rfl
    exact hstop hid
  -- removals do not matter here
  have hobeys := @obeys False id s₀ (· ≠ name) hproper False.elim hstart
  have hobeys' := Daemon.obeys_of_run hobeys
    (regular s₀ (· ≠ name) False.elim False.elim False.elim
      fun id hid => hstops id (List.mem_append_left _ hid))
    ((Machine.run_map ..).symm.trans hrun)
  have hregular := @regular False id reads es' s₁ (· ≠ name) False.elim False.elim False.elim
    fun id hid => hstops id (List.mem_append_right es hid)
  refine Daemon.live_of_run (fun _ _ hmay => ?_) hobeys' hlive
    (hregular.and_forall fun e he => ?_) ((Machine.run_map ..).symm.trans hrun')
  · exact Daemon.spares_of_destroy hmay.2.2
  · obtain ⟨e, hmem, rfl⟩ := List.mem_map.mp he
    cases e with
    | request | act => trivial
    | guest id state =>
      rintro rfl rfl
      exact hself hmem

theorem running_stays_db : vmDeleting.daemon.Runs "db" 1 (machine "/pool/db.qcow2") :=
  running_stays proper_twoMachines rfl (rfl : Machine.run (step readDomain) twoMachines [] = _)
    ⟨_, .running, rfl, rfl, rfl⟩ run_vmDelete (by simp [vmDelete]) (by simp [vmDelete])

/-- **A machine that runs is defined, and no volume of its disks is about to be deleted**, when no
request starts a machine that another request has seen not running, or has not found, and goes on to
undefine or delete. -/
theorem disks_stay (hreads : Faithful reads) (hproper : Proper s₀.daemon)
    (howned : Owned owner s₀.daemon) (hdefined : s₀.daemon.Agrees (care owner))
    (hstart : s₀.running = []) (hcreates : Creates owner es)
    (hsteady : Steady s₀.daemon) (hguests : ∀ e ∈ es, e.Steady)
    (hrace : Machine.Along (step reads)
      (fun s e => s.NoRace kind (care owner) (e.toDaemon reads)) s₀ es)
    (hrun : Machine.run (step reads) s₀ es = some s) {o : Daemon.Object MachineConfig DomainState}
    {l : Daemon.Live MachineConfig DomainState} (ho : s.daemon.objects name = some o)
    (hl : o.live = some l) : o.persistent.isSome = true ∧ ∀ i held path,
      s.Next i held (.other (.deleteVolume path)) → path ∉ diskPaths l.config := by
  have halong : Machine.Along (step reads) (fun s _ => Steady s.daemon) s₀ es :=
    Machine.along_of_inv (fun _ _ _ hI he hs => Steady.step hI he hs) (fun _ _ hI _ => hI) hsteady
      (.of_forall s₀ hguests)
  have hobeys := @obeys True owner s₀ (fun _ => True) hproper (fun _ => howned) hstart
  have hregular := @regular True owner reads es s₀ (fun _ => True) (fun _ => hreads)
    (fun _ => hcreates) (fun _ => halong) fun _ _ => trivial
  have hcareful : ∀ held c, (rules True owner fun _ => True).may held c →
      Daemon.Careful kind (care owner) held c := fun _ _ hmay => hmay.1 trivial
  obtain ⟨hsettled, hend⟩ := Daemon.settled_of_run hcareful hobeys
    ⟨hdefined, by simp [hstart]⟩
    (hregular.and (Machine.Along.map (f := Event.toDaemon reads) hrace))
    ((Machine.run_map ..).symm.trans hrun)
  refine ⟨hsettled.agrees name o l ho hl, fun i held path hnext hmem => ?_⟩
  -- the machine is the one whose disk it is
  have hname : owner path = name := (hend.sound name o ho).2.2 l hl trivial path hmem
  have hheld := (hend.next hnext).2.1 trivial path rfl
  have hidle := hsettled.idle hnext hheld rfl
  rw [hname] at hidle
  cases (hidle o ho).symm.trans hl

/-- No request starts what another one minds. -/
theorem noRace_vmDelete : Machine.Along (step readDomain)
    (fun s e => s.NoRace kind (care ownerOf) (e.toDaemon readDomain)) twoMachines vmDelete :=
  have hquiet {s : System} (h : s.running.length = 1) :
      s.NoRace kind (care ownerOf) ((Event.act 0 false).toDaemon readDomain) :=
    Daemon.System.noRace_of_alone h
  .cons (by exact trivial) rfl <| .cons (hquiet rfl) rfl <| .cons (hquiet rfl) rfl <|
    .cons (hquiet rfl) rfl <| .cons (hquiet rfl) rfl <| .cons (hquiet rfl) rfl <| .nil _

theorem disks_stay_db : vmDeleting.Next 0 (some "vm") (.other (.deleteVolume "/pool/vm.qcow2")) ∧
    "/pool/vm.qcow2" ∉ diskPaths (machine "/pool/db.qcow2") := by
  have hdefined : twoMachines.daemon.Agrees (care ownerOf) := fun name o l ho _ =>
    of_twoMachines (P := fun _ o => o.persistent.isSome = true) rfl rfl name o ho
  have hsteady : Steady twoMachines.daemon := fun name o l ho hl => by
    refine of_twoMachines (P := fun _ o => ∀ l, o.live = some l → l.guest.deletable = false)
      (by rintro _ ⟨⟩) ?_ name o ho l hl
    rintro _ ⟨⟩
    rfl
  have hnext : vmDeleting.Next 0 (some "vm") (.other (.deleteVolume "/pool/vm.qcow2")) := ⟨_, rfl⟩
  have hdisks := disks_stay (o := ⟨1, some (machine "/pool/db.qcow2"),
    some ⟨machine "/pool/db.qcow2", .running⟩, false⟩) faithful_readDomain proper_twoMachines
    owned_twoMachines hdefined rfl (by simp [Creates, vmDelete]) hsteady
    (by simp [vmDelete, Event.Steady]) noRace_vmDelete run_vmDelete
    (rfl : vmDeleting.daemon.objects "db" = _) rfl
  exact ⟨hnext, hdisks.2 0 _ _ hnext⟩

/-- The machine that runs is about to shut down when there is a request to delete it. -/
def dbDelete : List Event :=
  [.guest "db" (some .shutdown), .request (.delete "db" true), .act 0 false, .act 0 false,
    .act 0 false, .act 0 false, .act 0 false]

/-- Then the volume of its disk is deleted while it is live. -/
theorem deletes_live_disk : ∃ s, Machine.run (step readDomain) twoMachines dbDelete = some s ∧
    s.daemon.Runs "db" 1 (machine "/pool/db.qcow2") ∧
      s.Next 0 none (.other (.deleteVolume "/pool/db.qcow2")) :=
  ⟨(Machine.run (step readDomain) twoMachines dbDelete).getD twoMachines, rfl,
    ⟨_, .shutdown, rfl, rfl, rfl⟩, ⟨_, rfl⟩⟩

end Runs

end Machines

end Ultrav
