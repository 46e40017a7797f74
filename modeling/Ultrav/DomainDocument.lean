import Ultrav.DomainProfile
import Ultrav.XmlWriter

/-!
# The document of a domain

The second half of `buildDomainXML`: the structs it fills in and how they are marshalled. They are
generic in the values, so that a document and its template are the same definition.

* `SpecField` / `DomainShape` — the strings of a specification, and the rest of it.
* `DiskXML` / `disksXML` — the disk devices.
* `domainXMLModel` — the domain element.
* `buildDomainXML` — the document and the profile it was built for.
* `parse_buildDomainXML` — what the document parses to.
-/

namespace Ultrav

open Xml

/-! ## What goes into a document -/

/-- The strings of a specification that a document has as they are. -/
inductive SpecField where
  | name
  | diskPath
  | diskFormat
  | networkId
  | isoPath
  | virtioISOPath
  deriving DecidableEq, Repr

/-- The rest of what a document is made from. -/
structure DomainShape where
  memoryBytes : ℤ
  vcpus : ℤ
  profile : AppliedProfile
  /-- there is install media -/
  iso : Bool
  /-- there are VirtIO drivers -/
  virtioISO : Bool
  deriving DecidableEq, Repr

namespace DomainSpec

variable (spec : DomainSpec)

def field : SpecField → String
  | .name => spec.name
  | .diskPath => spec.diskPath
  | .diskFormat => spec.diskFormat
  | .networkId => spec.networkId
  | .isoPath => spec.isoPath
  | .virtioISOPath => spec.virtioISOPath

def shape (profile : AppliedProfile) : DomainShape where
  memoryBytes := spec.memoryBytes
  vcpus := spec.vcpus
  profile := profile
  iso := spec.isoPath ≠ ""
  virtioISO := spec.virtioISOPath ≠ ""

end DomainSpec

/-- `queueCount`: one queue for each vCPU, between 1 and 8. -/
def queueCount (vcpus : ℤ) : ℤ :=
  if vcpus < 1 then 1
  else if vcpus > 8 then 8
  else vcpus

/-! ## Marshalling -/

/-- What is there under a condition: a pointer that may be nil, a value that may be empty. -/
def present {α : Type} (c : Bool) (l : List α) : List α := if c then l else []

section Present

variable {α β : Type} (c : Bool) (l : List α)

@[simp] theorem present_nil : present c ([] : List α) = [] := ite_self []

@[simp] theorem present_eq_nil : present c l = [] ↔ c = false ∨ l = [] := by
  by_cases hc : c <;> simp [present, hc]

@[simp] theorem map_present (f : α → β) : (present c l).map f = present c (l.map f) := by
  by_cases hc : c <;> simp [present, hc]

@[simp] theorem filter_present (p : α → Bool) :
    (present c l).filter p = present c (l.filter p) := by
  by_cases hc : c <;> simp [present, hc]

@[simp] theorem filterMap_present (f : α → Option β) :
    (present c l).filterMap f = present c (l.filterMap f) := by
  by_cases hc : c <;> simp [present, hc]

@[simp] theorem flatMap_present (f : α → List β) :
    (present c l).flatMap f = present c (l.flatMap f) := by
  by_cases hc : c <;> simp [present, hc]

@[simp] theorem mem_present {c : Bool} {l : List α} {x : α} :
    x ∈ present c l ↔ c = true ∧ x ∈ l := by
  by_cases hc : c <;> simp [present, hc]

end Present

section Marshal

variable {V : Type} (lit : String → V)

/-- A struct without character data. -/
def structXML (n : String) (attrs : List (String × V)) (cs : List (Element V)) : Element V :=
  .mk n attrs (lit "") cs

/-- A value that is an element of its own, or a struct with character data. -/
def textXML (n : String) (attrs : List (String × V)) (text : V) : Element V :=
  .mk n attrs text []

/-- `omitempty` -/
def omitEmpty (key value : String) : List (String × V) :=
  present (value ≠ "") [(key, lit value)]

/-! ## The structs -/

/-- `diskDriver`; its queues and its I/O thread are never set. -/
structure DiskDriver (V : Type) where
  name : String
  type : V
  cache : String
  io : String
  discard : String
  detectZeroes : String

/-- `diskXML`, with `diskSource`, `diskTarget` and `diskBoot`. -/
structure DiskXML (V : Type) where
  device : String
  driver : DiskDriver V
  file : V
  dev : String
  bus : String
  readonly : Bool
  boot : Option ℕ

def DiskDriver.element (d : DiskDriver V) : Element V :=
  structXML lit "driver" ([("name", lit d.name), ("type", d.type)] ++
    omitEmpty lit "cache" d.cache ++ omitEmpty lit "io" d.io ++
    omitEmpty lit "discard" d.discard ++ omitEmpty lit "detect_zeroes" d.detectZeroes) []

def DiskXML.element (d : DiskXML V) : Element V :=
  structXML lit "disk" [("device", lit d.device)] ([
    d.driver.element lit,
    structXML lit "source" [("file", d.file)] [],
    structXML lit "target" [("dev", lit d.dev), ("bus", lit d.bus)] []] ++
    present d.readonly [structXML lit "readonly" [] []] ++
    d.boot.toList.map fun order => structXML lit "boot" [("order", lit (toString order))] [])

/-- `domainOS` -/
def osXML : Element V :=
  structXML lit "os" [] [
    textXML "type" [("arch", lit "x86_64"), ("machine", lit "q35")] (lit "hvm")]

/-- The fields of `hypervXML`, in their order. -/
def hypervFields : List String :=
  ["relaxed", "vapic", "spinlocks", "vpindex", "synic", "stimer", "runtime", "frequencies",
    "reset", "tlbflush", "ipi"]

/-- `hypervFeatureXML` and `hypervSpinlocks` -/
def hypervFeatureXML (name : String) : Element V :=
  structXML lit name
    ([("state", lit "on")] ++ present (name = "spinlocks") [("retries", lit "8191")]) []

/-- `hypervXML`: the fields that the names set. -/
def hypervXML (supported : List String) : Element V :=
  structXML lit "hyperv" [("mode", lit "custom")]
    ((hypervFields.filter fun n => n ∈ supported).map (hypervFeatureXML lit))

/-- `domainFeatures` -/
def featuresXML (profile : AppliedProfile) : Element V :=
  structXML lit "features" [] ([structXML lit "acpi" [] [], structXML lit "apic" [] []] ++
    present (profile.osType = "windows") [hypervXML lit profile.hypervEnlightenments])

/-- `domainCPU` -/
def cpuXML (profile : AppliedProfile) : Element V :=
  structXML lit "cpu"
    ([("mode", lit (if profile.osType = "other" then "host-model" else "host-passthrough"))] ++
      present (profile.osType ≠ "other") [("check", lit "none"), ("migratable", lit "on")]) []

/-- `clockTimer` -/
def timerXML (name tickpolicy present : String) : Element V :=
  structXML lit "timer" ([("name", lit name)] ++ omitEmpty lit "tickpolicy" tickpolicy ++
    omitEmpty lit "present" present) []

/-- `domainClock` -/
def clockXML (profile : AppliedProfile) : Element V :=
  structXML lit "clock"
    [("offset", lit (if profile.osType = "windows" then "localtime" else "utc"))]
    ([timerXML lit "rtc" "catchup" "", timerXML lit "pit" "delay" "",
      timerXML lit "hpet" "" "no"] ++
      present (profile.osType = "windows") [timerXML lit "hypervclock" "" "yes"])

/-- `controllerXML`, for the I/O thread 1. -/
def controllerXML (queue : ℤ) : Element V :=
  structXML lit "controller"
    [("type", lit "scsi"), ("index", lit "0"), ("model", lit "virtio-scsi")]
    [structXML lit "driver" [("queues", lit (toString queue)), ("iothread", lit "1")] []]

/-- `interfaceXML`; multi-queue vhost is a feature of virtio. -/
def interfaceXML (network : V) (model : String) (queue : ℤ) : Element V :=
  structXML lit "interface" [("type", lit "network")] ([
    structXML lit "source" [("network", network)] [],
    structXML lit "model" [("type", lit model)] []] ++
    present (model = "virtio")
      [structXML lit "driver" [("name", lit "vhost"), ("queues", lit (toString queue))] []])

/-- `channelXML` to `videoXML`, and the console. -/
def fixedDevicesXML : List (Element V) := [
  structXML lit "channel" [("type", lit "unix")]
    [structXML lit "target" [("type", lit "virtio"), ("name", lit "org.qemu.guest_agent.0")] []],
  structXML lit "rng" [("model", lit "virtio")]
    [textXML "backend" [("model", lit "random")] (lit "/dev/urandom")],
  structXML lit "memballoon" [("model", lit "none")] [],
  structXML lit "graphics" [("type", lit "vnc")]
    [structXML lit "listen" [("type", lit "socket")] []],
  structXML lit "video" [] [structXML lit "model" [("type", lit "vga")] []],
  structXML lit "console" [] []]

/-! ## The domain -/

variable (field : SpecField → V) (shape : DomainShape)

/-- `nextDevName`: the device names in order of attachment. -/
def nextDevName (n : ℕ) : String := "sd" ++ String.singleton (.ofNat ('a'.toNat + n))

/-- A CD-ROM. -/
def cdromDisk (file : V) (dev : String) (boot : Option ℕ) : DiskXML V where
  device := "cdrom"
  driver := ⟨"qemu", lit "raw", "", "", "", ""⟩
  file := file
  dev := dev
  bus := "sata"
  readonly := true
  boot := boot

/-- The CD-ROMs: install media, then drivers. -/
def cdromDisks : List (DiskXML V) :=
  let install := present shape.iso [cdromDisk lit (field .isoPath) (nextDevName 0) (some 1)]
  install ++ present shape.virtioISO
    [cdromDisk lit (field .virtioISOPath) (nextDevName install.length) none]

/-- The system disk, behind `n` CD-ROMs. -/
def systemDisk (n : ℕ) : DiskXML V where
  device := "disk"
  driver :=
    if shape.profile.cache ≠ "" then
      ⟨"qemu", field .diskFormat, shape.profile.cache, "native", "unmap", "unmap"⟩
    else ⟨"qemu", field .diskFormat, "", "", "", ""⟩
  file := field .diskPath
  dev := nextDevName n
  bus := shape.profile.diskBus
  readonly := false
  boot := if shape.iso then some 2 else none

def disksXML : List (DiskXML V) :=
  cdromDisks lit field shape ++ [systemDisk field shape (cdromDisks lit field shape).length]

/-- `devicesXML` -/
def devicesXML : Element V :=
  structXML lit "devices" [] ((disksXML lit field shape).map (DiskXML.element lit) ++
    present (shape.profile.osType ≠ "other") [controllerXML lit (queueCount shape.vcpus)] ++
    interfaceXML lit (field .networkId) shape.profile.nicModel (queueCount shape.vcpus) ::
      fixedDevicesXML lit)

/-- `domainXMLModel` -/
def domainXMLModel : Element V :=
  structXML lit "domain" [("type", lit "kvm")] ([
    textXML "name" [] (field .name),
    textXML "memory" [("unit", lit "bytes")] (lit (toString shape.memoryBytes)),
    textXML "vcpu" [] (lit (toString shape.vcpus)),
    osXML lit,
    featuresXML lit shape.profile,
    cpuXML lit shape.profile,
    clockXML lit shape.profile] ++
    present (shape.profile.osType ≠ "other")
      [textXML "iothreads" [] (lit (toString shape.profile.ioThreads))] ++ [
    textXML "on_poweroff" [] (lit "destroy"),
    textXML "on_reboot" [] (lit "restart"),
    textXML "on_crash" [] (lit "destroy"),
    devicesXML lit field shape])

end Marshal

/-- The domain element of a specification. -/
def DomainSpec.domain (spec : DomainSpec) (profile : AppliedProfile) : Element String :=
  domainXMLModel id spec.field (spec.shape profile)

/-- `buildDomainXML` -/
def buildDomainXML (spec : DomainSpec) (caps : HostFeatures) :
    Except BuildError (String × AppliedProfile) := do
  let profile ← appliedProfile spec caps
  pure (.ofList (declaration ++ (spec.domain profile).write 0), profile)

/-! ## Other values -/

section Values

variable {V W : Type} (f : V → W) (lit : String → V)

@[simp] theorem map_structXML (n : String) (attrs : List (String × V)) (cs : List (Element V)) :
    (structXML lit n attrs cs).map f =
      structXML (f ∘ lit) n (attrs.map fun a => (a.1, f a.2)) (cs.map (Element.map f)) := by
  rw [structXML, Element.map_mk]
  rfl

@[simp] theorem map_textXML (n : String) (attrs : List (String × V)) (text : V) :
    (textXML n attrs text).map f = textXML n (attrs.map fun a => (a.1, f a.2)) (f text) := by
  rw [textXML, Element.map_mk]
  rfl

@[simp] theorem map_omitEmpty (key value : String) :
    ((omitEmpty lit key value).map fun a => (a.1, f a.2)) = omitEmpty (f ∘ lit) key value := by
  simp [omitEmpty]

/-- Another value in each place of a disk. -/
def DiskXML.map (d : DiskXML V) : DiskXML W :=
  { d with driver := { d.driver with type := f d.driver.type }, file := f d.file }

@[simp] theorem map_diskElement (d : DiskXML V) :
    (d.element lit).map f = (d.map f).element (f ∘ lit) := by
  simp [DiskXML.element, DiskDriver.element, DiskXML.map, Function.comp_def]

@[simp] theorem map_osXML : (osXML lit).map f = osXML (f ∘ lit) := by
  simp [osXML]

@[simp] theorem map_hypervFeatureXML (name : String) :
    (hypervFeatureXML lit name).map f = hypervFeatureXML (f ∘ lit) name := by
  simp [hypervFeatureXML]

@[simp] theorem map_featuresXML (profile : AppliedProfile) :
    (featuresXML lit profile).map f = featuresXML (f ∘ lit) profile := by
  simp [featuresXML, hypervXML, Function.comp_def]

@[simp] theorem map_cpuXML (profile : AppliedProfile) :
    (cpuXML lit profile).map f = cpuXML (f ∘ lit) profile := by
  simp [cpuXML]

@[simp] theorem map_clockXML (profile : AppliedProfile) :
    (clockXML lit profile).map f = clockXML (f ∘ lit) profile := by
  simp [clockXML, timerXML]

@[simp] theorem map_controllerXML (queue : ℤ) :
    (controllerXML lit queue).map f = controllerXML (f ∘ lit) queue := by
  simp [controllerXML]

@[simp] theorem map_interfaceXML (network : V) (model : String) (queue : ℤ) :
    (interfaceXML lit network model queue).map f =
      interfaceXML (f ∘ lit) (f network) model queue := by
  simp [interfaceXML]

@[simp] theorem map_fixedDevicesXML :
    (fixedDevicesXML lit).map (Element.map f) = fixedDevicesXML (f ∘ lit) := by
  simp [fixedDevicesXML]

variable (field : SpecField → V) (shape : DomainShape)

theorem length_cdromDisks :
    (cdromDisks lit field shape).length = shape.iso.toNat + shape.virtioISO.toNat := by
  cases hi : shape.iso <;> cases hv : shape.virtioISO <;> simp [cdromDisks, present, hi, hv]

/-- The CD-ROMs have the first names. -/
theorem mem_cdromDisks {d : DiskXML V} : d ∈ cdromDisks lit field shape ↔
    shape.iso = true ∧ d = cdromDisk lit (field .isoPath) (nextDevName 0) (some 1) ∨
      shape.virtioISO = true ∧
        d = cdromDisk lit (field .virtioISOPath) (nextDevName shape.iso.toNat) none := by
  cases hi : shape.iso <;> simp [cdromDisks, present, hi]

/-- **Names of the disks**: one after the other. -/
theorem map_dev_disksXML : (disksXML lit field shape).map DiskXML.dev =
    (List.range (shape.iso.toNat + shape.virtioISO.toNat + 1)).map nextDevName := by
  cases hi : shape.iso <;> cases hv : shape.virtioISO <;>
    simp [disksXML, cdromDisks, cdromDisk, systemDisk, present, hi, hv, List.range_succ]

/-- The names of three disks. -/
theorem nextDevName_names : ∀ n ≤ 3, ((List.range n).map nextDevName).Nodup ∧
    ∀ dev ∈ (List.range n).map nextDevName, dev ≠ "" := by
  decide

theorem map_cdromDisks : (cdromDisks lit field shape).map (DiskXML.map f) =
    cdromDisks (f ∘ lit) (f ∘ field) shape := by
  cases hi : shape.iso <;> cases hv : shape.virtioISO <;>
    simp [cdromDisks, present, cdromDisk, DiskXML.map, hi, hv]

theorem map_systemDisk (n : ℕ) :
    (systemDisk field shape n).map f = systemDisk (f ∘ field) shape n := by
  by_cases hc : shape.profile.cache = "" <;> simp [systemDisk, DiskXML.map, hc]

theorem map_disksXML :
    (disksXML lit field shape).map (DiskXML.map f) = disksXML (f ∘ lit) (f ∘ field) shape := by
  rw [disksXML, disksXML, List.map_append, List.map_singleton, map_systemDisk, map_cdromDisks,
    length_cdromDisks, length_cdromDisks]

@[simp] theorem map_devicesXML : (devicesXML lit field shape).map f =
    devicesXML (f ∘ lit) (f ∘ field) shape := by
  have hdisks : (disksXML lit field shape).map (Element.map f ∘ DiskXML.element lit) =
      (disksXML (f ∘ lit) (f ∘ field) shape).map (DiskXML.element (f ∘ lit)) := by
    rw [← map_disksXML, List.map_map]
    exact List.map_congr_left fun d _ => map_diskElement f lit d
  simp [devicesXML, hdisks]

/-- **Other values**: in the places of the model. -/
theorem map_domainXMLModel : (domainXMLModel lit field shape).map f =
    domainXMLModel (f ∘ lit) (f ∘ field) shape := by
  simp [domainXMLModel]

end Values

/-! ## The document parses -/

/-- A text that a document can hold. -/
def legalString (s : String) : Bool := s.toList.all legal

/-- Names of the grammar, and legal values; of an element that has that in place of its values. -/
def proper (e : Element Bool) : Bool := e.valid && e.values.all id

namespace DomainShape

/-- The strings of the profile are legal. -/
structure Legal (shape : DomainShape) : Prop where
  cache : legalString shape.profile.cache = true
  bus : legalString shape.profile.diskBus = true
  nicModel : legalString shape.profile.nicModel = true

end DomainShape

section Proper

theorem legal_of_isDigit {c : Char} (h : c.isDigit = true) : legal c = true := by
  simp only [Char.isDigit, Bool.and_eq_true, decide_eq_true_eq, ge_iff_le,
    UInt32.le_iff_toNat_le] at h
  have hle : 0x30 ≤ c.toNat ∧ c.toNat ≤ 0x39 := h
  simp only [legal, Bool.or_eq_true, Bool.and_eq_true, decide_eq_true_eq]
  omega

/-- Numerals are legal. -/
theorem legalString_toString (n : ℤ) : legalString (toString n) = true := by
  have hnat : ∀ m : ℕ, ∀ c ∈ m.repr.toList, legal c = true := by
    intro m c hc
    rw [Nat.repr, String.toList_ofList] at hc
    exact legal_of_isDigit (Nat.isDigit_of_mem_toDigits (by decide) (by decide) hc)
  cases n with
  | ofNat m => exact List.all_eq_true.mpr (hnat m)
  | negSucc m =>
    refine List.all_eq_true.mpr fun c hc => ?_
    change c ∈ ("-" ++ (m + 1).repr).toList at hc
    rw [String.toList_append, List.mem_append] at hc
    rcases hc with hc | hc
    · obtain rfl := List.mem_singleton.mp hc
      decide
    · exact hnat _ c hc

/-- The tag and the children. -/
theorem proper_structXML {lit : String → Bool} {n : String} {attrs : List (String × Bool)}
    {cs : List (Element Bool)} (htag : proper (structXML lit n attrs []) = true)
    (hcs : ∀ c ∈ cs, proper c = true) : proper (structXML lit n attrs cs) = true := by
  simp only [proper, structXML, Element.valid, Element.validAll_eq, Element.values_mk,
    Bool.and_eq_true, List.all_append, List.all_cons, List.all_flatMap, List.all_nil,
    List.flatMap_nil] at htag ⊢
  have hvalid : ∀ c ∈ cs, c.valid = true ∧ c.values.all id = true := fun c hc =>
    (Bool.and_eq_true ..).mp (hcs c hc)
  exact ⟨⟨htag.1.1, List.all_eq_true.mpr fun c hc => (hvalid c hc).1⟩, htag.2.1, htag.2.2.1,
    List.all_eq_true.mpr fun c hc => (hvalid c hc).2⟩

theorem proper_driver {d : DiskDriver Bool} (htype : d.type = true) (hname : d.name = "qemu")
    (hcache : legalString d.cache = true) (hio : legalString d.io = true)
    (hdiscard : legalString d.discard = true) (hzeroes : legalString d.detectZeroes = true) :
    proper (d.element legalString) = true := by
  have hall : ∀ b₁ b₂ b₃ b₄ : Bool, proper (structXML legalString "driver"
      ([("name", true), ("type", true)] ++ present b₁ [("cache", true)] ++
        present b₂ [("io", true)] ++ present b₃ [("discard", true)] ++
        present b₄ [("detect_zeroes", true)]) []) = true := by
    decide
  have hqemu : legalString "qemu" = true := by
    decide
  rw [DiskDriver.element, omitEmpty, omitEmpty, omitEmpty, omitEmpty, htype, hname, hqemu,
    hcache, hio, hdiscard, hzeroes]
  exact hall _ _ _ _

/-- A disk, by its driver. -/
theorem proper_disk {d : DiskXML Bool} (hdriver : proper (d.driver.element legalString) = true)
    (hdevice : legalString d.device = true) (hfile : d.file = true)
    (hdev : legalString d.dev = true) (hbus : legalString d.bus = true) :
    proper (d.element legalString) = true := by
  have htag : proper (structXML legalString "disk" [("device", true)] []) = true := by
    decide
  have hsource : proper (structXML legalString "source" [("file", true)] []) = true := by
    decide
  have htarget : proper (structXML legalString "target" [("dev", true), ("bus", true)] []) =
      true := by
    decide
  have hboot : proper (structXML legalString "boot" [("order", true)] []) = true := by
    decide
  rw [DiskXML.element, hdevice, hfile, hdev, hbus]
  refine proper_structXML htag fun c hc => ?_
  simp only [List.mem_append, List.mem_cons, List.not_mem_nil, or_false, mem_present,
    List.mem_map, Option.mem_toList, or_assoc] at hc
  obtain rfl | rfl | rfl | ⟨-, rfl⟩ | ⟨order, -, rfl⟩ := hc
  · exact hdriver
  · exact hsource
  · exact htarget
  · decide
  · rw [show toString order = toString (order : ℤ) from rfl, legalString_toString]
    exact hboot

theorem proper_features (profile : AppliedProfile) :
    proper (featuresXML legalString profile) = true := by
  have hfeature : ∀ n ∈ hypervFields, proper (hypervFeatureXML legalString n) = true := by
    decide
  have hhyperv : proper (hypervXML legalString profile.hypervEnlightenments) = true := by
    refine proper_structXML (by decide) fun c hc => ?_
    obtain ⟨n, hn, rfl⟩ := List.mem_map.mp hc
    exact hfeature n (List.mem_of_mem_filter hn)
  refine proper_structXML (by decide) fun c hc => ?_
  simp only [List.mem_append, List.mem_cons, List.not_mem_nil, or_false, mem_present] at hc
  obtain (rfl | rfl) | ⟨-, rfl⟩ := hc
  · decide
  · decide
  · exact hhyperv

theorem proper_cpu (profile : AppliedProfile) : proper (cpuXML legalString profile) = true := by
  rw [cpuXML]
  by_cases hother : profile.osType = "other"
  · rw [if_pos hother, decide_eq_false (not_not_intro hother)]
    decide
  · rw [if_neg hother, decide_eq_true hother]
    decide

theorem proper_clock (profile : AppliedProfile) :
    proper (clockXML legalString profile) = true := by
  rw [clockXML]
  by_cases hwindows : profile.osType = "windows"
  · rw [if_pos hwindows, decide_eq_true hwindows]
    decide
  · rw [if_neg hwindows, decide_eq_false hwindows]
    decide

theorem proper_interface {model : String} (hmodel : legalString model = true) (queue : ℤ) :
    proper (interfaceXML legalString true model queue) = true := by
  have hall : ∀ b : Bool, proper (structXML legalString "interface"
      [("type", legalString "network")] ([
      structXML legalString "source" [("network", true)] [],
      structXML legalString "model" [("type", true)] []] ++ present b
        [structXML legalString "driver"
          [("name", legalString "vhost"), ("queues", true)] []])) = true := by
    decide
  rw [interfaceXML, hmodel, legalString_toString]
  exact hall _

theorem proper_controller (queue : ℤ) : proper (controllerXML legalString queue) = true := by
  rw [controllerXML, legalString_toString]
  decide

variable {shape : DomainShape} (hlegal : shape.Legal)

include hlegal

theorem proper_disks {d : DiskXML Bool} (hd : d ∈ disksXML legalString (fun _ => true) shape) :
    proper (d.element legalString) = true := by
  have hdev : ∀ m ≤ 2, legalString (nextDevName m) = true := by
    decide
  have hlit : ∀ s ∈ ["disk", "cdrom", "sata", "native", "unmap", ""], legalString s = true := by
    decide
  have hcdrom : ∀ (dev : String) (boot : Option ℕ), legalString dev = true →
      proper ((cdromDisk legalString true dev boot).element legalString) = true := by
    intro dev boot hdev
    have hdriver : proper ((⟨"qemu", true, "", "", "", ""⟩ : DiskDriver Bool).element
        legalString) = true := by
      decide
    exact proper_disk hdriver (hlit "cdrom" (by decide)) rfl hdev (hlit "sata" (by decide))
  have hiso := shape.iso.toNat_le
  rw [disksXML, List.mem_append, List.mem_singleton, length_cdromDisks, mem_cdromDisks] at hd
  obtain (⟨-, rfl⟩ | ⟨-, rfl⟩) | rfl := hd
  · exact hcdrom _ _ (hdev 0 (by omega))
  · exact hcdrom _ _ (hdev _ (by omega))
  · have hvirtio := shape.virtioISO.toNat_le
    refine proper_disk ?_ (hlit "disk" (by decide)) rfl (hdev _ (by omega)) hlegal.bus
    rw [systemDisk]
    split
    · exact proper_driver rfl rfl hlegal.cache (hlit "native" (by decide))
        (hlit "unmap" (by decide)) (hlit "unmap" (by decide))
    · have hdriver : proper ((⟨"qemu", true, "", "", "", ""⟩ : DiskDriver Bool).element
          legalString) = true := by
        decide
      exact hdriver

theorem proper_devices : proper (devicesXML legalString (fun _ => true) shape) = true := by
  have hfixed : ∀ c ∈ fixedDevicesXML legalString, proper c = true := by
    decide
  refine proper_structXML (by decide) fun c hc => ?_
  simp only [List.mem_append, List.mem_cons, List.not_mem_nil, or_false, mem_present,
    List.mem_map] at hc
  obtain (⟨d, hd, rfl⟩ | ⟨-, rfl⟩) | rfl | hc := hc
  · exact proper_disks hlegal hd
  · exact proper_controller _
  · exact proper_interface hlegal.nicModel _
  · exact hfixed c hc

theorem proper_domainXMLModel :
    proper (domainXMLModel legalString (fun _ => true) shape) = true := by
  have htext : ∀ n ∈ ["name", "vcpu", "iothreads"], proper (textXML n [] true) = true := by
    decide
  have hmemory : proper (textXML "memory" [("unit", legalString "bytes")] true) = true := by
    decide
  refine proper_structXML (by decide) fun c hc => ?_
  simp only [List.mem_append, List.mem_cons, List.not_mem_nil, or_false, mem_present,
    or_assoc, legalString_toString] at hc
  obtain rfl | rfl | rfl | rfl | rfl | rfl | rfl | ⟨-, rfl⟩ | rfl | rfl | rfl | rfl := hc
  · exact htext "name" (by decide)
  · exact hmemory
  · exact htext "vcpu" (by decide)
  · decide
  · exact proper_features _
  · exact proper_cpu _
  · exact proper_clock _
  · have hthreads := legalString_toString shape.profile.ioThreads
    exact hthreads ▸ htext "iothreads" (by decide)
  · decide
  · decide
  · decide
  · exact proper_devices hlegal

end Proper

/-! ## What is read back -/

/-- The template of a document: what is written as it is, and the strings of a specification. -/
def domainTemplate (shape : DomainShape) : Element (String ⊕ SpecField) :=
  domainXMLModel .inl .inr shape

section ReadBack

variable {shape : DomainShape}

theorem map_domainTemplate {V : Type} (lit : String → V) (field : SpecField → V) :
    (domainTemplate shape).map (Sum.elim lit field) = domainXMLModel lit field shape :=
  map_domainXMLModel _ _ _ _

variable (hlegal : shape.Legal)

include hlegal

/-- What the template has as it is can be read back. -/
theorem legal_domainTemplate {s : String} (hs : .inl s ∈ (domainTemplate shape).values) :
    legalString s = true := by
  have hproper := proper_domainXMLModel hlegal
  rw [proper, Bool.and_eq_true, ← map_domainTemplate, Element.values_map,
    List.all_eq_true] at hproper
  exact hproper.2 _ (List.mem_map_of_mem hs)

theorem valid_domainXMLModel {V : Type} (lit : String → V) (field : SpecField → V) :
    (domainXMLModel lit field shape).valid = true := by
  have hproper := proper_domainXMLModel hlegal
  rw [proper, Bool.and_eq_true] at hproper
  rw [← map_domainTemplate, Element.valid_map]
  rw [← map_domainTemplate, Element.valid_map] at hproper
  exact hproper.1

theorem parse_domainXMLModel (field : SpecField → String) :
    parse (.ofList (declaration ++ (domainXMLModel id field shape).write 0)) =
      some ((domainXMLModel id (legalText ∘ field) shape).indented 0) := by
  have hlit : domainXMLModel (legalText ∘ id) (legalText ∘ field) shape =
      domainXMLModel id (legalText ∘ field) shape := by
    rw [← map_domainTemplate, ← map_domainTemplate]
    refine Element.map_congr fun v hv => ?_
    cases v with
    | inl s => exact legalText_eq_self (legal_domainTemplate hlegal hv)
    | inr x => rfl
  rw [parse_write (valid_domainXMLModel hlegal id field), map_domainXMLModel, hlit]

end ReadBack

/-- The profiles are legal. -/
theorem Applied.legal {spec : DomainSpec} {caps : HostFeatures} {profile : AppliedProfile}
    (h : Applied spec caps profile) : (spec.shape profile).Legal := by
  have hnic : ∀ s ∈ ["", "virtio", "e1000e", "rtl8139"], legalString s = true := by
    decide
  have hlit : ∀ s ∈ ["", "none", "scsi", "sata"], legalString s = true := by
    decide
  obtain ⟨base, hbase, rfl⟩ := h.base
  have hoverride : ∀ s, legalString s = true →
      legalString (if spec.nicModel = "" then s else spec.nicModel) = true := by
    intro s hs
    split
    · exact hs
    · exact hnic _ h.nicModel
  cases hbase with
  | windows =>
    exact ⟨hlit "none" (by decide), hlit "scsi" (by decide), hoverride "virtio" (by decide)⟩
  | other => exact ⟨hlit "" (by decide), hlit "sata" (by decide), hoverride "e1000e" (by decide)⟩
  | linux =>
    exact ⟨hlit "none" (by decide), hlit "scsi" (by decide), hoverride "virtio" (by decide)⟩

/-- **Inversion** of `buildDomainXML`. -/
theorem inv_buildDomainXML {spec : DomainSpec} {caps : HostFeatures} {doc : String}
    {profile : AppliedProfile} (h : buildDomainXML spec caps = .ok (doc, profile)) :
    appliedProfile spec caps = .ok profile ∧
      doc = .ofList (declaration ++ (spec.domain profile).write 0) := by
  rw [buildDomainXML] at h
  cases hprofile : appliedProfile spec caps with
  | error e =>
    rw [hprofile] at h
    cases h
  | ok p =>
    rw [hprofile] at h
    obtain ⟨hdoc, rfl⟩ := Prod.mk.inj (Except.ok.inj h)
    exact ⟨rfl, hdoc.symm⟩

theorem applied_of_build {spec : DomainSpec} {caps : HostFeatures} {doc : String}
    {profile : AppliedProfile} (h : buildDomainXML spec caps = .ok (doc, profile)) :
    Applied spec caps profile :=
  applied_of_ok (inv_buildDomainXML h).1

/-- **The document** parses to the domain element, with the white space of the document, and with
the characters replaced that it cannot hold. -/
theorem parse_buildDomainXML {spec : DomainSpec} {caps : HostFeatures} {doc : String}
    {profile : AppliedProfile} (h : buildDomainXML spec caps = .ok (doc, profile)) :
    parse doc = some ((domainXMLModel id (legalText ∘ spec.field) (spec.shape profile)).indented
      0) := by
  obtain ⟨hprofile, rfl⟩ := inv_buildDomainXML h
  exact parse_domainXMLModel (applied_of_ok hprofile).legal spec.field

end Ultrav
