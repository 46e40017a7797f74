import Ultrav.BackupStore
import Ultrav.Decimal
import Ultrav.DomainReading

/-!
# Reading a domain back

How the provider makes the machine of the API from the document of a domain.

* `parseInt` / `Element.lastAttr` / `Element.numberAt` — how values are decoded.
* `PerformanceProfile` — the profile of the API; `AppliedProfile.toAPI`.
* `detectProfile` / `osTypeFromDomainXML` — the profile and the OS family of a document.
* `domainToModel` — the machine.
* `domainToModel_root` / `detectProfile_root` — what they make of a document that was built.
-/

namespace Ultrav

open Xml

/-! ## Decoding values -/

/-- `unicode.IsSpace` -/
def isSpace (c : Char) : Bool :=
  (9 ≤ c.toNat && c.toNat ≤ 13) || c.toNat ∈ [0x20, 0x85, 0xA0, 0x1680, 0x2028, 0x2029, 0x202F,
    0x205F, 0x3000] || (0x2000 ≤ c.toNat && c.toNat ≤ 0x200A)

/-- `strings.TrimSpace` -/
def trimSpace (s : String) : String :=
  .ofList ((s.toList.dropWhile isSpace).reverse.dropWhile isSpace).reverse

/-- Decimal digits. -/
def readDigits (cs : List Char) : Option ℕ :=
  if cs ≠ [] ∧ cs.all Char.isDigit then some (Decimal.value cs) else none

/-- `strconv.ParseInt` in base 10. The documents have 64-bit numbers only. -/
def readSigned : List Char → Option ℤ
  | '-' :: cs => (readDigits cs).map fun n => -(n : ℤ)
  | '+' :: cs => (readDigits cs).map fun n => (n : ℤ)
  | cs => (readDigits cs).map fun n => (n : ℤ)

/-- An integer as `encoding/xml` decodes it. -/
def parseInt (s : String) : Option ℤ :=
  if s = "" then some 0 else readSigned (trimSpace s).toList

namespace Xml.Element

/-- A field for an attribute: the last value wins. -/
def lastAttr (path : List String) (key : String) (e : Element String) : String :=
  (e.attrsAt path key).getLastD ""

/-- A field for the character data of an element, as a number. -/
def numberAt (path : List String) (e : Element String) : Option ℤ :=
  ((e.textsAt path).mapM parseInt).map fun ns => ns.getLastD 0

end Xml.Element

/-! ## The profile -/

/-- `types.PerformanceProfile` -/
structure PerformanceProfile where
  cpuMode : String
  diskBus : String
  cache : Option String
  nicModel : Option String
  ioThreads : ℤ
  /-- a pointer to a list -/
  hypervEnlightenments : Option (List String)
  deriving DecidableEq, Repr

/-- `toAPI` -/
def AppliedProfile.toAPI (a : AppliedProfile) : PerformanceProfile where
  cpuMode :=
    if a.cpuMode = "host-passthrough" then "host-passthrough"
    else if a.cpuMode = "host-model" then "host-model"
    else "custom"
  diskBus := if a.diskBus = "sata" then "sata" else "scsi"
  cache := if a.cache ≠ "" then some a.cache else none
  nicModel := if a.nicModel ≠ "" then some a.nicModel else none
  ioThreads := a.ioThreads
  hypervEnlightenments := some a.hypervEnlightenments

/-- `detectProfileFromDomainXML`, of a document that parses: the OS type and the profile. -/
def detectProfile (root : Element String) : Option (String × PerformanceProfile) :=
  if (root.follow ["features", "hyperv"]).isEmpty then none -- pre-profile domain
  else
    let disks := (root.follow ["devices", "disk"]).filter fun d => d.attr "device" = some "disk"
    let caches := (disks.map (Element.lastAttr ["driver"] "cache")).filter (· ≠ "")
    let model := root.lastAttr ["devices", "interface", "model"] "type"
    let threads : Option ℤ :=
      if (root.follow ["iothreads"]).isEmpty then some 0 else root.numberAt ["iothreads"]
    threads.map fun ioThreads => ("windows",
      { cpuMode := root.lastAttr ["cpu"] "mode"
        diskBus :=
          if disks.any fun d => d.lastAttr ["target"] "bus" = "sata" then "sata" else "scsi"
        cache := caches.getLast?
        nicModel := if model ∈ ["virtio", "e1000e", "rtl8139"] then some model else none
        ioThreads := ioThreads
        hypervEnlightenments := none })

def detectProfileFromDomainXML (doc : String) : Option (String × PerformanceProfile) :=
  (parse doc).bind detectProfile

/-- `osTypeFromDomainXML` -/
def osTypeFromDomainXML (doc : String) : String :=
  match parse doc with
  | none => ""
  | some root => if (root.follow ["features", "hyperv"]).isEmpty then "linux" else "windows"

/-! ## The machine -/

/-- `types.Disk`, without the sizes, which are of the volume. -/
structure ModelDisk where
  name : String
  format : String
  bus : Option String
  deriving DecidableEq, Repr

/-- `types.NetworkInterface` -/
structure ModelNIC where
  name : String
  model : String
  macAddress : String
  network : Option String
  deriving DecidableEq, Repr

/-- What `types.VirtualMachine` has from the definition of a domain. -/
structure DomainModel where
  name : String
  vcpus : ℤ
  memoryBytes : ℤ
  os : Option String
  osType : Option String
  performanceProfile : Option PerformanceProfile
  isoId : Option String
  disks : List ModelDisk
  networkInterfaces : List ModelNIC
  deriving DecidableEq, Repr

/-- `normalizeBytes`; sizes are below 2^63 bytes. -/
def normalizeBytes (value : ℤ) (unit : String) : ℤ :=
  let unit := String.ofList (unit.toList.map Char.toLower)
  if unit = "b" || unit = "bytes" || unit = "" then value
  else if unit = "kib" || unit = "k" then value * 1024
  else if unit = "mib" || unit = "m" then value * 1024 * 1024
  else if unit = "gib" || unit = "g" then value * 1024 * 1024 * 1024
  else if unit = "tib" || unit = "t" then value * 1024 * 1024 * 1024 * 1024
  else if unit = "kb" then value * 1000
  else if unit = "mb" then value * 1000 * 1000
  else if unit = "gb" then value * 1000 * 1000 * 1000
  else value

/-- `diskFormat` -/
def diskFormat (t : String) : String := if t = "raw" then "raw" else "qcow2"

/-- `diskBus` -/
def diskBus (b : String) : Option String :=
  if b = "virtio" || b = "sata" || b = "scsi" then some b else none

/-- `nicModel`, of the type of an interface. -/
def nicModel (ifaceType : String) : String :=
  if ifaceType = "virtio" then "virtio"
  else if ifaceType = "e1000" then "e1000"
  else "rtl8139"

/-- `osNameFromXML` -/
def osNameFromXML (os : String) : Option String :=
  if trimSpace os = "" then none else some (trimSpace os)

/-- A `domainDisk` as a disk of the API. -/
def modelDisk (d : Element String) : ModelDisk where
  name := d.lastAttr ["target"] "dev"
  format := diskFormat (d.lastAttr ["driver"] "type")
  bus := diskBus (d.lastAttr ["target"] "bus")

/-- A `domainNIC` as an interface of the API. -/
def modelNIC (n : Element String) : ModelNIC where
  name := n.lastAttr ["target"] "dev"
  model := nicModel ((n.attr "type").getD "")
  macAddress := n.lastAttr ["mac"] "address"
  network :=
    if n.lastAttr ["source"] "network" ≠ "" then some (n.lastAttr ["source"] "network")
    else if n.lastAttr ["source"] "bridge" ≠ "" then some (n.lastAttr ["source"] "bridge")
    else none

/-- The ISO of the first CD-ROM that has one. -/
def modelISO (disks : List (Element String)) : Option String :=
  (disks.find? fun d => d.attr "device" = some "cdrom" && d.lastAttr ["source"] "file" ≠ "").map
    fun d => filepathBase (d.lastAttr ["source"] "file")

/-- `domainToModel`, for the name and the definition of a domain, with what the definition has. -/
def domainToModel (name doc : String) : Option DomainModel := do
  let root ← parse doc
  let memory ← root.numberAt ["memory"]
  let currentMemory ← root.numberAt ["currentMemory"]
  let vcpus ← root.numberAt ["vcpu"]
  let memBytes := normalizeBytes memory (root.lastAttr ["memory"] "unit")
  let disks := root.follow ["devices", "disk"]
  pure
    { name := name
      vcpus := vcpus
      memoryBytes :=
        if memBytes = 0 then normalizeBytes currentMemory (root.lastAttr ["currentMemory"] "unit")
        else memBytes
      os := osNameFromXML ((root.textsAt ["os", "type"]).getLastD "")
      osType := if osTypeFromDomainXML doc = "" then none else some (osTypeFromDomainXML doc)
      performanceProfile := (detectProfileFromDomainXML doc).map Prod.snd
      isoId := modelISO disks
      disks := (disks.filter fun d => d.attr "device" = some "disk").map modelDisk
      networkInterfaces := (root.follow ["devices", "interface"]).map modelNIC }

/-! ## Numbers -/

theorem dropWhile_isSpace {cs : List Char} (h : ∀ c ∈ cs, isSpace c = false) :
    cs.dropWhile isSpace = cs := by
  cases cs with
  | nil => rfl
  | cons c cs => rw [List.dropWhile_cons_of_neg (by simp [h c List.mem_cons_self])]

theorem trimSpace_eq_self {s : String} (h : ∀ c ∈ s.toList, isSpace c = false) :
    trimSpace s = s := by
  have hreverse : ∀ c ∈ s.toList.reverse, isSpace c = false :=
    fun c hc => h c (List.mem_reverse.mp hc)
  rw [trimSpace, dropWhile_isSpace h, dropWhile_isSpace hreverse, List.reverse_reverse,
    String.ofList_toList]

theorem isSpace_of_isDigit {c : Char} (h : c.isDigit = true) : isSpace c = false := by
  simp only [Char.isDigit, Bool.and_eq_true, decide_eq_true_eq, ge_iff_le,
    UInt32.le_iff_toNat_le] at h
  have hle : 0x30 ≤ c.toNat ∧ c.toNat ≤ 0x39 := h
  simp only [isSpace, Bool.or_eq_false_iff, Bool.and_eq_false_iff, decide_eq_false_iff_not,
    List.mem_cons, List.not_mem_nil, or_false]
  omega

theorem isDigit_numeral {m : ℕ} {c : Char} (h : c ∈ Nat.toDigits 10 m) :
    c.isDigit = true := Nat.isDigit_of_mem_toDigits (by decide) (by decide) h

theorem readDigits_toDigits (m : ℕ) : readDigits (Nat.toDigits 10 m) = some m := by
  have hall : (Nat.toDigits 10 m).all Char.isDigit = true :=
    List.all_eq_true.mpr fun _ hc => isDigit_numeral hc
  rw [readDigits, if_pos ⟨Nat.toDigits_ne_nil, hall⟩, Decimal.value,
    Nat.ofDigitChars_ten_toDigits]

theorem readSigned_toDigits (m : ℕ) : readSigned (Nat.toDigits 10 m) = some (m : ℤ) := by
  have hsign : ∀ c cs, Nat.toDigits 10 m = c :: cs → c.isDigit = true := fun c cs hcs =>
    isDigit_numeral (hcs ▸ List.mem_cons_self)
  rw [readSigned.eq_def]
  split
  · exact absurd (hsign _ _ ‹_›) (by decide)
  · exact absurd (hsign _ _ ‹_›) (by decide)
  · rw [readDigits_toDigits]
    rfl

/-- **Round trip** for numbers. -/
theorem parseInt_toString (n : ℤ) : parseInt (toString n) = some n := by
  have hread : ∀ s : String, s.toList ≠ [] → (∀ c ∈ s.toList, isSpace c = false) →
      readSigned s.toList = some n → parseInt s = some n := by
    intro s hne hspace hsigned
    have hempty : s ≠ "" := fun heq => hne (heq ▸ rfl)
    rw [parseInt, if_neg hempty, trimSpace_eq_self hspace, hsigned]
  cases n with
  | ofNat m =>
    have hlist : (toString (Int.ofNat m)).toList = Nat.toDigits 10 m := String.toList_ofList
    refine hread _ ?_ ?_ ?_ <;> rw [hlist]
    · exact Nat.toDigits_ne_nil
    · exact fun c hc => isSpace_of_isDigit (isDigit_numeral hc)
    · exact readSigned_toDigits m
  | negSucc m =>
    have hlist : (toString (Int.negSucc m)).toList = '-' :: Nat.toDigits 10 (m + 1) := by
      change ("-" ++ (m + 1).repr).toList = _
      rw [String.toList_append]
      exact congrArg ('-' :: ·) String.toList_ofList
    refine hread _ ?_ ?_ ?_ <;> rw [hlist]
    · exact List.cons_ne_nil _ _
    · intro c hc
      rcases List.mem_cons.mp hc with rfl | hc
      · decide
      · exact isSpace_of_isDigit (isDigit_numeral hc)
    · rw [readSigned, readDigits_toDigits]
      rfl

/-! ## What is made of a document that was built -/

section Root

variable (field : SpecField → String) (shape : DomainShape)

theorem lastAttr_indented (path : List String) (key : String) (depth : ℕ) (e : Element String) :
    (e.indented depth).lastAttr path key = e.lastAttr path key := by
  rw [Element.lastAttr, Element.lastAttr, Element.attrsAt_indented]

/-- A number in an element of its own. -/
theorem numberAt_indented {e : Element String} {n : String} {attrs : List (String × String)}
    {k : ℤ} (h : e.follow [n] = [textXML n attrs (toString k)]) :
    (e.indented 0).numberAt [n] = some k := by
  have htext : ∀ c ∈ e.follow [n], c.children = [] := by
    simp [h]
  have hparse : [toString k].mapM parseInt = some [k] := by
    rw [List.mapM_cons, parseInt_toString]
    rfl
  rw [Element.numberAt, Element.textsAt_indented htext, Element.textsAt, h, List.map_singleton,
    text_textXML, hparse]
  rfl

/-- The disk elements. -/
theorem follow_disk_root : ((domainXMLModel id field shape).indented 0).follow ["devices", "disk"] =
    ((disksXML id field shape).map (DiskXML.element id)).map (Element.indented 2) := by
  rw [Element.follow_indented, follow_disk]
  rfl

/-- The disk elements that are no CD-ROMs. -/
theorem filter_diskElements :
    (((domainXMLModel id field shape).indented 0).follow ["devices", "disk"]).filter
      (fun d => d.attr "device" = some "disk") =
        [((systemDisk field shape (shape.iso.toNat + shape.virtioISO.toNat)).element id).indented
          2] := by
  have hcdrom : ∀ e ∈ ((cdromDisks id field shape).map (DiskXML.element id)).map
      (Element.indented 2), ¬decide (e.attr "device" = some "disk") = true := by
    intro e he
    obtain ⟨e', he', rfl⟩ := List.mem_map.mp he
    obtain ⟨d, hd, rfl⟩ := List.mem_map.mp he'
    obtain ⟨-, rfl⟩ | ⟨-, rfl⟩ := (mem_cdromDisks ..).mp hd
    · simp [DiskXML.element, cdromDisk]
    · simp [DiskXML.element, cdromDisk]
  rw [follow_disk_root, disksXML, length_cdromDisks, List.map_append, List.map_append,
    List.filter_append, List.filter_eq_nil_iff.mpr hcdrom]
  simp [DiskXML.element, systemDisk]

theorem find?_omitEmpty (key k value : String) :
    (omitEmpty id k value).find? (fun a => decide (a.1 = key)) =
      if k = key ∧ value ≠ "" then some (k, value) else none := by
  by_cases hk : k = key <;> by_cases hv : value = "" <;> simp [omitEmpty, present, hk, hv]

/-- What is read of a disk. -/
theorem lastAttr_disk (d : DiskXML String) (depth : ℕ) :
    ((d.element id).indented depth).lastAttr ["driver"] "type" = d.driver.type ∧
    ((d.element id).indented depth).lastAttr ["driver"] "cache" = d.driver.cache ∧
    ((d.element id).indented depth).lastAttr ["source"] "file" = d.file ∧
    ((d.element id).indented depth).lastAttr ["target"] "dev" = d.dev ∧
    ((d.element id).indented depth).lastAttr ["target"] "bus" = d.bus := by
  simp only [lastAttr_indented]
  have htype : (d.driver.element id).attr "type" = some d.driver.type := by
    simp [DiskDriver.element]
  have hcache : ((d.driver.element id).attr "cache").getD "" = d.driver.cache := by
    by_cases h : d.driver.cache = "" <;>
      simp [DiskDriver.element, List.find?_append, find?_omitEmpty, h]
  cases hboot : d.boot <;>
    simp [Element.lastAttr, Element.attrsAt, Element.follow, DiskXML.element, htype, hcache, hboot]

theorem cache_systemDisk (n : ℕ) :
    (systemDisk field shape n).driver.cache = shape.profile.cache := by
  by_cases h : shape.profile.cache = "" <;> simp [systemDisk, h]

theorem type_systemDisk (n : ℕ) : (systemDisk field shape n).driver.type = field .diskFormat := by
  by_cases h : shape.profile.cache = "" <;> simp [systemDisk, h]

/-- The number of I/O threads of a document. -/
theorem ioThreads_root (hos : shape.profile.osType = "windows") :
    ((domainXMLModel id field shape).indented 0).numberAt ["iothreads"] =
      some (shape.profile.ioThreads : ℤ) := by
  have hfollow := follow_iothreads id field shape
  rw [hos] at hfollow
  exact numberAt_indented hfollow

theorem nicModel_root : ((domainXMLModel id field shape).indented 0).lastAttr
    ["devices", "interface", "model"] "type" = shape.profile.nicModel := by
  rw [lastAttr_indented]
  simp [Element.lastAttr, Element.attrsAt, Element.follow, domainXMLModel, devicesXML,
    fixedDevicesXML, interfaceXML]

theorem cpuMode_root (hos : shape.profile.osType = "windows") :
    ((domainXMLModel id field shape).indented 0).lastAttr ["cpu"] "mode" = "host-passthrough" := by
  rw [lastAttr_indented]
  simp [Element.lastAttr, Element.attrsAt, follow_cpu, cpuXML, hos]

/-- **The profile of a document**: only for windows, and without its features. -/
theorem detectProfile_root :
    detectProfile ((domainXMLModel id field shape).indented 0) =
      if shape.profile.osType = "windows" then some ("windows",
        { cpuMode := "host-passthrough"
          diskBus := if shape.profile.diskBus = "sata" then "sata" else "scsi"
          cache := if shape.profile.cache ≠ "" then some shape.profile.cache else none
          nicModel := if shape.profile.nicModel ∈ ["virtio", "e1000e", "rtl8139"] then
            some shape.profile.nicModel else none
          ioThreads := shape.profile.ioThreads
          hypervEnlightenments := none })
      else none := by
  by_cases hos : shape.profile.osType = "windows"
  · obtain ⟨-, hcache, -, -, hbus⟩ := lastAttr_disk
      (systemDisk field shape (shape.iso.toNat + shape.virtioISO.toNat)) 2
    have hthreads : (((domainXMLModel id field shape).indented 0).follow ["iothreads"]).isEmpty =
        false := by
      rw [Element.follow_indented, follow_iothreads, hos]
      rfl
    have hhyperv : (((domainXMLModel id field shape).indented 0).follow
        ["features", "hyperv"]).isEmpty = false := by
      rw [Element.follow_indented, follow_hyperv, hos]
      rfl
    rw [detectProfile, filter_diskElements, hthreads, hhyperv, ioThreads_root field shape hos,
      nicModel_root, cpuMode_root field shape hos, if_pos hos]
    rw [cache_systemDisk] at hcache
    change _ = shape.profile.diskBus at hbus
    simp [hcache, hbus]
  · rw [detectProfile, Element.follow_indented, follow_hyperv, if_neg hos]
    simp [present, hos]

end Root

/-! ## The reported profile -/

section Profile

variable {spec : DomainSpec} {caps : HostFeatures} {doc : String} {profile : AppliedProfile}

/-- The profile that is read back is the one that was applied. -/
def ProfileReported (doc : String) (profile : AppliedProfile) : Prop :=
  ∃ osType, detectProfileFromDomainXML doc = some (osType, profile.toAPI)

theorem detectProfileFromDomainXML_build (h : buildDomainXML spec caps = .ok (doc, profile)) :
    detectProfileFromDomainXML doc = if profile.osType = "windows" then
      some ("windows", { profile.toAPI with hypervEnlightenments := none }) else none := by
  have happlied := applied_of_build h
  have hnic := happlied.nicModel_mem
  have hempty : profile.nicModel ≠ "" := by
    intro hempty
    rw [hempty] at hnic
    exact absurd hnic (by decide)
  rw [detectProfileFromDomainXML, parse_buildDomainXML h, Option.bind_some, detectProfile_root,
    DomainSpec.shape, AppliedProfile.toAPI, happlied.cpuMode, if_pos hempty, if_pos hnic]
  by_cases hos : profile.osType = "windows"
  · simp [hos]
  · rw [if_neg hos, if_neg hos]

/-- **The reported profile** is never the applied one: there is none for linux and other, and
that of windows is without its enlightenments. -/
theorem not_profileReported (h : buildDomainXML spec caps = .ok (doc, profile)) :
    ¬ ProfileReported doc profile := by
  rintro ⟨osType, hdetect⟩
  rw [detectProfileFromDomainXML_build h] at hdetect
  split at hdetect
  · have hprofile := congrArg (fun p => p.2.hypervEnlightenments) (Option.some.inj hdetect)
    cases hprofile
  · cases hdetect

/-- A machine with everything left to the profile. -/
def plainSpec (osType : String) : DomainSpec where
  name := "erp01"
  memoryBytes := 4294967296
  vcpus := 4
  osType := osType
  diskPath := "/pool/erp01.qcow2"
  diskFormat := "qcow2"
  networkId := "default"
  isoPath := "/isos/install.iso"
  virtioISOPath := ""
  nicModel := ""

theorem not_profileReported_linux : ∃ doc profile,
    buildDomainXML (plainSpec "linux") ⟨ver 8 2 0, ver 10 0 0⟩ = .ok (doc, profile) ∧
      ¬ ProfileReported doc profile := by
  have hbuild : buildDomainXML (plainSpec "linux") ⟨ver 8 2 0, ver 10 0 0⟩ = .ok (_, _) := rfl
  exact ⟨_, _, hbuild, not_profileReported hbuild⟩

/-- The enlightenments of a windows machine are not reported. -/
theorem unreported_windows : ∃ doc profile,
    buildDomainXML (plainSpec "windows") ⟨ver 8 2 0, ver 10 0 0⟩ = .ok (doc, profile) ∧
      profile.hypervEnlightenments.length = 11 ∧ ¬ ProfileReported doc profile := by
  have hbuild : buildDomainXML (plainSpec "windows") ⟨ver 8 2 0, ver 10 0 0⟩ = .ok (_, _) := rfl
  refine ⟨_, _, hbuild, by decide, ?_⟩
  rintro ⟨osType, hdetect⟩
  rw [detectProfileFromDomainXML_build hbuild, if_pos (by decide)] at hdetect
  cases congrArg (fun p => p.2.hypervEnlightenments) (Option.some.inj hdetect)

end Profile

end Ultrav
