import Ultrav.DomainModel
import Ultrav.DomainStructure

/-!
# Created machines as they are reported

What `domainToModel` makes of the document that `buildDomainXML` wrote.

* `domainToModel_build` — the machine, field by field.
* `ReportedAs` — the machine is as it was asked for.
* `Readable` — the specifications for which it is.
* `reportedAs_iff` — exactly for those.
-/

namespace Ultrav

open Xml

/-! ## Replaced characters -/

theorem legalize_eq_slash (c : Char) : legalize c = '/' ↔ c = '/' := by
  rw [legalize]
  split
  · rfl
  · rename_i hlegal
    refine ⟨fun h => absurd h (by decide), ?_⟩
    rintro rfl
    exact absurd (by decide) hlegal

/-- The file name of a path is replaced as the path is. -/
theorem filepathBase_legalText {path : String} (h : path ≠ "") :
    filepathBase (legalText path) = legalText (filepathBase path) := by
  have hslash : (fun c => decide (c = '/')) ∘ legalize = fun c : Char => decide (c = '/') := by
    funext c
    simp [legalize_eq_slash]
  have hother : (fun c => decide (c ≠ '/')) ∘ legalize = fun c : Char => decide (c ≠ '/') := by
    funext c
    simp [legalize_eq_slash]
  rw [filepathBase, filepathBase, if_neg h, if_neg (mt legalText_eq_empty.mp h), legalText,
    String.toList_ofList, ← List.map_reverse, List.dropWhile_map, hslash]
  cases hcs : path.toList.reverse.dropWhile fun c => decide (c = '/') with
  | nil =>
    rw [List.map_nil]
    decide
  | cons c cs =>
    rw [List.map_cons]
    dsimp only
    rw [← List.map_cons, List.takeWhile_map, hother, ← List.map_reverse, legalText,
      String.toList_ofList]

/-! ## The machine -/

section Machine

variable (field : SpecField → String) (shape : DomainShape)

/-- The first CD-ROM with a file, be it of install media or of drivers. -/
theorem modelISO_root (hiso : shape.iso = true → field .isoPath ≠ "")
    (hvirtio : shape.virtioISO = true → field .virtioISOPath ≠ "") :
    modelISO (((domainXMLModel id field shape).indented 0).follow ["devices", "disk"]) =
      if shape.iso = true then some (filepathBase (field .isoPath))
      else if shape.virtioISO = true then some (filepathBase (field .virtioISOPath))
      else none := by
  have hfile : ∀ d : DiskXML String,
      ((d.element id).indented 2).lastAttr ["source"] "file" = d.file :=
    fun d => (lastAttr_disk d 2).2.2.1
  have hdevice : ∀ d : DiskXML String,
      ((d.element id).indented 2).attr "device" = some d.device := by
    intro d
    simp [DiskXML.element]
  rw [modelISO, follow_disk_root, disksXML]
  cases hi : shape.iso <;> cases hv : shape.virtioISO <;>
    simp_all [cdromDisks, cdromDisk, systemDisk, present]

theorem modelNIC_root (hnetwork : field .networkId ≠ "") :
    (((domainXMLModel id field shape).indented 0).follow ["devices", "interface"]).map modelNIC =
      [⟨"", "rtl8139", "", some (field .networkId)⟩] := by
  rw [Element.follow_indented, follow_interface]
  simp [modelNIC, interfaceXML, Element.lastAttr, Element.attrsAt, Element.follow, nicModel,
    hnetwork]

theorem modelDisk_systemDisk (n : ℕ) (hbus : shape.profile.diskBus = "sata" ∨
    shape.profile.diskBus = "scsi") :
    modelDisk (((systemDisk field shape n).element id).indented 2) =
      ⟨nextDevName n, diskFormat (field .diskFormat), some shape.profile.diskBus⟩ := by
  obtain ⟨htype, -, -, hdev, hb⟩ := lastAttr_disk (systemDisk field shape n) 2
  have hknown : diskBus shape.profile.diskBus = some shape.profile.diskBus := by
    rcases hbus with h | h <;> rw [h] <;> rfl
  rw [modelDisk, htype, hdev, hb, type_systemDisk]
  exact congrArg (ModelDisk.mk _ _) hknown

end Machine

/-- The name under which a definition is stored. -/
def storedName (doc : String) : String :=
  ((parse doc).map fun root => (root.textsAt ["name"]).getLastD "").getD ""

section Report

variable {spec : DomainSpec} {caps : HostFeatures} {doc : String} {profile : AppliedProfile}

/-- The number of CD-ROMs. -/
def DomainSpec.cdroms (spec : DomainSpec) : ℕ :=
  (decide (spec.isoPath ≠ "")).toNat + (decide (spec.virtioISOPath ≠ "")).toNat

theorem storedName_build (h : buildDomainXML spec caps = .ok (doc, profile)) :
    storedName doc = legalText spec.name := by
  have hname : ∀ c ∈ (domainXMLModel id (legalText ∘ spec.field) (spec.shape profile)).follow
      ["name"], c.children = [] := by
    simp [follow_name]
  rw [storedName, parse_buildDomainXML h, Option.map_some, Option.getD_some,
    Element.textsAt_indented hname, Element.textsAt, follow_name]
  rfl

theorem numberAt_currentMemory (spec : DomainSpec) (profile : AppliedProfile) :
    (spec.root profile).numberAt ["currentMemory"] = some 0 := by
  rw [Element.numberAt, Element.textsAt, DomainSpec.root, Element.follow_indented]
  simp [Element.follow, domainXMLModel]

theorem memoryUnit_root (spec : DomainSpec) (profile : AppliedProfile) :
    (spec.root profile).lastAttr ["memory"] "unit" = "bytes" := by
  rw [DomainSpec.root, lastAttr_indented, Element.lastAttr, Element.attrsAt, follow_memory]
  rfl

theorem osType_root (spec : DomainSpec) (profile : AppliedProfile) :
    ((spec.root profile).textsAt ["os", "type"]).getLastD "" = "hvm" := by
  rw [DomainSpec.root, Element.textsAt_indented]
  · simp [Element.textsAt, Element.follow, domainXMLModel, osXML]
  · simp [Element.follow, domainXMLModel, osXML]

theorem field_ne_empty {x : SpecField} (hx : spec.field x ≠ "") :
    (legalText ∘ spec.field) x ≠ "" := mt legalText_eq_empty.mp hx

/-- The install media that are reported: the first CD-ROM that was asked for. -/
theorem modelISO_build (spec : DomainSpec) (profile : AppliedProfile) :
    modelISO ((spec.root profile).follow ["devices", "disk"]) =
      if spec.isoPath ≠ "" then some (legalText (filepathBase spec.isoPath))
      else if spec.virtioISOPath ≠ "" then some (legalText (filepathBase spec.virtioISOPath))
      else none := by
  refine (modelISO_root (legalText ∘ spec.field) (spec.shape profile)
    (fun hiso => field_ne_empty (x := .isoPath) (of_decide_eq_true hiso))
    (fun hvirtio => field_ne_empty (x := .virtioISOPath) (of_decide_eq_true hvirtio))).trans ?_
  by_cases hi : spec.isoPath = "" <;> by_cases hv : spec.virtioISOPath = "" <;>
    simp [DomainSpec.shape, DomainSpec.field, hi, hv, filepathBase_legalText]

/-- The one disk that is reported. -/
theorem modelDisk_build (hbus : profile.diskBus = "sata" ∨ profile.diskBus = "scsi") :
    (((spec.root profile).follow ["devices", "disk"]).filter
      (fun d => d.attr "device" = some "disk")).map modelDisk = [⟨nextDevName spec.cdroms,
        diskFormat (legalText spec.diskFormat), some profile.diskBus⟩] := by
  rw [DomainSpec.root, filter_diskElements, List.map_singleton, modelDisk_systemDisk _ _ _ hbus]
  rfl

theorem osTypeFromDomainXML_ne_empty (h : buildDomainXML spec caps = .ok (doc, profile)) :
    osTypeFromDomainXML doc ≠ "" := by
  rw [osTypeFromDomainXML, parse_buildDomainXML h]
  dsimp only
  split <;> decide

/-- **The machine** that is reported of a document that was built. -/
theorem domainToModel_build (h : buildDomainXML spec caps = .ok (doc, profile)) (name : String) :
    domainToModel name doc = some
      { name := name
        vcpus := spec.vcpus
        memoryBytes := spec.memoryBytes
        os := some "hvm"
        osType := some (osTypeFromDomainXML doc)
        performanceProfile := (detectProfileFromDomainXML doc).map Prod.snd
        isoId :=
          if spec.isoPath ≠ "" then some (legalText (filepathBase spec.isoPath))
          else if spec.virtioISOPath ≠ "" then some (legalText (filepathBase spec.virtioISOPath))
          else none
        disks := [⟨nextDevName spec.cdroms, diskFormat (legalText spec.diskFormat),
          some profile.diskBus⟩]
        networkInterfaces := [⟨"", "rtl8139", "", some (legalText spec.networkId)⟩] } := by
  have happlied := applied_of_build h
  have hbus : profile.diskBus = "sata" ∨ profile.diskBus = "scsi" := by
    rw [happlied.diskBus]
    split
    · exact .inl rfl
    · exact .inr rfl
  have hmemory : (spec.root profile).numberAt ["memory"] = some spec.memoryBytes :=
    numberAt_indented (follow_memory ..)
  have hvcpus : (spec.root profile).numberAt ["vcpu"] = some spec.vcpus :=
    numberAt_indented (follow_vcpu ..)
  have hnic : ((spec.root profile).follow ["devices", "interface"]).map modelNIC = _ :=
    modelNIC_root (legalText ∘ spec.field) (spec.shape profile)
      (field_ne_empty (x := .networkId) happlied.networkId)
  have hosName : osNameFromXML "hvm" = some "hvm" := by
    decide
  have hnormal : ∀ n : ℤ, normalizeBytes n "bytes" = n := fun n => by
    simp [normalizeBytes]
  have hne : spec.memoryBytes ≠ 0 := by
    have := happlied.memoryBytes
    omega
  have hparse : parse doc = some (spec.root profile) := parse_buildDomainXML h
  simp only [domainToModel, hparse, Option.bind_eq_bind, Option.bind_some, hmemory, hvcpus,
    numberAt_currentMemory, memoryUnit_root, osType_root, hosName, modelISO_build, hnic,
    modelDisk_build hbus, hnormal, if_neg hne, if_neg (osTypeFromDomainXML_ne_empty h)]
  rfl

/-- The nearest model that the API has for an adapter. -/
def apiModel (model : String) : String := if model = "e1000e" then "e1000" else model

/-- The machine is as it was asked for. -/
structure ReportedAs (spec : DomainSpec) (profile : AppliedProfile) (m : DomainModel) : Prop where
  name : m.name = spec.name
  vcpus : m.vcpus = spec.vcpus
  memoryBytes : m.memoryBytes = spec.memoryBytes
  /-- one disk, of the format asked for and on the bus of the profile, behind the CD-ROMs -/
  disk : m.disks = [⟨nextDevName spec.cdroms, spec.diskFormat, some profile.diskBus⟩]
  /-- one adapter, on the network asked for and of the model that was written -/
  nic : m.networkInterfaces.map (fun n => (n.network, n.model)) =
    [(some spec.networkId, apiModel profile.nicModel)]
  /-- the install media, and no drivers -/
  isoId : m.isoId = if spec.isoPath = "" then none else some (filepathBase spec.isoPath)

/-- What is read back as it was asked for. -/
structure Readable (spec : DomainSpec) : Prop where
  /-- the adapter is the one that is always reported -/
  nicModel : spec.nicModel = "rtl8139"
  diskFormat : spec.diskFormat = "qcow2" ∨ spec.diskFormat = "raw"
  /-- drivers are not attached without install media -/
  drivers : spec.isoPath ≠ "" ∨ spec.virtioISOPath = ""
  name : spec.name.toList.all legal = true
  networkId : spec.networkId.toList.all legal = true
  isoName : spec.isoPath ≠ "" → (filepathBase spec.isoPath).toList.all legal = true

theorem diskFormat_legalText_iff (format : String) :
    diskFormat (legalText format) = format ↔ format = "qcow2" ∨ format = "raw" := by
  constructor
  · intro h
    rw [diskFormat] at h
    split at h
    · exact .inr h.symm
    · exact .inl h.symm
  · rintro (rfl | rfl)
    · decide
    · decide

theorem apiModel_iff (h : Applied spec caps profile) :
    "rtl8139" = apiModel profile.nicModel ↔ spec.nicModel = "rtl8139" := by
  have hmem := h.nicModel
  rw [h.nicModel_eq, apiModel]
  simp only [List.mem_cons, List.not_mem_nil, or_false] at hmem
  rcases hmem with hnic | hnic | hnic | hnic
  · by_cases hos : profile.osType = "other" <;> simp [hnic, hos]
  · simp [hnic]
  · simp [hnic]
  · simp [hnic]

theorem isoId_iff : (if spec.isoPath ≠ "" then some (legalText (filepathBase spec.isoPath))
      else if spec.virtioISOPath ≠ "" then some (legalText (filepathBase spec.virtioISOPath))
      else none) = (if spec.isoPath = "" then none else some (filepathBase spec.isoPath)) ↔
    (spec.isoPath ≠ "" ∨ spec.virtioISOPath = "") ∧
      (spec.isoPath ≠ "" → (filepathBase spec.isoPath).toList.all legal = true) := by
  by_cases hi : spec.isoPath = "" <;> by_cases hv : spec.virtioISOPath = "" <;>
    simp [hi, hv, legalText_eq_self_iff]

/-- **Reading back**: a machine is reported as it was asked for exactly when its adapter is the
one that is always reported, its format one of the two, drivers are attached next to install
media only, and its strings are legal. -/
theorem reportedAs_iff (h : buildDomainXML spec caps = .ok (doc, profile)) :
    (∃ m, domainToModel (storedName doc) doc = some m ∧ ReportedAs spec profile m) ↔
      Readable spec := by
  have happlied := applied_of_build h
  rw [domainToModel_build h, storedName_build h]
  constructor
  · rintro ⟨m, hm, hname, -, -, hdisk, hnic, hiso⟩
    obtain rfl := Option.some.inj hm
    obtain ⟨hdrivers, hbase⟩ := isoId_iff.mp hiso
    have hdisk := congrArg ModelDisk.format (List.singleton_inj.mp hdisk)
    have hnic := Prod.mk.inj (List.singleton_inj.mp hnic)
    exact {
      nicModel := (apiModel_iff happlied).mp hnic.2
      diskFormat := (diskFormat_legalText_iff _).mp hdisk
      drivers := hdrivers
      name := legalText_eq_self_iff.mp hname
      networkId := legalText_eq_self_iff.mp (Option.some.inj hnic.1)
      isoName := hbase }
  · intro hread
    refine ⟨_, rfl, legalText_eq_self hread.name, rfl, rfl, ?_, ?_, ?_⟩
    · rw [(diskFormat_legalText_iff _).mpr hread.diskFormat]
    · have hnic := (apiModel_iff happlied).mpr hread.nicModel
      rw [List.map_singleton, legalText_eq_self hread.networkId, ← hnic]
    · exact isoId_iff.mpr ⟨hread.drivers, hread.isoName⟩

/-- With the adapter of old machines. -/
theorem reportedAs_rtl8139 : ∃ doc profile,
    buildDomainXML { plainSpec "linux" with nicModel := "rtl8139" } ⟨0, 0⟩ = .ok (doc, profile) ∧
      ((∃ m, domainToModel (storedName doc) doc = some m ∧
        ReportedAs { plainSpec "linux" with nicModel := "rtl8139" } profile m) ↔
      Readable { plainSpec "linux" with nicModel := "rtl8139" }) := by
  have hbuild : buildDomainXML { plainSpec "linux" with nicModel := "rtl8139" } ⟨0, 0⟩ =
    .ok (_, _) := rfl
  exact ⟨_, _, hbuild, reportedAs_iff hbuild⟩

/-- A linux machine is reported with another adapter than the one it was given. -/
theorem misreported_linux : ∃ doc profile,
    buildDomainXML (plainSpec "linux") ⟨0, 0⟩ = .ok (doc, profile) ∧
      profile.nicModel = "virtio" ∧
      ∀ m, domainToModel (storedName doc) doc = some m →
        ¬ ReportedAs (plainSpec "linux") profile m ∧
        m.networkInterfaces.map ModelNIC.model = ["rtl8139"] := by
  have hbuild : buildDomainXML (plainSpec "linux") ⟨0, 0⟩ = .ok (_, _) := rfl
  refine ⟨_, _, hbuild, rfl, fun m hm => ?_⟩
  rw [domainToModel_build hbuild] at hm
  obtain rfl := Option.some.inj hm
  refine ⟨fun hreported => ?_, rfl⟩
  exact absurd (Prod.mk.inj (List.singleton_inj.mp hreported.nic)).2 (by decide)

end Report

end Ultrav
