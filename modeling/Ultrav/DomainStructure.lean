import Ultrav.DomainReading

/-!
# The domain that is built

What holds of the document of every accepted specification.

* `SpecField.read` — where a string of the specification is read from.
* `templateFor` — the template of a document: all of it but the strings.
* `buildDomainXML_template` — a document is its template with the strings in their places.
* `Structural` — the structure of a domain.
* `buildDomainXML_structural` — every document has it, with the features of the host.
-/

namespace Ultrav

open Xml

/-! ## Strings in their places -/

namespace SpecField

/-- The strings of a document, in its order. -/
def places (spec : DomainSpec) : List SpecField :=
  [.name] ++ present (spec.isoPath ≠ "") [.isoPath] ++
    present (spec.virtioISOPath ≠ "") [.virtioISOPath] ++ [.diskFormat, .diskPath, .networkId]

/-- Where a string is read from: install media is the CD-ROM that is booted from. -/
def read (root : Element String) : SpecField → List String
  | .name => root.textsAt ["name"]
  | .diskPath => ((readDisks root).filter fun d => d.device = some "disk").flatMap ReadDisk.file
  | .diskFormat =>
    ((readDisks root).filter fun d => d.device = some "disk").flatMap ReadDisk.format
  | .networkId => root.attrsAt ["devices", "interface", "source"] "network"
  | .isoPath => ((readDisks root).filter fun d =>
      d.device = some "cdrom" && !d.boot.isEmpty).flatMap ReadDisk.file
  | .virtioISOPath => ((readDisks root).filter fun d =>
      d.device = some "cdrom" && d.boot.isEmpty).flatMap ReadDisk.file

end SpecField

/-- The strings of a specification are legal in a document. -/
def DomainSpec.Legal (spec : DomainSpec) : Prop :=
  ∀ f, (spec.field f).toList.all legal = true

/-- The template of a document, by the OS type, the network adapter, the host, the numbers and
which optional paths there are. -/
def templateFor (osType nicModel : String) (caps : HostFeatures) (memoryBytes vcpus : ℤ)
    (iso virtioISO : Bool) : Except BuildError (Element (String ⊕ SpecField)) := do
  let profile ← osProfile caps (if osType = "" then "linux" else osType)
  let profile ← withNICModel profile nicModel
  pure (domainTemplate ⟨memoryBytes, vcpus, profile, iso, virtioISO⟩)

/-- The strings in their places. -/
def DomainSpec.fill (spec : DomainSpec) : String ⊕ SpecField → String :=
  Sum.elim id spec.field

section Template

/-- The strings of a specification that an element has, in the order of the document. -/
def holes (e : Element (String ⊕ SpecField)) : List SpecField :=
  e.values.filterMap Sum.getRight?

/-- Those in attributes. -/
def attrHoles (attrs : List (String × (String ⊕ SpecField))) : List SpecField :=
  attrs.filterMap fun a => a.2.getRight?

variable {attrs attrs' : List (String × (String ⊕ SpecField))} {n k : String}

@[simp] theorem attrHoles_nil : attrHoles [] = [] := rfl

@[simp] theorem attrHoles_inl (s : String) : attrHoles ((k, .inl s) :: attrs) = attrHoles attrs :=
  rfl

@[simp] theorem attrHoles_inr (x : SpecField) :
    attrHoles ((k, .inr x) :: attrs) = x :: attrHoles attrs := rfl

@[simp] theorem attrHoles_append :
    attrHoles (attrs ++ attrs') = attrHoles attrs ++ attrHoles attrs' :=
  List.filterMap_append

@[simp] theorem attrHoles_present (c : Bool) :
    attrHoles (present c attrs) = present c (attrHoles attrs) := filterMap_present ..

@[simp] theorem attrHoles_omitEmpty (value : String) :
    attrHoles (omitEmpty .inl k value) = [] := by
  simp [omitEmpty]

@[simp] theorem holes_structXML (cs : List (Element (String ⊕ SpecField))) :
    holes (structXML .inl n attrs cs) = attrHoles attrs ++ cs.flatMap holes := by
  simp only [holes, structXML, Element.values_mk, List.filterMap_append, List.filterMap_cons,
    List.filterMap_map, List.filterMap_flatMap]
  rfl

@[simp] theorem holes_textXML (text : String ⊕ SpecField) :
    holes (textXML n attrs text) = attrHoles attrs ++ text.getRight?.toList := by
  cases text <;> simp [holes, textXML, attrHoles, List.filterMap_map]

theorem holes_hypervXML (supported : List String) : holes (hypervXML .inl supported) = [] := by
  simp [hypervXML, hypervFeatureXML, List.flatMap_map]

theorem holes_disk (d : DiskXML (String ⊕ SpecField)) : holes (d.element .inl) =
    d.driver.type.getRight?.toList ++ d.file.getRight?.toList := by
  cases htype : d.driver.type <;> cases hfile : d.file <;>
    simp [DiskXML.element, DiskDriver.element, List.flatMap_map, htype, hfile]

variable {shape : DomainShape}

theorem holes_disks : (disksXML .inl .inr shape).flatMap (fun d => holes (d.element .inl)) =
    present shape.iso [.isoPath] ++ present shape.virtioISO [.virtioISOPath] ++
      [.diskFormat, .diskPath] := by
  have hsystem : ∀ m,
      holes ((systemDisk .inr shape m).element .inl) = [.diskFormat, .diskPath] := by
    intro m
    rw [holes_disk, systemDisk]
    split <;> rfl
  rw [disksXML, List.flatMap_append, List.flatMap_singleton, hsystem]
  simp [cdromDisks, cdromDisk, holes_disk]

/-- **Once each**: the strings of a specification are in different places. -/
theorem holes_domainTemplate : holes (domainTemplate shape) =
    [.name] ++ present shape.iso [.isoPath] ++ present shape.virtioISO [.virtioISOPath] ++
      [.diskFormat, .diskPath, .networkId] := by
  simp [domainTemplate, domainXMLModel, osXML, featuresXML, holes_hypervXML, cpuXML,
    clockXML, timerXML, devicesXML, controllerXML, interfaceXML, fixedDevicesXML, List.flatMap_map,
    holes_disks]

end Template

/-! ## Reading the strings back -/

section Read

variable (field : SpecField → String) (shape : DomainShape)

/-- The disks of a parsed document. -/
theorem readDisks_root : readDisks ((domainXMLModel id field shape).indented 0) =
    (cdromDisks id field shape).map DiskXML.read ++
      [(systemDisk field shape (shape.iso.toNat + shape.virtioISO.toNat)).read] := by
  rw [readDisks_indented, readDisks_domainXMLModel, disksXML, List.map_append, List.map_singleton,
    length_cdromDisks]

theorem read_format_systemDisk (n : ℕ) :
    (systemDisk field shape n).read.format = [field .diskFormat] := by
  rw [systemDisk]
  split <;> rfl

/-- The system disk is the disk that is no CD-ROM. -/
theorem filter_disk : (readDisks ((domainXMLModel id field shape).indented 0)).filter
    (fun d => d.device = some "disk") =
      [(systemDisk field shape (shape.iso.toNat + shape.virtioISO.toNat)).read] := by
  have hcdrom : ∀ d ∈ (cdromDisks id field shape).map DiskXML.read,
      ¬decide (d.device = some "disk") = true := by
    intro d hd
    obtain ⟨e, he, rfl⟩ := List.mem_map.mp hd
    obtain ⟨-, rfl⟩ | ⟨-, rfl⟩ := (mem_cdromDisks ..).mp he
    · simp [DiskXML.read, cdromDisk]
    · simp [DiskXML.read, cdromDisk]
  rw [readDisks_root, List.filter_append, List.filter_eq_nil_iff.mpr hcdrom]
  simp [DiskXML.read, systemDisk]

theorem eq_systemDisk {d : ReadDisk}
    (hd : d ∈ readDisks ((domainXMLModel id field shape).indented 0))
    (hdevice : d.device = some "disk") :
    d = (systemDisk field shape (shape.iso.toNat + shape.virtioISO.toNat)).read := by
  have hfilter : d ∈ (readDisks ((domainXMLModel id field shape).indented 0)).filter
      fun d => d.device = some "disk" :=
    List.mem_filter.mpr ⟨hd, decide_eq_true hdevice⟩
  rwa [filter_disk, List.mem_singleton] at hfilter

theorem SpecField.read_root (x : SpecField) :
    x.read ((domainXMLModel id field shape).indented 0) =
      present (x ∈ holes (domainTemplate shape)) [field x] := by
  have hname : ∀ c ∈ (domainXMLModel id field shape).follow ["name"], c.children = [] := by
    simp [follow_name]
  cases x with
  | name =>
    rw [SpecField.read, Element.textsAt_indented hname, Element.textsAt, follow_name]
    simp [holes_domainTemplate, present]
  | diskPath =>
    rw [SpecField.read, filter_disk]
    simp [holes_domainTemplate, present, DiskXML.read, systemDisk]
  | diskFormat =>
    rw [SpecField.read, filter_disk, List.flatMap_singleton, read_format_systemDisk]
    simp [holes_domainTemplate, present]
  | networkId =>
    have hread : (domainXMLModel id field shape).attrsAt ["devices", "interface", "source"]
        "network" = [field .networkId] := by
      simp [Element.attrsAt, Element.follow, domainXMLModel, devicesXML, fixedDevicesXML,
        interfaceXML]
    rw [SpecField.read, Element.attrsAt_indented, hread]
    simp [holes_domainTemplate, present]
  | isoPath =>
    rw [SpecField.read, readDisks_root]
    cases hiso : shape.iso <;> cases hvirtio : shape.virtioISO <;>
      simp [holes_domainTemplate, cdromDisks, cdromDisk, systemDisk, DiskXML.read, present, hiso,
        hvirtio]
  | virtioISOPath =>
    rw [SpecField.read, readDisks_root]
    cases hiso : shape.iso <;> cases hvirtio : shape.virtioISO <;>
      simp [holes_domainTemplate, cdromDisks, cdromDisk, systemDisk, DiskXML.read, present, hiso,
        hvirtio]

end Read

theorem templateFor_of_ok {spec : DomainSpec} {caps : HostFeatures} {profile : AppliedProfile}
    (h : appliedProfile spec caps = .ok profile) :
    templateFor spec.osType spec.nicModel caps spec.memoryBytes spec.vcpus
      (spec.isoPath ≠ "") (spec.virtioISOPath ≠ "") =
        .ok (domainTemplate (spec.shape profile)) := by
  simp only [appliedProfile] at h
  simp only [templateFor]
  generalize (if spec.osType = "" then "linux" else spec.osType) = guest at h ⊢
  split_ifs at h
  cases hbase : osProfile caps guest with
  | error e =>
    rw [hbase] at h
    cases h
  | ok base =>
    rw [hbase] at h
    change withNICModel base spec.nicModel = _ at h
    change (withNICModel base spec.nicModel >>= _) = _
    rw [h]
    rfl

/-- **No injection**: the document of a specification with legal strings parses to its template
with the strings in their places, each in one place, from where it is read back. -/
theorem buildDomainXML_template {spec : DomainSpec} {caps : HostFeatures} {doc : String}
    {profile : AppliedProfile} (h : buildDomainXML spec caps = .ok (doc, profile))
    (hlegal : spec.Legal) : ∃ template root,
      templateFor spec.osType spec.nicModel caps spec.memoryBytes spec.vcpus
        (spec.isoPath ≠ "") (spec.virtioISOPath ≠ "") = .ok template ∧
      parse doc = some root ∧ root = (template.map spec.fill).indented 0 ∧
      template.values.filterMap Sum.getRight? = SpecField.places spec ∧
      ∀ x, SpecField.read root x = present (x ∈ SpecField.places spec) [spec.field x] := by
  have hfield : legalText ∘ spec.field = spec.field :=
    funext fun x => legalText_eq_self (hlegal x)
  have hparse := parse_buildDomainXML h
  rw [hfield] at hparse
  refine ⟨domainTemplate (spec.shape profile), _, templateFor_of_ok (inv_buildDomainXML h).1,
    hparse, ?_, holes_domainTemplate, fun x => ?_⟩
  · rw [DomainSpec.fill, map_domainTemplate]
  · rw [SpecField.read_root, holes_domainTemplate]
    rfl

/-- A specification with everything in it that has a meaning in a document. -/
def hostileSpec : DomainSpec where
  name := "a<b>&amp;\"'"
  memoryBytes := 2147483648
  vcpus := 12
  osType := "windows"
  diskPath := "/pool/\"><disk/>\n.qcow2"
  diskFormat := "qcow2"
  networkId := "<!--"
  isoPath := ""
  virtioISOPath := "/isos/]]>\t\r"
  nicModel := "rtl8139"

theorem template_hostileSpec : ∃ doc profile,
    buildDomainXML hostileSpec ⟨ver 8 2 0, ver 10 0 0⟩ = .ok (doc, profile) ∧
    ∃ template root,
      templateFor "windows" "rtl8139" ⟨ver 8 2 0, ver 10 0 0⟩ 2147483648 12 false true =
        .ok template ∧
      parse doc = some root ∧ root = (template.map hostileSpec.fill).indented 0 ∧
      template.values.filterMap Sum.getRight? = SpecField.places hostileSpec ∧
      ∀ x, SpecField.read root x =
        present (x ∈ SpecField.places hostileSpec) [hostileSpec.field x] := by
  have hlegal : hostileSpec.Legal := by
    intro x
    cases x <;> decide
  exact ⟨_, _, rfl, buildDomainXML_template rfl hlegal⟩

/-! ## Structure -/

/-- The Hyper-V features of a parsed document. -/
def readHyperv (root : Element String) : List String :=
  ((root.follow ["features", "hyperv"]).flatMap Element.children).map Element.name

/-- The structure of a domain. -/
structure Structural (spec : DomainSpec) (caps : HostFeatures) (profile : AppliedProfile)
    (root : Element String) : Prop where
  /-- every disk has a target name, and none is there twice -/
  named : ∀ d ∈ readDisks root, ∃ dev, d.dev = [dev]
  targets : ((readDisks root).flatMap ReadDisk.dev).Nodup
  /-- the CD-ROMs are in front of the disk, install media first -/
  disks : ∃ cdroms system, readDisks root = cdroms ++ [system] ∧
    (∀ d ∈ cdroms, d.device = some "cdrom" ∧ d.readonly = true ∧ d.bus = ["sata"]) ∧
    cdroms.map ReadDisk.file = present (spec.isoPath ≠ "") [[legalText spec.isoPath]] ++
      present (spec.virtioISOPath ≠ "") [[legalText spec.virtioISOPath]] ∧
    system.device = some "disk" ∧ system.file = [legalText spec.diskPath]
  /-- install media is booted from first, and the disk next; else there are no boot orders -/
  boot : (readDisks root).map ReadDisk.boot = present (spec.isoPath ≠ "") [["1"]] ++
    present (spec.virtioISOPath ≠ "") [[]] ++
      [present (spec.isoPath ≠ "") ["2"]]
  osBoot : root.follow ["os", "boot"] = []
  nicBoot : root.follow ["devices", "interface", "boot"] = []
  /-- the controller and the I/O threads are those of SCSI disks -/
  controller : "virtio-scsi" ∈ root.attrsAt ["devices", "controller"] "model" ↔
    profile.diskBus = "scsi"
  iothreads : root.follow ["iothreads"] ≠ [] ↔ profile.diskBus = "scsi"
  bus : ∀ d ∈ readDisks root, d.device = some "disk" → d.bus = [profile.diskBus]
  /-- one adapter, with a queue for each vCPU -/
  nic : root.attrsAt ["devices", "interface", "model"] "type" = [profile.nicModel]
  vhost : root.attrsAt ["devices", "interface", "driver"] "name" =
    present (profile.nicModel = "virtio") ["vhost"]
  queues : root.attrsAt ["devices", "interface", "driver"] "queues" =
    present (profile.nicModel = "virtio") [toString (max 1 (min 8 spec.vcpus))]
  /-- Hyper-V is for windows -/
  hyperv : root.follow ["features", "hyperv"] ≠ [] ↔ spec.osType = "windows"
  features : readHyperv root = profile.hypervEnlightenments
  supported : ∀ n ∈ readHyperv root, ∃ f ∈ hypervFeatures, f.name = n ∧
    f.minQEMU ≤ caps.qemuVersion ∧ f.minLibvirt ≤ caps.libvirtVersion

section Structure

variable {spec : DomainSpec} {caps : HostFeatures} {profile : AppliedProfile}

/-- The root of a document. -/
def DomainSpec.root (spec : DomainSpec) (profile : AppliedProfile) : Element String :=
  (domainXMLModel id (legalText ∘ spec.field) (spec.shape profile)).indented 0

theorem queueCount_eq (vcpus : ℤ) : queueCount vcpus = max 1 (min 8 vcpus) := by
  rw [queueCount]
  split_ifs <;> omega

theorem targets_root : ((readDisks (spec.root profile)).flatMap ReadDisk.dev).Nodup := by
  have hiso := (spec.shape profile).iso.toNat_le
  have hvirtio := (spec.shape profile).virtioISO.toNat_le
  have hdev : ∀ ds : List (DiskXML String),
      (ds.map DiskXML.read).flatMap ReadDisk.dev = ds.map DiskXML.dev := by
    intro ds
    rw [List.flatMap_map]
    exact (List.map_eq_flatMap ..).symm
  rw [DomainSpec.root, readDisks_indented, readDisks_domainXMLModel, hdev, map_dev_disksXML]
  exact (nextDevName_names _ (by omega)).1

theorem disks_root : ∃ cdroms system, readDisks (spec.root profile) = cdroms ++ [system] ∧
    (∀ d ∈ cdroms, d.device = some "cdrom" ∧ d.readonly = true ∧ d.bus = ["sata"]) ∧
    cdroms.map ReadDisk.file = present (spec.isoPath ≠ "") [[legalText spec.isoPath]] ++
      present (spec.virtioISOPath ≠ "") [[legalText spec.virtioISOPath]] ∧
    system.device = some "disk" ∧ system.file = [legalText spec.diskPath] := by
  refine ⟨_, _, readDisks_root .., ?_, ?_, rfl, rfl⟩
  · intro d hd
    obtain ⟨e, he, rfl⟩ := List.mem_map.mp hd
    obtain ⟨-, rfl⟩ | ⟨-, rfl⟩ := (mem_cdromDisks ..).mp he
    · exact ⟨rfl, rfl, rfl⟩
    · exact ⟨rfl, rfl, rfl⟩
  · by_cases hiso : spec.isoPath = "" <;> by_cases hvirtio : spec.virtioISOPath = "" <;>
      simp [cdromDisks, cdromDisk, DiskXML.read, DomainSpec.shape, DomainSpec.field, present, hiso,
        hvirtio]

theorem boot_root : (readDisks (spec.root profile)).map ReadDisk.boot =
    present (spec.isoPath ≠ "") [["1"]] ++ present (spec.virtioISOPath ≠ "") [[]] ++
      [present (spec.isoPath ≠ "") ["2"]] := by
  have hrepr : Nat.repr 1 = "1" ∧ Nat.repr 2 = "2" := by
    decide
  rw [DomainSpec.root, readDisks_root]
  by_cases hiso : spec.isoPath = "" <;> by_cases hvirtio : spec.virtioISOPath = "" <;>
    simp [cdromDisks, cdromDisk, DiskXML.read, systemDisk, DomainSpec.shape, present, hiso,
      hvirtio, hrepr]

/-- The switch over the names of the features has all of them. -/
theorem hypervFields_eq : hypervFields = hypervFeatures.map HypervFeature.name := by
  decide

theorem hypervFields_filter (caps : HostFeatures) :
    (hypervFields.filter fun n => n ∈ (selectHypervFeatures caps).1) =
      (selectHypervFeatures caps).1 := by
  have hinj : ∀ f ∈ hypervFeatures, ∀ g ∈ hypervFeatures, f.name = g.name → f = g := by
    decide
  rw [hypervFields_eq, List.filter_map, selectHypervFeatures]
  refine congrArg (List.map HypervFeature.name) (List.filter_congr fun f hf => ?_)
  rw [Function.comp_apply, Bool.eq_iff_iff, decide_eq_true_eq, List.mem_map]
  constructor
  · rintro ⟨g, hg, hname⟩
    obtain ⟨hmem, hsupports⟩ := List.mem_filter.mp hg
    rwa [← hinj g hmem f hf hname]
  · exact fun hsupports => ⟨f, List.mem_filter.mpr ⟨hf, hsupports⟩, rfl⟩

theorem readHyperv_indented (root : Element String) :
    readHyperv (root.indented 0) = readHyperv root := by
  rw [readHyperv, readHyperv, Element.follow_indented, List.flatMap_map, List.map_flatMap,
    List.map_flatMap]
  refine List.flatMap_congr fun e _ => ?_
  rw [Element.children_indented, List.map_map]
  exact List.map_congr_left fun c _ => Element.name_indented _ c

/-- The features of the document are those of the profile. -/
theorem features_root (h : Applied spec caps profile) :
    readHyperv (spec.root profile) = profile.hypervEnlightenments := by
  have hname : ∀ l : List String, (l.map (hypervFeatureXML id)).map Element.name = l := by
    intro l
    rw [List.map_map]
    exact List.map_id l
  rw [DomainSpec.root, readHyperv_indented, readHyperv, follow_hyperv, flatMap_present,
    List.flatMap_singleton, map_present, hypervXML, children_structXML, hname,
    h.hypervEnlightenments]
  by_cases hos : profile.osType = "windows"
  · rw [DomainSpec.shape, h.hypervEnlightenments, if_pos hos, hypervFields_filter]
    simp [present, hos]
  · simp [DomainSpec.shape, present, hos]

theorem structural_root (h : Applied spec caps profile) :
    Structural spec caps profile (spec.root profile) where
  named := by
    intro d hd
    rw [DomainSpec.root, readDisks_indented, readDisks_domainXMLModel] at hd
    obtain ⟨e, -, rfl⟩ := List.mem_map.mp hd
    exact ⟨e.dev, rfl⟩
  targets := targets_root
  disks := disks_root
  boot := boot_root
  osBoot := by
    rw [DomainSpec.root, Element.follow_indented]
    simp [Element.follow, domainXMLModel, osXML]
  nicBoot := by
    rw [DomainSpec.root, Element.follow_indented]
    simp [Element.follow, domainXMLModel, devicesXML, fixedDevicesXML, interfaceXML]
  controller := by
    rw [DomainSpec.root, Element.attrsAt_indented, Element.attrsAt, follow_controller, h.diskBus]
    simp [controllerXML, DomainSpec.shape]
  iothreads := by
    rw [DomainSpec.root, Element.follow_indented, follow_iothreads, h.diskBus]
    simp [DomainSpec.shape]
  bus := by
    intro d hd hdevice
    rw [eq_systemDisk _ _ hd hdevice]
    rfl
  nic := by
    rw [DomainSpec.root, Element.attrsAt_indented]
    simp [Element.attrsAt, Element.follow, domainXMLModel, devicesXML, fixedDevicesXML,
      interfaceXML, DomainSpec.shape]
  vhost := by
    rw [DomainSpec.root, Element.attrsAt_indented]
    simp [Element.attrsAt, Element.follow, domainXMLModel, devicesXML, fixedDevicesXML,
      interfaceXML, DomainSpec.shape]
  queues := by
    rw [DomainSpec.root, Element.attrsAt_indented, ← queueCount_eq]
    simp [Element.attrsAt, Element.follow, domainXMLModel, devicesXML, fixedDevicesXML,
      interfaceXML, DomainSpec.shape]
  hyperv := by
    rw [DomainSpec.root, Element.follow_indented, follow_hyperv, ← h.windows]
    simp [DomainSpec.shape]
  features := features_root h
  supported := by
    intro n hn
    rw [features_root h, h.hypervEnlightenments] at hn
    split_ifs at hn
    · obtain ⟨f, hf, rfl⟩ := List.mem_map.mp hn
      obtain ⟨hf, hsupports⟩ := List.mem_filter.mp hf
      rw [HostFeatures.supports, Bool.and_eq_true, decide_eq_true_eq,
        decide_eq_true_eq] at hsupports
      exact ⟨f, hf, rfl, hsupports⟩
    · cases hn

/-- A newer host has the features of an older one. -/
theorem selectHypervFeatures_mono {caps caps' : HostFeatures}
    (hqemu : caps.qemuVersion ≤ caps'.qemuVersion)
    (hlibvirt : caps.libvirtVersion ≤ caps'.libvirtVersion) :
    (selectHypervFeatures caps).1 ⊆ (selectHypervFeatures caps').1 := by
  refine List.map_subset _ fun f hf => ?_
  obtain ⟨hmem, hsupports⟩ := List.mem_filter.mp hf
  refine List.mem_filter.mpr ⟨hmem, ?_⟩
  rw [HostFeatures.supports, Bool.and_eq_true, decide_eq_true_eq, decide_eq_true_eq] at hsupports ⊢
  exact ⟨Nat.le_trans hsupports.1 hqemu, Nat.le_trans hsupports.2 hlibvirt⟩

theorem hypervEnlightenments_mono {caps' : HostFeatures} {profile' : AppliedProfile}
    (h : Applied spec caps profile) (h' : Applied spec caps' profile')
    (hqemu : caps.qemuVersion ≤ caps'.qemuVersion)
    (hlibvirt : caps.libvirtVersion ≤ caps'.libvirtVersion) :
    profile.hypervEnlightenments ⊆ profile'.hypervEnlightenments := by
  rw [h.hypervEnlightenments, h'.hypervEnlightenments, h.osType, ← h'.osType]
  by_cases hos : profile'.osType = "windows"
  · rw [if_pos hos, if_pos hos]
    exact selectHypervFeatures_mono hqemu hlibvirt
  · rw [if_neg hos]
    exact List.nil_subset _

end Structure

/-- **Structure**: the document of every accepted specification is that of a domain with the
structure above, and a newer host gives it the features of an older one. -/
theorem buildDomainXML_structural {spec : DomainSpec} {caps : HostFeatures} {doc : String}
    {profile : AppliedProfile} (h : buildDomainXML spec caps = .ok (doc, profile)) :
    ∃ root, parse doc = some root ∧ Structural spec caps profile root ∧
      ∀ caps' : HostFeatures, caps.qemuVersion ≤ caps'.qemuVersion →
        caps.libvirtVersion ≤ caps'.libvirtVersion → ∃ doc' profile' root',
          buildDomainXML spec caps' = .ok (doc', profile') ∧ parse doc' = some root' ∧
            readHyperv root ⊆ readHyperv root' := by
  have happlied := applied_of_build h
  refine ⟨spec.root profile, parse_buildDomainXML h, structural_root happlied, ?_⟩
  intro caps' hqemu hlibvirt
  obtain ⟨profile', hprofile'⟩ := exists_appliedProfile (inv_buildDomainXML h).1 caps'
  obtain ⟨doc', hbuild⟩ : ∃ doc', buildDomainXML spec caps' = .ok (doc', profile') := by
    rw [buildDomainXML, hprofile']
    exact ⟨_, rfl⟩
  refine ⟨doc', profile', spec.root profile', hbuild, parse_buildDomainXML hbuild, ?_⟩
  rw [features_root happlied, features_root (applied_of_ok hprofile')]
  exact hypervEnlightenments_mono happlied (applied_of_ok hprofile') hqemu hlibvirt

theorem structural_hostileSpec : ∃ doc profile,
    buildDomainXML hostileSpec ⟨ver 8 2 0, ver 10 0 0⟩ = .ok (doc, profile) ∧
    ∃ root, parse doc = some root ∧
      Structural hostileSpec ⟨ver 8 2 0, ver 10 0 0⟩ profile root ∧
      ∀ caps' : HostFeatures, ver 8 2 0 ≤ caps'.qemuVersion →
        ver 10 0 0 ≤ caps'.libvirtVersion → ∃ doc' profile' root',
          buildDomainXML hostileSpec caps' = .ok (doc', profile') ∧ parse doc' = some root' ∧
            readHyperv root ⊆ readHyperv root' :=
  ⟨_, _, rfl, buildDomainXML_structural rfl⟩

/-- A disk path with a character that no document can hold. -/
def controlSpec : DomainSpec :=
  { hostileSpec with diskPath := "/pool/\x01.qcow2", osType := "linux" }

/-- What is read back of it is another path. -/
theorem source_controlSpec : ∃ doc profile root,
    buildDomainXML controlSpec ⟨0, 0⟩ = .ok (doc, profile) ∧ parse doc = some root ∧
      ∀ d ∈ readDisks root, d.device = some "disk" → d.file ≠ [controlSpec.diskPath] := by
  have hbuild : buildDomainXML controlSpec ⟨0, 0⟩ = .ok (_, _) := rfl
  refine ⟨_, _, _, hbuild, parse_buildDomainXML hbuild, fun d hd hdevice => ?_⟩
  have hpath : [legalText controlSpec.diskPath] ≠ [controlSpec.diskPath] := by
    decide
  rw [eq_systemDisk _ _ hd hdevice]
  exact hpath

end Ultrav
