import Ultrav.DomainDocument

/-!
# What the document of a domain says

Where a parsed document has what `buildDomainXML` decided, and what follows from that.

* `ReadDisk` / `readDisks` — the disk devices of a document.
* `SpecField.read` — where a string of the specification is read from.
-/

namespace Ultrav

open Xml

/-! ## Places -/

section Places

variable {V : Type} (lit : String → V)

@[simp] theorem name_structXML (n : String) (attrs : List (String × V)) (cs : List (Element V)) :
    (structXML lit n attrs cs).name = n := rfl

@[simp] theorem children_structXML (n : String) (attrs : List (String × V))
    (cs : List (Element V)) : (structXML lit n attrs cs).children = cs := rfl

@[simp] theorem attr_structXML (key n : String) (attrs : List (String × V))
    (cs : List (Element V)) : (structXML lit n attrs cs).attr key =
      (attrs.find? fun a => a.1 = key).map Prod.snd := rfl

@[simp] theorem name_textXML (n : String) (attrs : List (String × V)) (text : V) :
    (textXML n attrs text).name = n := rfl

@[simp] theorem children_textXML (n : String) (attrs : List (String × V)) (text : V) :
    (textXML n attrs text).children = [] := rfl

@[simp] theorem text_textXML (n : String) (attrs : List (String × V)) (text : V) :
    (textXML n attrs text).text = text := rfl

@[simp] theorem attr_textXML (key n : String) (attrs : List (String × V)) (text : V) :
    (textXML n attrs text).attr key = (attrs.find? fun a => a.1 = key).map Prod.snd := rfl

@[simp] theorem name_osXML : (osXML lit).name = "os" := rfl

@[simp] theorem name_featuresXML (profile : AppliedProfile) :
    (featuresXML lit profile).name = "features" := rfl

@[simp] theorem name_hypervXML (supported : List String) :
    (hypervXML lit supported).name = "hyperv" := rfl

@[simp] theorem name_cpuXML (profile : AppliedProfile) : (cpuXML lit profile).name = "cpu" := rfl

@[simp] theorem name_clockXML (profile : AppliedProfile) :
    (clockXML lit profile).name = "clock" := rfl

@[simp] theorem name_controllerXML (queue : ℤ) :
    (controllerXML lit queue).name = "controller" := rfl

@[simp] theorem name_interfaceXML (network : V) (model : String) (queue : ℤ) :
    (interfaceXML lit network model queue).name = "interface" := rfl

@[simp] theorem name_diskElement (d : DiskXML V) : (d.element lit).name = "disk" := rfl

@[simp] theorem name_driverElement (d : DiskDriver V) : (d.element lit).name = "driver" := rfl

variable (field : SpecField → V) (shape : DomainShape)

@[simp] theorem name_devicesXML : (devicesXML lit field shape).name = "devices" := rfl

theorem follow_name : (domainXMLModel lit field shape).follow ["name"] =
    [textXML "name" [] (field .name)] := by
  simp [Element.follow, domainXMLModel]

theorem follow_memory : (domainXMLModel lit field shape).follow ["memory"] =
    [textXML "memory" [("unit", lit "bytes")] (lit (toString shape.memoryBytes))] := by
  simp [Element.follow, domainXMLModel]

theorem follow_vcpu : (domainXMLModel lit field shape).follow ["vcpu"] =
    [textXML "vcpu" [] (lit (toString shape.vcpus))] := by
  simp [Element.follow, domainXMLModel]

theorem follow_iothreads : (domainXMLModel lit field shape).follow ["iothreads"] =
    present (shape.profile.osType ≠ "other")
      [textXML "iothreads" [] (lit (toString shape.profile.ioThreads))] := by
  simp [Element.follow, domainXMLModel]

theorem follow_disk : (domainXMLModel lit field shape).follow ["devices", "disk"] =
    (disksXML lit field shape).map (DiskXML.element lit) := by
  simp [Element.follow, domainXMLModel, devicesXML, fixedDevicesXML]

theorem follow_interface : (domainXMLModel lit field shape).follow ["devices", "interface"] =
    [interfaceXML lit (field .networkId) shape.profile.nicModel (queueCount shape.vcpus)] := by
  simp [Element.follow, domainXMLModel, devicesXML, fixedDevicesXML]

theorem follow_controller : (domainXMLModel lit field shape).follow ["devices", "controller"] =
    present (shape.profile.osType ≠ "other") [controllerXML lit (queueCount shape.vcpus)] := by
  simp [Element.follow, domainXMLModel, devicesXML, fixedDevicesXML]

theorem follow_hyperv : (domainXMLModel lit field shape).follow ["features", "hyperv"] =
    present (shape.profile.osType = "windows")
      [hypervXML lit shape.profile.hypervEnlightenments] := by
  simp [Element.follow, domainXMLModel, featuresXML]

theorem follow_cpu : (domainXMLModel lit field shape).follow ["cpu"] =
    [cpuXML lit shape.profile] := by
  simp [Element.follow, domainXMLModel]

end Places

/-! ## Disks -/

/-- A disk device of a parsed document: with each attribute as often as it is there. -/
structure ReadDisk where
  device : Option String
  format : List String
  file : List String
  dev : List String
  bus : List String
  readonly : Bool
  boot : List String
  deriving DecidableEq, Repr

def readDisk (e : Element String) : ReadDisk where
  device := e.attr "device"
  format := e.attrsAt ["driver"] "type"
  file := e.attrsAt ["source"] "file"
  dev := e.attrsAt ["target"] "dev"
  bus := e.attrsAt ["target"] "bus"
  readonly := !(e.follow ["readonly"]).isEmpty
  boot := e.attrsAt ["boot"] "order"

def readDisks (root : Element String) : List ReadDisk :=
  (root.follow ["devices", "disk"]).map readDisk

/-- What is read of a disk. -/
def DiskXML.read (d : DiskXML String) : ReadDisk where
  device := some d.device
  format := [d.driver.type]
  file := [d.file]
  dev := [d.dev]
  bus := [d.bus]
  readonly := d.readonly
  boot := d.boot.toList.map toString

theorem readDisk_element (d : DiskXML String) : readDisk (d.element id) = d.read := by
  cases hreadonly : d.readonly <;> cases hboot : d.boot <;>
    simp [readDisk, DiskXML.read, Element.attrsAt, Element.follow, DiskXML.element,
      DiskDriver.element, present, hreadonly, hboot]

theorem readDisk_indented (depth : ℕ) (e : Element String) :
    readDisk (e.indented depth) = readDisk e := by
  simp [readDisk, Element.attrsAt_indented, Element.follow_indented]

theorem readDisks_indented (root : Element String) :
    readDisks (root.indented 0) = readDisks root := by
  rw [readDisks, readDisks, Element.follow_indented, List.map_map]
  exact List.map_congr_left fun e _ => readDisk_indented _ e

theorem readDisks_domainXMLModel (field : SpecField → String) (shape : DomainShape) :
    readDisks (domainXMLModel id field shape) = (disksXML id field shape).map DiskXML.read := by
  rw [readDisks, follow_disk, List.map_map]
  exact List.map_congr_left fun d _ => readDisk_element d

end Ultrav
