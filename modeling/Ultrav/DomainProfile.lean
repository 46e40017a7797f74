import Mathlib.Data.Int.Notation
import Mathlib.Data.Nat.Notation
import Mathlib.Tactic.SplitIfs

/-!
# What a domain is built from

The first half of `buildDomainXML`: what it accepts and the performance profile it decides on.

* `DomainSpec` / `HostFeatures` — its arguments.
* `hypervFeatures` / `selectHypervFeatures` — the Hyper-V enlightenments a host supports.
* `AppliedProfile` — the decision.
* `appliedProfile` — the checks and the decision, in the order of the code.
* `Applied` — what an accepted specification and its profile are like.
-/

namespace Ultrav

/-- `domainSpec` -/
structure DomainSpec where
  name : String
  memoryBytes : ℤ
  vcpus : ℤ
  /-- linux (default), windows, other -/
  osType : String
  diskPath : String
  diskFormat : String
  networkId : String
  /-- install media, empty for none -/
  isoPath : String
  /-- VirtIO drivers, empty for none -/
  virtioISOPath : String
  /-- overrides the adapter of the profile, empty for none -/
  nicModel : String
  deriving DecidableEq, Repr

/-- `hostFeatures`: packed versions. Zeros stand for a very old host. -/
structure HostFeatures where
  qemuVersion : ℕ
  libvirtVersion : ℕ
  deriving DecidableEq, Repr

/-- `hypervFeature`: an enlightenment with the versions that support it. -/
structure HypervFeature where
  name : String
  minQEMU : ℕ
  minLibvirt : ℕ
  deriving DecidableEq, Repr

/-- `ver` -/
def ver (major minor micro : ℕ) : ℕ := major * 1000000 + minor * 1000 + micro

/-- `hypervFeatures` -/
def hypervFeatures : List HypervFeature :=
  [⟨"relaxed", 0, 0⟩, ⟨"vapic", 0, 0⟩, ⟨"spinlocks", 0, 0⟩, ⟨"vpindex", 0, 0⟩,
    ⟨"synic", ver 3 0 0, ver 1 2 0⟩, ⟨"stimer", ver 3 0 0, ver 3 2 0⟩,
    ⟨"runtime", ver 3 0 0, ver 3 2 0⟩, ⟨"frequencies", ver 4 2 0, ver 5 10 0⟩,
    ⟨"reset", ver 4 2 0, ver 5 10 0⟩, ⟨"tlbflush", ver 5 0 0, ver 6 2 0⟩,
    ⟨"ipi", ver 5 0 0, ver 6 2 0⟩]

/-- The host is new enough. -/
def HostFeatures.supports (caps : HostFeatures) (f : HypervFeature) : Bool :=
  caps.qemuVersion ≥ f.minQEMU && caps.libvirtVersion ≥ f.minLibvirt

/-- `selectHypervFeatures`: supported and skipped. -/
def selectHypervFeatures (caps : HostFeatures) : List String × List String :=
  ((hypervFeatures.filter caps.supports).map HypervFeature.name,
    (hypervFeatures.filter fun f => !caps.supports f).map HypervFeature.name)

/-- `appliedProfile`, the record. -/
structure AppliedProfile where
  cpuMode : String
  diskBus : String
  cache : String
  nicModel : String
  ioThreads : ℕ
  hypervEnlightenments : List String
  skippedEnlightenments : List String
  osType : String
  deriving DecidableEq, Repr

/-- Why `buildDomainXML` refuses. -/
inductive BuildError where
  /-- a fixed message -/
  | message : String → BuildError
  /-- `unknown osType %q` -/
  | unknownOSType : String → BuildError
  /-- `unknown nicModel %q` -/
  | unknownNICModel : String → BuildError
  deriving DecidableEq, Repr

/-- The profile of linux guests, the default. -/
def linuxProfile (osType : String) : AppliedProfile where
  cpuMode := "host-passthrough"
  diskBus := "scsi"
  cache := "none"
  nicModel := "virtio"
  ioThreads := 1
  hypervEnlightenments := []
  skippedEnlightenments := []
  osType := osType

/-- The switch over the OS type. -/
def osProfile (caps : HostFeatures) (osType : String) : Except BuildError AppliedProfile :=
  if osType = "windows" then
    .ok { linuxProfile osType with
      hypervEnlightenments := (selectHypervFeatures caps).1
      skippedEnlightenments := (selectHypervFeatures caps).2 }
  else if osType = "other" then
    -- the conservative profile: what every guest has a driver for
    .ok { linuxProfile osType with
      cpuMode := "host-model"
      diskBus := "sata"
      cache := ""
      nicModel := "e1000e"
      ioThreads := 0 }
  else if osType = "linux" then .ok (linuxProfile osType)
  else .error (.unknownOSType osType)

/-- The override of the network adapter. -/
def withNICModel (profile : AppliedProfile) (nicModel : String) :
    Except BuildError AppliedProfile :=
  if nicModel = "" then .ok profile
  else if nicModel = "virtio" || nicModel = "e1000e" || nicModel = "rtl8139" then
    .ok { profile with nicModel := nicModel }
  else .error (.unknownNICModel nicModel)

/-- `buildDomainXML` up to the devices: the checks and the profile. Nothing after it fails. -/
def appliedProfile (spec : DomainSpec) (caps : HostFeatures) : Except BuildError AppliedProfile :=
  if spec.name = "" then .error (.message "domain name is required")
  else if spec.vcpus < 1 then .error (.message "vcpus must be >= 1")
  else if spec.memoryBytes < 1 then .error (.message "memory must be > 0")
  else if spec.diskPath = "" || spec.diskFormat = "" then
    .error (.message "disk path and format are required")
  else if spec.networkId = "" then .error (.message "network id is required")
  else do
    let profile ← osProfile caps (if spec.osType = "" then "linux" else spec.osType)
    withNICModel profile spec.nicModel

/-! ## What is accepted -/

/-- The profiles before an override of the network adapter. -/
inductive BaseProfile (caps : HostFeatures) : AppliedProfile → Prop where
  | windows : BaseProfile caps { linuxProfile "windows" with
      hypervEnlightenments := (selectHypervFeatures caps).1
      skippedEnlightenments := (selectHypervFeatures caps).2 }
  | other : BaseProfile caps { linuxProfile "other" with
      cpuMode := "host-model"
      diskBus := "sata"
      cache := ""
      nicModel := "e1000e"
      ioThreads := 0 }
  | linux : BaseProfile caps (linuxProfile "linux")

theorem baseProfile_of_osProfile {caps : HostFeatures} {osType : String}
    {profile : AppliedProfile} (h : osProfile caps osType = .ok profile) :
    BaseProfile caps profile ∧ profile.osType = osType := by
  rw [osProfile] at h
  split at h
  · rename_i hos
    obtain rfl := Except.ok.inj h
    subst hos
    exact ⟨.windows, rfl⟩
  split at h
  · rename_i hos
    obtain rfl := Except.ok.inj h
    subst hos
    exact ⟨.other, rfl⟩
  split at h
  · rename_i hos
    obtain rfl := Except.ok.inj h
    subst hos
    exact ⟨.linux, rfl⟩
  · cases h

/-- An accepted specification and the profile that is applied. -/
structure Applied (spec : DomainSpec) (caps : HostFeatures) (profile : AppliedProfile) : Prop where
  name : spec.name ≠ ""
  vcpus : 1 ≤ spec.vcpus
  memoryBytes : 1 ≤ spec.memoryBytes
  diskPath : spec.diskPath ≠ ""
  diskFormat : spec.diskFormat ≠ ""
  networkId : spec.networkId ≠ ""
  osType : profile.osType = if spec.osType = "" then "linux" else spec.osType
  nicModel : spec.nicModel ∈ ["", "virtio", "e1000e", "rtl8139"]
  base : ∃ base, BaseProfile caps base ∧ profile =
    { base with nicModel := if spec.nicModel = "" then base.nicModel else spec.nicModel }

/-- **Inversion** of the checks and the decision. -/
theorem applied_of_ok {spec : DomainSpec} {caps : HostFeatures} {profile : AppliedProfile}
    (h : appliedProfile spec caps = .ok profile) : Applied spec caps profile := by
  simp only [appliedProfile] at h
  generalize hguest : (if spec.osType = "" then "linux" else spec.osType) = guest at h
  split_ifs at h with hname hvcpus hmemory hdisk hnetwork
  rw [Bool.or_eq_true, decide_eq_true_eq, decide_eq_true_eq, not_or] at hdisk
  obtain ⟨base, hbase, h⟩ : ∃ base, osProfile caps guest = .ok base ∧
      withNICModel base spec.nicModel = .ok profile := by
    cases hos : osProfile caps guest with
    | error e =>
      rw [hos] at h
      cases h
    | ok base =>
      rw [hos] at h
      exact ⟨base, rfl, h⟩
  obtain ⟨hbase, hos⟩ := baseProfile_of_osProfile hbase
  have hnic : spec.nicModel ∈ ["", "virtio", "e1000e", "rtl8139"] ∧ profile =
      { base with nicModel := if spec.nicModel = "" then base.nicModel else spec.nicModel } := by
    rw [withNICModel] at h
    split_ifs at h with hempty hknown
    · rw [if_pos hempty, hempty]
      exact ⟨List.mem_cons_self, (Except.ok.inj h).symm⟩
    · rw [if_neg hempty]
      refine ⟨?_, (Except.ok.inj h).symm⟩
      simp only [Bool.or_eq_true, decide_eq_true_eq] at hknown
      simp only [List.mem_cons, List.not_mem_nil, or_false]
      exact .inr (or_assoc.mp hknown)
  exact {
    name := hname
    vcpus := by omega
    memoryBytes := by omega
    diskPath := hdisk.1
    diskFormat := hdisk.2
    networkId := hnetwork
    osType := by rw [hnic.2, hguest, ← hos]
    nicModel := hnic.1
    base := ⟨base, hbase, hnic.2⟩ }

/-- What is accepted does not depend on the host. -/
theorem exists_appliedProfile {spec : DomainSpec} {caps : HostFeatures} {profile : AppliedProfile}
    (h : appliedProfile spec caps = .ok profile) (caps' : HostFeatures) :
    ∃ profile', appliedProfile spec caps' = .ok profile' := by
  have hnic : ∀ {base base' profile : AppliedProfile},
      withNICModel base spec.nicModel = .ok profile →
        ∃ profile', withNICModel base' spec.nicModel = .ok profile' := by
    intro base base' profile hok
    rw [withNICModel] at hok ⊢
    split_ifs at hok ⊢
    · exact ⟨_, rfl⟩
    · exact ⟨_, rfl⟩
  simp only [appliedProfile] at h ⊢
  generalize (if spec.osType = "" then "linux" else spec.osType) = guest at h ⊢
  split_ifs at h ⊢
  rw [osProfile] at h ⊢
  split_ifs at h ⊢
  · exact hnic h
  · exact hnic h
  · exact hnic h
  · cases h

namespace Applied

variable {spec : DomainSpec} {caps : HostFeatures} {profile : AppliedProfile}

theorem windows (h : Applied spec caps profile) :
    profile.osType = "windows" ↔ spec.osType = "windows" := by
  rw [h.osType]
  split
  · rename_i hempty
    simp [hempty]
  · rfl

theorem diskBus (h : Applied spec caps profile) :
    profile.diskBus = if profile.osType = "other" then "sata" else "scsi" := by
  obtain ⟨base, hbase, rfl⟩ := h.base
  cases hbase with
  | windows => rfl
  | other => rfl
  | linux => rfl

theorem cpuMode (h : Applied spec caps profile) :
    profile.cpuMode = if profile.osType = "other" then "host-model" else "host-passthrough" := by
  obtain ⟨base, hbase, rfl⟩ := h.base
  cases hbase with
  | windows => rfl
  | other => rfl
  | linux => rfl

/-- The adapter of the profile, unless another one is asked for. -/
theorem nicModel_eq (h : Applied spec caps profile) : profile.nicModel =
    if spec.nicModel ≠ "" then spec.nicModel
    else if profile.osType = "other" then "e1000e" else "virtio" := by
  obtain ⟨base, hbase, rfl⟩ := h.base
  cases hbase with
  | windows => simp [linuxProfile]
  | other => simp [linuxProfile]
  | linux => simp [linuxProfile]

theorem nicModel_mem (h : Applied spec caps profile) :
    profile.nicModel ∈ ["virtio", "e1000e", "rtl8139"] := by
  have hnic := h.nicModel
  rw [h.nicModel_eq]
  split_ifs with hempty
  · simpa [hempty] using hnic
  · simp
  · simp

theorem hypervEnlightenments (h : Applied spec caps profile) : profile.hypervEnlightenments =
    if profile.osType = "windows" then (selectHypervFeatures caps).1 else [] := by
  obtain ⟨base, hbase, rfl⟩ := h.base
  cases hbase with
  | windows => rfl
  | other => rfl
  | linux => rfl

end Applied

end Ultrav
