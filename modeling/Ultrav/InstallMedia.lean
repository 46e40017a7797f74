import Ultrav.DomainReading
import Ultrav.UpdateMachine

/-!
# Changes of the install media

`setCDROM` replaces the first CD-ROM of a definition, whichever it is. Devices that are attached
may go anywhere in the definition.

* `Placement` — where libvirt puts a device; `setCDROMAt` — `setCDROM` with it.
* `updateISO` — `UpdateVirtualMachine` for a change of the ISO alone.
* `DomainSpec.created` — the configuration of a created machine.
* `MediaOnly` — the system disk and the drivers are attached, and the ISO last asked for.
* `OnMedia` — the changes that touch the install media.
* `mediaOnly_run` — after such changes, the machine is as it should be.
-/

namespace Ultrav

open Attempt

/-! ## Attaching a device -/

/-- Where a device is put: between others, which stay in their order. -/
structure Placement where
  insert : DiskDevice → List DiskDevice → List DiskDevice
  between : ∀ d ds, ∃ l r, ds = l ++ r ∧ insert d ds = l ++ d :: r

namespace Placement

/-- Behind all others. -/
def last : Placement where
  insert := fun d ds => ds ++ [d]
  between := fun _ ds => ⟨ds, [], (List.append_nil ds).symm, rfl⟩

theorem perm (p : Placement) (d : DiskDevice) (ds : List DiskDevice) :
    (p.insert d ds).Perm (d :: ds) := by
  obtain ⟨l, r, rfl, hinsert⟩ := p.between d ds
  rw [hinsert]
  exact List.perm_middle

end Placement

section Calls

variable (p : Placement) (env : UpdateEnv)

/-- `attachCDROM`, with a placement. -/
def attachCDROMAt (isoPath : String) : Attempt UpdateError MachineConfig Unit := do
  failIf env.targetXMLFails (.libvirt "read domain xml")
  let c ← get
  match c.nextCDROMTarget with
  | none => throw (.libvirt "no free target device name for a cdrom")
  | some (dev, bus) => do
    failIf env.bootXMLFails (.libvirt "read domain xml")
    failIf env.attachFails (.libvirt "attach cdrom")
    modify fun c => { c with
      disks := p.insert (MachineConfig.cdromXML dev bus isoPath (!c.hasOSBootOrder)) c.disks }
    setOSBootOrder env true

/-- `setCDROM`, with a placement. -/
def setCDROMAt (isoPath : String) : Attempt UpdateError MachineConfig Unit := do
  failIf env.cdromXMLFails (.libvirt "read domain xml")
  let c ← get
  detachCDROM env c.currentCDROM.1
  if isoPath = "" then setOSBootOrder env false else attachCDROMAt p env isoPath

/-- `UpdateVirtualMachine` with an ISO and nothing else. -/
def updateISO (isoID : String) : Attempt UpdateError MachineConfig Unit := do
  failIf env.lookupFails .vmNotFound
  failIf env.stateFails (.libvirt "read domain state")
  failIf (isoID ≠ "" && !isoValidID isoID) (.invalid "invalid ISO filename")
  failIf (isoID ≠ "" && !env.isos.contains isoID) .isoNotFound
  setCDROMAt p env (if isoID = "" then "" else isoPath env.isoDir isoID)
  failIf env.readBackFails (.libvirt "get virtual machine")

end Calls

theorem setCDROMAt_last (env : UpdateEnv) (isoPath : String) :
    setCDROMAt .last env isoPath = setCDROM env isoPath := rfl

/-- Behind all others, it is the update of the machine. -/
theorem updateISO_last (env : UpdateEnv) (isoID : String) :
    updateISO .last env isoID = updateVirtualMachine env ⟨none, none, none, some isoID⟩ := by
  funext c
  simp only [updateISO, updateVirtualMachine, applyVcpus, applyMemory, applyNetwork, applyISO,
    setCDROMAt_last, Attempt.bind_assoc, Attempt.pure_bind, failIf_bind_apply, VMUpdate.any]
  simp

/-! ## What a change does -/

section Change

variable {p : Placement} {env : UpdateEnv} {c c' : MachineConfig} {isoID : String}

/-- The path that is asked for, empty for none. -/
def wantedPath (env : UpdateEnv) (isoID : String) : String :=
  if isoID = "" then "" else isoPath env.isoDir isoID

theorem inv_setOSBootOrder {cdromFirst : Bool}
    (h : setOSBootOrder env cdromFirst c = (.ok (), c')) :
    c' = { c with osBoot := c.rewrittenBoot cdromFirst } := by
  obtain ⟨-, h⟩ := failIf_bind_eq_ok h
  rw [get_bind_apply] at h
  obtain ⟨-, h⟩ := failIf_bind_eq_ok h
  exact (Prod.mk.inj h).2.symm

/-- A CD-ROM is attached at a free target. -/
theorem inv_attachCDROMAt {path : String} (h : attachCDROMAt p env path c = (.ok (), c')) :
    ∃ dev bus withBoot, c.nextCDROMTarget = some (dev, bus) ∧
      c'.disks = p.insert (MachineConfig.cdromXML dev bus path withBoot) c.disks := by
  obtain ⟨-, h⟩ := failIf_bind_eq_ok h
  rw [get_bind_apply] at h
  cases htarget : c.nextCDROMTarget with
  | none =>
    rw [htarget] at h
    cases h
  | some t =>
    rw [htarget] at h
    obtain ⟨-, h⟩ := failIf_bind_eq_ok h
    obtain ⟨-, h⟩ := failIf_bind_eq_ok h
    rw [modify_bind_apply] at h
    refine ⟨t.1, t.2, !c.hasOSBootOrder, rfl, ?_⟩
    rw [inv_setOSBootOrder h]

/-- **Inversion** of a change: the first CD-ROM goes, and then the boot order is rewritten or a
CD-ROM is attached. -/
theorem inv_updateISO (h : updateISO p env isoID c = (.ok (), c')) :
    (isoID = "" ∧ c' = { c.withoutCDROM env with osBoot := c.rewrittenBoot false }) ∨
      (isoID ≠ "" ∧ ∃ dev bus withBoot, (c.withoutCDROM env).nextCDROMTarget = some (dev, bus) ∧
        c'.disks = p.insert (MachineConfig.cdromXML dev bus (isoPath env.isoDir isoID) withBoot)
          (c.withoutCDROM env).disks) := by
  obtain ⟨-, h⟩ := failIf_bind_eq_ok h
  obtain ⟨-, h⟩ := failIf_bind_eq_ok h
  obtain ⟨-, h⟩ := failIf_bind_eq_ok h
  obtain ⟨-, h⟩ := failIf_bind_eq_ok h
  obtain ⟨⟨⟩, c₁, hset, h⟩ := Attempt.bind_eq_ok h
  obtain ⟨-, rfl⟩ := failIf_eq_ok h
  obtain ⟨-, hset⟩ := failIf_bind_eq_ok hset
  rw [get_bind_apply, detachCDROM, modify_bind_apply] at hset
  change (if _ then setOSBootOrder env false else attachCDROMAt p env _) (c.withoutCDROM env) =
    _ at hset
  by_cases hid : isoID = ""
  · rw [if_pos (if_pos hid)] at hset
    exact .inl ⟨hid, inv_setOSBootOrder hset⟩
  · rw [if_neg hid, if_neg (isoPath_ne _ _)] at hset
    exact .inr ⟨hid, inv_attachCDROMAt hset⟩

end Change

/-! ## The media of a machine -/

/-- The system disk and the drivers are attached, and of other CD-ROMs the one with the ISO last
asked for, under different names. -/
structure MediaOnly (system : DiskDevice) (drivers : Option DiskDevice) (last : String)
    (c : MachineConfig) : Prop where
  disks : ∃ media : List DiskDevice, c.disks.Perm (system :: (drivers.toList ++ media)) ∧
    (∀ d ∈ media, d.device = "cdrom" ∧ d.source = last) ∧
      media.length = if last = "" then 0 else 1
  targets : (c.disks.map DiskDevice.dev).Nodup
  named : ∀ d ∈ c.disks, d.dev ≠ ""

/-- The first CD-ROM of a definition. -/
def MachineConfig.firstCDROM (c : MachineConfig) : Option DiskDevice :=
  c.disks.find? fun d => d.device = "cdrom"

/-- A change touches the install media only: the first CD-ROM is not that of the drivers, and one
that is there goes. -/
structure OnMedia (drivers : Option DiskDevice) (env : UpdateEnv) (c : MachineConfig) : Prop where
  first : ∀ d ∈ drivers, c.firstCDROM ≠ some d
  goes : c.firstCDROM.isSome → env.detachFails = false

/-- The configurations of a machine after changes of the ISO, each with the path last asked for. -/
inductive MediaRun (p : Placement) (drivers : Option DiskDevice) (c₀ : MachineConfig)
    (last₀ : String) : MachineConfig → String → Prop where
  | refl : MediaRun p drivers c₀ last₀ c₀ last₀
  | step {c c' : MachineConfig} {last : String} {env : UpdateEnv} {isoID : String} :
    MediaRun p drivers c₀ last₀ c last → OnMedia drivers env c →
      updateISO p env isoID c = (.ok (), c') →
        MediaRun p drivers c₀ last₀ c' (wantedPath env isoID)

section Step

variable {p : Placement} {env : UpdateEnv} {system : DiskDevice} {drivers : Option DiskDevice}
  {last : String} {c c' : MachineConfig}

/-- Without CD-ROMs nothing goes. -/
theorem withoutCDROM_of_none (h : c.firstCDROM = none) : c.withoutCDROM env = c := by
  have hcurrent : c.currentCDROM.1 = "" := by
    rw [MachineConfig.firstCDROM] at h
    rw [MachineConfig.currentCDROM, h]
  rw [MachineConfig.withoutCDROM, hcurrent]
  rfl

/-- The first CD-ROM goes, and the others stay in their order. -/
theorem withoutCDROM_of_some {d : DiskDevice} (h : c.firstCDROM = some d) (hdev : d.dev ≠ "")
    (hgoes : env.detachFails = false) : d.device = "cdrom" ∧ ∃ l r, c.disks = l ++ d :: r ∧
      (c.withoutCDROM env).disks = l ++ r := by
  obtain ⟨hcdrom, l, r, hdisks, hl⟩ := List.find?_eq_some_iff_append.mp h
  have hcurrent : c.currentCDROM.1 = d.dev := by
    rw [MachineConfig.firstCDROM] at h
    rw [MachineConfig.currentCDROM, h]
  rw [decide_eq_true_eq] at hcdrom
  refine ⟨hcdrom, l, r, hdisks, ?_⟩
  have hbefore : ∀ b ∈ l, ¬ (decide (b.device = "cdrom") && decide (b.dev = d.dev)) = true := by
    intro b hb
    have hno := hl b hb
    rw [Bool.not_eq_true', decide_eq_false_iff_not] at hno
    simp [hno]
  rw [MachineConfig.withoutCDROM, hcurrent, hgoes]
  simp only [hdev, decide_false, Bool.or_self, Bool.false_eq_true, if_false, MachineConfig.detach]
  rw [hdisks, List.eraseP_append_right _ hbefore, List.eraseP_cons_of_pos (by simp [hcdrom])]

/-- Without the old CD-ROM there is the system disk, and the drivers. -/
theorem MediaOnly.withoutCDROM (h : MediaOnly system drivers last c)
    (hsystem : system.device ≠ "cdrom") (hon : OnMedia drivers env c) :
    MediaOnly system drivers "" (c.withoutCDROM env) := by
  obtain ⟨media, hperm, hmedia, hlength⟩ := h.disks
  cases hfirst : c.firstCDROM with
  | none =>
    rw [withoutCDROM_of_none hfirst]
    have hnil : media = [] := by
      refine List.eq_nil_iff_forall_not_mem.mpr fun d hd => ?_
      have hmem : d ∈ c.disks := hperm.mem_iff.mpr
        (List.mem_cons_of_mem _ (List.mem_append_right _ hd))
      exact List.find?_eq_none.mp hfirst d hmem (decide_eq_true (hmedia d hd).1)
    subst hnil
    exact ⟨⟨[], hperm, nofun, rfl⟩, h.targets, h.named⟩
  | some d =>
    have hmem : d ∈ c.disks := List.mem_of_find?_eq_some hfirst
    obtain ⟨hcdrom, l, r, hdisks, hgone⟩ := withoutCDROM_of_some hfirst (h.named d hmem)
      (hon.goes (hfirst ▸ rfl))
    -- it is not the system disk and not that of the drivers
    have hd : d ∈ media := by
      have hcases := hperm.mem_iff.mp hmem
      rw [List.mem_cons, List.mem_append, Option.mem_toList] at hcases
      rcases hcases with rfl | hd | hd
      · exact absurd hcdrom hsystem
      · exact absurd hfirst (hon.first d hd)
      · exact hd
    have hone : media = [d] := by
      obtain ⟨e, rfl⟩ : ∃ e, media = [e] := by
        refine List.length_eq_one_iff.mp ?_
        have hpos := List.length_pos_of_mem hd
        split at hlength <;> omega
      rw [List.mem_singleton.mp hd]
    subst hone
    have hsub : (l ++ r).Sublist c.disks := by
      rw [hdisks]
      exact (List.Sublist.refl l).append (List.sublist_cons_self d r)
    refine ⟨⟨[], ?_, nofun, rfl⟩, ?_, ?_⟩ <;> rw [hgone]
    · rw [hdisks] at hperm
      have hcons : (d :: (l ++ r)).Perm (d :: (system :: drivers.toList)) :=
        (List.perm_middle.symm.trans hperm).trans
          (((List.perm_append_singleton d drivers.toList).cons system).trans (.swap d system _))
      rw [List.append_nil]
      exact hcons.cons_inv
    · exact h.targets.sublist (hsub.map _)
    · exact fun e he => h.named e (hsub.subset he)

/-- A free target is a name that no disk has. -/
theorem inv_nextCDROMTarget {dev bus : String} (h : c.nextCDROMTarget = some (dev, bus)) :
    dev ≠ "" ∧ dev ∉ c.disks.map DiskDevice.dev := by
  obtain ⟨t, hfind, ht⟩ := Option.map_eq_some_iff.mp h
  obtain rfl : t = dev := (Prod.mk.inj ht).1
  have hfree := List.find?_some hfind
  have hne : ∀ n ∈ MachineConfig.targetNames, n ≠ "" := by
    decide
  refine ⟨hne t (List.mem_of_find?_eq_some hfind), fun hmem => ?_⟩
  obtain ⟨d, hd, hdev⟩ := List.mem_map.mp hmem
  simp only [Bool.not_eq_true', List.any_eq_false, decide_eq_true_eq] at hfree
  exact hfree d hd hdev

/-- A CD-ROM is attached. -/
theorem MediaOnly.insert (h : MediaOnly system drivers "" c) {dev bus path : String}
    {withBoot : Bool} (htarget : c.nextCDROMTarget = some (dev, bus)) (hpath : path ≠ "")
    (hdisks : c'.disks = p.insert (MachineConfig.cdromXML dev bus path withBoot) c.disks) :
    MediaOnly system drivers path c' := by
  obtain ⟨media, hperm, -, hlength⟩ := h.disks
  obtain rfl : media = [] := List.length_eq_zero_iff.mp hlength
  have hinsert := p.perm (MachineConfig.cdromXML dev bus path withBoot) c.disks
  rw [← hdisks] at hinsert
  obtain ⟨hdev, hfree⟩ := inv_nextCDROMTarget htarget
  refine ⟨⟨[MachineConfig.cdromXML dev bus path withBoot], ?_, ?_, ?_⟩, ?_, ?_⟩
  · rw [List.append_nil] at hperm
    have hlast := (List.perm_append_singleton (MachineConfig.cdromXML dev bus path withBoot)
      drivers.toList).symm.cons system
    exact hinsert.trans ((hperm.cons _).trans ((List.Perm.swap _ _ _).trans hlast))
  · intro d hd
    rw [List.mem_singleton.mp hd]
    exact ⟨rfl, rfl⟩
  · rw [if_neg hpath]
    rfl
  · exact (hinsert.map DiskDevice.dev).nodup_iff.mpr (List.nodup_cons.mpr ⟨hfree, h.targets⟩)
  · intro d hd
    rcases List.mem_cons.mp (hinsert.mem_iff.mp hd) with rfl | hd
    · exact hdev
    · exact h.named d hd

/-- **Step**: a change of the install media leaves the machine with the one asked for. -/
theorem MediaOnly.step (h : MediaOnly system drivers last c)
    (hsystem : system.device ≠ "cdrom") (hon : OnMedia drivers env c) {isoID : String}
    (hstep : updateISO p env isoID c = (.ok (), c')) :
    MediaOnly system drivers (wantedPath env isoID) c' := by
  have hgone := h.withoutCDROM hsystem hon
  obtain ⟨hid, rfl⟩ | ⟨hid, dev, bus, withBoot, htarget, hdisks⟩ := inv_updateISO hstep
  · rw [wantedPath, if_pos hid]
    exact ⟨hgone.disks, hgone.targets, hgone.named⟩
  · rw [wantedPath, if_neg hid]
    exact hgone.insert htarget (isoPath_ne _ _) hdisks

end Step

/-- **Run**: after any changes of the install media. -/
theorem MediaRun.mediaOnly {p : Placement} {system : DiskDevice} {drivers : Option DiskDevice}
    {c₀ c : MachineConfig} {last₀ last : String} (hrun : MediaRun p drivers c₀ last₀ c last)
    (hsystem : system.device ≠ "cdrom") (h₀ : MediaOnly system drivers last₀ c₀) :
    MediaOnly system drivers last c := by
  induction hrun with
  | refl => exact h₀
  | step _ hon hstep ih => exact ih.step hsystem hon hstep

/-- A boot order that was rewritten stays. -/
theorem rewrittenBoot_again {c c' : MachineConfig} {cdromFirst : Bool}
    (hboot : c'.osBoot = c.rewrittenBoot cdromFirst) (hattrs : c'.osAttrs = c.osAttrs) :
    c'.rewrittenBoot cdromFirst = c'.osBoot := by
  have hrewritten : (if cdromFirst then ["cdrom", "hd"] else ["hd"]).isEmpty = false := by
    cases cdromFirst <;> rfl
  rw [MachineConfig.rewrittenBoot, MachineConfig.hasOSBootOrder, hboot, hattrs,
    MachineConfig.rewrittenBoot]
  by_cases hrewrite : (c.hasOSBootOrder && !c.osAttrs) = true
  · rw [if_pos hrewrite, hrewritten]
    exact ite_self _
  · rw [if_neg hrewrite]
    rw [MachineConfig.hasOSBootOrder] at hrewrite
    rw [if_neg hrewrite]

/-- After the install media is gone there is nothing more to detach. -/
theorem detach_again {p : Placement} {system : DiskDevice} {drivers : Option DiskDevice}
    {env env' : UpdateEnv} {last : String} {c c₁ c₂ : MachineConfig}
    (h : MediaOnly system drivers last c) (hsystem : system.device ≠ "cdrom")
    (hon : OnMedia drivers env c) (hstep : updateISO p env "" c = (.ok (), c₁))
    (hon' : OnMedia drivers env' c₁) (hstep' : updateISO p env' "" c₁ = (.ok (), c₂)) :
    c₂ = c₁ := by
  have hnone : c₁.firstCDROM = none := by
    obtain ⟨media, hperm, -, hlength⟩ := (h.step hsystem hon hstep).disks
    obtain rfl : media = [] := List.length_eq_zero_iff.mp hlength
    cases hfirst : c₁.firstCDROM with
    | none => rfl
    | some d =>
      -- of the system disk and the drivers, neither is the first CD-ROM
      have hcdrom : d.device = "cdrom" := of_decide_eq_true (List.find?_some hfirst :)
      have hcases := hperm.mem_iff.mp (List.mem_of_find?_eq_some hfirst)
      rw [List.append_nil, List.mem_cons, Option.mem_toList] at hcases
      rcases hcases with rfl | hd
      · exact absurd hcdrom hsystem
      · exact absurd hfirst (hon'.first d hd)
  obtain ⟨-, hc₁⟩ | ⟨hid, -⟩ := inv_updateISO hstep
  · obtain ⟨-, rfl⟩ | ⟨hid, -⟩ := inv_updateISO hstep'
    · have hboot : c₁.osBoot = c.rewrittenBoot false := by
        rw [hc₁]
      have hattrs : c₁.osAttrs = c.osAttrs := by
        rw [hc₁]
        rfl
      rw [withoutCDROM_of_none hnone, rewrittenBoot_again hboot hattrs]
    · exact absurd rfl hid
  · exact absurd rfl hid

/-! ## Created machines -/

/-- A disk of the document, as it is kept. -/
def DiskXML.kept (d : DiskXML String) : DiskDevice :=
  ⟨d.device, d.dev, d.bus, d.file, d.driver.type, d.boot⟩

namespace DomainSpec

variable (spec : DomainSpec) (profile : AppliedProfile)

/-- The configuration of a created machine. libvirt gives its adapter an address, and boots from
the disk when no device has a boot order. -/
def created (mac : String) : MachineConfig where
  vcpus := spec.vcpus
  memory := (spec.memoryBytes + 1023) / 1024
  disks := (disksXML id (Xml.legalText ∘ spec.field) (spec.shape profile)).map DiskXML.kept
  nics := [⟨.network (Xml.legalText spec.networkId), mac, profile.nicModel⟩]
  osBoot := if spec.isoPath = "" then ["hd"] else []
  osAttrs := false

/-- Its system disk. -/
def createdSystem : DiskDevice :=
  (systemDisk (Xml.legalText ∘ spec.field) (spec.shape profile)
    ((spec.shape profile).iso.toNat + (spec.shape profile).virtioISO.toNat)).kept

/-- Its CD-ROM with VirtIO drivers. -/
def createdDrivers : Option DiskDevice :=
  if spec.virtioISOPath = "" then none
  else some (cdromDisk id (Xml.legalText spec.virtioISOPath)
    (nextDevName (spec.shape profile).iso.toNat) none).kept

theorem disks_created (mac : String) : ∃ media,
    (spec.created profile mac).disks =
      media ++ (spec.createdDrivers profile).toList ++ [spec.createdSystem profile] ∧
    (∀ d ∈ media, d.device = "cdrom" ∧ d.source = Xml.legalText spec.isoPath) ∧
      media.length = if Xml.legalText spec.isoPath = "" then 0 else 1 := by
  refine ⟨present (spec.isoPath ≠ "")
    [(cdromDisk id (Xml.legalText spec.isoPath) (nextDevName 0) (some 1)).kept], ?_, ?_, ?_⟩
  · by_cases hi : spec.isoPath = "" <;> by_cases hv : spec.virtioISOPath = "" <;>
      simp [created, createdDrivers, createdSystem, disksXML, cdromDisks, present, shape, field,
        hi, hv]
  · intro d hd
    obtain ⟨-, hd⟩ := mem_present.mp hd
    rw [List.mem_singleton.mp hd]
    exact ⟨rfl, rfl⟩
  · by_cases hi : spec.isoPath = "" <;> simp [present, Xml.legalText_eq_empty, hi]

theorem mediaOnly_created (mac : String) :
    MediaOnly (spec.createdSystem profile) (spec.createdDrivers profile)
      (Xml.legalText spec.isoPath) (spec.created profile mac) := by
  obtain ⟨media, hdisks, hmedia, hlength⟩ := spec.disks_created profile mac
  have hiso := (spec.shape profile).iso.toNat_le
  have hvirtio := (spec.shape profile).virtioISO.toNat_le
  have hdevs : (spec.created profile mac).disks.map DiskDevice.dev = _ :=
    (List.map_map ..).trans (map_dev_disksXML id _ (spec.shape profile))
  have hnames := nextDevName_names _ (show
    (spec.shape profile).iso.toNat + (spec.shape profile).virtioISO.toNat + 1 ≤ 3 by omega)
  refine ⟨⟨media, ?_, hmedia, hlength⟩, ?_, ?_⟩
  · rw [hdisks]
    have hlast : (media ++ (spec.createdDrivers profile).toList).Perm _ := List.perm_append_comm
    exact List.perm_append_comm.trans (hlast.cons _)
  · rw [hdevs]
    exact hnames.1
  · intro d hd
    exact hnames.2 _ (hdevs ▸ List.mem_map_of_mem hd)

end DomainSpec

/-- The disks of a created machine are those of its document. -/
theorem created_of_build {spec : DomainSpec} {caps : HostFeatures} {doc : String}
    {profile : AppliedProfile} (h : buildDomainXML spec caps = .ok (doc, profile))
    (mac : String) : ∃ root, ∃ ds : List (DiskXML String), Xml.parse doc = some root ∧
      readDisks root = ds.map DiskXML.read ∧
        (spec.created profile mac).disks = ds.map DiskXML.kept := by
  refine ⟨_, _, parse_buildDomainXML h, ?_, rfl⟩
  rw [readDisks_indented, readDisks_domainXMLModel]

/-- **ISO changes**: in a created machine, after changes that touch the install media only, the
system disk and the drivers are attached, and the ISO last asked for; a second detach changes
nothing. -/
theorem mediaOnly_run {spec : DomainSpec} {profile : AppliedProfile} {p : Placement}
    {mac last : String} {c : MachineConfig}
    (hrun : MediaRun p (spec.createdDrivers profile) (spec.created profile mac)
      (Xml.legalText spec.isoPath) c last) :
    MediaOnly (spec.createdSystem profile) (spec.createdDrivers profile) last c ∧
      ∀ env env' c₁ c₂, OnMedia (spec.createdDrivers profile) env c →
        updateISO p env "" c = (.ok (), c₁) → OnMedia (spec.createdDrivers profile) env' c₁ →
          updateISO p env' "" c₁ = (.ok (), c₂) → c₂ = c₁ := by
  have hdevice : (spec.createdSystem profile).device = "disk" := rfl
  have hsystem : (spec.createdSystem profile).device ≠ "cdrom" := by
    rw [hdevice]
    decide
  have hmedia := hrun.mediaOnly hsystem (spec.mediaOnly_created profile mac)
  refine ⟨hmedia, fun env env' c₁ c₂ hon hstep hon' hstep' => ?_⟩
  exact detach_again hmedia hsystem hon hstep hon' hstep'

/-! ## Machines with drivers -/

/-- A Windows machine with drivers, and install media or none. -/
def driversSpec (isoPath : String) : DomainSpec where
  name := "win01"
  memoryBytes := 4294967296
  vcpus := 4
  osType := "windows"
  diskPath := "/pool/win01.qcow2"
  diskFormat := "qcow2"
  networkId := "default"
  isoPath := isoPath
  virtioISOPath := "/isos/virtio-win.iso"
  nicModel := ""

/-- Its profile, on an old host. -/
def windowsProfile : AppliedProfile :=
  { linuxProfile "windows" with
    hypervEnlightenments := ["relaxed", "vapic", "spinlocks", "vpindex"]
    skippedEnlightenments := ["synic", "stimer", "runtime", "frequencies", "reset", "tlbflush",
      "ipi"] }

/-- A host with another ISO, where everything goes through. -/
def isoHost : UpdateEnv := .smooth .shutoff [] ["server.iso"]

/-- Install media that is swapped. -/
theorem mediaOnly_swapped : ∃ c, (updateISO .last isoHost "server.iso"
      ((driversSpec "/isos/win.iso").created windowsProfile "")) = (.ok (), c) ∧
    MediaOnly ((driversSpec "/isos/win.iso").createdSystem windowsProfile)
      ((driversSpec "/isos/win.iso").createdDrivers windowsProfile) "/isos/server.iso" c := by
  have hok : (updateISO .last isoHost "server.iso"
      ((driversSpec "/isos/win.iso").created windowsProfile "")).1 = .ok () := by
    decide
  have hon : OnMedia ((driversSpec "/isos/win.iso").createdDrivers windowsProfile) isoHost
      ((driversSpec "/isos/win.iso").created windowsProfile "") :=
    ⟨by decide, fun _ => rfl⟩
  have hstep : updateISO .last isoHost "server.iso"
      ((driversSpec "/isos/win.iso").created windowsProfile "") = (.ok (), _) := Prod.ext hok rfl
  exact ⟨_, hstep, (mediaOnly_run (.step .refl hon hstep)).1⟩

/-- A machine without install media loses its drivers to the first ISO that is attached. -/
theorem drivers_replaced : ∃ doc, buildDomainXML (driversSpec "") ⟨0, 0⟩ =
      .ok (doc, windowsProfile) ∧
    ∃ c, updateISO .last isoHost "server.iso"
        ((driversSpec "").created windowsProfile "") = (.ok (), c) ∧
      ∃ d ∈ (driversSpec "").createdDrivers windowsProfile, d ∉ c.disks := by
  have hok : (updateISO .last isoHost "server.iso"
      ((driversSpec "").created windowsProfile "")).1 = .ok () := by
    decide
  refine ⟨_, rfl, _, Prod.ext hok rfl, _, rfl, ?_⟩
  decide

end Ultrav
