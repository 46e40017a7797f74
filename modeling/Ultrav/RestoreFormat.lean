import Ultrav.History

/-!
# Formats across backup and restore

Both backup paths record every image as qcow2, and a restore converts to the recorded
format. A disk that the domain declares as raw comes back as a qcow2 container.
`restore_format_iff`: after a successful restore the formats agree exactly when every
file-backed disk of the domain is declared qcow2.
-/

namespace Ultrav

/-- Every file-backed disk of the domain has an image of the declared format. -/
def Host.FormatsAgree (h : Host) : Prop :=
  ∀ dom, h.domain = some dom → ∀ d ∈ dom.definition.fileDisks,
    ∃ img, h.files (.volume d.sourceFile) = some img ∧ img.format = d.driverType

namespace History

section Format

variable {D : Definition} {s₀ s : History} {srt : SortDesc Metadata Metadata.createdAt}
  {env : RestoreEnv} {id : String} {h' : Host} {vm : Domain}

/-- A successful restore leaves a qcow2 image on every file-backed disk. -/
theorem Wf.restore_qcow2 (hw : Wf D s)
    (hr : restoreBackup env s.host id = some (.ok vm, h')) :
    ∀ d ∈ D.fileDisks, ∃ img, h'.files (.volume d.sourceFile) = some img ∧
      img.format = .qcow2 := by
  obtain ⟨plan, ho, hdisks⟩ := restoreBackup_ok hr
  obtain ⟨hget, -, -, hdom, -, -⟩ := openRestore_eq_ok ho
  have hD := (hw.domain plan.domain hdom).definition
  have hpoint := hw.points plan.metadata (hw.get_mem hget).1
  intro d hd
  obtain ⟨e, he, hname⟩ := hpoint.entry hd
  obtain ⟨v, disk, img, hsrc, -, himg, hvol⟩ := hdisks e he
  rw [hD, hname, Definition.sources_of_mem hd] at hsrc
  cases hsrc
  obtain ⟨m, hm, file, himage⟩ := assemble_format himg
  exact ⟨img, hvol,
    ((hw.points m (hw.chain_points ho m hm).1).diskImage_eq himage).1⟩

/-- A domain that a successful restore leaves is defined. -/
theorem restore_domain (hr : restoreBackup env s.host id = some (.ok vm, h')) :
    h'.domain = some vm := by
  obtain ⟨hout, -, -⟩ := restoreBackup_eq_some hr
  generalize hres : (.ok vm : Except ProviderError Domain) = r at hout
  cases hout with
  | refused _ => cases hres
  | stopped _ _ => cases hres
  | restored ho _ _ =>
    unfold getVirtualMachine Host.lookupDomain at hres
    split at hres
    · cases hres
    · split at hres
      · cases hres
      · rename_i dom hdom
        cases hres
        split at hdom
        · exact hdom
        · cases hdom

/-- **After a successful restore the image formats agree with the definition in force
exactly when no file-backed disk is declared raw**, after any history. -/
theorem restore_format_iff {ops : List HistoryOp} (hstart : Started D s₀)
    (hfresh : Machine.Along (step srt) Fresh s₀ ops)
    (hrun : Machine.run (step srt) s₀ ops = some s)
    (hr : restoreBackup env s.host id = some (.ok vm, h')) :
    h'.FormatsAgree ↔ ∀ d ∈ D.fileDisks, d.driverType ≠ .raw := by
  have hw := wf_of_run hstart hfresh hrun
  have hdom := restore_domain hr
  have hD : vm.definition = D := ((hw.restore hr).domain vm hdom).definition
  constructor
  · intro hagree d hd hraw
    obtain ⟨img, himg, hformat⟩ := hw.restore_qcow2 hr d hd
    obtain ⟨img', himg', hformat'⟩ := hagree vm hdom d (hD ▸ hd)
    obtain rfl : img = img' := Option.some.inj (himg.symm.trans himg')
    rw [hformat, hraw] at hformat'
    cases hformat'
  · intro hq dom hdom' d hd
    obtain rfl : vm = dom := Option.some.inj (hdom.symm.trans hdom')
    rw [hD] at hd
    obtain ⟨img, himg, hformat⟩ := hw.restore_qcow2 hr d hd
    refine ⟨img, himg, ?_⟩
    rcases hdt : d.driverType with _ | _
    · exact hformat
    · exact absurd hdt (hq d hd)

end Format

end History

/-! ### A raw disk, backed up while the VM is stopped -/

namespace RawDisk

/-- One raw disk. -/
def definition : Definition := ⟨[⟨.disk, .raw, "vda", "/vm1.img"⟩], List.nodup_singleton "vda"⟩

/-- The stopped VM before its first backup. -/
def start : History :=
  .initial "vm1" definition .shutoff fun p =>
    if p = .volume "/vm1.img" then some ⟨.raw, none, fun _ => none⟩ else none

/-- One offline backup. -/
def ops : List HistoryOp := [.backup (.smooth "bk-1" (.refl true) 1) none]

theorem fresh :
    Machine.Along (History.step (.insertion Metadata.createdAt)) History.Fresh start ops :=
  .cons (List.not_mem_nil : "bk-1" ∉ []) rfl (.nil _)

theorem started : History.Started definition start := History.initial_started ..

end RawDisk

/-- The exact condition, at work on the raw disk. -/
theorem History.restore_format_iff_rawDisk :
    ∃ s vm h', Machine.run (History.step (.insertion Metadata.createdAt)) RawDisk.start
        RawDisk.ops = some s ∧
      restoreBackup (.smooth 1) s.host "bk-1" = some (.ok vm, h') ∧
      (h'.FormatsAgree ↔ ∀ d ∈ RawDisk.definition.fileDisks, d.driverType ≠ .raw) :=
  ⟨_, _, _, rfl, rfl, @History.restore_format_iff _ _ _ _ (.smooth 1) "bk-1" _ _ _
    RawDisk.started RawDisk.fresh rfl rfl⟩

/-- The raw disk comes back as qcow2. -/
theorem restore_formats_disagree :
    ¬ ∀ (srt : SortDesc Metadata Metadata.createdAt) (D : Definition) (s₀ s : History)
        (ops : List HistoryOp) (env : RestoreEnv) (id : String) (vm : Domain) (h' : Host),
      History.Started D s₀ → Machine.Along (History.step srt) History.Fresh s₀ ops →
      Machine.run (History.step srt) s₀ ops = some s →
      restoreBackup env s.host id = some (.ok vm, h') → h'.FormatsAgree := by
  intro hall
  have hagree := hall (.insertion _) RawDisk.definition RawDisk.start _ RawDisk.ops
    (.smooth 1) "bk-1" _ _ RawDisk.started RawDisk.fresh rfl rfl
  obtain ⟨img, himg, hformat⟩ := hagree _ rfl ⟨.disk, .raw, "vda", "/vm1.img"⟩ (by decide)
  have himg' := congrArg (Option.map Image.format) himg
  rw [Option.map_some, hformat] at himg'
  revert himg'
  decide

end Ultrav
