import Ultrav.DiskSteps

/-!
# The footprint of a disk step

Restores of one virtual machine run side by side in goroutines, and the scratch names
of `restoreDiskChain` depend on the volume and on the points only: two restores can
write one temp file or one download. What a step reads and writes says when that
matters.

* `reads` / `writes` — the scratch files a step reads, the files it writes or removes.
* `exec_congr` — a step does the same wherever it reads the same.
* `Scratch.record` — what a restore last left in each file it wrote.
* `OnTrack` — a restore whose own record is that of an undisturbed run, and what its
  rename then puts in place (`OnTrack.rename`).
-/

namespace Ultrav

namespace DiskStep

/-- The scratch files a step reads. -/
def reads (sc : Scratch) : DiskStep → List Path
  | rebase id file => [.download id file]
  | convert _ id file => [.download id file]
  | convertInto _ id file => [.download id file, .restoreTmp sc.dst]
  | rename => [.restoreTmp sc.dst]
  | _ => []

/-- The files a step writes or removes. -/
def writes (sc : Scratch) : DiskStep → List Path
  | fetch id file => [.download id file]
  | rebase id file => [.download id file]
  | convert _ _ _ => [.restoreTmp sc.dst]
  | convertInto _ _ _ => [.restoreTmp sc.dst]
  | rename => [.restoreTmp sc.dst, .volume sc.dst]
  | finish => .restoreTmp sc.dst :: sc.locals.map fun s => .download s.1 s.2
  | _ => []

end DiskStep

/-- A run of removals, file by file. -/
theorem foldl_remove (ls : List (String × String)) :
    ∀ (fs : Files) (p : Path), ls.foldl (fun fs s => fs.remove (.download s.1 s.2)) fs p =
      if p ∈ ls.map (fun s => Path.download s.1 s.2) then none else fs p := by
  induction ls with
  | nil => intro fs p; simp
  | cons s ls ih =>
    intro fs p
    rw [List.foldl_cons, ih, List.map_cons]
    by_cases hmem : p ∈ ls.map fun s => Path.download s.1 s.2
    · rw [if_pos hmem, if_pos (List.mem_cons_of_mem _ hmem)]
    · by_cases hps : p = .download s.1 s.2
      · rw [if_neg hmem, hps, Files.remove_self, if_pos List.mem_cons_self]
      · rw [if_neg hmem, Files.remove_of_ne fs hps, if_neg (by simpa [hps] using hmem)]

/-- The deferred removals leave nothing under the names they remove, and all else. -/
theorem cleanup_apply (sc : Scratch) (fs : Files) (p : Path) :
    sc.cleanup fs p = if p ∈ DiskStep.finish.writes sc then none else fs p := by
  rw [Scratch.cleanup, foldl_remove, DiskStep.writes]
  by_cases htmp : p = .restoreTmp sc.dst
  · rw [htmp, Files.remove_self, ite_self, if_pos List.mem_cons_self]
  · simp only [List.mem_cons, htmp, false_or, Files.remove_of_ne fs htmp]

section Footprint

variable {sc sc' : Scratch} {fs fs' gs : Files} {s : DiskStep}

/-- A step changes the files it writes and no others. -/
theorem exec_of_not_mem (h : s.exec sc fs = some (sc', fs')) {p : Path}
    (hp : p ∉ s.writes sc) : fs' p = fs p := by
  cases s with
  | noImage id disk => cases h
  | fetch id file =>
    obtain ⟨img, -, heq⟩ := Option.map_eq_some_iff.mp h
    cases heq
    exact Files.put_of_ne _ _ (by simpa [DiskStep.writes] using hp)
  | rebase id file =>
    obtain ⟨img, -, heq⟩ := Option.map_eq_some_iff.mp h
    cases heq
    exact Files.put_of_ne _ _ (by simpa [DiskStep.writes] using hp)
  | keep id file =>
    cases h
    rfl
  | convert format id file =>
    obtain ⟨img, -, heq⟩ := Option.map_eq_some_iff.mp h
    cases heq
    exact Files.put_of_ne _ _ (by simpa [DiskStep.writes] using hp)
  | convertInto format id file =>
    obtain ⟨src, -, h⟩ := Option.bind_eq_some_iff.mp h
    obtain ⟨tmp, -, h⟩ := Option.bind_eq_some_iff.mp h
    obtain ⟨img, -, heq⟩ := Option.map_eq_some_iff.mp h
    cases heq
    exact Files.put_of_ne _ _ (by simpa [DiskStep.writes] using hp)
  | rename =>
    obtain ⟨img, -, heq⟩ := Option.map_eq_some_iff.mp h
    cases heq
    have hne : p ≠ .restoreTmp sc.dst ∧ p ≠ .volume sc.dst := by
      simpa [DiskStep.writes] using hp
    rw [Files.put_of_ne _ _ hne.2, Files.remove_of_ne _ hne.1]
  | finish =>
    cases h
    rw [cleanup_apply, if_neg hp]

/-- **A step does the same wherever it reads the same**: on other files that agree on
the point images and on what it reads, it can be taken too, and leaves the same in every
file it writes. -/
theorem exec_congr (hpoint : ∀ id file, gs (.point id file) = fs (.point id file))
    (hreads : ∀ p ∈ s.reads sc, gs p = fs p) (h : s.exec sc fs = some (sc', fs')) :
    ∃ gs', s.exec sc gs = some (sc', gs') ∧ ∀ p ∈ s.writes sc, gs' p = fs' p := by
  cases s with
  | noImage id disk => cases h
  | fetch id file =>
    obtain ⟨img, himg, heq⟩ := Option.map_eq_some_iff.mp h
    cases heq
    refine ⟨_, by rw [DiskStep.exec, hpoint, himg]; rfl, fun p hp => ?_⟩
    obtain rfl := List.mem_singleton.mp hp
    rw [Files.put_self, Files.put_self]
  | rebase id file =>
    obtain ⟨img, himg, heq⟩ := Option.map_eq_some_iff.mp h
    cases heq
    rw [← hreads _ List.mem_cons_self] at himg
    refine ⟨_, by rw [DiskStep.exec, himg]; rfl, fun p hp => ?_⟩
    obtain rfl := List.mem_singleton.mp hp
    rw [Files.put_self, Files.put_self]
  | keep id file =>
    cases h
    exact ⟨gs, rfl, fun p hp => by cases hp⟩
  | convert format id file =>
    obtain ⟨img, himg, heq⟩ := Option.map_eq_some_iff.mp h
    cases heq
    rw [← hreads _ List.mem_cons_self] at himg
    refine ⟨_, by rw [DiskStep.exec, himg]; rfl, fun p hp => ?_⟩
    obtain rfl := List.mem_singleton.mp hp
    rw [Files.put_self, Files.put_self]
  | convertInto format id file =>
    obtain ⟨src, hsrc, h⟩ := Option.bind_eq_some_iff.mp h
    obtain ⟨tmp, htmp, h⟩ := Option.bind_eq_some_iff.mp h
    obtain ⟨img, himg, heq⟩ := Option.map_eq_some_iff.mp h
    cases heq
    rw [← hreads _ List.mem_cons_self] at hsrc
    rw [← hreads _ (List.mem_cons_of_mem _ List.mem_cons_self)] at htmp
    refine ⟨gs.put (.restoreTmp sc.dst) img, ?_, fun p hp => ?_⟩
    · simp only [DiskStep.exec, hsrc, htmp, himg, Option.bind_some, Option.map_some]
    · obtain rfl := List.mem_singleton.mp hp
      rw [Files.put_self, Files.put_self]
  | rename =>
    obtain ⟨img, himg, heq⟩ := Option.map_eq_some_iff.mp h
    cases heq
    rw [← hreads _ List.mem_cons_self] at himg
    refine ⟨_, by rw [DiskStep.exec, himg]; rfl, fun p hp => ?_⟩
    by_cases hv : p = .volume sc.dst
    · rw [hv, Files.put_self, Files.put_self]
    · have htmp : p = .restoreTmp sc.dst := by simpa [DiskStep.writes, hv] using hp
      rw [htmp, Files.put_of_ne _ _ (by simp), Files.put_of_ne _ _ (by simp),
        Files.remove_self, Files.remove_self]
  | finish =>
    cases h
    exact ⟨_, rfl, fun p hp => by rw [cleanup_apply, cleanup_apply, if_pos hp, if_pos hp]⟩

end Footprint

/-! ## A restore among others -/

/-- What a restore last left in each file: a step that turned the files into `fs'`
updates the files it wrote. -/
def DiskStep.record (s : DiskStep) (sc : Scratch) (left fs' : Files) : Files :=
  fun p => if p ∈ s.writes sc then fs' p else left p

/-- With its scratch files as it left them, a restore takes its step as if alone. -/
theorem exec_record {sc sc' : Scratch} {fs fs' left : Files} {s : DiskStep}
    (hpoint : ∀ id file, left (.point id file) = fs (.point id file))
    (hreads : ∀ p ∈ s.reads sc, left p = fs p) (h : s.exec sc fs = some (sc', fs')) :
    s.exec sc left = some (sc', s.record sc left fs') := by
  obtain ⟨gs', hex, hsame⟩ := exec_congr hpoint hreads h
  rw [hex]
  congr 2
  funext p
  rw [DiskStep.record]
  split
  · rename_i hp
    exact hsame p hp
  · rename_i hp
    exact exec_of_not_mem hex hp

/-- The record `left` of a restore that still has to take `rest` is that of a run that
nobody disturbed. `base` holds the point images. -/
def OnTrack (base : Files) (chain : List Metadata) (disk : String) (rest : List DiskStep)
    (sc : Scratch) (left : Files) : Prop :=
  ∃ pre fs, restoreDiskChain chain disk = pre ++ rest ∧
    (∀ id file, fs (.point id file) = base (.point id file)) ∧
    execAll pre ⟨sc.dst, []⟩ fs = some (sc, left)

namespace OnTrack

variable {base : Files} {chain : List Metadata} {disk : String} {rest : List DiskStep}
  {s : DiskStep} {sc sc' : Scratch} {left fs fs' : Files}

/-- A restore that begins a disk is on track. -/
theorem start (hfs : ∀ id file, fs (.point id file) = base (.point id file)) (dst : String) :
    OnTrack base chain disk (restoreDiskChain chain disk) ⟨dst, []⟩ fs :=
  ⟨[], fs, rfl, hfs, rfl⟩

/-- The point images in the record are the stored ones. -/
theorem point (h : OnTrack base chain disk rest sc left) (id file : String) :
    left (.point id file) = base (.point id file) := by
  obtain ⟨pre, fs, -, hfs, hex⟩ := h
  exact ((execAll_frame hex).2.1 id file).trans (hfs id file)

/-- **Step**: a restore stays on track while it finds its scratch files as it left them. -/
theorem step (h : OnTrack base chain disk (s :: rest) sc left)
    (hfs : ∀ id file, fs (.point id file) = base (.point id file))
    (hreads : ∀ p ∈ s.reads sc, fs p = left p) (hex : s.exec sc fs = some (sc', fs')) :
    OnTrack base chain disk rest sc' (s.record sc left fs') := by
  have halone := exec_record (fun id file => (h.point id file).trans (hfs id file).symm)
    (fun p hp => (hreads p hp).symm) hex
  obtain ⟨pre, gs, hsteps, hgs, hpre⟩ := h
  refine ⟨pre ++ [s], gs, ?_, hgs, ?_⟩
  · rw [hsteps, List.append_assoc]
    rfl
  · rw [(exec_eq_some hex).1, execAll_append, hpre, Option.bind_some, execAll, halone]
    rfl

/-- The rename is the last step but one. -/
theorem split_rename {pre rest : List DiskStep}
    (h : restoreDiskChain chain disk = pre ++ .rename :: rest) :
    pre = assembleSteps chain disk ∧ rest = [.finish] := by
  have hnot := rename_not_mem_assembleSteps chain disk
  rw [restoreDiskChain, List.append_eq_append_iff] at h
  rcases h with ⟨as, rfl, has⟩ | ⟨bs, hbs, has⟩
  · rcases as with _ | ⟨a, as⟩
    · cases has
      exact ⟨List.append_nil _, rfl⟩
    · -- a step list longer than `assembleSteps` leaves no rename
      rcases as with _ | ⟨b, as⟩
      · cases has
      · simp at has
  · rcases bs with _ | ⟨b, bs⟩
    · cases has
      exact ⟨(hbs.trans (List.append_nil _)).symm, rfl⟩
    · obtain ⟨rfl, -⟩ := List.cons.inj has
      exact absurd (hbs ▸ List.mem_append_right _ List.mem_cons_self) hnot

/-- **The rename of a restore on track puts the assembled image in place.** -/
theorem rename (hne : chain ≠ []) (hnd : (chain.map Metadata.id).Nodup)
    (h : OnTrack base chain disk (.rename :: rest) sc left)
    (hreads : ∀ p ∈ DiskStep.rename.reads sc, fs p = left p)
    (hex : DiskStep.rename.exec sc fs = some (sc', fs')) :
    assemble base chain disk = fs' (.volume sc.dst) ∧ rest = [.finish] ∧
      (assemble base chain disk).isSome := by
  obtain ⟨pre, gs, hsteps, hgs, hpre⟩ := h
  obtain ⟨rfl, hrest⟩ := split_rename hsteps
  have hbuild := assembleSteps_execAll hne hnd sc.dst disk gs
  rw [assemble_congr hgs, hpre] at hbuild
  rcases himg : assemble base chain disk with _ | img
  · rw [himg] at hbuild
    cases hbuild
  · rw [himg] at hbuild
    obtain ⟨_, _, heq, -, htmp⟩ := hbuild
    cases heq
    have hfs : fs (.restoreTmp sc.dst) = some img :=
      (hreads _ List.mem_cons_self).trans htmp
    rw [DiskStep.exec, hfs] at hex
    cases hex
    exact ⟨(Files.put_self _ _ _).symm, hrest, rfl⟩

end OnTrack

end Ultrav
