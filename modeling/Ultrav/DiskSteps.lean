import Ultrav.BackupChain

/-!
# Assembling one disk of a backup chain

`restoreDiskChain` is a straight-line program: it downloads every image of the chain,
converts the full one into a scratch file, replays the incrementals on top of it,
renames the scratch file over the volume and cleans up. Here it is a list of steps.

* `DiskStep` / `exec` — the steps and what each does to the files.
* `restoreDiskChain` — the step list of one disk.
* `runSteps` — run a step list; a step that fails leaves its scratch file in any
  state, and the deferred removals follow.
* `assemble` — the image the steps build, as a function of the point images alone.

Steps of one disk share their scratch names with the steps of any other restore of
the same disk or chain. Alone they build `assemble` (`restoreDiskChain_execAll`), and
only the rename touches a volume (`exec_volume`).
-/

namespace Ultrav

/-! ## Steps -/

/-- A step of `restoreDiskChain`. -/
inductive DiskStep where
  /-- `diskImage` finds no entry -/
  | noImage : String → String → DiskStep
  /-- open the pool of the point and download the image -/
  | fetch : String → String → DiskStep
  /-- `qemu-img rebase -u -b ""` -/
  | rebase : String → String → DiskStep
  /-- append the download to the source list -/
  | keep : String → String → DiskStep
  /-- `qemu-img convert` of the full image -/
  | convert : Format → String → String → DiskStep
  /-- `qemu-img convert -n` of an incremental image -/
  | convertInto : Format → String → String → DiskStep
  /-- `os.Rename(tmp, dst)` -/
  | rename : DiskStep
  /-- the deferred removals -/
  | finish : DiskStep
  deriving DecidableEq, Repr

/-- The variables of a running `restoreDiskChain`. -/
structure Scratch where
  /-- the volume to replace; the temp file is named after it -/
  dst : String
  /-- the downloads collected so far -/
  locals : List (String × String)

/-- The deferred removals: the temp file and the collected downloads. -/
def Scratch.cleanup (sc : Scratch) (fs : Files) : Files :=
  sc.locals.foldl (fun fs s => fs.remove (.download s.1 s.2)) (fs.remove (.restoreTmp sc.dst))

namespace DiskStep

/-- What a step does; `none` when it cannot succeed. -/
def exec (sc : Scratch) (fs : Files) : DiskStep → Option (Scratch × Files)
  | noImage _ _ => none
  | fetch id file => (fs (.point id file)).map fun img => (sc, fs.put (.download id file) img)
  | rebase id file =>
    (fs (.download id file)).map fun img => (sc, fs.put (.download id file) img.detach)
  | keep id file => some ({ sc with locals := sc.locals ++ [(id, file)] }, fs)
  | convert format id file =>
    ((fs (.download id file)).bind (Image.convert format)).map fun img =>
      (sc, fs.put (.restoreTmp sc.dst) img)
  | convertInto format id file =>
    (fs (.download id file)).bind fun src =>
      (fs (.restoreTmp sc.dst)).bind fun tmp =>
        (Image.convertInto format src tmp).map fun img => (sc, fs.put (.restoreTmp sc.dst) img)
  | rename =>
    (fs (.restoreTmp sc.dst)).map fun img =>
      (sc, (fs.remove (.restoreTmp sc.dst)).put (.volume sc.dst) img)
  | finish => some (sc, sc.cleanup fs)

/-- The steps that libvirt, qemu-img, the file system or a canceled context can fail. -/
def canFail : DiskStep → Bool
  | fetch _ _ => true
  | rebase _ _ => true
  | convert _ _ _ => true
  | convertInto _ _ _ => true
  | rename => true
  | _ => false

/-- What a failed step leaves: its own scratch file can hold anything. -/
def wreck (sc : Scratch) (fs : Files) (junk : Option Image) : DiskStep → Files
  | fetch id file => Function.update fs (.download id file) junk
  | rebase id file => Function.update fs (.download id file) junk
  | convert _ _ _ => Function.update fs (.restoreTmp sc.dst) junk
  | convertInto _ _ _ => Function.update fs (.restoreTmp sc.dst) junk
  | _ => fs

/-- The error of a failed step. -/
def error : DiskStep → String
  | noImage id disk => "backup " ++ id ++ " has no image for disk " ++ disk
  | fetch _ file => "download " ++ file
  | rebase _ _ => "qemu-img rebase"
  | convert _ _ _ => "qemu-img convert (full)"
  | convertInto _ _ _ => "qemu-img convert"
  | rename => "rename"
  | _ => ""

end DiskStep

/-- Every step in turn. -/
def execAll : List DiskStep → Scratch → Files → Option (Scratch × Files)
  | [], sc, fs => some (sc, fs)
  | s :: rest, sc, fs => (s.exec sc fs).bind fun w => execAll rest w.1 w.2

/-- The failures a restore meets: whether its `n`-th step fails, and what that step
leaves in its scratch file. -/
structure StepEnv where
  /-- step `n` fails -/
  fails : ℕ → Bool
  /-- what it leaves -/
  junk : ℕ → Option Image

/-- Run a step list from step number `n` on. -/
def runSteps (env : StepEnv) :
    ℕ → List DiskStep → Scratch → Files → Except String Unit × Files
  | _, [], _, fs => (.ok (), fs)
  | n, s :: rest, sc, fs =>
    match if s.canFail && env.fails n then none else s.exec sc fs with
    | some (sc', fs') => runSteps env (n + 1) rest sc' fs'
    | none => (.error s.error, sc.cleanup (s.wreck sc fs (env.junk n)))

/-- None of the steps from number `n` on is made to fail. -/
def quiet (env : StepEnv) : ℕ → List DiskStep → Bool
  | _, [] => true
  | n, s :: rest => !(s.canFail && env.fails n) && quiet env (n + 1) rest

/-! ## The program of one disk -/

/-- `diskImage`: the image entry of a disk inside a backup point. -/
def diskImage (m : Metadata) (disk : String) : Except String (String × Format) :=
  match m.disks.find? fun d => d.name = disk with
  | some d => .ok (d.file, d.format)
  | none => .error ("backup " ++ m.id ++ " has no image for disk " ++ disk)

/-- Inversion for `diskImage`. -/
theorem diskImage_eq_ok {m : Metadata} {disk file : String} {format : Format}
    (h : diskImage m disk = .ok (file, format)) :
    ∃ d ∈ m.disks, d.name = disk ∧ d.file = file ∧ d.format = format := by
  rw [diskImage] at h
  split at h
  · rename_i d hd
    cases h
    exact ⟨d, List.mem_of_find?_eq_some hd, by simpa using List.find?_some hd, rfl, rfl⟩
  · cases h

/-- One round of the download loop. -/
def fetchSteps (disk : String) (m : Metadata) : List DiskStep :=
  match diskImage m disk with
  | .error _ => [.noImage m.id disk]
  | .ok (file, _) =>
    .fetch m.id file :: ((if m.parentID = "" then [] else [.rebase m.id file]) ++
      [.keep m.id file])

/-- The source list the download loop collects. -/
def chainSources (disk : String) (chain : List Metadata) : List (String × String × Format) :=
  chain.filterMap fun m =>
    match diskImage m disk with
    | .error _ => none
    | .ok (file, format) => some (m.id, file, format)

/-- The full image into the temp file, then each incremental on top of it. -/
def convertSteps : List (String × String × Format) → List DiskStep
  | [] => []
  | s :: rest => .convert s.2.2 s.1 s.2.1 :: rest.map fun s => .convertInto s.2.2 s.1 s.2.1

/-- Everything before the rename. -/
def assembleSteps (chain : List Metadata) (disk : String) : List DiskStep :=
  chain.flatMap (fetchSteps disk) ++ convertSteps (chainSources disk chain)

/-- `restoreDiskChain` -/
def restoreDiskChain (chain : List Metadata) (disk : String) : List DiskStep :=
  assembleSteps chain disk ++ [.rename, .finish]

/-! ## The image of a chain -/

theorem mapM_ne_nil {α β : Type} {f : α → Option β} {l : List α} {bs : List β} (hne : l ≠ [])
    (h : l.mapM f = some bs) : bs ≠ [] := by
  rintro rfl
  obtain ⟨a, as, rfl⟩ := List.exists_cons_of_ne_nil hne
  rw [List.mapM_cons] at h
  obtain ⟨b, -, h⟩ := Option.bind_eq_some_iff.mp h
  obtain ⟨bs, -, h⟩ := Option.bind_eq_some_iff.mp h
  cases h

/-- The local copy of one point's image, ready for conversion. -/
def localImage (fs : Files) (disk : String) (m : Metadata) : Option (Format × Image) :=
  match diskImage m disk with
  | .error _ => none
  | .ok (file, format) =>
    (fs (.point m.id file)).map fun img =>
      (format, if m.parentID = "" then img else img.detach)

/-- Convert the first image, replay the others over it. -/
def combine : List (Format × Image) → Option Image
  | [] => none
  | (format, full) :: rest =>
    (full.convert format).bind fun tmp =>
      rest.foldlM (fun tmp s => Image.convertInto s.1 s.2 tmp) tmp

/-- The image that restoring `disk` from `chain` puts in place. -/
def assemble (fs : Files) (chain : List Metadata) (disk : String) : Option Image :=
  (chain.mapM (localImage fs disk)).bind combine

theorem combine_concat {imgs : List (Format × Image)} (hne : imgs ≠ []) (i : Format × Image) :
    combine (imgs ++ [i]) = (combine imgs).bind fun tmp => Image.convertInto i.1 i.2 tmp := by
  obtain ⟨⟨format, full⟩, rest, rfl⟩ := List.exists_cons_of_ne_nil hne
  rw [List.cons_append, combine, combine, Option.bind_assoc]
  congr 1
  funext tmp
  rw [List.foldlM_append]
  congr 1
  funext tmp'
  rw [List.foldlM_cons]
  rcases Image.convertInto i.1 i.2 tmp' with _ | img <;> rfl

/-- A full point alone. -/
theorem assemble_singleton (fs : Files) (m : Metadata) (disk : String) :
    assemble fs [m] disk = (localImage fs disk m).bind fun i => i.2.convert i.1 := by
  rw [assemble, List.mapM_cons, List.mapM_nil]
  rcases localImage fs disk m with _ | i
  · rfl
  · change (i.2.convert i.1).bind some = i.2.convert i.1
    exact Option.bind_fun_some _

/-- One more incremental is replayed over what the chain before it assembles. -/
theorem assemble_concat (fs : Files) {chain : List Metadata} (hne : chain ≠ []) (m : Metadata)
    (disk : String) :
    assemble fs (chain ++ [m]) disk = (assemble fs chain disk).bind fun tmp =>
      (localImage fs disk m).bind fun i => Image.convertInto i.1 i.2 tmp := by
  rw [assemble, assemble, List.mapM_append, List.mapM_cons, List.mapM_nil]
  rcases hm : chain.mapM (localImage fs disk) with _ | imgs
  · rfl
  · have hne' : imgs ≠ [] := mapM_ne_nil hne hm
    rcases localImage fs disk m with _ | i
    · rcases hc : combine imgs with _ | tmp <;> simp [hc]
    · exact combine_concat hne' i

/-- Inversion for `localImage`. -/
theorem localImage_eq_some {fs : Files} {disk : String} {m : Metadata} {format : Format}
    {img : Image} (h : localImage fs disk m = some (format, img)) :
    ∃ file src, diskImage m disk = .ok (file, format) ∧ fs (.point m.id file) = some src ∧
      img = if m.parentID = "" then src else src.detach := by
  rw [localImage] at h
  split at h
  · cases h
  · rename_i file format' hd
    obtain ⟨src, hsrc, heq⟩ := Option.map_eq_some_iff.mp h
    cases heq
    exact ⟨file, src, hd, hsrc, rfl⟩

/-- The replay keeps the format of the temp file. -/
theorem replay_format {imgs : List (Format × Image)} :
    ∀ {tmp img : Image}, imgs.foldlM (fun tmp s => Image.convertInto s.1 s.2 tmp) tmp = some img →
      img.format = tmp.format := by
  induction imgs with
  | nil =>
    intro tmp img h
    cases h
    rfl
  | cons i imgs ih =>
    intro tmp img h
    rw [List.foldlM_cons] at h
    obtain ⟨tmp', htmp, h⟩ := Option.bind_eq_some_iff.mp h
    obtain ⟨-, hf, hf', -⟩ := Image.convertInto_eq_some htmp
    rw [ih h, hf', hf]

/-- The assembled image has the format recorded for the full image. -/
theorem assemble_format {fs : Files} {chain : List Metadata} {disk : String} {img : Image}
    (h : assemble fs chain disk = some img) :
    ∃ m ∈ chain, ∃ file, diskImage m disk = .ok (file, img.format) := by
  obtain ⟨imgs, hm, hc⟩ := Option.bind_eq_some_iff.mp h
  rcases chain with _ | ⟨m, ms⟩
  · cases hm
    cases hc
  · rw [List.mapM_cons] at hm
    obtain ⟨⟨format, full⟩, hl, hm⟩ := Option.bind_eq_some_iff.mp hm
    obtain ⟨rest, -, heq⟩ := Option.bind_eq_some_iff.mp hm
    cases heq
    obtain ⟨tmp, htmp, hr⟩ := Option.bind_eq_some_iff.mp hc
    obtain ⟨-, hf, -⟩ := Image.convert_eq_some htmp
    obtain ⟨file, -, hd, -, -⟩ := localImage_eq_some hl
    exact ⟨m, List.mem_cons_self, file, by rw [hd, replay_format hr, hf]⟩

/-- Only the images of the points matter. -/
theorem assemble_congr {fs fs' : Files}
    (h : ∀ id file, fs' (.point id file) = fs (.point id file)) (chain : List Metadata)
    (disk : String) : assemble fs' chain disk = assemble fs chain disk := by
  have hlocal : localImage fs' disk = localImage fs disk := by
    funext m
    unfold localImage
    split
    · rfl
    · rw [h]
  rw [assemble, assemble, hlocal]

/-! ## What the steps leave alone -/

section Frame

variable {sc sc' : Scratch} {fs fs' : Files}

theorem cleanup_of_keep {p : Path} (htmp : p ≠ .restoreTmp sc.dst)
    (hloc : ∀ id file, p ≠ .download id file) : sc.cleanup fs p = fs p := by
  rw [Scratch.cleanup, ← Files.remove_of_ne fs htmp]
  generalize fs.remove (.restoreTmp sc.dst) = gs
  generalize sc.locals = ls
  induction ls generalizing gs with
  | nil => rfl
  | cons s ls ih => rw [List.foldl_cons, ih, Files.remove_of_ne gs (hloc _ _)]

@[simp] theorem cleanup_volume (v : String) : sc.cleanup fs (.volume v) = fs (.volume v) :=
  cleanup_of_keep (by simp) (by simp)

@[simp] theorem cleanup_point (id file : String) :
    sc.cleanup fs (.point id file) = fs (.point id file) := cleanup_of_keep (by simp) (by simp)

@[simp] theorem wreck_volume (s : DiskStep) (junk : Option Image) (v : String) :
    s.wreck sc fs junk (.volume v) = fs (.volume v) := by
  cases s <;> simp [DiskStep.wreck]

@[simp] theorem wreck_point (s : DiskStep) (junk : Option Image) (id file : String) :
    s.wreck sc fs junk (.point id file) = fs (.point id file) := by
  cases s <;> simp [DiskStep.wreck]

/-- Inversion for `exec`: the target stays, and outside its own scratch files a step
changes nothing but, for the rename, the target volume. -/
theorem exec_eq_some {s : DiskStep} (h : s.exec sc fs = some (sc', fs')) :
    sc'.dst = sc.dst ∧ (∀ id file, fs' (.point id file) = fs (.point id file)) ∧
      ∀ v, s ≠ .rename ∨ v ≠ sc.dst → fs' (.volume v) = fs (.volume v) := by
  cases s with
  | noImage _ _ => cases h
  | fetch id file =>
    obtain ⟨img, -, hw⟩ := Option.map_eq_some_iff.mp h
    cases hw
    exact ⟨rfl, fun _ _ => Files.put_of_ne _ _ (by simp),
      fun _ _ => Files.put_of_ne _ _ (by simp)⟩
  | rebase id file =>
    obtain ⟨img, -, hw⟩ := Option.map_eq_some_iff.mp h
    cases hw
    exact ⟨rfl, fun _ _ => Files.put_of_ne _ _ (by simp),
      fun _ _ => Files.put_of_ne _ _ (by simp)⟩
  | keep id file =>
    cases h
    exact ⟨rfl, fun _ _ => rfl, fun _ _ => rfl⟩
  | convert format id file =>
    obtain ⟨img, -, hw⟩ := Option.map_eq_some_iff.mp h
    cases hw
    exact ⟨rfl, fun _ _ => Files.put_of_ne _ _ (by simp),
      fun _ _ => Files.put_of_ne _ _ (by simp)⟩
  | convertInto format id file =>
    obtain ⟨src, -, h⟩ := Option.bind_eq_some_iff.mp h
    obtain ⟨tmp, -, h⟩ := Option.bind_eq_some_iff.mp h
    obtain ⟨img, -, hw⟩ := Option.map_eq_some_iff.mp h
    cases hw
    exact ⟨rfl, fun _ _ => Files.put_of_ne _ _ (by simp),
      fun _ _ => Files.put_of_ne _ _ (by simp)⟩
  | rename =>
    obtain ⟨img, -, hw⟩ := Option.map_eq_some_iff.mp h
    cases hw
    refine ⟨rfl, fun _ _ => ?_, fun v hv => ?_⟩
    · rw [Files.put_of_ne _ _ (by simp), Files.remove_of_ne _ (by simp)]
    · have hne : v ≠ sc.dst := hv.resolve_left (by simp)
      rw [Files.put_of_ne _ _ (by simpa using hne), Files.remove_of_ne _ (by simp)]
  | finish =>
    cases h
    exact ⟨rfl, fun _ _ => cleanup_point _ _, fun _ _ => cleanup_volume _⟩

theorem execAll_append (as bs : List DiskStep) :
    ∀ (sc : Scratch) (fs : Files), execAll (as ++ bs) sc fs =
      (execAll as sc fs).bind fun w => execAll bs w.1 w.2 := by
  induction as with
  | nil => intro sc fs; rfl
  | cons s as ih =>
    intro sc fs
    simp only [List.cons_append, execAll, Option.bind_assoc]
    exact congrArg _ (funext fun w => ih w.1 w.2)

/-- A step list without rename leaves every volume. -/
theorem execAll_frame {steps : List DiskStep} :
    ∀ {sc fs sc' fs'}, execAll steps sc fs = some (sc', fs') →
      sc'.dst = sc.dst ∧ (∀ id file, fs' (.point id file) = fs (.point id file)) ∧
        (.rename ∉ steps → ∀ v, fs' (.volume v) = fs (.volume v)) := by
  induction steps with
  | nil =>
    intro sc fs sc' fs' h
    cases h
    exact ⟨rfl, fun _ _ => rfl, fun _ _ => rfl⟩
  | cons s steps ih =>
    intro sc fs sc' fs' h
    obtain ⟨⟨sc₁, fs₁⟩, hs, h⟩ := Option.bind_eq_some_iff.mp h
    obtain ⟨hd, hp, hv⟩ := exec_eq_some hs
    obtain ⟨hd', hp', hv'⟩ := ih h
    refine ⟨hd'.trans hd, fun id file => (hp' id file).trans (hp id file), fun hr v => ?_⟩
    rw [List.mem_cons, not_or] at hr
    exact (hv' hr.2 v).trans (hv v (.inl (Ne.symm hr.1)))

end Frame

/-! ## The steps build `assemble` -/

/-- The downloads of a source list hold these images. -/
def Holds (fs : Files) : List (String × String × Format) → List (Format × Image) → Prop :=
  List.Forall₂ fun s img => s.2.2 = img.1 ∧ fs (.download s.1 s.2.1) = some img.2

theorem Holds.congr {fs fs' : Files} {ss : List (String × String × Format)}
    {imgs : List (Format × Image)} (h : Holds fs ss imgs)
    (hfs : ∀ id file, fs' (.download id file) = fs (.download id file)) : Holds fs' ss imgs :=
  List.Forall₂.imp (fun _ _ hs => ⟨hs.1, (hfs _ _).trans hs.2⟩) h

/-- One round of the download loop: it needs the image, and leaves it, detached from the
original disk, under the download name. -/
theorem fetchSteps_execAll (disk : String) (m : Metadata) (sc : Scratch) (fs : Files) :
    match localImage fs disk m with
    | none => execAll (fetchSteps disk m) sc fs = none
    | some s => ∃ file sc' fs', diskImage m disk = .ok (file, s.1) ∧
        execAll (fetchSteps disk m) sc fs = some (sc', fs') ∧ sc'.dst = sc.dst ∧
        fs' (.download m.id file) = some s.2 ∧
        ∀ p, p ≠ .download m.id file → fs' p = fs p := by
  rcases hd : diskImage m disk with e | ⟨file, format⟩
  · simp [localImage, hd, fetchSteps, execAll, DiskStep.exec]
  · rcases hp : fs (.point m.id file) with _ | img
    · simp [localImage, hd, hp, fetchSteps, execAll, DiskStep.exec]
    · by_cases hpar : m.parentID = ""
      · simp only [localImage, hd, hp, Option.map_some, if_pos hpar]
        refine ⟨file, { sc with locals := sc.locals ++ [(m.id, file)] },
          fs.put (.download m.id file) img, rfl, ?_, rfl, Files.put_self fs _ img,
          fun p hne => Files.put_of_ne fs img hne⟩
        simp [fetchSteps, hd, hpar, execAll, DiskStep.exec, hp]
      · simp only [localImage, hd, hp, Option.map_some, if_neg hpar]
        refine ⟨file, { sc with locals := sc.locals ++ [(m.id, file)] },
          (fs.put (.download m.id file) img).put (.download m.id file) img.detach, rfl, ?_, rfl,
          Files.put_self _ _ _, fun p hne => ?_⟩
        · simp [fetchSteps, hd, hpar, execAll, DiskStep.exec, hp]
        · rw [Files.put_of_ne _ _ hne, Files.put_of_ne _ _ hne]

/-- The download loop over points with distinct ids. -/
theorem fetchLoop_execAll (disk : String) {ms : List Metadata} :
    (ms.map Metadata.id).Nodup → ∀ (sc : Scratch) (fs : Files),
      match ms.mapM (localImage fs disk) with
      | none => execAll (ms.flatMap (fetchSteps disk)) sc fs = none
      | some imgs => ∃ sc' fs', execAll (ms.flatMap (fetchSteps disk)) sc fs = some (sc', fs') ∧
          sc'.dst = sc.dst ∧ Holds fs' (chainSources disk ms) imgs ∧
          ∀ p, (∀ id file, p = .download id file → id ∉ ms.map Metadata.id) → fs' p = fs p := by
  induction ms with
  | nil =>
    intro _ sc fs
    exact ⟨sc, fs, rfl, rfl, .nil, fun _ _ => rfl⟩
  | cons m ms ih =>
    intro hnd sc fs
    rw [List.map_cons, List.nodup_cons] at hnd
    have hround := fetchSteps_execAll disk m sc fs
    rw [List.mapM_cons]
    rcases hl : localImage fs disk m with _ | s
    · rw [hl] at hround
      simp only [Option.bind_eq_bind, Option.bind_none]
      rw [List.flatMap_cons, execAll_append, hround]
      rfl
    · rw [hl] at hround
      obtain ⟨file, sc₁, fs₁, himg, hex, hdst, hdown, hsame⟩ := hround
      -- the rounds after this one neither read nor write this download
      have hlocal : ms.mapM (localImage fs₁ disk) = ms.mapM (localImage fs disk) := by
        congr 1
        funext m'
        unfold localImage
        split
        · rfl
        · rw [hsame _ (by simp)]
      have hrest := ih hnd.2 sc₁ fs₁
      rw [hlocal] at hrest
      simp only [Option.bind_eq_bind, Option.bind_some]
      rcases hm : ms.mapM (localImage fs disk) with _ | imgs
      · rw [hm] at hrest
        simp only [Option.bind_none]
        rw [List.flatMap_cons, execAll_append, hex]
        exact hrest
      · rw [hm] at hrest
        obtain ⟨sc₂, fs₂, hex₂, hdst₂, hholds, hsame₂⟩ := hrest
        simp only [Option.bind_some, Option.pure_def]
        refine ⟨sc₂, fs₂, ?_, hdst₂.trans hdst, ?_, fun p hp => ?_⟩
        · rw [List.flatMap_cons, execAll_append, hex]
          exact hex₂
        · have hkeep : fs₂ (.download m.id file) = some s.2 := by
            rw [hsame₂, hdown]
            rintro id file' heq
            cases heq
            exact hnd.1
          simp only [chainSources, List.filterMap_cons, himg]
          exact .cons ⟨rfl, hkeep⟩ hholds
        · rw [hsame₂ p, hsame p]
          · rintro rfl
            exact hp _ _ rfl (by simp)
          · intro id file' heq hmem
            exact hp id file' heq (List.mem_cons_of_mem _ hmem)

/-- The replay loop folds the downloads into the temp file. -/
theorem replayLoop_execAll {sc : Scratch} {imgs : List (Format × Image)} :
    ∀ {ss : List (String × String × Format)} {fs : Files} {tmp : Image}, Holds fs ss imgs →
      fs (.restoreTmp sc.dst) = some tmp →
      match imgs.foldlM (fun tmp s => Image.convertInto s.1 s.2 tmp) tmp with
      | none => execAll (ss.map fun s => .convertInto s.2.2 s.1 s.2.1) sc fs = none
      | some img => ∃ fs', execAll (ss.map fun s => .convertInto s.2.2 s.1 s.2.1) sc fs =
          some (sc, fs') ∧ fs' (.restoreTmp sc.dst) = some img := by
  induction imgs with
  | nil =>
    intro ss fs tmp hholds htmp
    cases hholds
    exact ⟨fs, rfl, htmp⟩
  | cons i imgs ih =>
    intro ss fs tmp hholds htmp
    rcases hholds with _ | @⟨s, _, ss, _, ⟨hf, hi⟩, hss⟩
    rw [List.foldlM_cons]
    rcases hc : Image.convertInto i.1 i.2 tmp with _ | tmp'
    · simp [execAll, DiskStep.exec, hf, hi, htmp, hc]
    · have hstep : (DiskStep.convertInto s.2.2 s.1 s.2.1).exec sc fs =
          some (sc, fs.put (.restoreTmp sc.dst) tmp') := by
        simp [DiskStep.exec, hf, hi, htmp, hc]
      have hkeep : Holds (fs.put (.restoreTmp sc.dst) tmp') ss imgs :=
        Holds.congr hss fun id file => Files.put_of_ne fs tmp' (by simp)
      have hrest := ih hkeep (Files.put_self fs (.restoreTmp sc.dst) tmp')
      rw [List.map_cons, execAll, hstep]
      exact hrest

/-- The conversion steps combine the downloads in the temp file. -/
theorem convertSteps_execAll (sc : Scratch) {fs : Files}
    {ss : List (String × String × Format)} {imgs : List (Format × Image)}
    (hholds : Holds fs ss imgs) (hne : imgs ≠ []) :
    match combine imgs with
    | none => execAll (convertSteps ss) sc fs = none
    | some img => ∃ fs', execAll (convertSteps ss) sc fs = some (sc, fs') ∧
        fs' (.restoreTmp sc.dst) = some img := by
  rcases hholds with _ | @⟨s, i, ss, imgs, ⟨hf, hi⟩, hss⟩
  · exact absurd rfl hne
  · rw [combine]
    rcases hc : Image.convert i.1 i.2 with _ | tmp
    · simp [convertSteps, execAll, DiskStep.exec, hf, hi, hc]
    · have hstep : (DiskStep.convert s.2.2 s.1 s.2.1).exec sc fs =
          some (sc, fs.put (.restoreTmp sc.dst) tmp) := by
        simp [DiskStep.exec, hf, hi, hc]
      rw [convertSteps, execAll, hstep]
      have hkeep : Holds (fs.put (.restoreTmp sc.dst) tmp) ss imgs :=
        Holds.congr hss fun id file => Files.put_of_ne fs tmp (by simp)
      exact replayLoop_execAll hkeep (Files.put_self fs (.restoreTmp sc.dst) tmp)

/-- **The steps before the rename build `assemble` in the temp file**, for a chain of
points with distinct ids. -/
theorem assembleSteps_execAll {chain : List Metadata} (hne : chain ≠ [])
    (hnd : (chain.map Metadata.id).Nodup) (dst disk : String) (fs : Files) :
    match assemble fs chain disk with
    | none => execAll (assembleSteps chain disk) ⟨dst, []⟩ fs = none
    | some img => ∃ sc' fs', execAll (assembleSteps chain disk) ⟨dst, []⟩ fs = some (sc', fs') ∧
        sc'.dst = dst ∧ fs' (.restoreTmp dst) = some img := by
  have hfetch := fetchLoop_execAll disk hnd ⟨dst, []⟩ fs
  rw [assemble, assembleSteps, execAll_append]
  rcases hm : chain.mapM (localImage fs disk) with _ | imgs
  · rw [hm] at hfetch
    rw [hfetch]
    rfl
  · rw [hm] at hfetch
    obtain ⟨sc₁, fs₁, hex, rfl, hholds, -⟩ := hfetch
    have hne' : imgs ≠ [] := mapM_ne_nil hne hm
    have hconv := convertSteps_execAll sc₁ hholds hne'
    rw [hex, Option.bind_some]
    rcases hc : combine imgs with _ | img
    · rw [hc] at hconv
      simpa [hc] using hconv
    · rw [hc] at hconv
      obtain ⟨fs₂, hex₂, htmp⟩ := hconv
      simp only [Option.bind_some]
      exact ⟨sc₁, fs₂, hex₂, rfl, htmp⟩

/-! ## Running the steps of one disk -/

/-- Only the last but one step renames. -/
theorem rename_not_mem_assembleSteps (chain : List Metadata) (disk : String) :
    .rename ∉ assembleSteps chain disk := by
  intro h
  rcases List.mem_append.mp h with h | h
  · obtain ⟨m, -, h⟩ := List.mem_flatMap.mp h
    rw [fetchSteps] at h
    split at h
    · simp at h
    · split at h
      · simp at h
      · simp at h
  · rcases hs : chainSources disk chain with _ | ⟨s, rest⟩
    · rw [hs] at h
      simp [convertSteps] at h
    · rw [hs] at h
      simp [convertSteps] at h

/-- A run succeeds when nothing is made to fail and every step can be taken. -/
theorem runSteps_eq_ok {env : StepEnv} {steps : List DiskStep} :
    ∀ {n : ℕ} {sc : Scratch} {fs fs' : Files},
      runSteps env n steps sc fs = (.ok (), fs') ↔
        quiet env n steps = true ∧ ∃ sc', execAll steps sc fs = some (sc', fs') := by
  induction steps with
  | nil =>
    intro n sc fs fs'
    simp [runSteps, quiet, execAll]
  | cons s steps ih =>
    intro n sc fs fs'
    by_cases hf : (s.canFail && env.fails n) = true
    · simp [runSteps, quiet, hf]
    · rcases hs : s.exec sc fs with _ | ⟨sc₁, fs₁⟩
      · simp [runSteps, execAll, hf, hs]
      · simp [runSteps, quiet, execAll, hf, hs, ih]

/-- A run changes no image of a point; a failed one no volume either, unless it fails
after a rename. -/
theorem runSteps_frame {env : StepEnv} {pre : List DiskStep} (hpre : .rename ∉ pre) :
    ∀ {n : ℕ} {sc : Scratch} {fs fs' : Files} {r : Except String Unit},
      runSteps env n (pre ++ [.rename, .finish]) sc fs = (r, fs') →
        (∀ id file, fs' (.point id file) = fs (.point id file)) ∧
          ∀ e, r = .error e → ∀ v, fs' (.volume v) = fs (.volume v) := by
  induction pre with
  | nil =>
    intro n sc fs fs' r h
    rw [List.nil_append, runSteps] at h
    split at h
    · -- renamed: the clean-up that follows cannot fail
      rename_i sc₁ fs₁ hs
      split at hs
      · cases hs
      · have hfs := exec_eq_some hs
        simp only [runSteps, DiskStep.canFail, DiskStep.exec, Bool.false_and] at h
        cases h
        refine ⟨fun id file => ?_, fun e he => by cases he⟩
        rw [cleanup_point, hfs.2.1]
    · cases h
      exact ⟨fun id file => by simp, fun e _ v => by simp⟩
  | cons s pre ih =>
    intro n sc fs fs' r h
    rw [List.mem_cons, not_or] at hpre
    rw [List.cons_append, runSteps] at h
    split at h
    · rename_i sc₁ fs₁ hs
      split at hs
      · cases hs
      · obtain ⟨-, hp, hv⟩ := exec_eq_some hs
        obtain ⟨hp', hv'⟩ := ih hpre.2 h
        exact ⟨fun id file => (hp' id file).trans (hp id file),
          fun e he v => (hv' e he v).trans (hv v (.inl (Ne.symm hpre.1)))⟩
    · cases h
      exact ⟨fun id file => by simp, fun e _ v => by simp⟩

/-- **`restoreDiskChain` in one piece**: it puts the assembled image in place of the
volume, or fails and leaves every volume; it fails when a step is made to fail or the
chain does not assemble. -/
theorem restoreDiskChain_run {env : StepEnv} {chain : List Metadata} (hne : chain ≠ [])
    (hnd : (chain.map Metadata.id).Nodup) {n : ℕ} {disk dst : String} {fs fs' : Files}
    {r : Except String Unit}
    (h : runSteps env n (restoreDiskChain chain disk) ⟨dst, []⟩ fs = (r, fs')) :
    (∀ id file, fs' (.point id file) = fs (.point id file)) ∧
      match r with
      | .ok () => quiet env n (restoreDiskChain chain disk) = true ∧
          ∃ img, assemble fs chain disk = some img ∧
            ∀ v, fs' (.volume v) = if v = dst then some img else fs (.volume v)
      | .error _ => ¬ (quiet env n (restoreDiskChain chain disk) = true ∧
            (assemble fs chain disk).isSome) ∧
          ∀ v, fs' (.volume v) = fs (.volume v) := by
  have hbuild := assembleSteps_execAll hne hnd dst disk fs
  have hframe := runSteps_frame (rename_not_mem_assembleSteps chain disk) h
  refine ⟨hframe.1, ?_⟩
  rcases r with e | ⟨⟨⟩⟩
  · refine ⟨fun hgood => ?_, hframe.2 e rfl⟩
    obtain ⟨img, himg⟩ := Option.isSome_iff_exists.mp hgood.2
    rw [himg] at hbuild
    obtain ⟨sc₁, fs₁, hex, rfl, htmp⟩ := hbuild
    have hall : ∃ w, execAll (restoreDiskChain chain disk) ⟨sc₁.dst, []⟩ fs = some w := by
      simp [restoreDiskChain, execAll_append, hex, execAll, DiskStep.exec, htmp]
    obtain ⟨⟨sc₂, fs₂⟩, hall⟩ := hall
    have hok := runSteps_eq_ok.mpr ⟨hgood.1, sc₂, hall⟩
    rw [h] at hok
    cases hok
  · obtain ⟨hq, sc₂, hall⟩ := runSteps_eq_ok.mp h
    rcases himg : assemble fs chain disk with _ | img
    · rw [himg] at hbuild
      rw [restoreDiskChain, execAll_append, hbuild] at hall
      cases hall
    · rw [himg] at hbuild
      obtain ⟨sc₁, fs₁, hex, rfl, htmp⟩ := hbuild
      refine ⟨hq, img, rfl, fun v => ?_⟩
      obtain ⟨-, -, hv⟩ := execAll_frame hex
      simp only [restoreDiskChain, execAll_append, hex, execAll, DiskStep.exec, htmp,
        Option.bind_some, Option.map_some, Option.some.injEq, Prod.mk.injEq] at hall
      rw [← hall.2, cleanup_volume]
      by_cases hvd : v = sc₁.dst
      · rw [if_pos hvd, hvd, Files.put_self]
      · rw [if_neg hvd, Files.put_of_ne _ _ (by simpa using hvd), Files.remove_of_ne _ (by simp),
          hv (rename_not_mem_assembleSteps chain disk)]

end Ultrav
