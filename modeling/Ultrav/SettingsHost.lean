import Mathlib.Data.List.Infix
import Mathlib.Data.Option.Basic
import Ultrav.Machine
import Ultrav.MetadataFile
import Ultrav.Replacement
import Ultrav.ScheduleUpdate

/-!
# The directory of the ISO library

A storage pool can be made the ISO library. The running library changes at once; the settings file
says it to the next process.

* `settingsBytes` / `readSettings` — `settings.json`; `readSettings_bytes` is the round trip.
* `libraryDir` — the library a process starts with.
* `LibraryHost.step` — starts and kills of the process, and any number of promotions at the same
  time, each with its two steps and the pieces of its save.
* `restart_dir` — **the next process** has the library that was saved last.
* `live_dir` — promotions one after the other: the running process has it, too.
-/

namespace Ultrav

open Json Machine

/-! ## The file -/

/-- The fields of `data`. -/
def settingsFields : List (String × Unit) := [("isoDir", ())]

/-- What `SetIsoDir` writes. -/
def settingsBytes (isoDir : String) : List UInt8 :=
  Utf8.encode (render 0 (.object (omitempty "isoDir" isoDir)))

/-- One member of the settings; others are skipped. -/
def setSettings (isoDir : String) (member : List Char × Value) : Option String :=
  match fieldOf settingsFields member.1 with
  | some () => decodeString isoDir member.2
  | none => some isoDir

/-- `json.Unmarshal` into the zero settings -/
def readSettings (bytes : List UInt8) : Option String :=
  (read (Utf8.decode bytes)).bind fun
    | .null => some ""
    | .object members => members.foldlM setSettings ""
    | _ => none

/-- **Round trip**. -/
theorem readSettings_bytes (isoDir : String) :
    readSettings (settingsBytes isoDir) = some isoDir := by
  have hvalid : (Value.object (omitempty "isoDir" isoDir)).Valid := valid_omitempty rfl isoDir
  have hkey : fieldOf settingsFields "isoDir".toList = some () := by decide
  rw [readSettings, settingsBytes, Utf8.decode_encode,
    read_render hvalid (fun _ h => (by cases h)), Option.bind_some]
  dsimp only
  rw [omitempty]
  split
  · rename_i h
    rw [h]
    rfl
  · rw [List.foldlM_cons, setSettings, member, hkey]
    dsimp only
    rw [decodeString_encodeString]
    rfl

/-! ## Starting -/

/-- `iso.New`: the directory of the environment, or the default. -/
def defaultIsoDir (env : String) : String :=
  if env = "" then "/var/lib/libvirt/images/isos" else env

/-- The library main ends up with, as the environment and the settings file have it; `none` when
the file does not read. -/
def libraryDir (env : String) (file : Option (List UInt8)) : Option String :=
  let isoDir :=
    match file with
    | none => some ""
    | some bytes => readSettings bytes
  isoDir.map fun d =>
    if d ≠ "" ∧ d ≠ defaultIsoDir env then d else defaultIsoDir env

/-! ## Promotions -/

/-- `validateCreateStoragePool` on the target path: a slash and up to 254 letters, digits and
characters of paths, without `..`. -/
def targetPathOk (path : String) : Bool :=
  match path.toList with
  | '/' :: cs => cs.length ≤ 254 &&
      (cs.all fun c => alnum c || c = '.' || c = '_' || c = '/' || c = '-') &&
      !(['.', '.'] <:+: path.toList)
  | _ => false

/-- Where a promotion stands: the pool is there, and the request asked for the ISO library. -/
inductive Promotion where
  /-- before `iso.Store.SetDir` -/
  | created (dir : String)
  /-- before `settings.Store.SetIsoDir` -/
  | switched (dir : String)
  /-- in it, with its lock -/
  | saving (dir : String)
  deriving DecidableEq

/-- The directory of a promotion. -/
def Promotion.dir : Promotion → String
  | .created dir => dir
  | .switched dir => dir
  | .saving dir => dir

/-- A running process. -/
structure LibraryProcess where
  /-- of the ISO library -/
  dir : String
  promotions : ℕ → Option Promotion
  /-- the promotion that has the lock of the settings -/
  holder : Option ℕ

/-- The directory of the settings file, the process, and what was saved. -/
structure LibraryHost where
  disk : Replacement.State String UInt8
  process : Option LibraryProcess
  /-- the directory of the last save whose rename went through -/
  saved : Option String

/-- One event. -/
inductive LibraryEvent where
  /-- main: `iso.New` and `SetDir` fail or not -/
  | start (env : String) (newFails setFails : Bool)
  /-- request `i` has created a pool, to be the ISO library -/
  | request (i : ℕ) (targetPath : String)
  /-- its `SetDir` -/
  | setDir (i : ℕ) (fails : Bool)
  /-- its `SetIsoDir` gets the lock, and a temp file or an error -/
  | lock (i : ℕ) (tmp : Option String)
  /-- a piece of the save that has the lock -/
  | save (e : Replacement.Piece)
  /-- the process is killed -/
  | kill
  deriving DecidableEq

namespace LibraryProcess

/-- A promotion moves on, or ends. -/
def set (p : LibraryProcess) (i : ℕ) (promotion : Option Promotion) : LibraryProcess :=
  { p with promotions := Function.update p.promotions i promotion }

/-- A promotion ends, and gives the lock back. -/
def release (p : LibraryProcess) (i : ℕ) : LibraryProcess := { p.set i none with holder := none }

end LibraryProcess

namespace LibraryHost

/-- Before the first start; there may be other files. -/
def fresh (path : String) (files : Replacement.Files String UInt8) : LibraryHost :=
  ⟨⟨Function.update files path none, .idle, none⟩, none, none⟩

/-- The disk after a save has failed: its temp file is removed. -/
def discard (disk : Replacement.State String UInt8) : Replacement.State String UInt8 :=
  match disk.phase with
  | .idle => disk
  | .writing tmp _ _ | .written tmp _ =>
    { disk with files := Function.update disk.files tmp none, phase := .idle }

/-- One event, for the settings at a path. -/
def step (path : String) (s : LibraryHost) : LibraryEvent → Option LibraryHost
  | .start env newFails setFails =>
    match s.process with
    | some _ => none
    | none =>
      match libraryDir env (s.disk.files path) with
      | none => some s
      | some dir =>
        if newFails ∨ setFails ∧ dir ≠ defaultIsoDir env then some s
        else some { s with process := some ⟨dir, fun _ => none, none⟩ }
  | .request i targetPath =>
    s.process.bind fun p =>
      if p.promotions i = none ∧ targetPathOk targetPath then
        some { s with process := some (p.set i (some (.created targetPath))) }
      else none
  | .setDir i fails =>
    s.process.bind fun p =>
      match p.promotions i with
      | some (.created dir) =>
        if fails then some { s with process := some (p.set i none) }
        else some { s with process := some { p.set i (some (.switched dir)) with dir := dir } }
      | _ => none
  | .lock i tmp =>
    s.process.bind fun p =>
      match p.promotions i, p.holder with
      | some (.switched dir), none =>
        match tmp with
        | none => some { s with process := some (p.set i none) }
        | some tmp =>
          -- `CreateTemp` draws a name that is not there
          if s.disk.files tmp = none then
            (Replacement.step path s.disk (.create tmp (settingsBytes dir))).map fun disk =>
              { s with
                disk := disk
                process := some { p.set i (some (.saving dir)) with holder := some i } }
          else none
      | _, _ => none
  | .save e =>
    s.process.bind fun p => p.holder.bind fun i =>
      (Replacement.step path s.disk e.toEvent).bind fun disk =>
        match e with
        | .write _ | .close => some { s with disk := disk }
        | .rename =>
          some ⟨disk, some (p.release i), (p.promotions i).map Promotion.dir⟩
        | .fail => some { s with disk := discard s.disk, process := some (p.release i) }
  | .kill => some { s with disk := { s.disk with phase := .idle }, process := none }

/-! ## Whole files -/

/-- The file holds what was saved last, and what is being saved is the directory of the promotion
that has the lock. -/
structure Whole (path : String) (s : LibraryHost) : Prop where
  disk : Replacement.Sound path s.disk
  kept : Option.Rel (fun dir bytes => dir ≠ "" ∧ bytes = settingsBytes dir) s.saved s.disk.kept
  content : ∀ bytes, s.disk.phase.content = some bytes → ∃ p i dir, s.process = some p ∧
    p.holder = some i ∧ p.promotions i = some (.saving dir) ∧ bytes = settingsBytes dir
  named : ∀ p i promotion, s.process = some p → p.promotions i = some promotion →
    promotion.dir ≠ ""

variable {path : String} {s s' : LibraryHost} {e : LibraryEvent}

theorem whole_fresh (path : String) (files : Replacement.Files String UInt8) :
    (fresh path files).Whole path :=
  ⟨⟨Function.update_self _ _ _, trivial⟩, .none, nofun, nofun⟩

/-- What the next process starts with, when the file is whole. -/
theorem Whole.libraryDir_eq (h : s.Whole path) (env : String) :
    libraryDir env (s.disk.files path) = some (s.saved.getD (defaultIsoDir env)) := by
  rw [h.disk.file]
  have hkept := h.kept
  generalize s.saved = saved, s.disk.kept = kept at hkept ⊢
  cases hkept with
  | none => rfl
  | @some dir bytes hbytes =>
    obtain ⟨hne, rfl⟩ := hbytes
    simp only [libraryDir, readSettings_bytes, Option.map_some, Option.getD_some]
    refine congrArg some ?_
    split
    · rfl
    · rename_i hdefault
      exact (not_not.mp fun hdir => hdefault ⟨hne, hdir⟩).symm

theorem targetPathOk_ne_empty {targetPath : String} (h : targetPathOk targetPath = true) :
    targetPath ≠ "" := by
  rintro rfl
  cases h

/-- The promotions of a process after one of them moved on. -/
theorem Whole.named_set (h : s.Whole path) {p : LibraryProcess} (hp : s.process = some p) {i : ℕ}
    {n : Option Promotion} (hnext : ∀ promotion, n = some promotion → promotion.dir ≠ "")
    {j : ℕ} {promotion : Promotion} (hj : (p.set i n).promotions j = some promotion) :
    promotion.dir ≠ "" := by
  rcases update_eq_some hj with ⟨-, heq⟩ | ⟨-, hj⟩
  · exact hnext promotion heq
  · exact h.named p j promotion hp hj

/-- A promotion that does not have the lock moves on. -/
theorem Whole.set (h : s.Whole path) {p : LibraryProcess} (hp : s.process = some p) {i : ℕ}
    (hi : ∀ dir, p.promotions i ≠ some (.saving dir)) {next : Option Promotion}
    (hnext : ∀ promotion, next = some promotion → promotion.dir ≠ "") (dir : String) :
    Whole path { s with process := some { p.set i next with dir := dir } } := by
  refine ⟨h.disk, h.kept, fun bytes hbytes => ?_, fun q j promotion hq hj => ?_⟩
  · obtain ⟨q, j, dir', hq, hholder, hsaving, hcontent⟩ := h.content bytes hbytes
    obtain rfl := Option.some.inj (hp.symm.trans hq)
    refine ⟨_, j, dir', rfl, hholder, ?_, hcontent⟩
    refine (Function.update_of_ne ?_ _ _).trans hsaving
    rintro rfl
    exact hi dir' hsaving
  · obtain rfl := Option.some.inj hq
    exact h.named_set hp hnext hj

/-- Nothing is being saved any more. -/
theorem Whole.settle {disk : Replacement.State String UInt8} {saved : Option String}
    (hdisk : Replacement.Sound path disk)
    (hkept : Option.Rel (fun dir bytes => dir ≠ "" ∧ bytes = settingsBytes dir) saved disk.kept)
    (hidle : disk.phase = .idle) {process : Option LibraryProcess}
    (hnamed : ∀ p i promotion, process = some p → p.promotions i = some promotion →
      promotion.dir ≠ "") : Whole path ⟨disk, process, saved⟩ := by
  refine ⟨hdisk, hkept, fun bytes hbytes => ?_, hnamed⟩
  rw [Replacement.Phase.content_eq_none.mpr hidle] at hbytes
  cases hbytes

theorem Whole.discard (h : s.Whole path) :
    Replacement.Sound path (discard s.disk) ∧ (LibraryHost.discard s.disk).phase = .idle ∧
      (LibraryHost.discard s.disk).kept = s.disk.kept := by
  have htemp := h.disk.temp
  rw [LibraryHost.discard]
  split
  · rename_i hphase
    exact ⟨h.disk, hphase, rfl⟩
  · rename_i hphase
    rw [hphase] at htemp
    exact ⟨h.disk.remove htemp.1, rfl, rfl⟩
  · rename_i hphase
    rw [hphase] at htemp
    exact ⟨h.disk.remove htemp.1, rfl, rfl⟩

/-- **Every event** keeps the file whole. -/
theorem Whole.step (h : s.Whole path) (hs : s.step path e = some s') : s'.Whole path := by
  cases e with
  | start env newFails setFails =>
    rw [LibraryHost.step] at hs
    split at hs
    · cases hs
    · rename_i hnone
      have hidle : s.disk.phase = .idle := by
        refine Replacement.Phase.content_eq_none.mp (Option.eq_none_iff_forall_ne_some.mpr ?_)
        intro bytes hbytes
        obtain ⟨p, -, -, hp, -⟩ := h.content bytes hbytes
        cases hnone.symm.trans hp
      split at hs
      · cases hs
        exact h
      · split at hs
        · cases hs
          exact h
        · cases hs
          refine .settle h.disk h.kept hidle fun p i promotion hp hi => ?_
          obtain rfl := Option.some.inj hp
          cases hi
  | request i targetPath =>
    obtain ⟨p, hp, hs⟩ := Option.bind_eq_some_iff.mp hs
    obtain ⟨⟨hfree, hok⟩, heq⟩ := Option.ite_none_right_eq_some.mp hs
    obtain rfl := Option.some.inj heq
    refine h.set hp (fun dir hi => ?_) (fun promotion hnext => ?_) p.dir
    · cases hfree.symm.trans hi
    · obtain rfl := Option.some.inj hnext
      exact targetPathOk_ne_empty hok
  | setDir i fails =>
    obtain ⟨p, hp, hs⟩ := Option.bind_eq_some_iff.mp hs
    split at hs
    · rename_i dir hi
      have hnot : ∀ dir', p.promotions i ≠ some (.saving dir') := fun dir' hsaving => by
        cases hi.symm.trans hsaving
      split at hs
      · cases hs
        exact h.set hp hnot (by rintro _ ⟨⟩) p.dir
      · cases hs
        refine h.set hp hnot (fun promotion hnext => ?_) dir
        obtain rfl := Option.some.inj hnext
        exact h.named p i (.created dir) hp hi
    · cases hs
  | lock i tmp =>
    obtain ⟨p, hp, hs⟩ := Option.bind_eq_some_iff.mp hs
    split at hs
    · rename_i dir hi hfree
      have hne : dir ≠ "" := h.named p i _ hp hi
      split at hs
      · cases hs
        refine h.set hp (fun dir' hsaving => ?_) (by rintro _ ⟨⟩) p.dir
        cases hi.symm.trans hsaving
      · obtain ⟨-, hs⟩ := Option.ite_none_right_eq_some.mp hs
        obtain ⟨disk, hdisk, rfl⟩ := Option.map_eq_some_iff.mp hs
        obtain ⟨-, hcontent, hkept⟩ := Replacement.create_eq_some hdisk
        refine ⟨h.disk.step hdisk, hkept ▸ h.kept, fun bytes hbytes => ?_,
          fun q j promotion hq hj => ?_⟩
        · obtain rfl := Option.some.inj (hcontent.symm.trans hbytes)
          exact ⟨_, i, dir, rfl, rfl, Function.update_self _ _ _, rfl⟩
        · obtain rfl := Option.some.inj hq
          refine h.named_set hp (n := some (.saving dir)) (fun promotion hnext => ?_) hj
          obtain rfl := Option.some.inj hnext
          exact hne
    · cases hs
  | save e =>
    obtain ⟨p, hp, hs⟩ := Option.bind_eq_some_iff.mp hs
    obtain ⟨i, hi, hs⟩ := Option.bind_eq_some_iff.mp hs
    obtain ⟨disk, hdisk, hs⟩ := Option.bind_eq_some_iff.mp hs
    have hreleased : ∀ q j promotion, some (p.release i) = some q →
        q.promotions j = some promotion → promotion.dir ≠ "" := fun q j promotion hq hj => by
      obtain rfl := Option.some.inj hq
      exact h.named_set hp (n := none) (by rintro _ ⟨⟩) hj
    rcases Replacement.piece_eq_some hdisk with ⟨bytes, hrename, hfail, hold, hnew, hkept⟩ |
      ⟨bytes, rfl, hold, hidle, hkept⟩ | ⟨rfl, hstopped⟩
    · have heq : s' = { s with disk := disk } := by
        cases e with
        | write n => exact (Option.some.inj hs).symm
        | close => exact (Option.some.inj hs).symm
        | rename => exact absurd rfl hrename
        | fail => exact absurd rfl hfail
      rw [heq]
      refine ⟨h.disk.step hdisk, hkept ▸ h.kept, fun bytes' hbytes => ?_, h.named⟩
      obtain rfl := Option.some.inj (hnew.symm.trans hbytes)
      exact h.content bytes hold
    · cases hs
      obtain ⟨q, j, dir, hq, hj, hsaving, hcontent⟩ := h.content bytes hold
      obtain rfl := Option.some.inj (hp.symm.trans hq)
      obtain rfl := Option.some.inj (hi.symm.trans hj)
      refine .settle (h.disk.step hdisk) ?_ hidle hreleased
      rw [hsaving, hkept]
      exact .some ⟨h.named p i _ hp hsaving, hcontent⟩
    · cases hs
      obtain ⟨hdisk, hidle, hkept⟩ := h.discard
      exact .settle hdisk (hkept ▸ h.kept) hidle hreleased
  | kill =>
    cases hs
    exact .settle h.disk.stop h.kept rfl nofun

theorem whole_of_run {es : List LibraryEvent} {files : Replacement.Files String UInt8}
    (hrun : run (LibraryHost.step path) (fresh path files) es = some s) : s.Whole path :=
  run_inv (fun _ _ _ h _ hs => Whole.step h hs) (whole_fresh path files)
    (.unguarded _ es) hrun

/-- **The next process** starts with the directory of the last save whose rename went through,
and with that of its environment while there is none: however the promotions overlapped, whatever
of them failed and wherever the process was killed. -/
theorem restart_dir {es : List LibraryEvent} {files : Replacement.Files String UInt8}
    (hrun : run (LibraryHost.step path) (fresh path files) es = some s) (env : String) :
    libraryDir env (s.disk.files path) = some (s.saved.getD (defaultIsoDir env)) :=
  (whole_of_run hrun).libraryDir_eq env

namespace Promotions

/-- A pool becomes the library. -/
def first : List LibraryEvent :=
  [.start "" false false, .request 0 "/isos/a", .setDir 0 false, .lock 0 (some ".settings-1"),
    .save (.write 64), .save .close, .save .rename]

/-- The process is killed while another one is saved. -/
def second : List LibraryEvent :=
  [.request 1 "/isos/b", .setDir 1 false, .lock 1 (some ".settings-2"), .save (.write 5), .kill]

/-- What that leaves. -/
def last : LibraryHost :=
  (run (LibraryHost.step "settings.json") (fresh "settings.json" fun _ => none)
    (first ++ second)).getD (fresh "settings.json" fun _ => none)

end Promotions

/-- The first pool is the library of the next process. -/
theorem restart_dir_promotions :
    libraryDir "" (Promotions.last.disk.files "settings.json") = some "/isos/a" :=
  restart_dir (rfl : run (LibraryHost.step "settings.json")
    (fresh "settings.json" fun _ => none) (Promotions.first ++ Promotions.second) =
      some Promotions.last) ""

/-! ## Promotions one after the other -/

/-- No promotion begins while another one is under way, no step of theirs fails, and the
environment of every process is the same. -/
def OneByOne (env : String) (s : LibraryHost) : LibraryEvent → Prop
  | .start env' _ _ => env' = env
  | .request _ _ => ∀ p, s.process = some p → ∀ i, p.promotions i = none
  | .setDir _ fails => fails = false
  | .lock _ tmp => tmp ≠ none
  | .save e => e ≠ .fail
  | .kill => True

/-- The library of a process while a promotion is under way. -/
def Seen (before dir : String) : Promotion → Prop
  | .created _ => dir = before
  | .switched d => dir = d
  | .saving d => dir = d

/-- The library of the process, between promotions and within one. -/
structure Live (before : String) (p : LibraryProcess) : Prop where
  alone : ∀ i j a b, p.promotions i = some a → p.promotions j = some b → i = j
  seen : ∀ i a, p.promotions i = some a → Seen before p.dir a
  rest : (∀ i, p.promotions i = none) → p.dir = before

/-- The one promotion moves on. -/
theorem Live.set {before : String} {p : LibraryProcess} (h : Live before p) {i : ℕ}
    {a b : Promotion} (hi : p.promotions i = some a) {dir : String} (hseen : Seen before dir b)
    (holder : Option ℕ) :
    Live before { p.set i (some b) with dir := dir, holder := holder } := by
  have hothers : ∀ j c, (p.set i (some b)).promotions j = some c → j = i ∧ c = b := by
    intro j c hj
    rcases update_eq_some hj with ⟨hji, hc⟩ | ⟨hji, hj⟩
    · exact ⟨hji, (Option.some.inj hc).symm⟩
    · exact absurd (h.alone j i c a hj hi) hji
  refine ⟨fun j k c d hj hk => ?_, fun j c hj => ?_, fun hnone => ?_⟩
  · exact (hothers j c hj).1.trans (hothers k d hk).1.symm
  · obtain ⟨-, rfl⟩ := hothers j c hj
    exact hseen
  · have hset := hnone i
    dsimp only [LibraryProcess.set] at hset
    rw [Function.update_self] at hset
    cases hset

/-- **Every event** of promotions one by one. -/
theorem Live.step {env : String} (hwhole : s.Whole path)
    (h : ∀ p, s.process = some p → Live (s.saved.getD (defaultIsoDir env)) p)
    (hone : OneByOne env s e) (hs : s.step path e = some s') :
    ∀ p, s'.process = some p → Live (s'.saved.getD (defaultIsoDir env)) p := by
  intro q hq
  cases e with
  | start env' newFails setFails =>
    obtain rfl : env' = env := hone
    have hdir := hwhole.libraryDir_eq env'
    rw [LibraryHost.step, hdir] at hs
    split at hs
    · cases hs
    · dsimp only at hs
      split at hs
      · cases hs
        exact h q hq
      · cases hs
        obtain rfl := Option.some.inj hq
        exact ⟨nofun, nofun, fun _ => rfl⟩
  | request i targetPath =>
    obtain ⟨p, hp, hs⟩ := Option.bind_eq_some_iff.mp hs
    obtain ⟨-, heq⟩ := Option.ite_none_right_eq_some.mp hs
    obtain rfl := Option.some.inj heq
    obtain rfl := Option.some.inj hq
    have hnone := hone p hp
    have hothers : ∀ j c, (p.set i (some (.created targetPath))).promotions j = some c →
        j = i ∧ c = .created targetPath := by
      intro j c hj
      rcases update_eq_some hj with ⟨hji, hc⟩ | ⟨-, hj⟩
      · exact ⟨hji, (Option.some.inj hc).symm⟩
      · cases (hnone j).symm.trans hj
    refine ⟨fun j k c d hj hk => ?_, fun j c hj => ?_, fun hall => ?_⟩
    · exact (hothers j c hj).1.trans (hothers k d hk).1.symm
    · obtain ⟨-, rfl⟩ := hothers j c hj
      exact (h p hp).rest hnone
    · exact (h p hp).rest hnone
  | setDir i fails =>
    obtain ⟨p, hp, hs⟩ := Option.bind_eq_some_iff.mp hs
    obtain rfl : fails = false := hone
    split at hs
    · rename_i dir hi
      cases hs
      obtain rfl := Option.some.inj hq
      exact (h p hp).set (b := .switched dir) hi rfl p.holder
    · cases hs
  | lock i tmp =>
    obtain ⟨p, hp, hs⟩ := Option.bind_eq_some_iff.mp hs
    split at hs
    · rename_i dir hi hfree
      split at hs
      · exact absurd rfl hone
      · obtain ⟨-, hs⟩ := Option.ite_none_right_eq_some.mp hs
        obtain ⟨disk, hdisk, rfl⟩ := Option.map_eq_some_iff.mp hs
        obtain rfl := Option.some.inj hq
        exact (h p hp).set (b := .saving dir) hi ((h p hp).seen i (.switched dir) hi) (some i)
    · cases hs
  | save e =>
    obtain ⟨p, hp, hs⟩ := Option.bind_eq_some_iff.mp hs
    obtain ⟨i, hi, hs⟩ := Option.bind_eq_some_iff.mp hs
    obtain ⟨disk, hdisk, hs⟩ := Option.bind_eq_some_iff.mp hs
    cases e with
    | write n =>
      cases hs
      exact h q hq
    | close =>
      cases hs
      exact h q hq
    | fail => exact absurd rfl hone
    | rename =>
      cases hs
      obtain rfl := Option.some.inj hq
      obtain ⟨bytes, hold, -⟩ := Replacement.rename_eq_some hdisk
      obtain ⟨p', j, dir, hp', hj, hsaving, -⟩ := hwhole.content bytes hold
      obtain rfl := Option.some.inj (hp.symm.trans hp')
      obtain rfl := Option.some.inj (hi.symm.trans hj)
      have hnone : ∀ k, (p.release i).promotions k = none := by
        intro k
        rcases hk : (p.release i).promotions k with _ | c
        · rfl
        · rcases update_eq_some hk with ⟨-, hc⟩ | ⟨hki, hk⟩
          · cases hc
          · exact absurd ((h p hp).alone k i c _ hk hsaving) hki
      refine ⟨fun k l c d hk => ?_, fun k c hk => ?_, fun _ => ?_⟩
      · cases (hnone k).symm.trans hk
      · cases (hnone k).symm.trans hk
      · dsimp only
        rw [hsaving]
        exact (h p hp).seen i _ hsaving
  | kill =>
    cases hs
    cases hq

/-- **Promotions one after the other**: as long as they do not overlap and none of their steps
fails, wherever the process is killed, the running library is the one that the next process would
start with, whenever no promotion is under way. -/
theorem live_dir {env : String} {es : List LibraryEvent}
    {files : Replacement.Files String UInt8} {p : LibraryProcess}
    (hone : Along (LibraryHost.step path) (OneByOne env) (fresh path files) es)
    (hrun : run (LibraryHost.step path) (fresh path files) es = some s)
    (hp : s.process = some p) (hnone : ∀ i, p.promotions i = none) :
    libraryDir env (s.disk.files path) = some p.dir := by
  obtain ⟨hwhole, hlive⟩ := run_inv
    (I := fun s => s.Whole path ∧
      ∀ p, s.process = some p → Live (s.saved.getD (defaultIsoDir env)) p)
    (fun _ _ _ ⟨hwhole, hlive⟩ hone hs => ⟨hwhole.step hs, Live.step hwhole hlive hone hs⟩)
    ⟨whole_fresh path files, nofun⟩ hone hrun
  rw [hwhole.libraryDir_eq, (hlive p hp).rest hnone]

/-- A pool becomes the library, and the process is started again. -/
def Promotions.restarted : List LibraryEvent :=
  [.start "" false false, .request 0 "/isos/a", .setDir 0 false, .lock 0 (some ".settings-1"),
    .save (.write 64), .save .close, .save .rename, .kill, .start "" false false]

/-- The pool is the library of both processes. -/
theorem live_dir_promotions :
    libraryDir "" (((run (LibraryHost.step "settings.json") (fresh "settings.json" fun _ => none)
      Promotions.restarted).getD Promotions.last).disk.files "settings.json") = some "/isos/a" :=
  @live_dir "settings.json" _ "" Promotions.restarted (fun _ => none)
    ⟨"/isos/a", fun _ => none, none⟩
    (.cons rfl rfl <| .cons (fun _ hp _ => by cases hp; rfl) rfl <| .cons rfl rfl <|
      .cons nofun rfl <| .cons nofun rfl <| .cons nofun rfl <| .cons nofun rfl <|
      .cons trivial rfl <| .cons rfl rfl <| .nil _)
    rfl rfl fun _ => rfl

end LibraryHost

end Ultrav
