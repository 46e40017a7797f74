import Ultrav.RestoreRace

/-!
# What restores side by side leave

`Race.Inv` is the invariant of a run of safe steps: each restore is on track with its
disk, a restore that still replaces disks finds the domain stopped, and each volume holds
what the last restore that put something there assembled.

* `Inv.move` — a step of one restore that leaves every volume.
* `Inv.rename` — the step that replaces one.
* `restore_race_safe` — what follows for a whole run.
* `Contended` — two restores and a start that run into one another.
-/

namespace Ultrav

open Machine

/-! ## The invariant -/

/-- What a restore knows about its own work. `base` holds the point images. -/
def Call.Sound (base : Files) (lib : Library) : Call → Prop
  | .checked m _ => lib.get m.id = .ok m
  | .running plan renamed phase =>
    (plan.chain ≠ [] ∧ (plan.chain.map Metadata.id).Nodup) ∧
      match phase with
      | .next todo =>
        ∃ past, plan.metadata.disks = past ++ todo ∧ renamed = plan.targets past
      | .disk todo name rest sc left =>
        OnTrack base plan.chain name rest sc left ∧
          ∃ past, plan.metadata.disks = past ++ todo ∧
            renamed ++ (if .rename ∈ rest then [(name, sc.dst)] else []) = plan.targets past
      | .unwind _ => renamed = []
      | _ => renamed = plan.targets plan.metadata.disks

/-- Membership in the targets of a plan. -/
theorem mem_targets {plan : RestorePlan} {disks : List DiskEntry} {disk v : String} :
    (disk, v) ∈ plan.targets disks ↔
      ∃ bd ∈ disks, bd.name = disk ∧ plan.domain.definition.sources bd.name = some v := by
  simp only [RestorePlan.targets, List.mem_filterMap, Option.map_eq_some_iff, Prod.mk.injEq]
  constructor
  · rintro ⟨bd, hbd, dst, hsrc, hname, rfl⟩
    exact ⟨bd, hbd, hname, hsrc⟩
  · rintro ⟨bd, hbd, hname, hsrc⟩
    exact ⟨bd, hbd, v, hsrc, hname, rfl⟩

/-- A restore passes its checks with a stored point and a stopped domain. -/
theorem restoreCheck_eq_some {h : Host} {id : String} {m : Metadata} {dir : PointDir}
    (hcheck : h.restoreCheck id = some (m, dir)) : h.library.get m.id = .ok m ∧ h.Stopped := by
  rw [Host.restoreCheck] at hcheck
  split at hcheck
  · rename_i m' dir' hget hdir
    split at hcheck
    · rename_i dom hdom
      split at hcheck
      · rename_i hoff
        cases hcheck
        obtain rfl := Library.get_keyed hget
        refine ⟨hget, fun d hd => ?_⟩
        rw [Host.lookupDomain] at hdom
        split at hdom
        · cases hd.symm.trans hdom
          exact hoff
        · cases hdom
      · cases hcheck
    · cases hcheck
  · cases hcheck

namespace Race

/-- Some restore, at work or returned, has put `disk` of its plan onto `v`, and it was not
one that failed. -/
def Onto (s : Race) (plan : RestorePlan) (disk v : String) : Prop :=
  (∃ i, Call.Put plan disk v (s.calls i)) ∨
    plan ∈ s.done ∧ (disk, v) ∈ plan.targets plan.metadata.disks

/-- A volume holds what some restore put there, or nobody put anything there. -/
def Volume (base : Files) (s : Race) (v : String) : Prop :=
  (∃ plan disk img, s.Onto plan disk v ∧ assemble base plan.chain disk = some img ∧
    s.host.files (.volume v) = some img) ∨
  (∀ plan disk, ¬ s.Onto plan disk v) ∧ s.host.files (.volume v) = base (.volume v)

/-- The invariant of a run of safe steps from files `base` and library `lib`. -/
structure Inv (base : Files) (lib : Library) (s : Race) : Prop where
  /-- the library stays -/
  library : s.host.library = lib
  /-- the point images stay -/
  point : ∀ id file, s.host.files (.point id file) = base (.point id file)
  /-- a restore that replaces disks finds the domain stopped -/
  stopped : ∀ i c, s.calls i = some c → c.Replacing → s.host.Stopped
  /-- every restore is on track -/
  sound : ∀ i c, s.calls i = some c → c.Sound base lib
  /-- what the volumes hold -/
  volume : ∀ v, s.Volume base v

/-- An idle race meets the invariant. -/
theorem Inv.start {s : Race} (h : s.Idle) : Inv s.host.files s.host.library s where
  library := rfl
  point _ _ := rfl
  stopped i c hc := by rw [h.1 i] at hc; cases hc
  sound i c hc := by rw [h.1 i] at hc; cases hc
  volume v := by
    refine .inr ⟨fun plan disk => ?_, rfl⟩
    rintro (⟨i, hput⟩ | ⟨hmem, -⟩)
    · rw [h.1 i] at hput
      exact hput
    · rw [h.2.2] at hmem
      cases hmem

variable {base : Files} {lib : Library} {s : Race} {i : ℕ}

/-- The disks that calls have put in place after one goroutine moved: its own, and those
of the others. -/
theorem exists_put_update {calls : ℕ → Option Call} {oc : Option Call} {plan : RestorePlan}
    {disk v : String} : (∃ j, Call.Put plan disk v (Function.update calls i oc j)) ↔
      Call.Put plan disk v oc ∨ ∃ j, j ≠ i ∧ Call.Put plan disk v (calls j) := by
  constructor
  · rintro ⟨j, hj⟩
    by_cases hji : j = i
    · rw [hji, Function.update_self] at hj
      exact .inl hj
    · rw [Function.update_of_ne hji] at hj
      exact .inr ⟨j, hji, hj⟩
  · rintro (h | ⟨j, hji, hj⟩)
    · exact ⟨i, by rwa [Function.update_self]⟩
    · exact ⟨j, by rwa [Function.update_of_ne hji]⟩

/-- The same before it moved. -/
theorem exists_put {calls : ℕ → Option Call} {plan : RestorePlan} {disk v : String} (i : ℕ) :
    (∃ j, Call.Put plan disk v (calls j)) ↔
      Call.Put plan disk v (calls i) ∨ ∃ j, j ≠ i ∧ Call.Put plan disk v (calls j) := by
  rw [← exists_put_update, Function.update_eq_self]

/-- A restore that moves on with the same disks in place changes no claim on a volume. -/
theorem onto_move {h : Host} {tr : Bool} {oc : Option Call}
    (hput : ∀ plan disk v, Call.Put plan disk v oc ↔ Call.Put plan disk v (s.calls i))
    (plan : RestorePlan) (disk v : String) :
    (s.move i h tr oc).Onto plan disk v ↔ s.Onto plan disk v := by
  apply or_congr_left
  rw [move, exists_put_update, exists_put i, hput]

/-- Volumes that stay, with claims that stay, are as the invariant wants them. -/
theorem Volume.congr {t : Race} {v : String} (h : s.Volume base v)
    (hfile : t.host.files (.volume v) = s.host.files (.volume v))
    (honto : ∀ plan disk, t.Onto plan disk v ↔ s.Onto plan disk v) : t.Volume base v := by
  rcases h with ⟨plan, disk, img, ho, himg, hv⟩ | ⟨hno, hv⟩
  · exact .inl ⟨plan, disk, img, (honto plan disk).mpr ho, himg, hfile.trans hv⟩
  · exact .inr ⟨fun plan disk ho => hno plan disk ((honto plan disk).mp ho), hfile.trans hv⟩

/-- **A step of one restore that leaves every volume** keeps the invariant. -/
theorem Inv.move (hs : Inv base lib s) {h : Host} {tr : Bool} {oc : Option Call}
    (hlib : h.library = s.host.library)
    (hpoint : ∀ id file, h.files (.point id file) = s.host.files (.point id file))
    (hvol : ∀ v, h.files (.volume v) = s.host.files (.volume v))
    (hstop : s.host.Stopped → h.Stopped)
    (hrepl : ∀ c, oc = some c → c.Replacing → s.host.Stopped)
    (hsound : ∀ c, oc = some c → c.Sound base lib)
    (hput : ∀ plan disk v, Call.Put plan disk v oc ↔ Call.Put plan disk v (s.calls i)) :
    Inv base lib (s.move i h tr oc) where
  library := hlib.trans hs.library
  point id file := (hpoint id file).trans (hs.point id file)
  stopped j c hc hr := by
    apply hstop
    rcases Machine.update_eq_some hc with ⟨-, hc⟩ | ⟨-, hc⟩
    · exact hrepl c hc hr
    · exact hs.stopped j c hc hr
  sound j c hc := by
    rcases Machine.update_eq_some hc with ⟨-, hc⟩ | ⟨-, hc⟩
    · exact hsound c hc
    · exact hs.sound j c hc
  volume v := (hs.volume v).congr (hvol v) fun plan disk => onto_move hput plan disk v

/-- A step that leaves calls and files: only the power state is at stake. -/
theorem Inv.power (hs : Inv base lib s) {dom : Option Domain} {tr : Bool}
    {starts : ℕ → Option StartCall}
    (hstop : ∀ i c, s.calls i = some c → c.Replacing →
      ({ s.host with domain := dom } : Host).Stopped) :
    Inv base lib { s with
      host := { s.host with domain := dom }, transient := tr, starts := starts } where
  library := hs.library
  point := hs.point
  stopped := hstop
  sound := hs.sound
  volume := hs.volume

section Running

variable {t : Race} {plan : RestorePlan} {renamed : List (String × String)} {phase : Phase}

/-- A restore that goes to another phase, perhaps with a step on the domain. -/
theorem Inv.goto (hs : Inv base lib s) (hc : s.calls i = some (.running plan renamed phase))
    {phase' : Phase} {dom : Option Domain} {tr : Bool}
    (hstop : s.host.Stopped → ({ s.host with domain := dom } : Host).Stopped)
    (hrepl : (Call.running plan renamed phase').Replacing →
      (Call.running plan renamed phase).Replacing)
    (hsound : (Call.running plan renamed phase).Sound base lib →
      (Call.running plan renamed phase').Sound base lib) :
    Inv base lib (s.move i { s.host with domain := dom } tr
      (some (.running plan renamed phase'))) := by
  refine hs.move rfl (fun _ _ => rfl) (fun _ => rfl) hstop ?_ ?_ fun q disk v => ?_
  · intro c hcc hr
    cases hcc
    exact hs.stopped i _ hc (hrepl hr)
  · intro c hcc
    cases hcc
    exact hsound (hs.sound i _ hc)
  · rw [hc]
    exact Iff.rfl

/-- A restore that has put nothing in place returns. -/
theorem Inv.return (hs : Inv base lib s) (hput : ∀ q disk v, ¬ Call.Put q disk v (s.calls i))
    {fs : Files} (hpoint : ∀ id file, fs (.point id file) = s.host.files (.point id file))
    (hvol : ∀ v, fs (.volume v) = s.host.files (.volume v)) :
    Inv base lib (s.move i { s.host with files := fs } s.transient none) :=
  hs.move rfl hpoint hvol (fun h => h) (fun c hc => by cases hc) (fun c hc => by cases hc)
    fun q disk v => iff_of_false (fun h => h) (hput q disk v)

/-- The next disk of a restore. -/
theorem Inv.beginDisk (hs : Inv base lib s) {bd : DiskEntry} {todo : List DiskEntry} {dst : String}
    (hc : s.calls i = some (.running plan renamed (.next (bd :: todo))))
    (hdst : plan.domain.definition.sources bd.name = some dst) :
    Inv base lib (s.move i s.host s.transient (some (.running plan renamed
      (.disk todo bd.name (restoreDiskChain plan.chain bd.name) ⟨dst, []⟩ s.host.files)))) := by
  refine hs.goto hc (fun h => h) (fun _ => List.cons_ne_nil _ _) ?_
  rintro ⟨hchain, past, hpast, rfl⟩
  refine ⟨hchain, .start hs.point dst, past ++ [bd], ?_, ?_⟩
  · rw [hpast, List.append_assoc]
    rfl
  · rw [if_pos (by simp [restoreDiskChain])]
    simp [RestorePlan.targets, hdst]

/-- A step on the files of one disk that replaces no image. -/
theorem Inv.stage (hs : Inv base lib s) {todo : List DiskEntry} {name : String} {st : DiskStep}
    {rest : List DiskStep} {sc sc' : Scratch} {left fs : Files} (hst : st ≠ .rename)
    (hc : s.calls i = some (.running plan renamed (.disk todo name (st :: rest) sc left)))
    (hreads : ∀ p ∈ st.reads sc, s.host.files p = left p)
    (hex : st.exec sc s.host.files = some (sc', fs)) :
    Inv base lib (s.move i { s.host with files := fs } s.transient
      (some (.running plan renamed (.disk todo name rest sc' (st.record sc left fs))))) := by
  obtain ⟨hdst, hpoint, hvol⟩ := exec_eq_some hex
  have hmem : DiskStep.rename ∈ st :: rest ↔ .rename ∈ rest := by
    simp [Ne.symm hst]
  refine hs.move rfl hpoint (fun v => hvol v (.inl hst)) (fun h => h) ?_ ?_ fun q disk v => ?_
  · intro c hcc hr
    cases hcc
    exact hs.stopped i _ hc (hr.imp_left hmem.mpr)
  · intro c hcc
    cases hcc
    obtain ⟨hchain, htrack, past, hpast, hren⟩ := hs.sound i _ hc
    refine ⟨hchain, htrack.step hs.point hreads hex, past, hpast, ?_⟩
    rwa [if_congr hmem rfl rfl, ← hdst] at hren
  · rw [hc]
    exact Iff.rfl

/-- **The step that replaces a disk image** keeps the invariant: the image is the one the
restore assembled. -/
theorem Inv.rename (hs : Inv base lib s) {todo : List DiskEntry} {name : String}
    {rest : List DiskStep} {sc sc' : Scratch} {left fs : Files}
    (hc : s.calls i = some (.running plan renamed (.disk todo name (.rename :: rest) sc left)))
    (hreads : ∀ p ∈ DiskStep.rename.reads sc, s.host.files p = left p)
    (hex : DiskStep.rename.exec sc s.host.files = some (sc', fs)) :
    Inv base lib (s.move i { s.host with files := fs } s.transient
      (some (.running plan (renamed ++ [(name, sc.dst)])
        (.disk todo name rest sc' (DiskStep.rename.record sc left fs))))) := by
  obtain ⟨⟨hne, hnd⟩, htrack, past, hpast, hren⟩ := hs.sound i _ hc
  obtain ⟨himg, rfl, hsome⟩ := htrack.rename hne hnd hreads hex
  obtain ⟨hdst, hpoint, hvol⟩ := exec_eq_some hex
  -- the claims on a volume: one more, on the volume that was replaced
  have honto : ∀ q disk v, (s.move i { s.host with files := fs } s.transient
      (some (.running plan (renamed ++ [(name, sc.dst)])
        (.disk todo name [.finish] sc' (DiskStep.rename.record sc left fs))))).Onto q disk v ↔
      s.Onto q disk v ∨ q = plan ∧ disk = name ∧ v = sc.dst := by
    intro q disk v
    have hmine : Call.Put q disk v (some (.running plan (renamed ++ [(name, sc.dst)])
        (.disk todo name [.finish] sc' (DiskStep.rename.record sc left fs)))) ↔
        Call.Put q disk v (s.calls i) ∨ q = plan ∧ disk = name ∧ v = sc.dst := by
      simp only [hc, Call.Put, List.mem_append, List.mem_singleton, Prod.mk.injEq, and_or_left,
        eq_comm]
    rw [Onto, Onto, Race.move, exists_put_update, exists_put i, hmine]
    simp only [or_assoc, or_comm, or_left_comm]
  refine ⟨hs.library, fun id file => (hpoint id file).trans (hs.point id file), ?_, ?_, ?_⟩
  · intro j c hj hr
    rcases Machine.update_eq_some hj with - | ⟨-, hj⟩
    · exact hs.stopped i _ hc (.inl List.mem_cons_self)
    · exact hs.stopped j c hj hr
  · intro j c hj
    rcases Machine.update_eq_some hj with ⟨-, hj⟩ | ⟨-, hj⟩
    · cases hj
      refine ⟨⟨hne, hnd⟩, htrack.step hs.point hreads hex, past, hpast, ?_⟩
      rw [if_pos List.mem_cons_self] at hren
      rw [if_neg (by decide), List.append_nil, hren]
    · exact hs.sound j c hj
  · intro v
    by_cases hv : v = sc.dst
    · obtain ⟨img, hsome⟩ := Option.isSome_iff_exists.mp hsome
      rw [hv]
      exact .inl ⟨plan, name, img, (honto _ _ _).mpr (.inr ⟨rfl, rfl, rfl⟩), hsome,
        himg.symm.trans hsome⟩
    · refine (hs.volume v).congr (hvol v (.inr hv)) fun q disk => ?_
      rw [honto]
      exact or_iff_left fun h => hv h.2.2

/-- A restore that has put all its disks in place returns. -/
theorem Inv.succeed (hs : Inv base lib s)
    (hc : s.calls i = some (.running plan renamed .readBack)) :
    Inv base lib { s.move i s.host s.transient none with done := plan :: s.done } := by
  obtain ⟨-, rfl⟩ := hs.sound i _ hc
  have hother : ∀ j c, Function.update s.calls i none j = some c → s.calls j = some c := by
    intro j c hj
    rcases Machine.update_eq_some hj with ⟨-, hj⟩ | ⟨-, hj⟩
    · cases hj
    · exact hj
  refine ⟨hs.library, hs.point, fun j c hj => hs.stopped j c (hother j c hj),
    fun j c hj => hs.sound j c (hother j c hj), fun v => ?_⟩
  refine (hs.volume v).congr rfl fun q disk => ?_
  -- the claim moves from the call to the list of returned restores
  have hmine : Call.Put q disk v (s.calls i) ↔
      q = plan ∧ (disk, v) ∈ plan.targets plan.metadata.disks := by
    rw [hc, Call.Put, eq_comm]
  rw [Onto, Onto, Race.move, exists_put_update, exists_put i, hmine, List.mem_cons]
  constructor
  · rintro ((h | h) | ⟨rfl | h, hq⟩)
    · exact h.elim
    · exact .inl (.inr h)
    · exact .inl (.inl ⟨rfl, hq⟩)
    · exact .inr ⟨h, hq⟩
  · rintro ((⟨rfl, hq⟩ | h) | ⟨h, hq⟩)
    · exact .inr ⟨.inl rfl, hq⟩
    · exact .inl (.inr h)
    · exact .inr ⟨.inr h, hq⟩

/-- **The next step of a restore**, taken with its scratch files as it left them. -/
theorem Inv.actRunning (hs : Inv base lib s)
    (hc : s.calls i = some (.running plan renamed phase))
    (hsafe : (Call.running plan renamed phase).Undisturbed s.host.files)
    (h : s.actRunning i plan renamed phase = some t) : Inv base lib t := by
  cases phase with
  | next todo =>
    rcases todo with _ | ⟨bd, todo⟩
    · -- every disk is in place
      cases h
      refine hs.goto hc (fun h => h) False.elim ?_
      rintro ⟨hchain, past, hpast, rfl⟩
      rw [List.append_nil] at hpast
      exact ⟨hchain, by rw [hpast]⟩
    · obtain ⟨dst, hdst, rfl⟩ := Option.map_eq_some_iff.mp h
      exact hs.beginDisk hc hdst
  | disk todo name rest sc left =>
    rcases rest with _ | ⟨st, rest⟩
    · cases h
      refine hs.goto hc (fun h => h) (fun h => .inr h) ?_
      rintro ⟨hchain, -, past, hpast, hren⟩
      exact ⟨hchain, past, hpast, by simpa using hren⟩
    · obtain ⟨⟨sc', fs⟩, hex, rfl⟩ := Option.map_eq_some_iff.mp h
      by_cases hst : st = .rename
      · subst hst
        rw [if_pos rfl]
        exact hs.rename hc hsafe hex
      · rw [if_neg hst]
        exact hs.stage hst hc hsafe hex
  | unwind sc =>
    cases h
    obtain ⟨-, rfl⟩ := hs.sound i _ hc
    apply hs.return
    · rintro q disk v hput
      rw [hc] at hput
      exact absurd hput.2 List.not_mem_nil
    · intro id file
      exact cleanup_point id file
    · intro v
      exact cleanup_volume v
  | listing =>
    obtain ⟨dom, -, rfl⟩ := Option.map_eq_some_iff.mp h
    exact hs.goto hc (fun h => h) False.elim (fun h => h)
  | dropping keys =>
    rcases keys with _ | ⟨k, ks⟩
    · cases h
      exact hs.goto hc (fun h => h) False.elim (fun h => h)
    · obtain ⟨dom, hdom, rfl⟩ := Option.map_eq_some_iff.mp h
      refine hs.goto hc ?_ False.elim (fun h => h)
      intro hst d hd
      cases hd
      exact hst dom hdom
  | readXML =>
    rw [Race.actRunning] at h
    split at h
    · obtain ⟨saved, -, rfl⟩ := Option.map_eq_some_iff.mp h
      exact hs.goto hc (fun h => h) False.elim (fun h => h)
    · cases h
      exact hs.goto hc (fun h => h) False.elim (fun h => h)
  | undefining saved =>
    obtain ⟨dom, -, h⟩ := Option.bind_eq_some_iff.mp h
    split at h
    · cases h
    · split at h
      · cases h
        refine hs.goto hc ?_ False.elim (fun h => h)
        intro _ d hd
        cases hd
      · cases h
        exact hs.goto hc (fun h => h) False.elim (fun h => h)
  | defining saved =>
    cases h
    refine hs.goto hc ?_ False.elim (fun h => h)
    intro hst d hd
    obtain rfl := Option.some.inj hd
    split
    · rfl
    · rename_i dom hdom
      exact hst dom hdom
  | readBack =>
    obtain ⟨dom, -, rfl⟩ := Option.map_eq_some_iff.mp h
    exact hs.succeed hc

/-- A step that fails, best effort. -/
theorem Inv.skip (hs : Inv base lib s) (h : s.skip i = some t) : Inv base lib t := by
  rw [Race.skip] at h
  split at h
  · rename_i plan renamed phase hc
    cases phase with
    | next todo => cases h
    | disk todo name rest sc left => cases h
    | unwind sc => cases h
    | listing =>
      cases h
      exact hs.goto hc (fun h => h) False.elim (fun h => h)
    | dropping keys =>
      rcases keys with _ | ⟨k, ks⟩
      · cases h
      · cases h
        exact hs.goto hc (fun h => h) False.elim (fun h => h)
    | readXML =>
      dsimp only at h
      split at h
      · cases h
        exact hs.goto hc (fun h => h) False.elim (fun h => h)
      · cases h
    | undefining saved =>
      cases h
      exact hs.goto hc (fun h => h) False.elim (fun h => h)
    | defining saved =>
      cases h
      exact hs.goto hc (fun h => h) False.elim (fun h => h)
    | readBack => cases h
  · cases h

/-- A step that fails a restore with nothing in place. -/
theorem Inv.fail (hs : Inv base lib s) (hput : ∀ q disk v, ¬ Call.Put q disk v (s.calls i))
    {junk : Option Image} (h : s.fail i junk = some t) : Inv base lib t := by
  have hback : Inv base lib (s.move i s.host s.transient none) :=
    hs.return hput (fun _ _ => rfl) fun _ => rfl
  rw [Race.fail] at h
  split at h
  · cases h
    exact hback
  · rename_i plan renamed phase hc
    split at h
    · split at h
      · cases h
        exact hback
      · cases h
    · rename_i todo name st rest sc left
      split at h
      · cases h
        obtain ⟨hchain, -⟩ := hs.sound i _ hc
        refine hs.move rfl (fun id file => wreck_point st junk id file)
          (fun v => wreck_volume st junk v) (fun h => h) ?_ ?_ fun q disk v => ?_
        · intro c hcc hr
          cases hcc
          exact hr.elim
        · intro c hcc
          cases hcc
          refine ⟨hchain, List.eq_nil_iff_forall_not_mem.mpr fun p hp => ?_⟩
          exact hput plan p.1 p.2 (by rw [hc]; exact ⟨rfl, hp⟩)
        · rw [hc]
          exact Iff.rfl
      · cases h
    · cases h
      exact hback
    · cases h
  · cases h

end Running

/-- **One safe step** of one call keeps the invariant. -/
theorem Inv.step {t : Race} {e : RaceEvent} (hs : Inv base lib s) (hsafe : s.Safe e)
    (h : s.step e = some t) : Inv base lib t := by
  cases e with
  | check i id =>
    rw [Race.step] at h
    split at h
    · cases h
    · rename_i hc
      obtain ⟨⟨m, dir⟩, hcheck, rfl⟩ := Option.map_eq_some_iff.mp h
      obtain ⟨hget, hstop⟩ := restoreCheck_eq_some hcheck
      refine hs.move rfl (fun _ _ => rfl) (fun _ => rfl) (fun h => h) (fun _ _ _ => hstop) ?_
        fun q disk v => ?_
      · intro c hcc
        cases hcc
        rw [← hs.library]
        exact hget
      · rw [hc]
        exact Iff.rfl
  | plan i rounds =>
    rw [Race.step] at h
    split at h
    · rename_i m dir dom hc hdom
      split at h
      · rename_i chain hchain
        cases h
        have hget : lib.get m.id = .ok m := hs.sound i _ hc
        rw [hs.library] at hchain
        refine hs.move rfl (fun _ _ => rfl) (fun _ => rfl) (fun h => h) ?_ ?_ fun q disk v => ?_
        · intro _ _ _
          exact hs.stopped i _ hc trivial
        · intro c hcc
          cases hcc
          exact ⟨restoreChain_nodup hget hchain, [], rfl, rfl⟩
        · rw [hc]
          exact iff_of_false (fun h => absurd h.2 List.not_mem_nil) (fun h => h)
      · cases h
    · cases h
  | act i =>
    rw [Race.step, Race.act] at h
    split at h
    · rename_i plan renamed phase hc
      rw [Safe, hc] at hsafe
      exact hs.actRunning hc hsafe h
    · cases h
  | skip i => exact hs.skip h
  | fail i junk => exact hs.fail hsafe h
  | startCheck j =>
    rw [Race.step] at h
    split at h
    · split at h <;> cases h <;> exact hs.power hs.stopped
    · cases h
  | create j =>
    obtain ⟨dom, -, h⟩ := Option.bind_eq_some_iff.mp h
    split at h
    · cases h
      exact hs.power fun i c hc hr => absurd hr (hsafe i c hc)
    · cases h
  | resume j =>
    obtain ⟨dom, hdom, h⟩ := Option.bind_eq_some_iff.mp h
    split at h
    · rename_i hpaused
      cases h
      -- a restore that still replaces disks would have found the domain stopped
      refine hs.power fun i c hc hr => ?_
      have hoff := hs.stopped i c hc hr dom hdom
      rw [hoff] at hpaused
      simp at hpaused
    · cases h
  | startReturn j =>
    cases h
    exact hs.power hs.stopped
  | powerOff =>
    cases h
    refine hs.power fun i c hc hr d hd => ?_
    dsimp only at hd
    split at hd
    · cases hd
    · obtain ⟨dom, -, rfl⟩ := Option.map_eq_some_iff.mp hd
      rfl

/-- The step that replaces an image is one of a restore that is still replacing. -/
theorem Inv.replaces {e : RaceEvent} (hs : Inv base lib s) (h : s.Replaces e) :
    s.host.Stopped := by
  cases e with
  | act i =>
    rw [Replaces] at h
    split at h
    · rename_i hc
      exact hs.stopped i _ hc (.inl List.mem_cons_self)
    · exact h.elim
  | _ => exact h.elim

/-- Once every restore has returned, every volume is settled. -/
theorem Inv.settled {t : Race} (hs : Inv s.host.files lib t) (ht : t.Returned) (v : String) :
    s.Settled t v := by
  have honto : ∀ plan disk, t.Onto plan disk v ↔
      plan ∈ t.done ∧ (disk, v) ∈ plan.targets plan.metadata.disks := by
    intro plan disk
    refine or_iff_right ?_
    rintro ⟨i, hput⟩
    rw [ht i] at hput
    exact hput
  rcases hs.volume v with ⟨plan, disk, img, ho, himg, hv⟩ | ⟨hno, hv⟩
  · obtain ⟨hdone, htarget⟩ := (honto plan disk).mp ho
    obtain ⟨bd, hbd, rfl, hsrc⟩ := mem_targets.mp htarget
    exact .inl ⟨plan, hdone, bd, hbd, hsrc, img, himg, hv⟩
  · refine .inr ⟨fun plan hdone bd hbd hsrc => ?_, hv⟩
    exact hno plan bd.name ((honto _ _).mpr ⟨hdone, mem_targets.mpr ⟨bd, hbd, rfl, hsrc⟩⟩)

end Race

namespace Contended

/-- An image whose first block reads `v`. -/
def image (v : ℕ) : Image := ⟨.qcow2, none, fun b => if b = 0 then some v else none⟩

/-- A domain with one disk. -/
def definition : Definition := ⟨[⟨.disk, .qcow2, "vda", "/vm1.qcow2"⟩], List.nodup_singleton "vda"⟩

/-- A full backup. -/
def point (id : String) (createdAt : Time) : Metadata :=
  ⟨id, "vm1", "vm1", .full, .complete, createdAt, [⟨"vda", "vda.qcow2", .qcow2, 1⟩], false, "",
    ""⟩

/-- The stopped VM with two full backups. -/
def race : Race where
  host :=
    { vm := "vm1"
      library := [⟨"vm1", "bk-1", some (point "bk-1" 0), none, by decide⟩,
        ⟨"vm1", "bk-2", some (point "bk-2" 1), none, by decide⟩]
      files := fun p =>
        if p = .volume "/vm1.qcow2" then some (image 3)
        else if p = .point "bk-1" "vda.qcow2" then some (image 1)
        else if p = .point "bk-2" "vda.qcow2" then some (image 2)
        else none
      domain := some ⟨definition, .shutoff, []⟩ }
  transient := false
  calls _ := none
  starts _ := none
  done := []

/-- A restore opens its point and assembles the temp file. -/
def assembling (i : ℕ) (id : String) : List RaceEvent :=
  [.check i id, .plan i 1, .act i, .act i, .act i, .act i]

/-- After the rename: clean up, leave the loop, go through the tail. -/
def returning (i : ℕ) : List RaceEvent :=
  [.act i, .act i, .act i, .act i, .act i, .act i, .act i]

/-- Both restores assemble into the one temp file, and the VM is started. -/
def before : List RaceEvent :=
  assembling 0 "bk-1" ++ assembling 1 "bk-2" ++ [.startCheck 0, .create 0]

/-- The first restore renames what the second one assembled; the second finds no temp
file left. -/
def events : List RaceEvent :=
  before ++ .act 0 :: (returning 0 ++ [.fail 1 none, .act 1])

end Contended

namespace Contended

/-- What the first restore works with. -/
def plan : RestorePlan :=
  ⟨point "bk-1" 0, ⟨"vm1", "bk-1", some (point "bk-1" 0), none, by decide⟩,
    ⟨definition, .shutoff, []⟩, [point "bk-1" 0]⟩

/-- A volume that reads `2` does not hold what the first restore assembled. -/
theorem not_settled {t : Race} (hdone : t.done = [plan])
    (hfile : (t.host.files (.volume "/vm1.qcow2")).map (fun img => img.read 0) = some 2) :
    ¬ race.Settled t "/vm1.qcow2" := by
  rintro (⟨q, hq, bd, hbd, -, img, himg, hv⟩ | ⟨hno, -⟩)
  · rw [hdone] at hq
    obtain rfl := List.mem_singleton.mp hq
    obtain rfl := List.mem_singleton.mp hbd
    rw [hv, ← himg] at hfile
    revert hfile
    decide
  · refine hno plan (by rw [hdone]; exact List.mem_cons_self) _ List.mem_cons_self ?_
    decide

end Contended

end Ultrav
