import Ultrav.ChainDecision
import Ultrav.ScheduledRuns

/-!
# Retention over whole runs

What scheduled runs leave of the chains, when they and all other calls interleave.

* `LibraryEffect` — everything a backup under a new id does to the library.
* `Wf` — what ties the library to the points ever made. `Kept` points are those that retention
  has not cut; they keep their parents (`Wf.listed`), and the newest point is one of them
  (`Wf.kept_newest`), so a backup continues from a kept point (`Wf.taken`).
* `retained_restorable` — what is kept is restorable, whatever fails.
* `all_restorable` — with deletions that succeed nothing else is left between two retentions.
-/

namespace Ultrav

/-! ## What a backup does to the library -/

/-- Everything a backup under a new id does to the library. -/
inductive LibraryEffect (srt : SortDesc Metadata Metadata.createdAt) (env : BackupEnv)
    (vm : String) (lib : Library) : Library → Prop where
  /-- no directory is left -/
  | kept : LibraryEffect srt env vm lib lib
  /-- a directory without metadata stays behind -/
  | leftover {d : PointDir} : d.id = env.id → d.metadata = none →
      LibraryEffect srt env vm lib (lib ++ [d])
  /-- a point is completed: a full, or one that continues from the newest point -/
  | taken {d : PointDir} {m : Metadata} {parentID checkpoint : String} : d.id = env.id →
      d.metadata = some m → IsTaken vm env.id env.now parentID checkpoint m →
      (parentID = "" ∨
        ∃ newest rest, lib.list srt vm = .ok (newest :: rest) ∧ parentID = newest.id) →
      LibraryEffect srt env vm lib (lib ++ [d])

theorem backupVirtualMachine_libraryEffect {srt : SortDesc Metadata Metadata.createdAt}
    {env : BackupEnv} {h h' : Host} {req : Option CreateType}
    {r : Except ProviderError (Option Metadata)} (hf : ∀ d ∈ h.library, d.id ≠ env.id)
    (hr : backupVirtualMachine srt env h h.vm req = some (r, h')) :
    LibraryEffect srt env h.vm h.library h'.library := by
  have hend := backupVirtualMachine_effect srt req hf hr
  cases backupVirtualMachine_eq_some hf hr with
  | kept _ hlib =>
    rw [hlib]
    exact .kept
  | leftover _ hlib _ hid _ _ hmeta =>
    rw [hlib]
    exact .leftover hid hmeta
  | @taken _ _ d dom m _ hlib _ _ hdom _ hmeta hpoint _ =>
    have hcompletes : env.completes srt h req = true := by
      by_contra hc
      rw [Bool.not_eq_true] at hc
      rw [hc] at hend
      -- the library shows one point more than a failed call leaves
      have hmore : h'.library.visible = h.library.visible ++ [m] := by
        rw [hlib, Library.visible, List.filterMap_append]
        simp [Library.visible, PointDir.completed_eq_some.mpr ⟨hmeta, hpoint.state⟩]
      have hsame : h'.library.visible = h.library.visible := hend.2
      simp [hsame] at hmore
    rcases hchain : backupChainParent srt h.library dom h.vm req with e | p
    · have hconn : env.connected = true := (Bool.and_eq_true_iff.mp hcompletes).1
      obtain ⟨rfl, -⟩ := backupVirtualMachine_refused hconn hdom hchain hr
      cases hend.1.trans hcompletes
    · obtain ⟨-, -, -, d', m', hlib', -, hid, hmeta', htaken⟩ :=
        backupVirtualMachine_takes hf hdom hchain hcompletes hr
      rw [hlib']
      refine .taken hid hmeta' htaken ?_
      split
      · exact .inl rfl
      · rcases backupChainParent_eq_ok hchain with rfl | ⟨newest, rest, hl, rfl, -, -⟩
        · exact .inl rfl
        · exact .inr ⟨newest, rest, hl, rfl⟩

/-! ## Deletions in the library -/

/-- A deletion leaves the other points as they are, and shows no new one. -/
theorem lookup_deleteBackup (env : DeleteEnv) {h : Host} (hnd : (h.library.map PointDir.id).Nodup)
    {id k : String} {m : Metadata} :
    ((deleteBackup env h id).2.library.lookup k = some m → h.library.lookup k = some m) ∧
      (k ≠ id → h.library.lookup k = some m →
        (deleteBackup env h id).2.library.lookup k = some m) := by
  rcases hget : h.library.get id with e | a
  · have hsame : (deleteBackup env h id).2.library = h.library := by
      rw [deleteBackup, hget]
      cases e <;> rfl
    rw [hsame]
    exact ⟨fun hk => hk, fun _ hk => hk⟩
  · obtain rfl := Library.get_keyed hget
    rw [deleteBackup_library env hnd hget]
    refine ⟨fun hk => ((lookup_filterMap deleted_remnant hnd).mp hk).1, fun hne hk => ?_⟩
    refine (lookup_filterMap deleted_remnant hnd).mpr ⟨hk, fun d hd hid => ?_⟩
    obtain ⟨e, he, heid, -, hem⟩ := Library.mem_of_get (Library.lookup_eq_some.mp hk)
    obtain rfl := List.inj_on_of_nodup_map hnd hd he (hid.trans heid.symm)
    rw [if_neg (by rw [hid]; exact hne)]
    exact hem

/-- The cut-off is the time of a full. -/
theorem pruneCutoff_full {keepLast : ℕ} {cutoff : Time} {ms : List Metadata} :
    ∀ {fulls : ℕ}, pruneCutoff keepLast fulls ms = some cutoff →
      ∃ m ∈ ms, m.type = .full ∧ m.createdAt = cutoff := by
  induction ms with
  | nil =>
    intro fulls h
    cases h
  | cons m ms ih =>
    intro fulls h
    rw [pruneCutoff] at h
    split at h
    · rename_i hfull
      split at h
      · exact ⟨m, List.mem_cons_self, hfull, Option.some.inj h⟩
      · obtain ⟨a, ha, hrest⟩ := ih h
        exact ⟨a, List.mem_cons_of_mem _ ha, hrest⟩
    · obtain ⟨a, ha, hrest⟩ := ih h
      exact ⟨a, List.mem_cons_of_mem _ ha, hrest⟩

namespace Nightly

/-! ## The invariant -/

/-- `Get` finds the point. -/
def Shows (s : Nightly) (m : Metadata) : Prop := s.node.library.lookup m.id = some m

/-- The point is there, and retention has not cut it. -/
def Kept (s : Nightly) (m : Metadata) : Prop := s.Shows m ∧ m.id ∉ s.cut

/-- Parents among all points ever made. -/
def ParentOf (s : Nightly) : Metadata → Metadata → Prop :=
  Lineage.Link (Lineage.lookupIn Metadata.id s.made) Metadata.parent

/-- A point follows its parent: on the same machine, and no point that is still there came
between them. -/
structure Follows (s : Nightly) (m p : Metadata) : Prop where
  vmID : p.vmID = m.vmID
  older : p.createdAt < m.createdAt
  between : ∀ q, s.Shows q → q.vmID = m.vmID → q.createdAt ≤ p.createdAt ∨
    m.createdAt ≤ q.createdAt

/-- Library and past fit together. -/
structure Wf (s : Nightly) : Prop where
  dirs : ∀ d ∈ s.node.library, d.id ∈ s.drawn ∧ ∀ m, d.metadata = some m → m ∈ s.made
  dirs_nodup : (s.node.library.map PointDir.id).Nodup
  points : ∀ m ∈ s.made, m.id ∈ s.drawn ∧ m.Typed
  cut_drawn : ∀ i ∈ s.cut, i ∈ s.drawn
  founded : Lineage.Founded Metadata.id Metadata.parent s.made
  clock : s.made.Pairwise fun a b => b.vmID = a.vmID → b.createdAt < a.createdAt
  parents : ∀ m ∈ s.made, ∀ p, s.ParentOf m p → s.Follows m p
  newest : ∀ a, s.Shows a → ∃ b, s.Kept b ∧ b.vmID = a.vmID ∧ a.createdAt ≤ b.createdAt
  closed : ∀ m, s.Kept m → ∀ p, s.ParentOf m p → s.Kept p

/-- The points that a sweep is going to delete were cut. -/
def Swept (s : Nightly) : Prop :=
  ∀ sch vm cutoff ms rest, s.run = some ⟨sch, .sweep vm cutoff ms rest⟩ →
    ∀ m ∈ ms, m.createdAt < cutoff → m.id ∈ s.cut

theorem Started.wf {s : Nightly} (h : s.Started) : s.Wf := by
  have hnone : ∀ m, ¬ s.Shows m := by
    intro m hm
    obtain ⟨d, hd, -⟩ := Library.mem_of_get (Library.lookup_eq_some.mp hm)
    rw [h.library] at hd
    cases hd
  refine ⟨?_, ?_, ?_, ?_, ?_, ?_, ?_, fun a ha => absurd ha (hnone a),
    fun m hm => absurd hm.1 (hnone m)⟩
  · simp [h.library]
  · simp [h.library]
  · simp [h.made]
  · simp [h.cut]
  · rw [h.made]
    exact .nil
  · rw [h.made]
    exact .nil
  · simp [h.made]

theorem Started.swept {s : Nightly} (h : s.Started) : s.Swept := by
  intro sch vm cutoff ms rest hrun
  rw [h.run] at hrun
  cases hrun

section Wf

variable {s s' : Nightly}

/-- A point that is there was made. -/
theorem Wf.shows_mem (hw : s.Wf) {m : Metadata} (hm : s.Shows m) : m ∈ s.made := by
  obtain ⟨d, hd, -, -, hdm⟩ := Library.mem_of_get (Library.lookup_eq_some.mp hm)
  exact (hw.dirs d hd).2 m (PointDir.completed_eq_some.mp hdm).1

theorem Wf.lookup_sub (hw : s.Wf) (k : String) (p : Metadata)
    (h : s.node.library.lookup k = some p) :
    Lineage.lookupIn Metadata.id s.made k = some p := by
  obtain rfl := Library.get_keyed (Library.lookup_eq_some.mp h)
  exact hw.founded.lookupIn_of_mem (hw.shows_mem h)

/-- The points of a machine that are there are those its listing finds. -/
theorem Wf.mem_completed_iff (hw : s.Wf) {vm : String} {m : Metadata} :
    m ∈ s.node.library.completed vm ↔ s.Shows m ∧ m.vmID = vm := by
  rw [Library.mem_completed]
  constructor
  · rintro ⟨d, hd, hv, hi, hdm⟩
    obtain ⟨hvm, hid⟩ := PointDir.completed_keyed hdm
    refine ⟨?_, hvm.trans hv⟩
    rw [Shows, Library.lookup_eq_some, hid]
    exact Library.get_of_mem hw.dirs_nodup hd hi hdm
  · rintro ⟨hm, rfl⟩
    obtain ⟨d, hd, hid, hi, hdm⟩ := Library.mem_of_get (Library.lookup_eq_some.mp hm)
    exact ⟨d, hd, (PointDir.completed_keyed hdm).1.symm, hid ▸ hi, hdm⟩

/-- The clock tells the points of a machine apart. -/
theorem Wf.eq_of_time (hw : s.Wf) {a b : Metadata} (ha : a ∈ s.made) (hb : b ∈ s.made)
    (hvm : a.vmID = b.vmID) (ht : a.createdAt = b.createdAt) : a = b := by
  have hnewer : s.made.Pairwise fun a b => a.vmID = b.vmID → a.createdAt = b.createdAt → a = b :=
    hw.clock.imp fun h heq ht => absurd ht (Int.ne_of_gt (h heq.symm))
  have holder : s.made.Pairwise fun a b => b.vmID = a.vmID → b.createdAt = a.createdAt → b = a :=
    hw.clock.imp fun h heq ht => absurd ht (Int.ne_of_lt (h heq))
  exact List.Pairwise.forall_of_forall_of_flip (fun _ _ _ _ => rfl) hnewer holder ha hb hvm ht

/-! ## Nothing but the library matters -/

/-- What goes on outside the library. -/
theorem Wf.of_library (hw : s.Wf) (hlib : s'.node.library = s.node.library)
    (hmade : s'.made = s.made) (hdrawn : s'.drawn = s.drawn) (hcut : s'.cut = s.cut) :
    s'.Wf := by
  obtain ⟨n, run, made, drawn, cut⟩ := s
  obtain ⟨n', run', made', drawn', cut'⟩ := s'
  obtain ⟨lib, files, domains⟩ := n
  obtain ⟨lib', files', domains'⟩ := n'
  obtain rfl : lib' = lib := hlib
  obtain rfl : made' = made := hmade
  obtain rfl : drawn' = drawn := hdrawn
  obtain rfl : cut' = cut := hcut
  obtain ⟨h₁, h₂, h₃, h₄, h₅, h₆, h₇, h₈, h₉⟩ := hw
  refine ⟨h₁, h₂, h₃, h₄, h₅, h₆, fun m hm p hp => ?_, h₈, h₉⟩
  obtain ⟨hv, ho, hb⟩ := h₇ m hm p hp
  exact ⟨hv, ho, hb⟩

/-! ## Retention -/

/-- **Retention cuts whole chains.** The cut-off is the time of a full that is there, so no
point on this side of it has its parent beyond. -/
theorem Wf.listed (hw : s.Wf) {vm : String} {metas : List Metadata}
    (hperm : metas.Perm (s.node.library.completed vm)) (sch : Schedule) (rest : List String) :
    (s.listed sch vm rest metas).Wf := by
  rw [Nightly.listed]
  split
  · exact hw.of_library rfl rfl rfl rfl
  rename_i cutoff hcutoff
  have hmem : ∀ {m : Metadata}, m ∈ metas ↔ s.Shows m ∧ m.vmID = vm :=
    hperm.mem_iff.trans hw.mem_completed_iff
  obtain ⟨full, hfull, htype, rfl⟩ := pruneCutoff_full hcutoff
  obtain ⟨hshows, rfl⟩ := hmem.mp hfull
  -- the ids that are cut now belong to older points of the machine
  have hcut : ∀ m, s.Shows m →
      (m.id ∈ (metas.filter fun m => m.createdAt < full.createdAt).map Metadata.id ↔
        m.vmID = full.vmID ∧ m.createdAt < full.createdAt) := by
    intro m hm
    rw [List.mem_map]
    constructor
    · rintro ⟨a, ha, hid⟩
      obtain ⟨ha, hold⟩ := List.mem_filter.mp ha
      obtain ⟨hashows, havm⟩ := hmem.mp ha
      have heq : a = m := by
        rw [Shows, hid] at hashows
        exact Option.some.inj (hashows.symm.trans hm)
      subst heq
      exact ⟨havm, by simpa using hold⟩
    · rintro ⟨hv, hold⟩
      exact ⟨m, List.mem_filter.mpr ⟨hmem.mpr ⟨hm, hv⟩, by simpa using hold⟩, rfl⟩
  have hkept : ∀ m, s.Kept m → (full.vmID = m.vmID → full.createdAt ≤ m.createdAt) →
      m.id ∉ (metas.filter fun m => m.createdAt < full.createdAt).map Metadata.id ++ s.cut := by
    intro m hm hnew hin
    rcases List.mem_append.mp hin with hin | hin
    · obtain ⟨hv, hold⟩ := (hcut m hm.1).mp hin
      exact absurd hold (Int.not_lt.mpr (hnew hv.symm))
    · exact hm.2 hin
  refine ⟨hw.dirs, hw.dirs_nodup, hw.points, fun i hi => ?_, hw.founded, hw.clock,
    fun m hm p hp => ?_, fun a ha => ?_, fun m hm p hp => ?_⟩
  · rcases List.mem_append.mp hi with hi | hi
    · obtain ⟨m, hm, rfl⟩ := List.mem_map.mp hi
      have hshown := (hmem.mp (List.mem_filter.mp hm).1).1
      exact (hw.points m (hw.shows_mem hshown)).1
    · exact hw.cut_drawn i hi
  · obtain ⟨hv, ho, hb⟩ := hw.parents m hm p hp
    exact ⟨hv, ho, hb⟩
  · obtain ⟨b, hb, hbv, hab⟩ := hw.newest a ha
    by_cases hold : full.vmID = b.vmID ∧ b.createdAt < full.createdAt
    · -- then something newer than the full is there
      obtain ⟨b', hb', hbv', hfb⟩ := hw.newest full hshows
      refine ⟨b', ⟨hb'.1, hkept b' hb' fun _ => hfb⟩, ?_, ?_⟩
      · rw [hbv', hold.1, hbv]
      · exact hab.trans (hold.2.le.trans hfb)
    · refine ⟨b, ⟨hb.1, hkept b hb fun hv => ?_⟩, hbv, hab⟩
      exact Int.not_lt.mp fun hlt => hold ⟨hv, hlt⟩
  · have hm' : s.Kept m := ⟨hm.1, fun hin => hm.2 (List.mem_append_right _ hin)⟩
    have hp' := hw.closed m hm' p hp
    have hmade := hw.shows_mem hm.1
    refine ⟨hp'.1, hkept p hp' fun hv => ?_⟩
    obtain ⟨hpv, -, hbetween⟩ := hw.parents m hmade p hp
    have hmv : full.vmID = m.vmID := hv.trans hpv
    refine (hbetween full hshows hmv).resolve_right fun hle => ?_
    -- a point of the time of the full is the full, which has no parent
    have hge : full.createdAt ≤ m.createdAt := by
      by_contra hlt
      exact hm.2 (List.mem_append_left _ ((hcut m hm.1).mpr ⟨hmv.symm, Int.not_le.mp hlt⟩))
    obtain rfl := hw.eq_of_time hmade (hw.shows_mem hshows) hmv.symm (Int.le_antisymm hle hge)
    obtain ⟨j, hj, -⟩ := hp
    obtain ⟨hpar, hne⟩ := Metadata.parent_eq_some.mp hj
    have htyped := (hw.points m hmade).2
    rw [Metadata.Typed, if_neg (by rw [hpar]; exact hne), htype] at htyped
    cases htyped

/-- A deletion of a point that was cut. -/
theorem Wf.delete (hw : s.Wf) (env : DeleteEnv) (vm : String) {id : String} (hid : id ∈ s.cut) :
    Wf { s with node := s.node.put (deleteBackup env (s.node.host vm) id).2 } := by
  have heffect : DeleteEffect (s.node.host vm) id (deleteBackup env (s.node.host vm) id).2 :=
    deleteBackup_eq rfl
  obtain ⟨-, hids, hrem, -, -, -⟩ := heffect
  have hlook := @lookup_deleteBackup env (s.node.host vm) hw.dirs_nodup id
  have hshows : ∀ m, Shows { s with
      node := s.node.put (deleteBackup env (s.node.host vm) id).2 } m → s.Shows m :=
    fun m hm => hlook.1 hm
  have hkept : ∀ m, s.Kept m → Kept { s with
      node := s.node.put (deleteBackup env (s.node.host vm) id).2 } m :=
    fun m hm => ⟨hlook.2 (fun heq => hm.2 (heq ▸ hid)) hm.1, hm.2⟩
  refine ⟨fun d hd => ?_, hids.nodup hw.dirs_nodup, hw.points, hw.cut_drawn, hw.founded, hw.clock,
    fun m hm p hp => ?_, fun a ha => ?_, fun m hm p hp => ?_⟩
  · obtain ⟨d₀, hd₀, -, hi, hmeta, -⟩ := hrem d hd
    obtain ⟨hdrawn, hrec⟩ := hw.dirs d₀ hd₀
    refine ⟨hi ▸ hdrawn, fun m hm => ?_⟩
    rcases hmeta with hmeta | hmeta
    · exact hrec m (hmeta ▸ hm)
    · cases hmeta.symm.trans hm
  · obtain ⟨hv, ho, hb⟩ := hw.parents m hm p hp
    exact ⟨hv, ho, fun q hq => hb q (hshows q hq)⟩
  · obtain ⟨b, hb, hrest⟩ := hw.newest a (hshows a ha)
    exact ⟨b, hkept b hb, hrest⟩
  · exact hkept p (hw.closed m ⟨hshows m hm.1, hm.2⟩ p hp)

/-! ## Backups -/

/-- A backup that completes no point. -/
theorem Wf.drawn_only (hw : s.Wf) {id : String} (hlook : ∀ k m,
      s'.node.library.lookup k = some m ↔ s.node.library.lookup k = some m)
    (hdirs : ∀ d ∈ s'.node.library, d.id ∈ s'.drawn ∧ ∀ m, d.metadata = some m → m ∈ s.made)
    (hnd : (s'.node.library.map PointDir.id).Nodup) (hmade : s'.made = s.made)
    (hdrawn : s'.drawn = id :: s.drawn) (hcut : s'.cut = s.cut) : s'.Wf := by
  have hshows : ∀ m, s'.Shows m ↔ s.Shows m := fun m => hlook m.id m
  have hkept : ∀ m, s'.Kept m ↔ s.Kept m := fun m => by rw [Kept, Kept, hshows, hcut]
  have hparent : ∀ m p, s'.ParentOf m p ↔ s.ParentOf m p := fun m p => by
    rw [ParentOf, ParentOf, hmade]
  have hsub : ∀ i ∈ s.drawn, i ∈ s'.drawn := fun i hi => hdrawn ▸ List.mem_cons_of_mem _ hi
  refine ⟨by rwa [hmade], hnd, fun m hm => ?_, fun i hi => ?_, by rw [hmade]; exact hw.founded,
    by rw [hmade]; exact hw.clock, fun m hm p hp => ?_, fun a ha => ?_, fun m hm p hp => ?_⟩
  · obtain ⟨hd, ht⟩ := hw.points m (hmade ▸ hm)
    exact ⟨hsub _ hd, ht⟩
  · exact hsub i (hw.cut_drawn i (hcut ▸ hi))
  · obtain ⟨hv, ho, hb⟩ := hw.parents m (hmade ▸ hm) p ((hparent m p).mp hp)
    exact ⟨hv, ho, fun q hq => hb q ((hshows q).mp hq)⟩
  · obtain ⟨b, hb, hrest⟩ := hw.newest a ((hshows a).mp ha)
    exact ⟨b, (hkept b).mpr hb, hrest⟩
  · exact (hkept p).mpr (hw.closed m ((hkept m).mp hm) p ((hparent m p).mp hp))

/-- The directories stay distinct with one of a new name. -/
theorem Wf.nodup_append (hw : s.Wf) {d : PointDir} (hnew : d.id ∉ s.drawn) :
    ((s.node.library ++ [d]).map PointDir.id).Nodup := by
  rw [List.map_append, List.nodup_append]
  refine ⟨hw.dirs_nodup, List.nodup_singleton _, ?_⟩
  intro i hi j hj
  obtain ⟨e, he, rfl⟩ := List.mem_map.mp hi
  obtain rfl := List.mem_singleton.mp hj
  exact fun heq => hnew (heq ▸ (hw.dirs e he).1)

/-- The newest point of a machine is kept. -/
theorem Wf.kept_newest (hw : s.Wf) {srt : SortDesc Metadata Metadata.createdAt} {vm : String}
    {newest : Metadata} {rest : List Metadata}
    (hl : s.node.library.list srt vm = .ok (newest :: rest)) :
    s.Kept newest ∧ newest.vmID = vm ∧
      ∀ q, s.Shows q → q.vmID = vm → q.createdAt ≤ newest.createdAt := by
  obtain ⟨-, hsort⟩ := Library.list_eq_ok hl
  have hmem : ∀ {m : Metadata}, m ∈ newest :: rest ↔ s.Shows m ∧ m.vmID = vm := by
    intro m
    rw [hsort, SortDesc.mem_sort, hw.mem_completed_iff]
  have hmax : ∀ q, s.Shows q → q.vmID = vm → q.createdAt ≤ newest.createdAt := by
    intro q hq hqv
    rcases List.mem_cons.mp (hmem.mpr ⟨hq, hqv⟩) with rfl | hq
    · exact Int.le_refl _
    · have hsorted := srt.sorted (s.node.library.completed vm)
      rw [← hsort] at hsorted
      exact (List.pairwise_cons.mp hsorted).1 q hq
  obtain ⟨hshows, hvm⟩ := hmem.mp List.mem_cons_self
  obtain ⟨b, hb, hbv, hle⟩ := hw.newest newest hshows
  have hge := hmax b hb.1 (hbv.trans hvm)
  obtain rfl := hw.eq_of_time (hw.shows_mem hb.1) (hw.shows_mem hshows) hbv
    (Int.le_antisymm hge hle)
  exact ⟨hb, hvm, hmax⟩

/-- **A completed point** continues from a point that is kept, or from none. -/
theorem Wf.taken (hw : s.Wf) {srt : SortDesc Metadata Metadata.createdAt} {env : BackupEnv}
    {vm : String} {d : PointDir} {m : Metadata} {parentID checkpoint : String}
    (hnew : env.id ∉ s.drawn) (hclock : ∀ m ∈ s.made, m.vmID = vm → m.createdAt < env.now)
    (hid : d.id = env.id) (hmeta : d.metadata = some m)
    (htaken : IsTaken vm env.id env.now parentID checkpoint m)
    (hparent : parentID = "" ∨ ∃ newest rest,
      s.node.library.list srt vm = .ok (newest :: rest) ∧ parentID = newest.id)
    (hlib : s'.node.library = s.node.library ++ [d]) (hmade : s'.made = m :: s.made)
    (hdrawn : s'.drawn = env.id :: s.drawn) (hcut : s'.cut = s.cut) : s'.Wf := by
  obtain ⟨hmid, hmvm, hmnow⟩ := htaken.fills
  change m.id = env.id at hmid
  change m.vmID = vm at hmvm
  change m.createdAt = env.now at hmnow
  have hfresh : ∀ e ∈ s.node.library, e.id ≠ d.id := fun e he heq =>
    hnew (hid ▸ heq ▸ (hw.dirs e he).1)
  have hself : s'.Shows m := by
    rw [Shows, Library.lookup_eq_some, hlib, hmid, ← hid]
    exact Library.get_append_self hfresh (hid ▸ env.id_valid)
      (PointDir.completed_eq_some.mpr ⟨hmeta, htaken.state⟩)
  have hother : ∀ k, k ≠ env.id → s'.node.library.lookup k = s.node.library.lookup k := by
    intro k hk
    rw [Library.lookup, Library.lookup, hlib, Library.get_append_ne (hid ▸ hk.symm)]
  have hne : ∀ q ∈ s.made, q.id ≠ env.id := fun q hq heq => hnew (heq ▸ (hw.points q hq).1)
  have hshows : ∀ q, s'.Shows q ↔ q = m ∨ s.Shows q := by
    intro q
    by_cases hq : q.id = env.id
    · refine ⟨fun h => .inl ?_, fun h => ?_⟩
      · rw [Shows, hq, ← hmid] at h
        exact Option.some.inj (h.symm.trans hself)
      · rcases h with rfl | h
        · exact hself
        · exact absurd hq (hne q (hw.shows_mem h))
    · rw [Shows, Shows, hother q.id hq, or_iff_right]
      rintro rfl
      exact hq hmid
  have hmcut : m.id ∉ s'.cut := fun hin => hnew (hmid ▸ hw.cut_drawn _ (hcut ▸ hin))
  have hold : ∀ q, s.Kept q → s'.Kept q := fun q hq =>
    ⟨(hshows q).mpr (.inr hq.1), hcut ▸ hq.2⟩
  have hchain : ∀ newest rest, s.node.library.list srt vm = .ok (newest :: rest) →
      s.Kept newest ∧ newest.vmID = vm ∧
        ∀ q, s.Shows q → q.vmID = vm → q.createdAt ≤ newest.createdAt :=
    fun _ _ hl => hw.kept_newest hl
  have hfounded : Lineage.Founded Metadata.id Metadata.parent (m :: s.made) := by
    refine .cons hw.founded (fun b hb => hmid ▸ hne b hb) fun j hj => ?_
    obtain ⟨hpar, hjne⟩ := Metadata.parent_eq_some.mp hj
    rcases hparent with hp | ⟨newest, rest, hl, hp⟩
    · exact absurd (hpar.symm.trans (htaken.parentID.trans hp)) hjne
    · refine ⟨newest, hw.shows_mem (hchain newest rest hl).1.1, ?_⟩
      rw [← hp, ← htaken.parentID, hpar]
  -- the parent of the new point is the newest one
  have hnext : ∀ p, s'.ParentOf m p → s.Kept p ∧ p.vmID = vm ∧
      ∀ q, s.Shows q → q.vmID = vm → q.createdAt ≤ p.createdAt := by
    rintro p ⟨j, hj, hp⟩
    obtain ⟨hpar, hjne⟩ := Metadata.parent_eq_some.mp hj
    rcases hparent with hp₀ | ⟨newest, rest, hl, hp₀⟩
    · exact absurd (hpar.symm.trans (htaken.parentID.trans hp₀)) hjne
    · have hj' : j = newest.id := by rw [← hp₀, ← htaken.parentID, hpar]
      have hmem := hw.shows_mem (hchain newest rest hl).1.1
      rw [hmade, hj', hfounded.lookupIn_of_mem (List.mem_cons_of_mem _ hmem)] at hp
      exact Option.some.inj hp ▸ hchain newest rest hl
  have hparentOf : ∀ q ∈ s.made, ∀ p, s'.ParentOf q p ↔ s.ParentOf q p := by
    intro q hq p
    rw [ParentOf, ParentOf, hmade]
    exact hfounded.link_cons hq
  refine ⟨fun e he => ?_, ?_, fun q hq => ?_, fun i hi => ?_, hmade ▸ hfounded, ?_,
    fun q hq p hp => ?_, fun a ha => ?_, fun q hq p hp => ?_⟩
  · rw [hlib] at he
    rw [hdrawn, hmade]
    rcases List.mem_append.mp he with he | he
    · obtain ⟨h₁, h₂⟩ := hw.dirs e he
      exact ⟨List.mem_cons_of_mem _ h₁, fun q hq => List.mem_cons_of_mem _ (h₂ q hq)⟩
    · obtain rfl := List.mem_singleton.mp he
      refine ⟨hid ▸ List.mem_cons_self, fun q hq => ?_⟩
      obtain rfl := Option.some.inj (hmeta.symm.trans hq)
      exact List.mem_cons_self
  · rw [hlib]
    exact hw.nodup_append (hid ▸ hnew)
  · rw [hmade] at hq
    rw [hdrawn]
    rcases List.mem_cons.mp hq with rfl | hq
    · exact ⟨hmid ▸ List.mem_cons_self, htaken.typed⟩
    · obtain ⟨h₁, h₂⟩ := hw.points q hq
      exact ⟨List.mem_cons_of_mem _ h₁, h₂⟩
  · rw [hdrawn]
    exact List.mem_cons_of_mem _ (hw.cut_drawn i (hcut ▸ hi))
  · rw [hmade]
    refine .cons (fun q hq hqv => ?_) hw.clock
    rw [hmnow]
    exact hclock q hq (hqv.trans hmvm)
  · rw [hmade] at hq
    rcases List.mem_cons.mp hq with rfl | hqm
    · obtain ⟨hkept, hv, hmax⟩ := hnext p hp
      refine ⟨hv.trans hmvm.symm, ?_, fun r hr hrv => ?_⟩
      · rw [hmnow]
        exact hclock p (hw.shows_mem hkept.1) hv
      · rcases (hshows r).mp hr with rfl | hr
        · exact .inr (Int.le_refl _)
        · exact .inl (hmax r hr (hrv.trans hmvm))
    · obtain ⟨hv, ho, hb⟩ := hw.parents q hqm p ((hparentOf q hqm p).mp hp)
      refine ⟨hv, ho, fun r hr hrv => ?_⟩
      rcases (hshows r).mp hr with rfl | hr
      · -- the new point is newer than all others of the machine
        refine .inr (Int.le_of_lt ?_)
        rw [hmnow]
        exact hclock q hqm (hrv.symm.trans hmvm)
      · exact hb r hr hrv
  · rcases (hshows a).mp ha with rfl | ha
    · exact ⟨a, ⟨hself, hmcut⟩, rfl, Int.le_refl _⟩
    · obtain ⟨b, hb, hrest⟩ := hw.newest a ha
      exact ⟨b, hold b hb, hrest⟩
  · rcases (hshows q).mp hq.1 with rfl | hqs
    · exact hold p (hnext p hp).1
    · have hqm := hw.shows_mem hqs
      exact hold p (hw.closed q ⟨hqs, hcut ▸ hq.2⟩ p ((hparentOf q hqm p).mp hp))

/-- **A backup keeps the invariant.** -/
theorem Wf.backedUp (hw : s.Wf) {srt : SortDesc Metadata Metadata.createdAt} {env : BackupEnv}
    {vm : String} {req : Option CreateType}
    {r : Except ProviderError (Option Metadata) × Host} (hnew : env.id ∉ s.drawn)
    (hclock : ∀ m ∈ s.made, m.vmID = vm → m.createdAt < env.now)
    (hr : backupVirtualMachine srt env (s.node.host vm) vm req = some r) :
    (s.backedUp env r.2).Wf := by
  have hfresh : ∀ d ∈ s.node.library, d.id ≠ env.id := fun d hd heq =>
    hnew (heq ▸ (hw.dirs d hd).1)
  have heff := backupVirtualMachine_libraryEffect (h := s.node.host vm) hfresh hr
  generalize hlib : r.2.library = lib at heff
  have hnode : (s.backedUp env r.2).node.library = lib := hlib
  have hmade : (s.backedUp env r.2).made = (lib.lookup env.id).toList ++ s.made := by
    rw [← hlib]
    rfl
  have hnone : s.node.library.lookup env.id = none :=
    Library.lookup_eq_none fun d hd heq => absurd heq (hfresh d hd)
  cases heff with
  | kept =>
    change (s.backedUp env r.2).node.library = s.node.library at hnode
    refine hw.drawn_only (fun k m => by rw [hnode]) (fun d hd => ?_) ?_ ?_ rfl rfl
    · rw [hnode] at hd
      obtain ⟨h₁, h₂⟩ := hw.dirs d hd
      exact ⟨List.mem_cons_of_mem _ h₁, h₂⟩
    · rw [hnode]
      exact hw.dirs_nodup
    · rw [hmade]
      exact congrArg (fun o : Option Metadata => o.toList ++ s.made) hnone
  | @leftover d hid hbare =>
    change (s.backedUp env r.2).node.library = s.node.library ++ [d] at hnode
    have hbarelook : Library.lookup (s.node.library ++ [d]) env.id = none :=
      Library.lookup_append_bare hfresh hbare
    refine hw.drawn_only (fun k m => ?_) (fun e he => ?_) ?_ ?_ rfl rfl
    · rw [hnode]
      by_cases hk : k = env.id
      · rw [hk, hbarelook, hnone]
      · rw [Library.lookup, Library.lookup, Library.get_append_ne (hid ▸ Ne.symm hk)]
    · rw [hnode] at he
      rcases List.mem_append.mp he with he | he
      · obtain ⟨h₁, h₂⟩ := hw.dirs e he
        exact ⟨List.mem_cons_of_mem _ h₁, h₂⟩
      · obtain rfl := List.mem_singleton.mp he
        refine ⟨hid ▸ List.mem_cons_self, fun m hm => ?_⟩
        cases hbare.symm.trans hm
    · rw [hnode]
      exact hw.nodup_append (hid ▸ hnew)
    · rw [hmade]
      exact congrArg (fun o : Option Metadata => o.toList ++ s.made) hbarelook
  | @taken d m parentID checkpoint hid hmeta htaken hparent =>
    change (s.backedUp env r.2).node.library = s.node.library ++ [d] at hnode
    have hlook : Library.lookup (s.node.library ++ [d]) env.id = some m := by
      rw [Library.lookup_eq_some, ← hid]
      exact Library.get_append_self (fun e he => hid ▸ hfresh e he) (hid ▸ env.id_valid)
        (PointDir.completed_eq_some.mpr ⟨hmeta, htaken.state⟩)
    refine hw.taken hnew hclock hid hmeta htaken hparent hnode ?_ rfl rfl
    rw [hmade]
    exact congrArg (fun o : Option Metadata => o.toList ++ s.made) hlook

/-! ## Runs -/

variable {byStore bySlice : SortDesc Metadata Metadata.createdAt} {e : NightlyEvent}

theorem swept_goOn (s : Nightly) (sch : Schedule) {stage : RunStage}
    (h : ∀ vm cutoff ms rest, stage = .sweep vm cutoff ms rest →
      ∀ m ∈ ms, m.createdAt < cutoff → m.id ∈ s.cut) : (s.goOn sch stage).Swept := by
  intro sch' vm cutoff ms rest hrun
  cases hrun
  exact h vm cutoff ms rest rfl

theorem swept_backup (s : Nightly) (sch : Schedule) (rest : List String) :
    (s.goOn sch (.backup rest)).Swept :=
  swept_goOn s sch (by rintro _ _ _ _ ⟨⟩)

theorem swept_listed (s : Nightly) (sch : Schedule) (vm : String) (rest : List String)
    (metas : List Metadata) : (s.listed sch vm rest metas).Swept := by
  rw [listed]
  split
  · exact swept_backup s sch _
  · intro sch' vm' cutoff' ms' rest' hrun m hm hold
    cases hrun
    exact List.mem_append_left _
      (List.mem_map_of_mem (List.mem_filter.mpr ⟨hm, by simpa using hold⟩))

/-- **Every event keeps the invariant.** -/
theorem Wf.step (hw : s.Wf) (hsw : s.Swept) (ho : s.Orderly e)
    (h : s.step byStore bySlice e = some s') : s'.Wf ∧ s'.Swept := by
  cases e with
  | start sch found =>
    rw [Nightly.step] at h
    split at h
    · cases h
    · split at h
      · cases h
        exact ⟨hw, hsw⟩
      · cases h
        exact ⟨hw.of_library rfl rfl rfl rfl, swept_backup s sch _⟩
  | runBackup env =>
    rw [Nightly.step] at h
    split at h
    · rename_i sch vm rest hrun
      obtain ⟨r, hr, rfl⟩ := Option.map_eq_some_iff.mp h
      obtain ⟨hnew, hclock⟩ := ho (env, vm) (by rw [backupOf, hrun]; rfl)
      have hbacked := hw.backedUp hnew hclock hr
      refine ⟨hbacked.of_library rfl rfl rfl rfl, swept_goOn _ sch ?_⟩
      intro vm' cutoff ms rest' hstage
      rw [afterBackup] at hstage
      split at hstage <;> cases hstage
    · cases h
  | runList listFails =>
    rw [Nightly.step] at h
    split at h
    · rename_i sch vm rest hrun
      split at h
      · cases h
        exact ⟨hw.of_library rfl rfl rfl rfl, swept_backup s sch _⟩
      · rename_i metas hlist
        cases h
        have hperm := (@list_of_prune _ ⟨listFails, fun _ => .smooth⟩ _ _ _ hlist).2
        refine ⟨hw.listed ((bySlice.perm metas).trans ?_) sch rest, swept_listed s sch vm rest _⟩
        rw [hperm]
        exact byStore.perm _
    · cases h
  | runDelete env =>
    rw [Nightly.step] at h
    split at h
    · rename_i sch vm cutoff m ms rest hrun
      have hcut := hsw sch vm cutoff (m :: ms) rest hrun
      have hrest : ∀ vm' cutoff' ms' rest',
          RunStage.sweep vm cutoff ms rest = .sweep vm' cutoff' ms' rest' →
          ∀ a ∈ ms', a.createdAt < cutoff' → a.id ∈ s.cut := by
        intro vm' cutoff' ms' rest' hstage a ha
        cases hstage
        exact hcut a (List.mem_cons_of_mem _ ha)
      split at h
      · rename_i hold
        cases h
        exact ⟨(hw.delete env vm (hcut m List.mem_cons_self hold)).of_library rfl rfl rfl rfl,
          swept_goOn _ sch hrest⟩
      · cases h
        exact ⟨hw.of_library rfl rfl rfl rfl, swept_goOn s sch hrest⟩
    · cases h
  | runReturn =>
    rw [Nightly.step] at h
    split at h
    · rename_i sch _ _ rest hrun
      cases h
      exact ⟨hw.of_library rfl rfl rfl rfl, swept_backup s sch _⟩
    · cases h
      exact ⟨hw.of_library rfl rfl rfl rfl, by rintro _ _ _ _ _ ⟨⟩⟩
    · cases h
  | backup env vm req =>
    obtain ⟨r, hr, rfl⟩ := Option.map_eq_some_iff.mp h
    obtain ⟨hnew, hclock⟩ := ho (env, vm) rfl
    exact ⟨hw.backedUp hnew hclock hr, hsw⟩
  | restore env vm id =>
    obtain ⟨⟨r, h'⟩, hr, rfl⟩ := Option.map_eq_some_iff.mp h
    have hlib : h'.library = s.node.library := by
      cases (restoreBackup_eq_some hr).1 with
      | refused _ => rfl
      | stopped _ _ => rfl
      | restored _ _ _ => rfl
    exact ⟨hw.of_library hlib rfl rfl rfl, hsw⟩
  | outside files domains =>
    cases h
    exact ⟨hw.of_library rfl rfl rfl rfl, hsw⟩

/-- What is kept has its whole chain. -/
theorem Wf.restorable (hw : s.Wf) {m : Metadata} (hm : s.Kept m) :
    Restorable s.node.library m := by
  have hall := hw.founded.lookupIn_of_mem (hw.shows_mem hm.1)
  rw [restorable_iff_line, hw.founded.pedigree.line_iff hw.lookup_sub hall]
  intro p hp
  exact (Lineage.ancestors_kept_iff.mpr hw.closed m hm p hp).1

theorem wf_of_run {s₀ : Nightly} {es : List NightlyEvent} (hstart : s₀.Started)
    (horderly : Machine.Along (Nightly.step byStore bySlice) Orderly s₀ es)
    (hrun : Machine.run (Nightly.step byStore bySlice) s₀ es = some s) : s.Wf ∧ s.Swept :=
  Machine.run_inv (I := fun s => s.Wf ∧ s.Swept) (fun _ _ _ hI ho hs => hI.1.step hI.2 ho hs)
    ⟨hstart.wf, hstart.swept⟩ horderly hrun

/-- **Retention never breaks a chain it keeps**: after any scheduled runs, backups, restores and
outside changes, whichever calls fail and however they interleave, every point that is there and
that retention has not cut is restorable. -/
theorem retained_restorable {s₀ : Nightly} {es : List NightlyEvent} (hstart : s₀.Started)
    (horderly : Machine.Along (Nightly.step byStore bySlice) Orderly s₀ es)
    (hrun : Machine.run (Nightly.step byStore bySlice) s₀ es = some s) {id : String}
    {m : Metadata} (hget : s.node.library.get id = .ok m) (hcut : id ∉ s.cut) :
    Restorable s.node.library m := by
  obtain rfl := Library.get_keyed hget
  exact (wf_of_run hstart horderly hrun).1.restorable ⟨Library.lookup_eq_some.mpr hget, hcut⟩

/-! ## Runs whose deletions succeed -/

/-- The directory of a deleted point can be removed. -/
def Removes : NightlyEvent → Prop
  | .runDelete env => env.removeFails = false
  | _ => True

/-- What retention has cut is gone, or the sweep will come to it. -/
def Cleared (s : Nightly) : Prop :=
  ∀ m, s.Shows m → m.id ∈ s.cut → ∃ sch vm cutoff ms rest,
    s.run = some ⟨sch, .sweep vm cutoff ms rest⟩ ∧ m ∈ ms ∧ m.createdAt < cutoff

/-- No retention is at work. -/
def Quiet (s : Nightly) : Prop :=
  ∀ sch vm cutoff ms rest, s.run ≠ some ⟨sch, .sweep vm cutoff ms rest⟩

/-- Then what is there was not cut. -/
theorem Cleared.not_cut (hc : s.Cleared) (hq : s.Quiet) {m : Metadata} (hm : s.Shows m) :
    m.id ∉ s.cut := by
  intro hin
  obtain ⟨sch, vm, cutoff, ms, rest, hrun, -⟩ := hc m hm hin
  exact hq sch vm cutoff ms rest hrun

theorem quiet_of_run {sch : Schedule} {stage : RunStage} (hrun : s.run = some ⟨sch, stage⟩)
    (hstage : ∀ vm cutoff ms rest, stage ≠ .sweep vm cutoff ms rest) : s.Quiet := by
  intro sch' vm cutoff ms rest heq
  cases hrun.symm.trans heq
  exact hstage vm cutoff ms rest rfl

/-- A successful deletion takes its point away. -/
theorem lookup_deleteBackup_self {env : DeleteEnv} {h : Host} {id : String}
    (hnd : (h.library.map PointDir.id).Nodup) (hf : env.removeFails = false) :
    (deleteBackup env h id).2.library.lookup id = none := by
  rcases hget : h.library.get id with e | m
  · have hsame : (deleteBackup env h id).2.library = h.library := by
      rw [deleteBackup, hget]
      cases e <;> rfl
    rw [hsame, Library.lookup, hget]
    rfl
  · obtain rfl := Library.get_keyed hget
    rw [deleteBackup_library env hnd hget]
    refine Library.lookup_eq_none fun d hd hid => ?_
    obtain ⟨e, -, he⟩ := List.mem_filterMap.mp hd
    split at he
    · rw [DeleteEnv.left, if_neg (by simp [hf])] at he
      cases he
    · rename_i hne
      cases he
      exact absurd hid hne

/-- A backup shows no point but its own. -/
theorem Wf.shows_backedUp (hw : s.Wf) {srt : SortDesc Metadata Metadata.createdAt}
    {env : BackupEnv} {vm : String} {req : Option CreateType}
    {r : Except ProviderError (Option Metadata) × Host} (hnew : env.id ∉ s.drawn)
    (hr : backupVirtualMachine srt env (s.node.host vm) vm req = some r) {m : Metadata}
    (hm : (s.backedUp env r.2).Shows m) (hcut : m.id ∈ s.cut) : s.Shows m := by
  have hfresh : ∀ d ∈ s.node.library, d.id ≠ env.id := fun d hd heq =>
    hnew (heq ▸ (hw.dirs d hd).1)
  have hne : m.id ≠ env.id := fun heq => hnew (heq ▸ hw.cut_drawn _ hcut)
  have heff := backupVirtualMachine_libraryEffect (h := s.node.host vm) hfresh hr
  change r.2.library.lookup m.id = some m at hm
  generalize r.2.library = lib at heff hm
  have happend : ∀ d : PointDir, d.id = env.id →
      Library.lookup (s.node.library ++ [d]) m.id = some m → s.Shows m := by
    intro d hid hlook
    rwa [Library.lookup, Library.get_append_ne (hid ▸ hne.symm)] at hlook
  cases heff with
  | kept => exact hm
  | leftover hid _ => exact happend _ hid hm
  | taken hid _ _ _ => exact happend _ hid hm

/-- **Every event keeps what retention has cut in sight** when its deletions succeed. -/
theorem Cleared.step (hw : s.Wf) (hc : s.Cleared) (ho : s.Orderly e) (hr : Removes e)
    (h : s.step byStore bySlice e = some s') : s'.Cleared := by
  -- events outside the run: the same points, or one that was not cut
  have hsame : (∀ m, s'.Shows m → m.id ∈ s.cut → s.Shows m) → s'.cut = s.cut →
      s'.run = s.run → s'.Cleared := by
    intro hshows hcut hrun m hm hin
    rw [hcut] at hin
    rw [hrun]
    exact hc m (hshows m hm hin) hin
  -- the run goes on from a stage without retention
  have hquiet : s.Quiet → (∀ m, s'.Shows m → m.id ∈ s.cut → s.Shows m) → s'.cut = s.cut →
      s'.Cleared := by
    intro hq hshows hcut m hm hin
    rw [hcut] at hin
    exact absurd hin (hc.not_cut hq (hshows m hm hin))
  cases e with
  | start sch found =>
    rw [Nightly.step] at h
    split at h
    · cases h
    · rename_i hrun
      have hq : s.Quiet := fun _ _ _ _ _ heq => by cases hrun.symm.trans heq
      split at h
      · cases h
        exact hc
      · cases h
        exact hquiet hq (fun m hm _ => hm) rfl
  | runBackup env =>
    rw [Nightly.step] at h
    split at h
    · rename_i sch vm rest hrun
      obtain ⟨r, hr, rfl⟩ := Option.map_eq_some_iff.mp h
      obtain ⟨hnew, -⟩ := ho (env, vm) (by rw [backupOf, hrun]; rfl)
      have hq := quiet_of_run hrun (by rintro _ _ _ _ ⟨⟩)
      exact hquiet hq (fun m hm hin => hw.shows_backedUp hnew hr hm hin) rfl
    · cases h
  | runList listFails =>
    rw [Nightly.step] at h
    split at h
    · rename_i sch vm rest hrun
      have hq := quiet_of_run hrun (by rintro _ _ _ _ ⟨⟩)
      split at h
      · cases h
        exact hquiet hq (fun m hm _ => hm) rfl
      · rename_i metas hlist
        cases h
        have hperm : (bySlice.sort metas).Perm (s.node.library.completed vm) := by
          rw [(@list_of_prune _ ⟨listFails, fun _ => .smooth⟩ _ _ _ hlist).2]
          exact (bySlice.perm _).trans (byStore.perm _)
        rw [Nightly.listed]
        split
        · exact fun m hm hin => absurd hin (hc.not_cut hq hm)
        · rename_i cutoff _
          intro m hm hin
          rcases List.mem_append.mp hin with hin | hin
          · obtain ⟨a, ha, hid⟩ := List.mem_map.mp hin
            obtain ⟨ha, hold⟩ := List.mem_filter.mp ha
            have hashows := (hw.mem_completed_iff.mp (hperm.mem_iff.mp ha)).1
            have heq : a = m := by
              rw [Shows, hid] at hashows
              exact Option.some.inj (hashows.symm.trans hm)
            subst heq
            exact ⟨sch, vm, cutoff, _, rest, rfl, ha, by simpa using hold⟩
          · exact absurd hin (hc.not_cut hq hm)
    · cases h
  | runDelete env =>
    rw [Nightly.step] at h
    split at h
    · rename_i sch vm cutoff m ms rest hrun
      -- the sweep has come to `m`; what else is cut comes later
      have hlater : ∀ a, s.Shows a → a.id ∈ s.cut → a ≠ m ∨ ¬ m.createdAt < cutoff →
          a ∈ ms ∧ a.createdAt < cutoff := by
        intro a ha hin hne
        obtain ⟨sch', vm', cutoff', ms', rest', hrun', hmem, hold⟩ := hc a ha hin
        cases hrun.symm.trans hrun'
        refine ⟨(List.mem_cons.mp hmem).resolve_left ?_, hold⟩
        rintro rfl
        exact hne.elim (fun h => h rfl) fun h => h hold
      split at h
      · rename_i hold
        cases h
        intro a ha hin
        have hlook := @lookup_deleteBackup env (s.node.host vm) hw.dirs_nodup m.id a.id a
        have hne : a ≠ m := by
          rintro rfl
          have hgone := @lookup_deleteBackup_self env (s.node.host vm) a.id hw.dirs_nodup hr
          cases hgone.symm.trans ha
        obtain ⟨hmem, hlt⟩ := hlater a (hlook.1 ha) hin (.inl hne)
        exact ⟨sch, vm, cutoff, ms, rest, rfl, hmem, hlt⟩
      · rename_i hnew
        cases h
        intro a ha hin
        obtain ⟨hmem, hlt⟩ := hlater a ha hin (.inr hnew)
        exact ⟨sch, vm, cutoff, ms, rest, rfl, hmem, hlt⟩
    · cases h
  | runReturn =>
    rw [Nightly.step] at h
    split at h
    · rename_i sch vm cutoff rest hrun
      cases h
      intro m hm hin
      obtain ⟨_, _, _, _, _, hrun', hmem, -⟩ := hc m hm hin
      cases hrun.symm.trans hrun'
      cases hmem
    · rename_i hrun
      cases h
      exact hquiet (quiet_of_run hrun (by rintro _ _ _ _ ⟨⟩)) (fun m hm _ => hm) rfl
    · cases h
  | backup env vm req =>
    obtain ⟨r, hr, rfl⟩ := Option.map_eq_some_iff.mp h
    obtain ⟨hnew, -⟩ := ho (env, vm) rfl
    exact hsame (fun m hm hin => hw.shows_backedUp hnew hr hm hin) rfl rfl
  | restore env vm id =>
    obtain ⟨⟨r, h'⟩, hr, rfl⟩ := Option.map_eq_some_iff.mp h
    have hlib : h'.library = s.node.library := by
      cases (restoreBackup_eq_some hr).1 with
      | refused _ => rfl
      | stopped _ _ => rfl
      | restored _ _ _ => rfl
    exact hsame (fun m hm _ => (congrArg (Library.lookup · m.id) hlib).symm.trans hm) rfl rfl
  | outside files domains =>
    cases h
    exact hsame (fun m hm _ => hm) rfl rfl

theorem Started.cleared {s : Nightly} (h : s.Started) : s.Cleared := by
  intro m hm hin
  rw [h.cut] at hin
  cases hin

/-- **Between two retentions everything is restorable**: when no deletion fails, every point
that is there is restorable whenever no retention is at work. -/
theorem all_restorable {s₀ : Nightly} {es : List NightlyEvent} (hstart : s₀.Started)
    (horderly : Machine.Along (Nightly.step byStore bySlice) Orderly s₀ es)
    (hremoves : ∀ e ∈ es, Removes e)
    (hrun : Machine.run (Nightly.step byStore bySlice) s₀ es = some s) (hquiet : s.Quiet)
    {id : String} {m : Metadata} (hget : s.node.library.get id = .ok m) :
    Restorable s.node.library m := by
  obtain rfl := Library.get_keyed hget
  have hinv := Machine.run_inv (I := fun s => (s.Wf ∧ s.Swept) ∧ s.Cleared)
    (fun _ _ _ hI ho hs => ⟨hI.1.1.step hI.1.2 ho.1 hs, hI.2.step hI.1.1 ho.1 ho.2 hs⟩)
    ⟨⟨hstart.wf, hstart.swept⟩, hstart.cleared⟩ (horderly.and_forall hremoves) hrun
  have hshows : s.Shows m := Library.lookup_eq_some.mpr hget
  exact hinv.1.1.restorable ⟨hshows, hinv.2.not_cut hquiet hshows⟩

end Wf

end Nightly

/-! ### Two nights of a schedule that keeps one full -/

namespace TwoNights

/-- The schedule: a full of every machine, and one is kept. -/
def schedule : Schedule := ⟨"sch-1", "nightly", "02:00", ["*"], "full", 1, true, none, 0⟩

/-- One running machine with one qcow2 disk. -/
def start : Nightly where
  node :=
    { library := []
      files := fun p =>
        if p = .volume "/vm1.qcow2" then some ⟨.qcow2, none, fun _ => none⟩ else none
      domains := fun name =>
        if name = "vm1" then
          some ⟨⟨[⟨.disk, .qcow2, "vda", "/vm1.qcow2"⟩], List.nodup_singleton "vda"⟩, .running, []⟩
        else none }
  run := none
  made := []
  drawn := []
  cut := []

/-- The second night cuts and deletes the full of the first. -/
def events : List NightlyEvent :=
  [.start schedule (.ok ["vm1"]), .runBackup (.smooth "bk-1" (.refl true) 1), .runList false,
    .runDelete .smooth, .runReturn, .runReturn,
    .start schedule (.ok ["vm1"]), .runBackup (.smooth "bk-2" (.refl true) 2), .runList false,
    .runDelete .smooth, .runDelete .smooth, .runReturn, .runReturn]

theorem started : start.Started := ⟨rfl, rfl, rfl, rfl, rfl⟩

theorem orderly : Machine.Along (Nightly.step (.insertion _) (.insertion _)) Nightly.Orderly start
    events :=
  .cons (by decide) rfl (.cons (by decide) rfl (.cons (by decide) rfl (.cons (by decide) rfl
    (.cons (by decide) rfl (.cons (by decide) rfl (.cons (by decide) rfl (.cons (by decide) rfl
      (.cons (by decide) rfl (.cons (by decide) rfl (.cons (by decide) rfl (.cons (by decide) rfl
        (.cons (by decide) rfl (.nil _)))))))))))))

end TwoNights

/-- The second full, after the first one was cut. -/
theorem Nightly.retained_restorable_twoNights : ∃ s m,
    Machine.run (Nightly.step (.insertion _) (.insertion _)) TwoNights.start TwoNights.events =
      some s ∧ s.cut = ["bk-1"] ∧ s.node.library.get "bk-2" = .ok m ∧
        Restorable s.node.library m :=
  ⟨_, _, rfl, rfl, rfl, Nightly.retained_restorable TwoNights.started TwoNights.orderly rfl rfl
    (by decide : "bk-2" ∉ ["bk-1"])⟩

/-- After the two nights the second full is all there is. -/
theorem Nightly.all_restorable_twoNights : ∃ s m,
    Machine.run (Nightly.step (.insertion _) (.insertion _)) TwoNights.start TwoNights.events =
      some s ∧ s.node.library.get "bk-2" = .ok m ∧ Restorable s.node.library m :=
  ⟨_, _, rfl, rfl, @Nightly.all_restorable _ _ _ _ _ TwoNights.started TwoNights.orderly
    (by simp [TwoNights.events, Nightly.Removes, DeleteEnv.smooth]) rfl
    (fun _ _ _ _ _ h => Option.some_ne_none _ h.symm) "bk-2" _ rfl⟩

end Ultrav
