import Mathlib.Data.List.Nodup
import Ultrav.BackupEffects

/-!
# Retention

After each scheduled backup `prune` deletes the points older than the `keepLast`-th
newest full. It cuts by creation time and never looks at a parent.

* `pruneCutoff` — the loop that finds the cut-off, and what it computes
  (`lt_pruneCutoff_iff`).
* `pruneLoop` / `prune` — the deletions, through `DeleteBackup`.
* `Pruned` — which points a call takes out of the library, read off its inputs.
* `prune_keeps_ancestors_iff` — when every kept point keeps its ancestors.
* `Overlapped` — the points that overlapping backups can make.
-/

namespace Ultrav

/-! ## The cut-off -/

/-- The loop over the points, newest first: `fulls` have been counted. -/
def pruneCutoff (keepLast : ℕ) : ℕ → List Metadata → Option Time
  | _, [] => none
  | fulls, m :: ms =>
    if m.type = .full then
      if fulls + 1 = keepLast then some m.createdAt
      else pruneCutoff keepLast (fulls + 1) ms
    else pruneCutoff keepLast fulls ms

/-- The number of full points newer than `t`. -/
def newerFulls (t : Time) (ms : List Metadata) : ℕ :=
  ms.countP fun m => m.type = .full && decide (t < m.createdAt)

/-- Nothing is newer than `t` in points that are not. -/
theorem newerFulls_eq_zero {t : Time} {ms : List Metadata} (h : ∀ m ∈ ms, m.createdAt ≤ t) :
    newerFulls t ms = 0 := by
  rw [newerFulls, List.countP_eq_zero]
  intro m hm
  simp [Int.not_lt.mpr (h m hm)]

/-- **What the loop computes**: a time lies before the cut-off when `keepLast` fulls are
newer. -/
theorem lt_pruneCutoff_iff {keepLast : ℕ} {t : Time} {ms : List Metadata} :
    ∀ {fulls : ℕ}, fulls < keepLast → ms.Pairwise (fun a b => b.createdAt ≤ a.createdAt) →
      ((∃ cutoff, pruneCutoff keepLast fulls ms = some cutoff ∧ t < cutoff) ↔
        keepLast ≤ fulls + newerFulls t ms) := by
  induction ms with
  | nil =>
    intro fulls hk _
    simp only [pruneCutoff, newerFulls, List.countP_nil]
    constructor
    · rintro ⟨_, h, -⟩
      cases h
    · intro h
      omega
  | cons m ms ih =>
    intro fulls hk hs
    obtain ⟨hm, hs⟩ := List.pairwise_cons.mp hs
    -- once the newest point is not newer than `t`, none of the others is
    have hnone : ¬ t < m.createdAt → newerFulls t ms = 0 := fun ht =>
      newerFulls_eq_zero fun a ha => (hm a ha).trans (Int.not_lt.mp ht)
    rw [pruneCutoff]
    by_cases hfull : m.type = .full
    · rw [if_pos hfull]
      have hcount : newerFulls t (m :: ms) =
          newerFulls t ms + if t < m.createdAt then 1 else 0 := by
        simp [newerFulls, List.countP_cons, hfull]
      rw [hcount]
      by_cases hlast : fulls + 1 = keepLast
      · rw [if_pos hlast]
        by_cases ht : t < m.createdAt
        · simp only [Option.some.injEq, exists_eq_left', ht, if_true, true_iff]
          omega
        · simp only [Option.some.injEq, exists_eq_left', ht, if_false, false_iff, hnone ht]
          omega
      · rw [if_neg hlast, ih (by omega) hs]
        by_cases ht : t < m.createdAt
        · rw [if_pos ht]
          omega
        · rw [if_neg ht, hnone ht]
          omega
    · rw [if_neg hfull, ih hk hs]
      have hcount : newerFulls t (m :: ms) = newerFulls t ms := by
        simp [newerFulls, hfull]
      rw [hcount]

/-! ## The deletions -/

/-- What a `prune` call meets outside its own code. -/
structure PruneEnv where
  /-- the libvirt connection of `ListVMBackups` cannot be opened -/
  listFails : Bool
  /-- what the deletion of each point meets -/
  deletes : String → DeleteEnv

/-- `ListVMBackups` -/
def listVMBackups (srt : SortDesc Metadata Metadata.createdAt) (h : Host) (vmID : String) :
    Except ProviderError (List Metadata) :=
  match h.lookupDomain vmID with
  | none => .error .vmNotFound
  | some _ =>
    match h.library.list srt vmID with
    | .error e => .error (.store e)
    | .ok metas => .ok metas

/-- Delete the points before the cut-off, and count those that went. -/
def pruneLoop (deletes : String → DeleteEnv) (cutoff : Time) :
    List Metadata → Host → ℕ × Host
  | [], h => (0, h)
  | m :: ms, h =>
    if m.createdAt < cutoff then
      match deleteBackup (deletes m.id) h m.id with
      | (.error _, h') => pruneLoop deletes cutoff ms h'
      | (.ok (), h') =>
        let (pruned, h'') := pruneLoop deletes cutoff ms h'
        (pruned + 1, h'')
    else pruneLoop deletes cutoff ms h

/-- `prune`: the provider lists with `byStore`, the points are sorted again with
`bySlice`. -/
def prune (byStore bySlice : SortDesc Metadata Metadata.createdAt) (env : PruneEnv) (h : Host)
    (vmID : String) (keepLast : ℕ) : ℕ × Host :=
  match if env.listFails then .error (.other "connect") else listVMBackups byStore h vmID with
  | .error _ => (0, h)
  | .ok metas =>
    let metas := bySlice.sort metas
    match pruneCutoff keepLast 0 metas with
    | none => (0, h)
    | some cutoff => pruneLoop env.deletes cutoff metas h

/-- What a deletion leaves of the directory of its point. -/
def DeleteEnv.left (env : DeleteEnv) (d : PointDir) : Option PointDir :=
  if env.removeFails then env.remains d else none

/-- A deletion leaves no more than a remnant. -/
theorem DeleteEnv.left_remnant {env : DeleteEnv} {d d' : PointDir} (h : env.left d = some d') :
    d'.RemnantOf d := by
  rw [left] at h
  split at h
  · exact env.remnant d d' h
  · cases h

section Deletions

variable {h : Host} {deletes : String → DeleteEnv} {cutoff : Time}

/-- What a deletion leaves of a point is the point or nothing. -/
theorem DeleteEnv.left_completed (env : DeleteEnv) {d : PointDir} {m : Metadata}
    (hm : d.completed = some m) :
    (env.left d).bind PointDir.completed = some m ∨
      (env.left d).bind PointDir.completed = none := by
  rcases hl : env.left d with _ | d'
  · exact .inr rfl
  · obtain ⟨-, -, hmeta | hmeta, -⟩ := left_remnant hl
    · refine .inl ?_
      rw [Option.bind_some, PointDir.completed, hmeta]
      exact hm
    · refine .inr ?_
      rw [Option.bind_some, PointDir.completed, hmeta]
      rfl

/-- **The deletion of a visible point**, directory by directory. -/
theorem deleteBackup_library (env : DeleteEnv) {m : Metadata}
    (hnd : (h.library.map PointDir.id).Nodup) (hget : h.library.get m.id = .ok m) :
    (deleteBackup env h m.id).2.library =
      h.library.filterMap fun d => if d.id = m.id then env.left d else some d := by
  rw [deleteBackup, hget]
  dsimp only
  by_cases hf : env.removeFails = true
  · simp only [hf, if_true, DeleteEnv.left]
  · obtain ⟨d, hd, hmd⟩ := Library.get_eq_ok hget
    obtain ⟨hdmem, hdid⟩ := Library.mem_of_pointDir hd
    have hread : h.library.readableDir m.id = .ok d := by
      rw [Library.readableDir, hd]
      exact if_pos (by rw [(PointDir.completed_eq_some.mp hmd).1]; rfl)
    -- only the directory itself goes: no other one has its name
    have hremove : h.library.removeDir d.vmID d.id =
        h.library.filterMap fun e => if e.id = m.id then env.left e else some e := by
      rw [Library.removeDir, ← List.filterMap_eq_filter]
      refine List.filterMap_congr fun e he => ?_
      by_cases hid : e.id = m.id
      · have hed : e = d := List.inj_on_of_nodup_map hnd he hdmem (hid.trans hdid.symm)
        rw [if_pos hid, DeleteEnv.left, if_neg hf, hed]
        simp
      · rw [if_neg hid]
        simp [Option.guard, hdid, hid]
    simp only [hf, Library.delete, hread]
    rw [if_neg (by simp)]
    split
    · exact hremove
    · rw [← hremove, Host.dropCheckpoint]
      split
      · rfl
      · rfl

/-- Directories that keep their names keep them distinct. -/
theorem nodup_filterMap {lib : Library} {f : PointDir → Option PointDir}
    (hf : ∀ d d', f d = some d' → d'.RemnantOf d) (hnd : (lib.map PointDir.id).Nodup) :
    ((lib.filterMap f).map PointDir.id).Nodup :=
  hnd.sublist (Library.sublist_filterMap hf)

/-- What is visible after every directory was kept, cut down or removed. -/
theorem lookup_filterMap {lib : Library} {f : PointDir → Option PointDir}
    (hf : ∀ d d', f d = some d' → d'.RemnantOf d) (hnd : (lib.map PointDir.id).Nodup)
    {k : String} {m : Metadata} :
    Library.lookup (lib.filterMap f) k = some m ↔ lib.lookup k = some m ∧
      ∀ d ∈ lib, d.id = k → (f d).bind PointDir.completed = some m := by
  constructor
  · intro hl
    obtain ⟨d', hd', rfl, hi, hm⟩ := Library.mem_of_get (Library.lookup_eq_some.mp hl)
    obtain ⟨d, hd, hfd⟩ := List.mem_filterMap.mp hd'
    obtain ⟨-, hid, hmeta, -⟩ := hf d d' hfd
    have hdm : d.completed = some m := by
      obtain ⟨hm, hst⟩ := PointDir.completed_eq_some.mp hm
      rcases hmeta with hmeta | hmeta
      · exact PointDir.completed_eq_some.mpr ⟨hmeta.symm.trans hm, hst⟩
      · cases hmeta.symm.trans hm
    refine ⟨?_, fun e he heid => ?_⟩
    · rw [hid] at hi ⊢
      exact Library.lookup_eq_some.mpr (Library.get_of_mem hnd hd hi hdm)
    · obtain rfl := List.inj_on_of_nodup_map hnd he hd (heid.trans hid)
      rw [hfd]
      exact hm
  · rintro ⟨hl, hall⟩
    obtain ⟨d, hd, rfl, hi, -⟩ := Library.mem_of_get (Library.lookup_eq_some.mp hl)
    obtain ⟨d', hfd, hm⟩ := Option.bind_eq_some_iff.mp (hall d hd rfl)
    have hid := (hf d d' hfd).2.1
    rw [← hid] at hi ⊢
    exact Library.lookup_eq_some.mpr (Library.get_of_mem (nodup_filterMap hf hnd)
      (List.mem_filterMap.mpr ⟨d, hd, hfd⟩) hi hm)

/-- What a deletion leaves of every directory. -/
theorem deleted_remnant {env : DeleteEnv} {id : String} (d d' : PointDir)
    (hd : (if d.id = id then env.left d else some d) = some d') : d'.RemnantOf d := by
  split at hd
  · exact DeleteEnv.left_remnant hd
  · cases hd
    exact .refl d

theorem nodup_deleteBackup (env : DeleteEnv) {m : Metadata}
    (hnd : (h.library.map PointDir.id).Nodup) (hget : h.library.get m.id = .ok m) :
    ((deleteBackup env h m.id).2.library.map PointDir.id).Nodup := by
  rw [deleteBackup_library env hnd hget]
  exact nodup_filterMap deleted_remnant hnd

/-- A deletion leaves the other points visible. -/
theorem get_deleteBackup_ne (env : DeleteEnv) {m a : Metadata}
    (hnd : (h.library.map PointDir.id).Nodup) (hget : h.library.get m.id = .ok m)
    (ha : h.library.get a.id = .ok a) (hne : a.id ≠ m.id) :
    (deleteBackup env h m.id).2.library.get a.id = .ok a := by
  have hla := Library.lookup_eq_some.mpr ha
  rw [deleteBackup_library env hnd hget]
  refine Library.lookup_eq_some.mp ((lookup_filterMap deleted_remnant hnd).mpr ⟨hla, ?_⟩)
  intro d hd hid
  obtain ⟨e, he, heid, -, hem⟩ := Library.mem_of_get ha
  obtain rfl := List.inj_on_of_nodup_map hnd hd he (hid.trans heid.symm)
  rw [if_neg (by rw [hid]; exact hne)]
  exact hem

/-- What the loop leaves of a directory. -/
def prunedDir (deletes : String → DeleteEnv) (cutoff : Time) (ms : List Metadata)
    (d : PointDir) : Option PointDir :=
  if ms.any fun m => decide (m.createdAt < cutoff) && m.id = d.id then (deletes d.id).left d
  else some d

theorem prunedDir_remnant {ms : List Metadata} (d d' : PointDir)
    (hd : prunedDir deletes cutoff ms d = some d') : d'.RemnantOf d := by
  rw [prunedDir] at hd
  split at hd
  · exact DeleteEnv.left_remnant hd
  · cases hd
    exact .refl d

/-- **The loop**, directory by directory. -/
theorem pruneLoop_library {ms : List Metadata} :
    ∀ {h : Host}, (h.library.map PointDir.id).Nodup → (ms.map Metadata.id).Nodup →
      (∀ m ∈ ms, h.library.get m.id = .ok m) →
      (pruneLoop deletes cutoff ms h).2.library =
        h.library.filterMap (prunedDir deletes cutoff ms) := by
  induction ms with
  | nil =>
    intro h _ _ _
    exact (List.filterMap_some (l := h.library)).symm
  | cons m ms ih =>
    intro h hnd hms hget
    rw [List.map_cons, List.nodup_cons] at hms
    rw [pruneLoop]
    split
    · rename_i hold
      have hm := hget m List.mem_cons_self
      have hdel := deleteBackup_library (deletes m.id) hnd hm
      have hnot : ∀ a ∈ ms, a.id ≠ m.id := fun a ha heq =>
        hms.1 (heq ▸ List.mem_map_of_mem (f := Metadata.id) ha)
      have hrest : ∀ h' : Host, h' = (deleteBackup (deletes m.id) h m.id).2 →
          (pruneLoop deletes cutoff ms h').2.library =
            h.library.filterMap (prunedDir deletes cutoff (m :: ms)) := by
        rintro h' rfl
        rw [ih (nodup_deleteBackup _ hnd hm) hms.2, hdel, List.filterMap_filterMap]
        · refine List.filterMap_congr fun d _ => ?_
          by_cases hid : d.id = m.id
          · -- the rest of the loop has no business in this directory
            rw [if_pos hid, prunedDir, if_pos (by simp [hold, hid]), hid]
            rcases hl : (deletes m.id).left d with _ | d'
            · rfl
            · have hid' := (DeleteEnv.left_remnant hl).2.1
              rw [Option.bind_some, prunedDir, if_neg]
              simpa [hid', hid] using fun a ha _ => hnot a ha
          · rw [if_neg hid, Option.bind_some, prunedDir, prunedDir]
            simp [Ne.symm hid]
        · intro a ha
          exact get_deleteBackup_ne _ hnd hm (hget a (List.mem_cons_of_mem _ ha)) (hnot a ha)
      split
      · rename_i h' hd
        exact hrest h' (by rw [hd])
      · rename_i h' hd
        exact hrest h' (by rw [hd])
    · rename_i hold
      rw [ih hnd hms.2 fun a ha => hget a (List.mem_cons_of_mem _ ha)]
      refine List.filterMap_congr fun d _ => ?_
      rw [prunedDir, prunedDir]
      simp [hold]

end Deletions

/-! ## What a call takes out of the library -/

/-- The listing that `prune` starts with succeeds. -/
def PruneEnv.Lists (env : PruneEnv) (h : Host) (vmID : String) : Prop :=
  env.listFails = false ∧ (h.lookupDomain vmID).isSome = true ∧ idSafe vmID = true

/-- `prune` takes `m` out of the library: the points are listed, `keepLast` fulls of the VM
are newer than `m`, and its deletion leaves no readable metadata. -/
def Pruned (env : PruneEnv) (h : Host) (vmID : String) (keepLast : ℕ) (m : Metadata) : Prop :=
  env.Lists h vmID ∧ m.vmID = vmID ∧
    keepLast ≤ newerFulls m.createdAt (h.library.completed vmID) ∧
    ∀ d ∈ h.library, d.id = m.id → ((env.deletes m.id).left d).bind PointDir.completed = none

section Prune

variable {byStore bySlice : SortDesc Metadata Metadata.createdAt} {env : PruneEnv} {h : Host}
  {vmID : String} {keepLast : ℕ}

/-- Inversion for the listing of `prune`. -/
theorem list_of_prune {metas : List Metadata}
    (hl : (if env.listFails then .error (.other "connect") else listVMBackups byStore h vmID) =
      (.ok metas : Except ProviderError (List Metadata))) :
    env.Lists h vmID ∧ metas = byStore.sort (h.library.completed vmID) := by
  split at hl
  · cases hl
  · rename_i hf
    rw [listVMBackups] at hl
    split at hl
    · cases hl
    · rename_i dom hdom
      split at hl
      · cases hl
      · rename_i ms hms
        cases hl
        obtain ⟨hsafe, heq⟩ := Library.list_eq_ok hms
        exact ⟨⟨by simpa using hf, by rw [hdom]; rfl, hsafe⟩, heq⟩

/-- A listing that fails. -/
theorem not_lists_of_prune {e : ProviderError}
    (hl : (if env.listFails then .error (.other "connect") else listVMBackups byStore h vmID) =
      (.error e : Except ProviderError (List Metadata))) : ¬ env.Lists h vmID := by
  rintro ⟨hf, hdom, hsafe⟩
  obtain ⟨dom, hdom⟩ := Option.isSome_iff_exists.mp hdom
  rw [if_neg (by simp [hf])] at hl
  simp only [listVMBackups, hdom, Library.list, if_pos hsafe] at hl
  cases hl

/-- The points with distinct directories have distinct ids. -/
theorem completed_nodup {lib : Library} (hnd : (lib.map PointDir.id).Nodup) (vmID : String) :
    ((lib.completed vmID).map Metadata.id).Nodup := by
  refine hnd.sublist ?_
  rw [Library.completed]
  induction lib with
  | nil => exact .slnil
  | cons d lib ih =>
    rw [List.map_cons, List.nodup_cons] at hnd
    rw [List.filter_cons]
    split
    · rw [List.filterMap_cons]
      split
      · exact (ih hnd.2).cons _
      · rename_i m hm
        rw [List.map_cons, List.map_cons, (PointDir.completed_keyed hm).2]
        exact (ih hnd.2).cons_cons _
    · exact (ih hnd.2).cons _

/-- The loop comes to the directory of a point when the point is one of the VM's and lies
before the cut-off. -/
theorem comes_to_iff {ms : List Metadata} {cutoff : Time} {d : PointDir} {m : Metadata}
    (hnd : (h.library.map PointDir.id).Nodup) (hperm : ms.Perm (h.library.completed vmID))
    (hd : d ∈ h.library) (hi : idPattern d.id = true) (hdm : d.completed = some m) :
    (ms.any fun a => decide (a.createdAt < cutoff) && a.id = d.id) = true ↔
      m.vmID = vmID ∧ m.createdAt < cutoff := by
  obtain ⟨hvm, hid⟩ := PointDir.completed_keyed hdm
  rw [List.any_eq_true]
  simp only [Bool.and_eq_true, decide_eq_true_eq]
  constructor
  · rintro ⟨a, ha, hold, haid⟩
    obtain ⟨e, he, hevm, -, hea⟩ := Library.mem_completed.mp (hperm.mem_iff.mp ha)
    obtain rfl := List.inj_on_of_nodup_map hnd he hd
      ((PointDir.completed_keyed hea).2.symm.trans haid)
    obtain rfl := Option.some.inj (hdm.symm.trans hea)
    exact ⟨hvm.trans hevm, hold⟩
  · rintro ⟨hmvm, hold⟩
    exact ⟨m, hperm.mem_iff.mpr
      (Library.mem_completed.mpr ⟨d, hd, hvm.symm.trans hmvm, hi, hdm⟩), hold, hid⟩

/-- What is said of all directories with a name is said of the one there is. -/
theorem forall_named_iff {lib : Library} (hnd : (lib.map PointDir.id).Nodup) {d : PointDir}
    (hd : d ∈ lib) {P : PointDir → Prop} : (∀ e ∈ lib, e.id = d.id → P e) ↔ P d := by
  refine ⟨fun h => h d hd rfl, fun h e he heq => ?_⟩
  obtain rfl := List.inj_on_of_nodup_map hnd he hd heq
  exact h

/-- The points that `prune` goes through, under their own names. -/
theorem get_of_perm {lib : Library} {ms : List Metadata} (hnd : (lib.map PointDir.id).Nodup)
    (hperm : ms.Perm (lib.completed vmID)) : ∀ a ∈ ms, lib.get a.id = .ok a := by
  intro a ha
  obtain ⟨d, hd, -, hi, had⟩ := Library.mem_completed.mp (hperm.mem_iff.mp ha)
  rw [(PointDir.completed_keyed had).2]
  exact Library.get_of_mem hnd hd hi had

/-- **What `prune` leaves visible.** -/
theorem prune_lookup (hnd : (h.library.map PointDir.id).Nodup) (hkeep : 1 ≤ keepLast)
    {k : String} {m : Metadata} :
    (prune byStore bySlice env h vmID keepLast).2.library.lookup k = some m ↔
      h.library.lookup k = some m ∧ ¬ Pruned env h vmID keepLast m := by
  rw [prune]
  split
  · rename_i e hl
    exact (and_iff_left fun hp => not_lists_of_prune hl hp.1).symm
  · rename_i metas hl
    obtain ⟨hlists, rfl⟩ := list_of_prune hl
    generalize hms : bySlice.sort (byStore.sort (h.library.completed vmID)) = ms
    have hperm : ms.Perm (h.library.completed vmID) :=
      hms ▸ (bySlice.perm _).trans (byStore.perm _)
    have hcut : ∀ t, (∃ cutoff, pruneCutoff keepLast 0 ms = some cutoff ∧ t < cutoff) ↔
        keepLast ≤ newerFulls t (h.library.completed vmID) := by
      intro t
      rw [lt_pruneCutoff_iff hkeep (hms ▸ bySlice.sorted _), Nat.zero_add, newerFulls,
        hperm.countP_eq]
      rfl
    dsimp only
    split
    · rename_i hc
      refine (and_iff_left fun hp => ?_).symm
      obtain ⟨cutoff, hcutoff, -⟩ := (hcut m.createdAt).mpr hp.2.2.1
      cases hc.symm.trans hcutoff
    · rename_i cutoff hc
      have hnodup : (ms.map Metadata.id).Nodup :=
        (hperm.map Metadata.id).nodup_iff.mpr (completed_nodup hnd vmID)
      rw [pruneLoop_library hnd hnodup (get_of_perm hnd hperm),
        lookup_filterMap prunedDir_remnant hnd]
      refine and_congr_right fun hlook => ?_
      obtain ⟨d, hd, rfl, hi, hdm⟩ := Library.mem_of_get (Library.lookup_eq_some.mp hlook)
      obtain ⟨-, hid⟩ := PointDir.completed_keyed hdm
      -- the loop comes to this directory when its own point lies before the cut-off
      have hany : (ms.any fun a => decide (a.createdAt < cutoff) && a.id = d.id) = true ↔
          m.vmID = vmID ∧ keepLast ≤ newerFulls m.createdAt (h.library.completed vmID) := by
        rw [comes_to_iff hnd hperm hd hi hdm, ← hcut, hc]
        simp only [Option.some.injEq, exists_eq_left']
      have hdir : (∀ e ∈ h.library, e.id = d.id →
            (prunedDir env.deletes cutoff ms e).bind PointDir.completed = some m) ↔
          (prunedDir env.deletes cutoff ms d).bind PointDir.completed = some m :=
        forall_named_iff hnd hd
      have hgone : (∀ e ∈ h.library, e.id = m.id →
            ((env.deletes m.id).left e).bind PointDir.completed = none) ↔
          ((env.deletes d.id).left d).bind PointDir.completed = none := by
        rw [hid]
        exact forall_named_iff hnd hd
      rw [hdir, Pruned, hgone, prunedDir]
      by_cases hp : (ms.any fun a => decide (a.createdAt < cutoff) && a.id = d.id) = true
      · rw [if_pos hp]
        obtain ⟨hmvm, hold⟩ := hany.mp hp
        rcases (env.deletes d.id).left_completed hdm with hl | hl
        · simp [hl]
        · simp [hl, hlists, hmvm, hold]
      · rw [if_neg hp]
        have hnot := mt hany.mpr hp
        refine iff_of_true hdm ?_
        rintro ⟨-, hmvm, hold, -⟩
        exact hnot ⟨hmvm, hold⟩

/-- **Retention keeps the ancestors of every kept point exactly when it takes no point
without its children**: whenever it takes the parent of a point, it takes the point. -/
theorem prune_keeps_ancestors_iff (hnd : (h.library.map PointDir.id).Nodup)
    (hkeep : 1 ≤ keepLast) :
    (∀ m, (prune byStore bySlice env h vmID keepLast).2.library.lookup m.id = some m →
      ∀ p, Lineage.Ancestor h.library.lookup Metadata.parent m p →
        (prune byStore bySlice env h vmID keepLast).2.library.lookup p.id = some p) ↔
    ∀ m, h.library.lookup m.id = some m →
      ∀ p, Lineage.Link h.library.lookup Metadata.parent m p →
        Pruned env h vmID keepLast p → Pruned env h vmID keepLast m := by
  rw [Lineage.ancestors_kept_iff]
  constructor
  · intro hall m hm p hlink hp
    by_contra hnot
    have hkept := hall m ((prune_lookup hnd hkeep).mpr ⟨hm, hnot⟩) p hlink
    exact ((prune_lookup hnd hkeep).mp hkept).2 hp
  · intro hall m hm p hlink
    obtain ⟨hlook, hnot⟩ := (prune_lookup hnd hkeep).mp hm
    obtain ⟨k, -, hk⟩ := id hlink
    obtain rfl := Library.get_keyed (Library.lookup_eq_some.mp hk)
    exact (prune_lookup hnd hkeep).mpr ⟨hk, fun hp => hnot (hall m hlook p hlink hp)⟩

end Prune

/-! ### Points of overlapping backups -/

/-- The completed and the running points of one VM when backups overlap. A point gets its
creation time when its backup starts; an incremental continues from the newest point
completed by then. -/
inductive Overlapped : List Metadata → List Metadata → Prop where
  /-- before the first backup -/
  | none : Overlapped [] []
  /-- a backup starts -/
  | start {done running : List Metadata} {m : Metadata} : Overlapped done running →
      (∀ x ∈ done ++ running, x.createdAt < m.createdAt ∧ x.id ≠ m.id) →
      (m.type = .full ∧ m.parentID = "" ∨ m.type = .incremental ∧
        ∃ p ∈ done, (∀ x ∈ done, x.createdAt ≤ p.createdAt) ∧ m.parentID = p.id) →
      Overlapped done (m :: running)
  /-- a backup completes -/
  | finish {done running : List Metadata} {m : Metadata} : Overlapped done running →
      m ∈ running → Overlapped (m :: done) (running.erase m)

namespace LongFull

/-- A point of the VM `vm1`. -/
def point (id : String) (type : PointType) (createdAt : Time) (parentID : String) : Metadata :=
  ⟨id, "vm1", "vm1", type, .complete, createdAt, [], false, parentID, ""⟩

/-- The first full. -/
def first : Metadata := point "bk-1" .full 0 ""

/-- A full that starts before the incremental and completes after it. -/
def second : Metadata := point "bk-2" .full 10 ""

/-- The incremental on the first full. -/
def third : Metadata := point "bk-3" .incremental 20 "bk-1"

/-- The VM with its three points. -/
def host : Host where
  vm := "vm1"
  library := [⟨"vm1", "bk-1", some first, none, by decide⟩,
    ⟨"vm1", "bk-2", some second, none, by decide⟩, ⟨"vm1", "bk-3", some third, none, by decide⟩]
  files _ := none
  domain := some ⟨⟨[], by decide⟩, .running, []⟩

/-- No deletion fails. -/
def env : PruneEnv := ⟨false, fun _ => .smooth⟩

/-- The library after `prune` with one full to keep. -/
def pruned : Library :=
  (prune (.insertion _) (.insertion _) env host "vm1" 1).2.library

/-- Two backups overlap: the third point starts and completes while the second runs. -/
theorem overlapped : Overlapped [second, third, first] [] := by
  have h₁ : Overlapped [] [first] := .start .none (by decide) (.inl ⟨rfl, rfl⟩)
  have h₂ : Overlapped [first] [] := .finish h₁ List.mem_cons_self
  have h₃ : Overlapped [first] [second] := .start h₂ (by decide) (.inl ⟨rfl, rfl⟩)
  have h₄ : Overlapped [first] [third, second] :=
    .start h₃ (by decide) (.inr ⟨rfl, first, List.mem_cons_self, by decide, rfl⟩)
  have h₅ : Overlapped [third, first] [second] := .finish h₄ List.mem_cons_self
  exact .finish h₅ List.mem_cons_self

end LongFull

/-- The exact condition, at work on the long full. -/
theorem prune_keeps_ancestors_iff_longFull :
    (∀ m, LongFull.pruned.lookup m.id = some m →
      ∀ p, Lineage.Ancestor LongFull.host.library.lookup Metadata.parent m p →
        LongFull.pruned.lookup p.id = some p) ↔
    ∀ m, LongFull.host.library.lookup m.id = some m →
      ∀ p, Lineage.Link LongFull.host.library.lookup Metadata.parent m p →
        Pruned LongFull.env LongFull.host "vm1" 1 p →
        Pruned LongFull.env LongFull.host "vm1" 1 m :=
  prune_keeps_ancestors_iff (by decide) (Nat.le_refl 1)

/-- Retention can strand a kept point: the second full is newer than the first, so the
first goes, and the incremental on it stays. -/
theorem prune_strands_point :
    ¬ ∀ (byStore bySlice : SortDesc Metadata Metadata.createdAt) (env : PruneEnv) (h : Host)
        (vmID : String) (keepLast : ℕ) (points : List Metadata),
      (h.library.map PointDir.id).Nodup → 1 ≤ keepLast → Overlapped points [] →
      (∀ m, h.library.lookup m.id = some m ↔ m ∈ points) →
      (∀ m ∈ points, Restorable h.library m) →
      ∀ m, (prune byStore bySlice env h vmID keepLast).2.library.lookup m.id = some m →
        ∀ p, Lineage.Ancestor h.library.lookup Metadata.parent m p →
          (prune byStore bySlice env h vmID keepLast).2.library.lookup p.id = some p := by
  intro hall
  have hpoints : ∀ m, LongFull.host.library.lookup m.id = some m ↔
      m ∈ [LongFull.second, LongFull.third, LongFull.first] := by
    intro m
    constructor
    · intro hm
      obtain ⟨d, hd, -, -, hdm⟩ := Library.mem_of_get (Library.lookup_eq_some.mp hm)
      have hmem : some m ∈ LongFull.host.library.map PointDir.completed :=
        hdm ▸ List.mem_map_of_mem hd
      revert hmem
      simp +decide [LongFull.host, PointDir.completed, Option.filter]
      tauto
    · intro hm
      simp only [List.mem_cons, List.not_mem_nil, or_false] at hm
      rcases hm with rfl | rfl | rfl
      · decide
      · decide
      · decide
  have hres : ∀ m ∈ [LongFull.second, LongFull.third, LongFull.first],
      Restorable LongFull.host.library m := by
    intro m hm
    simp only [List.mem_cons, List.not_mem_nil, or_false] at hm
    rcases hm with rfl | rfl | rfl
    · exact restorable_of_full rfl
    · exact ⟨2, _, rfl⟩
    · exact restorable_of_full rfl
  have hlost := hall (.insertion _) (.insertion _) LongFull.env LongFull.host "vm1" 1 _ (by decide)
    (Nat.le_refl 1) LongFull.overlapped hpoints hres LongFull.third (by decide) LongFull.first
    (.single ⟨"bk-1", by decide, by decide⟩)
  revert hlost
  decide

end Ultrav
