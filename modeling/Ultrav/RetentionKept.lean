import Ultrav.Retention

/-!
# What retention keeps

`prune` when every deletion succeeds.

* `nthNewestFull` — the creation time of the `keepLast`-th newest full; the loop of `prune` finds
  it (`pruneCutoff_eq`).
* `prune_library` / `prune_count` — the directories that go, and their number.
* `Retained` — what retention promises of a call (`prune_retained`).
-/

namespace Ultrav

/-! ## The newest fulls -/

/-- The creation times of the fulls. -/
def fullTimes (ms : List Metadata) : List Time :=
  (ms.filter fun m => m.type = .full).map Metadata.createdAt

/-- The creation time of the `keepLast`-th newest full. -/
def nthNewestFull (keepLast : ℕ) (ms : List Metadata) : Option Time :=
  ((SortDesc.insertion id).sort (fullTimes ms))[keepLast - 1]?

/-- A point is strictly older than the `keepLast`-th newest full. -/
def outdated (keepLast : ℕ) (ms : List Metadata) (m : Metadata) : Bool :=
  (nthNewestFull keepLast ms).any fun cutoff => m.createdAt < cutoff

/-- Among points in order the loop stops at a full by counting. -/
theorem pruneCutoff_eq_getElem {keepLast : ℕ} {ms : List Metadata} :
    ∀ {fulls : ℕ}, fulls < keepLast →
      pruneCutoff keepLast fulls ms = (fullTimes ms)[keepLast - fulls - 1]? := by
  induction ms with
  | nil =>
    intro fulls _
    rfl
  | cons m ms ih =>
    intro fulls hk
    rw [pruneCutoff]
    by_cases hfull : m.type = .full
    · have htimes : fullTimes (m :: ms) = m.createdAt :: fullTimes ms := by
        simp [fullTimes, hfull]
      rw [if_pos hfull, htimes]
      by_cases hlast : fulls + 1 = keepLast
      · have hzero : keepLast - fulls - 1 = 0 := by omega
        rw [if_pos hlast, hzero]
        rfl
      · have hsucc : keepLast - fulls - 1 = keepLast - (fulls + 1) - 1 + 1 := by omega
        rw [if_neg hlast, ih (by omega), hsucc, List.getElem?_cons_succ]
    · have htimes : fullTimes (m :: ms) = fullTimes ms := by simp [fullTimes, hfull]
      rw [if_neg hfull, ih hk, htimes]

/-- The times of sorted points are sorted. -/
theorem fullTimes_sorted {ms : List Metadata}
    (hs : ms.Pairwise fun a b => b.createdAt ≤ a.createdAt) :
    (fullTimes ms).Pairwise fun a b => b ≤ a :=
  List.pairwise_map.mpr (hs.filter _)

/-- **The cut-off** of sorted points does not depend on how equal ones were put. -/
theorem pruneCutoff_eq {keepLast : ℕ} {ms before : List Metadata} (hkeep : 1 ≤ keepLast)
    (hs : ms.Pairwise fun a b => b.createdAt ≤ a.createdAt) (hperm : ms.Perm before) :
    pruneCutoff keepLast 0 ms = nthNewestFull keepLast before := by
  have htimes : fullTimes ms = (SortDesc.insertion id).sort (fullTimes before) := by
    refine List.Perm.eq_of_pairwise (fun a b _ _ hab hba => Int.le_antisymm hba hab)
      (fullTimes_sorted hs) ((SortDesc.insertion id).sorted _) ?_
    exact ((hperm.filter _).map _).trans ((SortDesc.insertion id).perm _).symm
  rw [pruneCutoff_eq_getElem hkeep, htimes]
  rfl

/-- A point is outdated when `keepLast` fulls are newer. -/
theorem outdated_iff {keepLast : ℕ} {ms : List Metadata} (hkeep : 1 ≤ keepLast) (m : Metadata) :
    outdated keepLast ms m = true ↔ keepLast ≤ newerFulls m.createdAt ms := by
  have hperm := (SortDesc.insertion Metadata.createdAt).perm ms
  have hsorted := (SortDesc.insertion Metadata.createdAt).sorted ms
  have hcut := lt_pruneCutoff_iff (t := m.createdAt) hkeep hsorted
  rw [pruneCutoff_eq hkeep hsorted hperm, newerFulls, hperm.countP_eq, Nat.zero_add] at hcut
  rw [outdated, Option.any_eq_true]
  simp only [decide_eq_true_eq]
  exact hcut

/-! ## Calls whose deletions succeed -/

/-- No deletion fails. -/
def PruneEnv.Deletes (env : PruneEnv) : Prop := ∀ id, (env.deletes id).removeFails = false

section Deletes

variable {byStore bySlice : SortDesc Metadata Metadata.createdAt} {env : PruneEnv} {h : Host}
  {vmID : String} {keepLast : ℕ} {deletes : String → DeleteEnv} {cutoff : Time}

/-- The deletion of a visible point succeeds when its directory can be removed. -/
theorem deleteBackup_fst {env : DeleteEnv} {id : String} {m : Metadata}
    (hf : env.removeFails = false) (hget : h.library.get id = .ok m) :
    (deleteBackup env h id).1 = .ok () := by
  obtain ⟨d, hd, hm⟩ := Library.get_eq_ok hget
  have hread : h.library.readableDir id = .ok d := by
    rw [Library.readableDir, hd]
    exact if_pos (by rw [(PointDir.completed_eq_some.mp hm).1]; rfl)
  rw [deleteBackup, hget]
  dsimp only
  rw [if_neg (by simp [hf]), Library.delete, hread]
  dsimp only
  split <;> rfl

/-- **The count** of the loop. -/
theorem pruneLoop_count {ms : List Metadata} (hf : ∀ id, (deletes id).removeFails = false) :
    ∀ {h : Host}, (h.library.map PointDir.id).Nodup → (ms.map Metadata.id).Nodup →
      (∀ m ∈ ms, h.library.get m.id = .ok m) →
      (pruneLoop deletes cutoff ms h).1 = ms.countP fun m => m.createdAt < cutoff := by
  induction ms with
  | nil =>
    intro h _ _ _
    rfl
  | cons m ms ih =>
    intro h hnd hms hget
    rw [List.map_cons, List.nodup_cons] at hms
    have hm := hget m List.mem_cons_self
    have hrest := fun a ha => hget a (List.mem_cons_of_mem _ ha)
    rw [pruneLoop]
    split
    · rename_i hold
      have hok := deleteBackup_fst (hf m.id) hm
      split
      · rename_i h' hd
        rw [hd] at hok
        cases hok
      · rename_i h' hd
        obtain rfl : (deleteBackup (deletes m.id) h m.id).2 = h' := by rw [hd]
        have hcount := ih (nodup_deleteBackup (deletes m.id) hnd hm) hms.2 fun a ha =>
          get_deleteBackup_ne _ hnd hm (hrest a ha) fun heq =>
            hms.1 (heq ▸ List.mem_map_of_mem (f := Metadata.id) ha)
        rw [List.countP_cons_of_pos (by simpa using hold), ← hcount]
    · rename_i hold
      rw [ih hnd hms.2 hrest, List.countP_cons_of_neg (by simpa using hold)]

/-- Nothing is deleted when no point lies before the cut-off. -/
theorem pruneLoop_none {ms : List Metadata} (h : Host) (hnone : ∀ m ∈ ms, ¬ m.createdAt < cutoff) :
    pruneLoop deletes cutoff ms h = (0, h) := by
  induction ms with
  | nil => rfl
  | cons m ms ih =>
    rw [pruneLoop, if_neg (hnone m List.mem_cons_self)]
    exact ih fun a ha => hnone a (List.mem_cons_of_mem _ ha)

variable (byStore bySlice) in
/-- The points that `prune` works on, and what its loop finds. -/
theorem prune_eq (hkeep : 1 ≤ keepLast) (hlists : env.Lists h vmID) :
    ∃ ms, ms.Perm (h.library.completed vmID) ∧
      prune byStore bySlice env h vmID keepLast =
        match nthNewestFull keepLast (h.library.completed vmID) with
        | none => (0, h)
        | some cutoff => pruneLoop env.deletes cutoff ms h := by
  refine ⟨bySlice.sort (byStore.sort (h.library.completed vmID)),
    (bySlice.perm _).trans (byStore.perm _), ?_⟩
  rw [prune]
  split
  · rename_i e hl
    exact absurd hlists (not_lists_of_prune hl)
  · rename_i metas hl
    obtain ⟨-, rfl⟩ := list_of_prune hl
    have hcut := pruneCutoff_eq hkeep (bySlice.sorted _)
      ((bySlice.perm (byStore.sort (h.library.completed vmID))).trans (byStore.perm _))
    exact hcut ▸ rfl

/-- The completed points of a VM are found by their ids. -/
theorem get_of_completed (hnd : (h.library.map PointDir.id).Nodup) {m : Metadata}
    (hm : m ∈ h.library.completed vmID) : h.library.get m.id = .ok m := by
  obtain ⟨d, hd, -, hi, hdm⟩ := Library.mem_completed.mp hm
  rw [(PointDir.completed_keyed hdm).2]
  exact Library.get_of_mem hnd hd hi hdm

/-- The directory of an outdated point of the VM. -/
def PointDir.outdated (vmID : String) (keepLast : ℕ) (before : List Metadata) (d : PointDir) :
    Bool :=
  d.vmID = vmID && idPattern d.id && d.completed.any (Ultrav.outdated keepLast before)

/-- The points of the VM that are left when the outdated directories go. -/
theorem completed_filter (vmID : String) (keepLast : ℕ) (lib : Library) (before : List Metadata) :
    Library.completed (lib.filter fun d => !d.outdated vmID keepLast before) vmID =
      (lib.completed vmID).filter fun m => !outdated keepLast before m := by
  rw [Library.completed, Library.completed, List.filter_filter, List.filterMap_filter,
    List.filterMap_filter, List.filter_filterMap]
  refine List.filterMap_congr fun d _ => ?_
  by_cases hp : (d.vmID = vmID && idPattern d.id) = true
  · rw [PointDir.outdated, hp, if_pos rfl]
    cases hd : d.completed with
    | none => simp
    | some m => simp [Option.filter]
  · rw [Bool.eq_false_iff.mpr hp]
    simp

variable (byStore bySlice) in
/-- **The directories that go** are those of the outdated points. -/
theorem prune_library (hnd : (h.library.map PointDir.id).Nodup) (hkeep : 1 ≤ keepLast)
    (hlists : env.Lists h vmID) (hdel : env.Deletes) :
    (prune byStore bySlice env h vmID keepLast).2.library =
      h.library.filter fun d => !d.outdated vmID keepLast (h.library.completed vmID) := by
  obtain ⟨ms, hperm, heq⟩ := prune_eq byStore bySlice hkeep hlists
  rw [heq]
  cases hcut : nthNewestFull keepLast (h.library.completed vmID) with
  | none =>
    refine (List.filter_eq_self.mpr fun d _ => ?_).symm
    cases hd : d.completed <;> simp [PointDir.outdated, outdated, hcut, hd]
  | some cutoff =>
    have hnodup : (ms.map Metadata.id).Nodup :=
      (hperm.map Metadata.id).nodup_iff.mpr (completed_nodup hnd vmID)
    dsimp only
    rw [pruneLoop_library hnd hnodup fun m hm => get_of_completed hnd (hperm.mem_iff.mp hm),
      ← List.filterMap_eq_filter]
    refine List.filterMap_congr fun d hd => ?_
    have hleft : (env.deletes d.id).left d = none := by
      rw [DeleteEnv.left, if_neg (by simp [hdel d.id])]
    -- the loop comes to the directory for its own point only
    have hany : (ms.any fun a => decide (a.createdAt < cutoff) && a.id = d.id) =
        d.outdated vmID keepLast (h.library.completed vmID) := by
      rw [Bool.eq_iff_iff]
      constructor
      · intro ha
        obtain ⟨a, ham, hp⟩ := List.any_eq_true.mp ha
        obtain ⟨e, he, -, hi, hea⟩ := Library.mem_completed.mp (hperm.mem_iff.mp ham)
        have haid : a.id = d.id := by simpa using (Bool.and_eq_true_iff.mp hp).2
        obtain rfl := List.inj_on_of_nodup_map hnd he hd
          ((PointDir.completed_keyed hea).2.symm.trans haid)
        obtain ⟨hvm, hold⟩ := (comes_to_iff hnd hperm hd hi hea).mp ha
        have hdvm := (PointDir.completed_keyed hea).1.symm.trans hvm
        simp [PointDir.outdated, outdated, hcut, hi, hea, hold, hdvm]
      · intro ho
        simp only [PointDir.outdated, Bool.and_eq_true, decide_eq_true_eq, Option.any_eq_true] at ho
        obtain ⟨⟨hvm, hi⟩, m, hm, hold⟩ := ho
        refine (comes_to_iff hnd hperm hd hi hm).mpr
          ⟨(PointDir.completed_keyed hm).1.trans hvm, ?_⟩
        simpa [outdated, hcut] using hold
    rw [prunedDir, hany, hleft]
    cases ho : d.outdated vmID keepLast (h.library.completed vmID) <;> simp [Option.guard, ho]

/-- **The number of deletions**. -/
theorem prune_count (hnd : (h.library.map PointDir.id).Nodup) (hkeep : 1 ≤ keepLast)
    (hlists : env.Lists h vmID) (hdel : env.Deletes) :
    (prune byStore bySlice env h vmID keepLast).1 =
      (h.library.completed vmID).countP (outdated keepLast (h.library.completed vmID)) := by
  obtain ⟨ms, hperm, heq⟩ := prune_eq byStore bySlice hkeep hlists
  rw [heq]
  cases hcut : nthNewestFull keepLast (h.library.completed vmID) with
  | none =>
    refine (List.countP_eq_zero.mpr fun m _ => ?_).symm
    simp [outdated, hcut]
  | some cutoff =>
    have hnodup : (ms.map Metadata.id).Nodup :=
      (hperm.map Metadata.id).nodup_iff.mpr (completed_nodup hnd vmID)
    dsimp only
    rw [pruneLoop_count hdel hnd hnodup fun m hm => get_of_completed hnd (hperm.mem_iff.mp hm),
      hperm.countP_eq]
    refine List.countP_congr fun m _ => ?_
    simp [outdated, hcut]

end Deletes

/-! ## What retention promises -/

/-- What a call makes of the points of its VM, and the number it returns. -/
structure Retained (keepLast : ℕ) (before after : List Metadata) (pruned : ℕ) : Prop where
  /-- exactly the points older than the `keepLast`-th newest full go -/
  kept : after = before.filter fun m => !outdated keepLast before m
  count : pruned = before.countP (outdated keepLast before)
  /-- enough fulls stay -/
  fulls : min keepLast (fullTimes before).length ≤ (fullTimes after).length
  /-- a full that fewer than `keepLast` fulls are newer than stays -/
  newest : ∀ m ∈ before, m.type = .full → newerFulls m.createdAt before < keepLast → m ∈ after

/-- At least `keepLast` fulls are not outdated, if there are so many. -/
theorem fullTimes_kept (keepLast : ℕ) (before : List Metadata) :
    min keepLast (fullTimes before).length ≤
      (fullTimes (before.filter fun m => !outdated keepLast before m)).length := by
  cases hcut : nthNewestFull keepLast before with
  | none =>
    rw [List.filter_eq_self.mpr fun m _ => by simp [outdated, hcut]]
    exact Nat.min_le_right _ _
  | some cutoff =>
    have hS := SortDesc.perm (.insertion id) (fullTimes before)
    have hsorted := SortDesc.sorted (.insertion id) (fullTimes before)
    have hcut' := hcut
    rw [nthNewestFull] at hcut hcut'
    generalize SortDesc.sort (.insertion id) (fullTimes before) = S at hcut hS hsorted
    obtain ⟨hlt, hget⟩ := List.getElem?_eq_some_iff.mp hcut
    -- the first `keepLast` times are not before the last one of them
    have hfirst : ∀ t ∈ S.take keepLast, decide (cutoff ≤ t) = true := by
      intro t ht
      obtain ⟨i, hi, rfl⟩ := List.mem_take_iff_getElem.mp ht
      rw [decide_eq_true_eq, ← hget]
      rcases Nat.lt_or_eq_of_le (by omega : i ≤ keepLast - 1) with hi' | rfl
      · exact List.pairwise_iff_getElem.mp hsorted _ _ _ _ hi'
      · exact Int.le_refl _
    have hcount : (fullTimes (before.filter fun m => !outdated keepLast before m)).length =
        (S.filter fun t => cutoff ≤ t).length := by
      have hout : ∀ m : Metadata, outdated keepLast before m = decide (m.createdAt < cutoff) := by
        intro m
        rw [outdated, nthNewestFull, hcut']
        rfl
      rw [← List.countP_eq_length_filter, hS.countP_eq, fullTimes, fullTimes, List.countP_map,
        List.length_map, ← List.countP_eq_length_filter, List.countP_filter, List.countP_filter]
      refine List.countP_congr fun m _ => ?_
      simp [hout, and_comm]
    rw [hcount, ← hS.length_eq, ← List.length_take, ← List.filter_eq_self.mpr hfirst]
    exact ((List.take_sublist keepLast S).filter _).length_le

section Deletes

variable {byStore bySlice : SortDesc Metadata Metadata.createdAt} {env : PruneEnv} {h : Host}
  {vmID : String} {keepLast : ℕ}

/-- When no point of the VM is outdated there is nothing to delete. -/
theorem prune_none (hkeep : 1 ≤ keepLast)
    (hnone : ∀ m ∈ h.library.completed vmID,
      outdated keepLast (h.library.completed vmID) m = false) :
    prune byStore bySlice env h vmID keepLast = (0, h) := by
  by_cases hlists : env.Lists h vmID
  · obtain ⟨ms, hperm, heq⟩ := prune_eq byStore bySlice hkeep hlists
    rw [heq]
    cases hcut : nthNewestFull keepLast (h.library.completed vmID) with
    | none => rfl
    | some cutoff =>
      refine pruneLoop_none h fun m hm => ?_
      simpa [outdated, hcut] using hnone m (hperm.mem_iff.mp hm)
  · rw [prune]
    split
    · rfl
    · rename_i metas hl
      exact absurd (list_of_prune hl).1 hlists

/-- What is left has nothing outdated: no more fulls are newer than before. -/
theorem outdated_filter (hkeep : 1 ≤ keepLast) {before : List Metadata} {m : Metadata}
    (hm : m ∈ before.filter fun m => !outdated keepLast before m) :
    outdated keepLast (before.filter fun m => !outdated keepLast before m) m = false := by
  have hold : outdated keepLast before m = false := by simpa using (List.mem_filter.mp hm).2
  rw [← Bool.not_eq_true, outdated_iff hkeep] at hold ⊢
  have hle : newerFulls m.createdAt (before.filter fun m => !outdated keepLast before m) ≤
      newerFulls m.createdAt before := List.filter_sublist.countP_le
  omega

/-- **Retention** deletes exactly the directories of the points older than the `keepLast`-th
newest full and returns their number; it keeps enough fulls, the newest ones among them, and a
second call, whatever it meets, deletes nothing. -/
theorem prune_retained (hnd : (h.library.map PointDir.id).Nodup) (hkeep : 1 ≤ keepLast)
    (hlists : env.Lists h vmID) (hdel : env.Deletes) :
    ((prune byStore bySlice env h vmID keepLast).2.library =
      h.library.filter fun d => !d.outdated vmID keepLast (h.library.completed vmID)) ∧
    Retained keepLast (h.library.completed vmID)
      ((prune byStore bySlice env h vmID keepLast).2.library.completed vmID)
      (prune byStore bySlice env h vmID keepLast).1 ∧
    ∀ (byStore' bySlice' : SortDesc Metadata Metadata.createdAt) (env' : PruneEnv),
      prune byStore' bySlice' env' (prune byStore bySlice env h vmID keepLast).2 vmID keepLast =
        (0, (prune byStore bySlice env h vmID keepLast).2) := by
  have hlib := prune_library byStore bySlice hnd hkeep hlists hdel
  have hafter := completed_filter vmID keepLast h.library
    (h.library.completed vmID)
  rw [← hlib] at hafter
  refine ⟨hlib, ⟨hafter, prune_count hnd hkeep hlists hdel, ?_, ?_⟩, fun _ _ _ => ?_⟩
  · rw [hafter]
    exact fullTimes_kept keepLast _
  · intro m hm _ hnewer
    rw [hafter, List.mem_filter]
    refine ⟨hm, ?_⟩
    rw [Bool.not_eq_true', ← Bool.not_eq_true, outdated_iff hkeep]
    omega
  · refine prune_none hkeep fun m hm => ?_
    rw [hafter] at hm ⊢
    exact outdated_filter hkeep hm

/-- Two fulls and an incremental, of which one full is to be kept. -/
theorem prune_retained_longFull :
    ((prune (.insertion _) (.insertion _) LongFull.env LongFull.host "vm1" 1).2.library =
      LongFull.host.library.filter
        fun d => !d.outdated "vm1" 1 (LongFull.host.library.completed "vm1")) ∧
    Retained 1 (LongFull.host.library.completed "vm1")
      ((prune (.insertion _) (.insertion _) LongFull.env LongFull.host "vm1" 1).2.library.completed
        "vm1")
      (prune (.insertion _) (.insertion _) LongFull.env LongFull.host "vm1" 1).1 ∧
    ∀ (byStore' bySlice' : SortDesc Metadata Metadata.createdAt) (env' : PruneEnv),
      prune byStore' bySlice' env'
          (prune (.insertion _) (.insertion _) LongFull.env LongFull.host "vm1" 1).2 "vm1" 1 =
        (0, (prune (.insertion _) (.insertion _) LongFull.env LongFull.host "vm1" 1).2) :=
  prune_retained (by decide) (Nat.le_refl 1) ⟨rfl, rfl, by decide⟩ fun _ => rfl

end Deletes

end Ultrav
