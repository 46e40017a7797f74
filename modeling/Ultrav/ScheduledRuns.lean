import Ultrav.Machine
import Ultrav.Restore
import Ultrav.Retention
import Ultrav.ScheduleStore

/-!
# Scheduled runs over all machines

`runSchedule` backs up one machine after the other and applies retention to each, while
machines are started, stopped, written to, restored and backed up by hand.

* `BackupNode` — all machines of the host, with the library they share.
* `targets` / `runTarget` / `runSchedule` — the run as one function.
* `Nightly` / `NightlyEvent` — the run one provider call at a time, among the other calls.
* `reaches_runSchedule` — a run that nothing interrupts is `runSchedule`.
-/

namespace Ultrav

/-! ## All machines of the host -/

/-- The machines of the host and their library. -/
structure BackupNode where
  library : Library
  files : Files
  domains : String → Option Domain

namespace BackupNode

/-- The node as a call for one machine sees it. -/
def host (n : BackupNode) (vm : String) : Host := ⟨vm, n.library, n.files, n.domains vm⟩

/-- What such a call leaves. -/
def put (n : BackupNode) (h : Host) : BackupNode :=
  ⟨h.library, h.files, Function.update n.domains h.vm h.domain⟩

theorem host_put (n : BackupNode) (h : Host) : (n.put h).host h.vm = h := by
  simp only [host, put, Function.update_self]

theorem put_host (n : BackupNode) (vm : String) : n.put (n.host vm) = n := by
  simp only [host, put, Function.update_eq_self]

theorem put_put (n : BackupNode) {h h' : Host} (hvm : h'.vm = h.vm) :
    (n.put h).put h' = n.put h' := by
  simp only [put, hvm, Function.update_idem]

end BackupNode

/-! ## One run -/

/-- `targets`: `*` is every machine that `ListVirtualMachines` returns. -/
def targets (listed : Except ProviderError (List String)) (vmIDs : List String) :
    Except ProviderError (List String) :=
  if "*" ∈ vmIDs then listed else .ok vmIDs

/-- The type `runSchedule` asks for; an automatic backup asks for none. -/
def Schedule.createType (sch : Schedule) : Option CreateType :=
  if sch.type = "full" then some .full
  else if sch.type = "incremental" then some .incremental
  else none

/-- What the round of one target meets. -/
structure TargetEnv where
  backup : BackupEnv
  prune : PruneEnv

section RunSchedule

variable (byStore bySlice : SortDesc Metadata Metadata.createdAt) (sch : Schedule)

/-- One round of `runSchedule`. A backup that failed is logged, and the next target comes. -/
def runTarget (env : TargetEnv) (n : BackupNode) (vm : String) : Option BackupNode :=
  (backupVirtualMachine byStore env.backup (n.host vm) vm sch.createType).map fun r =>
    let n := n.put r.2
    if r.1.toBool && decide (0 < sch.retentionKeepLast) then
      n.put (prune byStore bySlice env.prune (n.host vm) vm sch.retentionKeepLast.toNat).2
    else n

/-- The loop of `runSchedule`; `env` is numbered from the last target. -/
def runTargets (env : ℕ → TargetEnv) : List String → BackupNode → Option BackupNode
  | [], n => some n
  | vm :: rest, n =>
    (runTarget byStore bySlice sch (env rest.length) n vm).bind (runTargets env rest)

/-- `runSchedule`, up to the record of the run. -/
def runSchedule (found : Except ProviderError (List String)) (env : ℕ → TargetEnv)
    (n : BackupNode) : Option BackupNode :=
  match targets found sch.vmIDs with
  | .error _ => some n
  | .ok ids => runTargets byStore bySlice sch env ids n

end RunSchedule

/-! ## The run among other calls -/

/-- The next provider call of a run, with the targets after it. -/
inductive RunStage where
  /-- `BackupVirtualMachine` of the first target; with no target left the run returns -/
  | backup (ids : List String)
  /-- `prune` lists the points of a machine -/
  | list (vmID : String) (rest : List String)
  /-- `prune` goes through the points it listed -/
  | sweep (vmID : String) (cutoff : Time) (metas : List Metadata) (rest : List String)

/-- A run that holds the run mutex. -/
structure ScheduledRun where
  schedule : Schedule
  stage : RunStage

/-- The node, the run in progress, and what happened so far. -/
structure Nightly where
  node : BackupNode
  run : Option ScheduledRun
  /-- the points ever completed, newest first -/
  made : List Metadata
  /-- the ids ever drawn -/
  drawn : List String
  /-- the points retention has cut, deleted or not -/
  cut : List String

/-- One event. -/
inductive NightlyEvent where
  /-- a run takes the mutex and resolves its targets -/
  | start (sch : Schedule) (listed : Except ProviderError (List String))
  /-- the run backs up its next target -/
  | runBackup (env : BackupEnv)
  /-- `prune` lists; the connection may fail -/
  | runList (listFails : Bool)
  /-- `prune` deletes its next point, or passes over it -/
  | runDelete (env : DeleteEnv)
  /-- `prune` is through with its points, or the run with its targets -/
  | runReturn
  /-- `BackupVirtualMachine` by hand -/
  | backup (env : BackupEnv) (vmID : String) (req : Option CreateType)
  /-- `RestoreBackup` -/
  | restore (env : RestoreEnv) (vmID id : String)
  /-- what happens to disks and domains outside: guest writes, power changes, machines that come
  and go, checkpoints that are lost -/
  | outside (files : Files) (domains : String → Option Domain)

namespace Nightly

/-- The run of `sch` goes on with `stage`. -/
def goOn (s : Nightly) (sch : Schedule) (stage : RunStage) : Nightly :=
  { s with run := some ⟨sch, stage⟩ }

/-- After a backup: a completed point is recorded. -/
def backedUp (s : Nightly) (env : BackupEnv) (h : Host) : Nightly :=
  { s with
    node := s.node.put h
    made := (h.library.lookup env.id).toList ++ s.made
    drawn := env.id :: s.drawn }

/-- The loop of `runSchedule` after the backup of `vm`: retention follows a backup that
succeeded, when the schedule has any. -/
def afterBackup (sch : Schedule) (vm : String) (rest : List String) (ok : Bool) : RunStage :=
  if ok && decide (0 < sch.retentionKeepLast) then .list vm rest else .backup rest

/-- `prune` up to its deletions: with fewer fulls than it keeps there are none. -/
def listed (s : Nightly) (sch : Schedule) (vm : String) (rest : List String)
    (metas : List Metadata) : Nightly :=
  match pruneCutoff sch.retentionKeepLast.toNat 0 metas with
  | none => s.goOn sch (.backup rest)
  | some cutoff =>
    { s.goOn sch (.sweep vm cutoff metas rest) with
      cut := (metas.filter fun m => m.createdAt < cutoff).map Metadata.id ++ s.cut }

/-- One event. A backup that is still polling and a run that holds the mutex have to be waited
for. -/
def step (byStore bySlice : SortDesc Metadata Metadata.createdAt) (s : Nightly) :
    NightlyEvent → Option Nightly
  | .start sch found =>
    match s.run with
    | some _ => none
    | none =>
      match targets found sch.vmIDs with
      | .error _ => some s
      | .ok ids => some (s.goOn sch (.backup ids))
  | .runBackup env =>
    match s.run with
    | some ⟨sch, .backup (vm :: rest)⟩ =>
      (backupVirtualMachine byStore env (s.node.host vm) vm sch.createType).map fun r =>
        (s.backedUp env r.2).goOn sch (afterBackup sch vm rest r.1.toBool)
    | _ => none
  | .runList listFails =>
    match s.run with
    | some ⟨sch, .list vm rest⟩ =>
      match if listFails then .error (.other "connect")
        else listVMBackups byStore (s.node.host vm) vm with
      | .error _ => some (s.goOn sch (.backup rest))
      | .ok metas => some (s.listed sch vm rest (bySlice.sort metas))
    | _ => none
  | .runDelete env =>
    match s.run with
    | some ⟨sch, .sweep vm cutoff (m :: ms) rest⟩ =>
      if m.createdAt < cutoff then
        some ({ s with node := s.node.put (deleteBackup env (s.node.host vm) m.id).2 }.goOn sch
          (.sweep vm cutoff ms rest))
      else some (s.goOn sch (.sweep vm cutoff ms rest))
    | _ => none
  | .runReturn =>
    match s.run with
    | some ⟨sch, .sweep _ _ [] rest⟩ => some (s.goOn sch (.backup rest))
    | some ⟨_, .backup []⟩ => some { s with run := none }
    | _ => none
  | .backup env vmID req =>
    (backupVirtualMachine byStore env (s.node.host vmID) vmID req).map fun r => s.backedUp env r.2
  | .restore env vmID id =>
    (restoreBackup env (s.node.host vmID) id).map fun r => { s with node := s.node.put r.2 }
  | .outside files domains => some { s with node := ⟨s.node.library, files, domains⟩ }

/-- The backup of an event: its environment and its machine. -/
def backupOf (s : Nightly) : NightlyEvent → Option (BackupEnv × String)
  | .runBackup env =>
    match s.run with
    | some ⟨_, .backup (vm :: _)⟩ => some (env, vm)
    | _ => none
  | .backup env vmID _ => some (env, vmID)
  | _ => none

/-- A backup draws a new id, and the clock is past the earlier points of the machine. -/
def Orderly (s : Nightly) (e : NightlyEvent) : Prop :=
  ∀ b ∈ s.backupOf e,
    b.1.id ∉ s.drawn ∧ ∀ m ∈ s.made, m.vmID = b.2 → m.createdAt < b.1.now

instance (s : Nightly) (e : NightlyEvent) : Decidable (s.Orderly e) :=
  inferInstanceAs (Decidable (∀ b ∈ s.backupOf e, _))

/-- Before the first backup. -/
structure Started (s : Nightly) : Prop where
  library : s.node.library = []
  run : s.run = none
  made : s.made = []
  drawn : s.drawn = []
  cut : s.cut = []

/-! ## A run that is left alone -/

section Alone

variable {byStore bySlice : SortDesc Metadata Metadata.createdAt} {sch : Schedule}

/-- The machine gets from `s` to a state with node `n` and run `run`. -/
def Reaches (byStore bySlice : SortDesc Metadata Metadata.createdAt) (s : Nightly) (n : BackupNode)
    (run : Option ScheduledRun) : Prop :=
  ∃ es t, Machine.run (step byStore bySlice) s es = some t ∧ t.node = n ∧ t.run = run

theorem Reaches.stay (s : Nightly) : Reaches byStore bySlice s s.node s.run :=
  ⟨[], s, rfl, rfl, rfl⟩

/-- One event, and what comes after it. -/
theorem Reaches.head {s t : Nightly} {n : BackupNode} {run : Option ScheduledRun} {e : NightlyEvent}
    (hs : s.step byStore bySlice e = some t) (h : Reaches byStore bySlice t n run) :
    Reaches byStore bySlice s n run := by
  obtain ⟨es, u, hrun, hn, hr⟩ := h
  exact ⟨e :: es, u, Machine.run_cons_of hs hrun, hn, hr⟩

/-- What the deletions of `prune` leave. -/
theorem pruneLoop_cons (deletes : String → DeleteEnv) (cutoff : Time) (m : Metadata)
    (ms : List Metadata) (h : Host) :
    (pruneLoop deletes cutoff (m :: ms) h).2 =
      if m.createdAt < cutoff then
        (pruneLoop deletes cutoff ms (deleteBackup (deletes m.id) h m.id).2).2
      else (pruneLoop deletes cutoff ms h).2 := by
  rw [pruneLoop]
  split
  · rcases deleteBackup (deletes m.id) h m.id with ⟨_ | _, h'⟩ <;> rfl
  · rfl

theorem pruneLoop_vm (deletes : String → DeleteEnv) (cutoff : Time) (ms : List Metadata) :
    ∀ h : Host, (pruneLoop deletes cutoff ms h).2.vm = h.vm := by
  induction ms with
  | nil => exact fun _ => rfl
  | cons m ms ih =>
    intro h
    rw [pruneLoop_cons]
    split
    · exact (ih _).trans (deleteBackup_eq rfl).vm
    · exact ih h

/-- The deletions of `prune`. -/
theorem reaches_sweep {vm : String} {cutoff : Time} {rest : List String}
    (deletes : String → DeleteEnv) {n : BackupNode} {run : Option ScheduledRun}
    (ms : List Metadata) :
    ∀ s : Nightly, s.run = some ⟨sch, .sweep vm cutoff ms rest⟩ →
      (∀ t : Nightly, t.node = s.node.put (pruneLoop deletes cutoff ms (s.node.host vm)).2 →
        t.run = some ⟨sch, .backup rest⟩ → Reaches byStore bySlice t n run) →
      Reaches byStore bySlice s n run := by
  induction ms with
  | nil =>
    intro s hs hnext
    refine .head (e := .runReturn) ?_ (hnext (s.goOn sch (.backup rest)) ?_ rfl)
    · rw [step, hs]
    · exact (s.node.put_host vm).symm
  | cons m ms ih =>
    intro s hs hnext
    rw [pruneLoop_cons] at hnext
    by_cases hold : m.createdAt < cutoff
    · rw [if_pos hold] at hnext
      refine .head (e := .runDelete (deletes m.id)) ?_ (ih ({ s with
        node := s.node.put (deleteBackup (deletes m.id) (s.node.host vm) m.id).2 }.goOn sch
          (.sweep vm cutoff ms rest)) rfl fun t ht hrun => hnext t ?_ hrun)
      · rw [step, hs]
        dsimp only
        rw [if_pos hold]
      · have hvm : (deleteBackup (deletes m.id) (s.node.host vm) m.id).2.vm = vm :=
          (deleteBackup_eq rfl).vm
        generalize (deleteBackup (deletes m.id) (s.node.host vm) m.id).2 = h' at ht hvm ⊢
        subst hvm
        have hhost : (s.node.put h').host h'.vm = h' := s.node.host_put h'
        change t.node = (s.node.put h').put
          (pruneLoop deletes cutoff ms ((s.node.put h').host h'.vm)).2 at ht
        rw [ht, hhost, s.node.put_put (pruneLoop_vm deletes cutoff ms h')]
    · rw [if_neg hold] at hnext
      refine .head (e := .runDelete (deletes m.id)) ?_ (ih (s.goOn sch (.sweep vm cutoff ms rest))
        rfl hnext)
      rw [step, hs]
      dsimp only
      rw [if_neg hold]

/-- `prune`, from its listing on. -/
theorem reaches_prune {vm : String} {rest : List String} (env : PruneEnv) {s : Nightly}
    {n : BackupNode} {run : Option ScheduledRun} (hs : s.run = some ⟨sch, .list vm rest⟩)
    (hnext : ∀ t : Nightly, t.node = s.node.put (prune byStore bySlice env (s.node.host vm) vm
        sch.retentionKeepLast.toNat).2 → t.run = some ⟨sch, .backup rest⟩ →
      Reaches byStore bySlice t n run) :
    Reaches byStore bySlice s n run := by
  rw [prune] at hnext
  rcases hl : (if env.listFails then .error (.other "connect")
    else listVMBackups byStore (s.node.host vm) vm : Except ProviderError (List Metadata))
    with e | metas
  · rw [hl] at hnext
    refine .head (e := .runList env.listFails) ?_ (hnext (s.goOn sch (.backup rest)) ?_ rfl)
    · rw [step, hs]
      dsimp only
      rw [hl]
    · exact (s.node.put_host vm).symm
  · rw [hl] at hnext
    refine .head (e := .runList env.listFails) (t := s.listed sch vm rest (bySlice.sort metas))
      ?_ ?_
    · rw [step, hs]
      dsimp only
      rw [hl]
    · rcases hcut : pruneCutoff sch.retentionKeepLast.toNat 0 (bySlice.sort metas) with _ | cutoff
      · dsimp only at hnext
        rw [hcut] at hnext
        refine hnext _ ?_ ?_ <;> rw [listed, hcut]
        · exact (s.node.put_host vm).symm
        · rfl
      · dsimp only at hnext
        rw [hcut] at hnext
        have hlisted : s.listed sch vm rest (bySlice.sort metas) =
            { s.goOn sch (.sweep vm cutoff (bySlice.sort metas) rest) with
              cut := ((bySlice.sort metas).filter fun m => m.createdAt < cutoff).map Metadata.id ++
                s.cut } := by
          rw [listed, hcut]
        rw [hlisted]
        exact reaches_sweep env.deletes _ _ rfl hnext

/-- The rounds of `runSchedule`. -/
theorem reaches_targets (env : ℕ → TargetEnv) (ids : List String) :
    ∀ (s : Nightly) (n : BackupNode), s.run = some ⟨sch, .backup ids⟩ →
      runTargets byStore bySlice sch env ids s.node = some n →
      Reaches byStore bySlice s n none := by
  induction ids with
  | nil =>
    intro s n hs hn
    cases hn
    refine .head (e := .runReturn) (t := { s with run := none }) ?_ (.stay _)
    rw [step, hs]
  | cons vm rest ih =>
    intro s n hs hn
    obtain ⟨n₁, hround, hn⟩ := Option.bind_eq_some_iff.mp hn
    obtain ⟨r, hr, rfl⟩ := Option.map_eq_some_iff.mp hround
    refine .head (e := .runBackup (env rest.length).backup)
      (t := (s.backedUp (env rest.length).backup r.2).goOn sch
        (afterBackup sch vm rest r.1.toBool)) ?_ ?_
    · rw [step, hs]
      dsimp only
      rw [hr]
      rfl
    · dsimp only at hn
      rw [afterBackup]
      split
      · rename_i hkeep
        rw [if_pos hkeep] at hn
        refine reaches_prune (env rest.length).prune rfl fun t ht hrun => ih t n hrun ?_
        rw [ht]
        exact hn
      · rename_i hkeep
        rw [if_neg hkeep] at hn
        exact ih _ n rfl hn

/-- **A run that nothing interrupts is `runSchedule`.** -/
theorem reaches_runSchedule (found : Except ProviderError (List String)) (env : ℕ → TargetEnv)
    {s : Nightly} {n : BackupNode} (hs : s.run = none)
    (hn : runSchedule byStore bySlice sch found env s.node = some n) :
    Reaches byStore bySlice s n none := by
  rw [runSchedule] at hn
  rcases ht : targets found sch.vmIDs with e | ids
  · rw [ht] at hn
    cases hn
    refine .head (e := .start sch found) (t := s) ?_ (hs ▸ .stay s)
    rw [step, hs]
    dsimp only
    rw [ht]
  · rw [ht] at hn
    refine .head (e := .start sch found) (t := s.goOn sch (.backup ids)) ?_
      (reaches_targets env ids _ n rfl hn)
    rw [step, hs]
    dsimp only
    rw [ht]

end Alone

end Nightly

/-! ## Every machine its own round -/

/-- The domain and the point directories of `v` stay as they are. -/
structure Undisturbed (v : String) (n n' : BackupNode) : Prop where
  domain : n'.domains v = n.domains v
  dirs : (n'.library.filter fun d => d.vmID = v) = n.library.filter fun d => d.vmID = v

theorem Undisturbed.refl (v : String) (n : BackupNode) : Undisturbed v n n := ⟨rfl, rfl⟩

theorem Undisturbed.trans {v : String} {n₁ n₂ n₃ : BackupNode} (h : Undisturbed v n₁ n₂)
    (h' : Undisturbed v n₂ n₃) : Undisturbed v n₁ n₃ :=
  ⟨h'.domain.trans h.domain, h'.dirs.trans h.dirs⟩

/-- What a call for the machine `w` does to the directories of the library. -/
structure CallEffect (w : String) (new : Option String) (h h' : Host) : Prop where
  vm : h'.vm = w
  /-- the directories of the other machines are as they were -/
  others : ∀ v, v ≠ w →
    (h'.library.filter fun d => d.vmID = v) = h.library.filter fun d => d.vmID = v
  /-- a directory has an old name or the new one -/
  ids : ∀ d ∈ h'.library, some d.id = new ∨ ∃ e ∈ h.library, e.id = d.id
  nodup : (h'.library.map PointDir.id).Nodup

theorem CallEffect.undisturbed {w : String} {new : Option String} {n : BackupNode} {h : Host}
    (he : CallEffect w new (n.host w) h) {v : String} (hv : v ≠ w) :
    Undisturbed v n (n.put h) := by
  refine ⟨?_, he.others v hv⟩
  have hvm : v ≠ h.vm := fun heq => hv (heq.trans he.vm)
  exact Function.update_of_ne hvm _ _

/-- A backup touches the directories of its own machine only. -/
theorem backup_callEffect {srt : SortDesc Metadata Metadata.createdAt} {env : BackupEnv}
    {h : Host} {req : Option CreateType}
    {r : Except ProviderError (Option Metadata) × Host} (hf : ∀ d ∈ h.library, d.id ≠ env.id)
    (hnd : (h.library.map PointDir.id).Nodup)
    (hr : backupVirtualMachine srt env h h.vm req = some r) :
    CallEffect h.vm (some env.id) h r.2 := by
  have happend : ∀ d : PointDir, r.2.vm = h.vm → r.2.library = h.library ++ [d] →
      d.vmID = h.vm → d.id = env.id → CallEffect h.vm (some env.id) h r.2 := by
    intro d hvm hlib hv hid
    refine ⟨hvm, fun v hne => ?_, fun e he => ?_, ?_⟩
    · rw [hlib, List.filter_append]
      have hother : ¬ d.vmID = v := fun heq => hne (heq.symm.trans hv)
      simp [hother]
    · rw [hlib] at he
      rcases List.mem_append.mp he with he | he
      · exact .inr ⟨e, he, rfl⟩
      · exact .inl (by rw [List.mem_singleton.mp he, hid])
    · rw [hlib, List.map_append, List.nodup_append]
      refine ⟨hnd, List.nodup_singleton _, fun i hi j hj => ?_⟩
      obtain ⟨e, he, rfl⟩ := List.mem_map.mp hi
      obtain rfl := List.mem_singleton.mp hj
      rw [hid]
      exact hf e he
  obtain ⟨result, h'⟩ := r
  cases backupVirtualMachine_eq_some hf hr with
  | kept hframe hlib =>
    refine ⟨hframe.vm, fun v _ => by rw [hlib], fun e he => .inr ⟨e, hlib ▸ he, rfl⟩, ?_⟩
    rw [hlib]
    exact hnd
  | leftover hframe hlib hv hid _ _ _ => exact happend _ hframe.vm hlib hv hid
  | taken hframe hlib hv hid _ _ _ _ _ => exact happend _ hframe.vm hlib hv hid

/-- The points of a machine are in its own directories. -/
theorem prunedDir_of_vmID_ne {lib : Library} {deletes : String → DeleteEnv} {cutoff : Time}
    {vm : String} {ms : List Metadata} (hnd : (lib.map PointDir.id).Nodup)
    (hperm : ms.Perm (lib.completed vm)) {d : PointDir} (hd : d ∈ lib) (hv : d.vmID ≠ vm) :
    prunedDir deletes cutoff ms d = some d := by
  rw [prunedDir, if_neg]
  intro hany
  obtain ⟨m, hm, hp⟩ := List.any_eq_true.mp hany
  obtain ⟨e, he, hev, -, hem⟩ := Library.mem_completed.mp (hperm.mem_iff.mp hm)
  have hid : m.id = d.id := by simpa using (Bool.and_eq_true_iff.mp hp).2
  obtain rfl := List.inj_on_of_nodup_map hnd he hd ((PointDir.completed_keyed hem).2.symm.trans hid)
  exact hv hev

/-- Retention touches the directories of its own machine only. -/
theorem prune_callEffect (byStore bySlice : SortDesc Metadata Metadata.createdAt) (env : PruneEnv)
    {h : Host} (keepLast : ℕ) (hnd : (h.library.map PointDir.id).Nodup) :
    CallEffect h.vm none h (prune byStore bySlice env h h.vm keepLast).2 := by
  have hsame : CallEffect h.vm none h h :=
    ⟨rfl, fun _ _ => rfl, fun e he => .inr ⟨e, he, rfl⟩, hnd⟩
  rw [prune]
  split
  · exact hsame
  · rename_i metas hl
    obtain ⟨-, rfl⟩ := list_of_prune hl
    have hperm := (bySlice.perm (byStore.sort (h.library.completed h.vm))).trans (byStore.perm _)
    generalize bySlice.sort (byStore.sort (h.library.completed h.vm)) = ms at hperm ⊢
    dsimp only
    split
    · exact hsame
    · rename_i cutoff _
      have hlib : (pruneLoop env.deletes cutoff ms h).2.library =
          h.library.filterMap (prunedDir env.deletes cutoff ms) :=
        pruneLoop_library hnd ((hperm.map Metadata.id).nodup_iff.mpr (completed_nodup hnd h.vm))
          (get_of_perm hnd hperm)
      refine ⟨Nightly.pruneLoop_vm _ _ ms h, fun v hv => ?_, fun d hd => ?_, ?_⟩
      · rw [hlib, List.filter_filterMap, ← List.filterMap_eq_filter]
        refine List.filterMap_congr fun d hd => ?_
        by_cases hdv : d.vmID = v
        · rw [prunedDir_of_vmID_ne hnd hperm hd (hdv ▸ hv)]
          simp [Option.guard, hdv]
        · -- the directory of another machine: what is left of it is not `v`'s either
          rcases hp : prunedDir env.deletes cutoff ms d with _ | d'
          · simp [Option.guard, hdv]
          · have hv' : d'.vmID ≠ v := (prunedDir_remnant d d' hp).1 ▸ hdv
            simp [Option.guard, hdv, hv']
      · rw [hlib] at hd
        obtain ⟨e, he, hed⟩ := List.mem_filterMap.mp hd
        exact .inr ⟨e, he, (prunedDir_remnant e d hed).2.1.symm⟩
      · rw [hlib]
        exact nodup_filterMap prunedDir_remnant hnd

/-- One round: the other machines are undisturbed. -/
theorem runTarget_effect {byStore bySlice : SortDesc Metadata Metadata.createdAt} {sch : Schedule}
    {env : TargetEnv} {n n' : BackupNode} {w : String} (hf : ∀ d ∈ n.library, d.id ≠ env.backup.id)
    (hnd : (n.library.map PointDir.id).Nodup)
    (hr : runTarget byStore bySlice sch env n w = some n') :
    (∀ v, v ≠ w → Undisturbed v n n') ∧ (n'.library.map PointDir.id).Nodup ∧
      ∀ d ∈ n'.library, d.id = env.backup.id ∨ ∃ e ∈ n.library, e.id = d.id := by
  obtain ⟨r, hbackup, rfl⟩ := Option.map_eq_some_iff.mp hr
  have hb : CallEffect w (some env.backup.id) (n.host w) r.2 :=
    backup_callEffect (h := n.host w) hf hnd hbackup
  dsimp only
  split
  · have hp : CallEffect w none ((n.put r.2).host w)
        (prune byStore bySlice env.prune ((n.put r.2).host w) w sch.retentionKeepLast.toNat).2 :=
      prune_callEffect byStore bySlice env.prune (h := (n.put r.2).host w)
        sch.retentionKeepLast.toNat hb.nodup
    refine ⟨fun v hv => (hb.undisturbed hv).trans (hp.undisturbed hv), hp.nodup, fun d hd => ?_⟩
    obtain ⟨e, he, hed⟩ := (hp.ids d hd).resolve_left nofun
    rcases hb.ids e he with heid | ⟨e', he', heid⟩
    · exact .inl (hed.symm.trans (Option.some.inj heid))
    · exact .inr ⟨e', he', heid.trans hed⟩
  · exact ⟨fun v hv => hb.undisturbed hv, hb.nodup,
      fun d hd => (hb.ids d hd).imp_left fun h => Option.some.inj h⟩

/-- The loop gives every target a round of its own. -/
theorem runTargets_own_round {byStore bySlice : SortDesc Metadata Metadata.createdAt}
    {sch : Schedule} {env : ℕ → TargetEnv} (ids : List String) :
    ∀ {n n' : BackupNode},
      (∀ j k, j < k → k < ids.length → (env j).backup.id ≠ (env k).backup.id) →
      (∀ k, ∀ d ∈ n.library, k < ids.length → d.id ≠ (env k).backup.id) →
      (n.library.map PointDir.id).Nodup → ids.Nodup →
      runTargets byStore bySlice sch env ids n = some n' →
      (∀ v, v ∉ ids → Undisturbed v n n') ∧
        ∀ v ∈ ids, ∃ k n₁ n₂, Undisturbed v n n₁ ∧
          runTarget byStore bySlice sch (env k) n₁ v = some n₂ ∧ Undisturbed v n₂ n' := by
  induction ids with
  | nil =>
    intro n n' _ _ _ _ hn
    cases hn
    exact ⟨fun v _ => .refl v n, nofun⟩
  | cons w rest ih =>
    intro n n' hdrawn hf hnd hids hn
    obtain ⟨hw, hids⟩ := List.nodup_cons.mp hids
    obtain ⟨n₁, hround, hn⟩ := Option.bind_eq_some_iff.mp hn
    obtain ⟨hothers, hnd₁, hold⟩ := runTarget_effect
      (fun d hd => hf rest.length d hd (Nat.lt_succ_self _)) hnd hround
    have hf₁ : ∀ k, ∀ d ∈ n₁.library, k < rest.length → d.id ≠ (env k).backup.id := by
      intro k d hd hk
      rcases hold d hd with hid | ⟨e, he, hid⟩
      · rw [hid]
        exact (hdrawn k rest.length hk (Nat.lt_succ_self _)).symm
      · exact hid ▸ hf k e he (Nat.lt_succ_of_lt hk)
    obtain ⟨hrest, htargets⟩ := ih
      (fun j k hjk hk => hdrawn j k hjk (Nat.lt_succ_of_lt hk)) hf₁ hnd₁ hids hn
    refine ⟨fun v hv => ?_, fun v hv => ?_⟩
    · have hvw : v ≠ w := fun heq => hv (heq ▸ List.mem_cons_self)
      exact (hothers v hvw).trans (hrest v fun hmem => hv (List.mem_cons_of_mem _ hmem))
    · rcases List.mem_cons.mp hv with rfl | hv
      · exact ⟨rest.length, n, n₁, .refl v n, hround, hrest v hw⟩
      · obtain ⟨k, m₁, m₂, hbefore, hown, hafter⟩ := htargets v hv
        have hne : v ≠ w := fun heq => hw (heq ▸ hv)
        exact ⟨k, m₁, m₂, (hothers v hne).trans hbefore, hown, hafter⟩

/-- **One broken machine does not block the rest**: whatever the rounds meet, every target has
one round of its own, on its domain and points as they were before the run, and what that round
leaves of them is what the run leaves. Machines that are no target keep theirs. -/
theorem runSchedule_own_round {byStore bySlice : SortDesc Metadata Metadata.createdAt}
    {sch : Schedule} {found : Except ProviderError (List String)} {env : ℕ → TargetEnv}
    {ids : List String} {n n' : BackupNode} (htargets : targets found sch.vmIDs = .ok ids)
    (hids : ids.Nodup) (hnd : (n.library.map PointDir.id).Nodup)
    (hdrawn : ∀ j k, j < k → k < ids.length → (env j).backup.id ≠ (env k).backup.id)
    (hfresh : ∀ k, ∀ d ∈ n.library, k < ids.length → d.id ≠ (env k).backup.id)
    (hrun : runSchedule byStore bySlice sch found env n = some n') :
    (∀ v, v ∉ ids → Undisturbed v n n') ∧
      ∀ v ∈ ids, ∃ k n₁ n₂, Undisturbed v n n₁ ∧
        runTarget byStore bySlice sch (env k) n₁ v = some n₂ ∧ Undisturbed v n₂ n' := by
  rw [runSchedule, htargets] at hrun
  exact runTargets_own_round ids hdrawn hfresh hnd hids hrun

/-! ### A machine that is gone, and one that is not -/

namespace BrokenTarget

/-- One stopped machine without disks. -/
def node : BackupNode where
  library := []
  files := fun _ => none
  domains := fun name =>
    if name = "vm2" then some ⟨⟨[], List.nodup_nil⟩, .shutoff, []⟩ else none

/-- A schedule of two machines, the first of which does not exist. -/
def schedule : Schedule := ⟨"sch-1", "nightly", "02:00", ["vm1", "vm2"], "auto", 2, true, none, 0⟩

/-- What the two rounds meet. -/
def env (k : ℕ) : TargetEnv :=
  ⟨if k = 0 then .smooth "bk-1" (.refl true) 1 else .smooth "bk-2" (.refl true) 2,
    ⟨false, fun _ => .smooth⟩⟩

end BrokenTarget

/-- The first target fails, and the second has its round. -/
theorem runSchedule_own_round_broken : ∃ n',
    runSchedule (.insertion _) (.insertion _) BrokenTarget.schedule (.ok []) BrokenTarget.env
        BrokenTarget.node = some n' ∧
      (n'.library.completed "vm2").map Metadata.id = ["bk-1"] ∧
      ∃ k n₁ n₂, Undisturbed "vm2" BrokenTarget.node n₁ ∧
        runTarget (.insertion _) (.insertion _) BrokenTarget.schedule (BrokenTarget.env k) n₁
          "vm2" = some n₂ ∧ Undisturbed "vm2" n₂ n' :=
  ⟨_, rfl, rfl, (runSchedule_own_round
    (rfl : targets (.ok []) BrokenTarget.schedule.vmIDs = .ok ["vm1", "vm2"]) (by decide)
    (by decide)
    (by
      intro j k hjk hk
      have hk' : k = 1 := by
        change k < 2 at hk
        omega
      obtain rfl : j = 0 := by omega
      rw [hk']
      decide)
    (fun _ d hd => by cases hd) rfl).2 "vm2" (by decide)⟩

end Ultrav
