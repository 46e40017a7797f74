import Ultrav.History

/-!
# Is a new backup restorable?

A backup continues from the newest point as soon as that point's checkpoint is alive;
a restore needs every ancestor. A deletion can take an ancestor and leave the newest
point and its checkpoint alone, so the two disagree. `backup_restorable_iff` says
exactly when a successful backup is restorable.
-/

namespace Ultrav

/-- An incremental is due and continues from `newest`: the domain is not stopped, no
full is forced, and the checkpoint of the newest point is alive. -/
structure ContinuesChain (srt : SortDesc Metadata Metadata.createdAt) (h : Host)
    (req : Option CreateType) (newest : Metadata) : Prop where
  listed : ∃ rest, h.library.list srt h.vm = .ok (newest :: rest)
  unforced : req ≠ some .full
  checkpoint : newest.checkpoint ≠ ""
  alive : ∃ dom, h.domain = some dom ∧ dom.state ≠ .shutoff ∧
    newest.checkpoint ∈ dom.checkpoints.names

theorem ContinuesChain.backupChainParent_eq {srt : SortDesc Metadata Metadata.createdAt}
    {h : Host} {req : Option CreateType} {newest : Metadata} {dom : Domain}
    (hc : ContinuesChain srt h req newest) (hd : h.domain = some dom) :
    dom.state ≠ .shutoff ∧
      backupChainParent srt h.library dom h.vm req = .ok (newest.id, newest.checkpoint) := by
  obtain ⟨⟨rest, hl⟩, hreq, hck, dom', hd', hst, hmem⟩ := hc
  obtain rfl : dom' = dom := Option.some.inj (hd'.symm.trans hd)
  refine ⟨hst, ?_⟩
  rw [backupChainParent, hl]
  simp only [if_neg hreq, if_neg hck, if_pos hmem]

namespace History

section Restorable

variable {D : Definition} {s : History} {srt : SortDesc Metadata Metadata.createdAt}
  {env : BackupEnv} {req : Option CreateType} {dom : Domain} {h' : Host}

/-- A point that continues from `newest` is restorable when no ancestor of `newest` is
missing. -/
theorem Wf.restorable_child_iff (hw : Wf D s) {d : PointDir} {m newest : Metadata}
    (hfounded : Lineage.Founded Metadata.id Metadata.parent (m :: s.points))
    (hlib : h'.library = s.host.library ++ [d]) (hid : d.id ∉ s.drawn)
    (hkeep : h'.library.lookup d.id = some m)
    (hnewest : s.host.library.get newest.id = .ok newest) (hpar : m.parentID = newest.id)
    (hne : newest.id ≠ "") :
    Restorable h'.library m ↔
      ∀ p, Lineage.Ancestor (Lineage.lookupIn Metadata.id s.points) Metadata.parent newest p →
        s.host.library.lookup p.id = some p := by
  have hmem : newest ∈ s.points := (hw.get_mem hnewest).1
  -- old points look the same in both libraries
  have hsame : ∀ p ∈ s.points, h'.library.lookup p.id = s.host.library.lookup p.id := by
    intro p hp
    have hpid : d.id ≠ p.id := fun heq => hid (heq ▸ (hw.points p hp).drawn)
    rw [Library.lookup, Library.lookup, hlib, Library.get_append_ne hpid]
  have hsub : ∀ k p, h'.library.lookup k = some p →
      Lineage.lookupIn Metadata.id (m :: s.points) k = some p := by
    intro k p hp
    obtain rfl := Library.get_keyed (Library.lookup_eq_some.mp hp)
    refine hfounded.lookupIn_of_mem ?_
    by_cases hk : d.id = p.id
    · rw [← hk, hkeep] at hp
      cases hp
      exact List.mem_cons_self
    · rw [Library.lookup, hlib, Library.get_append_ne hk] at hp
      exact List.mem_cons_of_mem _ (hw.get_mem (Library.lookup_eq_some.mp hp)).1
  have hlook : h'.library.lookup newest.id = some newest :=
    (hsame newest hmem).trans (Library.lookup_eq_some.mpr hnewest)
  have hparent : m.parent = some newest.id := Metadata.parent_eq_some.mpr ⟨hpar, hne⟩
  rw [restorable_iff_line, Lineage.line_child_iff hparent hlook,
    hfounded.pedigree.line_iff hsub (hfounded.lookupIn_of_mem (List.mem_cons_of_mem _ hmem))]
  have hanc : ∀ p, Lineage.Ancestor (Lineage.lookupIn Metadata.id (m :: s.points))
      Metadata.parent newest p ↔
      Lineage.Ancestor (Lineage.lookupIn Metadata.id s.points) Metadata.parent newest p :=
    fun p => hfounded.ancestor_cons hmem
  constructor
  · intro h p hp
    rw [← hsame p (Lineage.ancestor_mem_lookupIn hp)]
    exact h p ((hanc p).mpr hp)
  · intro h p hp
    have hp' := (hanc p).mp hp
    rw [hsame p (Lineage.ancestor_mem_lookupIn hp')]
    exact h p hp'

/-- **A successful backup is restorable exactly when it is a full one or continues from a
point none of whose ancestors was deleted**, after any history. -/
theorem backup_restorable_iff {s₀ : History} {ops : List HistoryOp}
    {r : Option Metadata} (hstart : Started D s₀)
    (hfresh : Machine.Along (step srt) Fresh s₀ ops)
    (hrun : Machine.run (step srt) s₀ ops = some s) (hnew : env.id ∉ s.drawn)
    (hbackup : backupVirtualMachine srt env s.host s.host.vm req = some (.ok r, h')) :
    ∃ m, h'.library.get env.id = .ok m ∧
      (Restorable h'.library m ↔
        ∀ newest, ContinuesChain srt s.host req newest →
          ∀ p, Lineage.Ancestor (Lineage.lookupIn Metadata.id s.points) Metadata.parent newest p →
            s.host.library.lookup p.id = some p) := by
  have hw := wf_of_run hstart hfresh hrun
  cases backupVirtualMachine_eq_some (hw.fresh_dirs hnew) hbackup with
  | @taken _ _ d dom m hf hlib hv hi hd hx hm hpt ht =>
    have hget : h'.library.get env.id = .ok m := by
      rw [hlib]
      exact hpt.get_append (hw.fresh_dirs hnew) env.id_valid hi hm
    refine ⟨m, hget, ?_⟩
    have hfounded := hw.founded_taken hnew hpt.id ht
    cases ht with
    | offline hst hp _ _ =>
      refine iff_of_true (restorable_of_full hp) fun newest hc => ?_
      exact absurd hst (hc.backupChainParent_eq hd).1
    | @online parentID parentCheckpoint hst hchain hp _ _ _ _ =>
      by_cases hne : parentID = ""
      · refine iff_of_true (restorable_of_full (hp.trans hne)) fun newest hc => ?_
        -- then nothing is continued: the id of a listed point is not empty
        obtain ⟨rest, hl⟩ := hc.listed
        have heq := hchain.symm.trans (hc.backupChainParent_eq hd).2
        have hempty : newest.id = "" := by
          cases heq
          exact hne
        have hvalid := hw.drawn _ (hw.points newest
          (hw.get_mem (hw.get_of_list hl newest List.mem_cons_self)).1).drawn
        rw [hempty, idPattern_empty] at hvalid
        cases hvalid
      · obtain ⟨newest, rest, hl, -, hnid, hnck, hck, hmem⟩ := hw.parent_mem hchain hne
        have hchild := hw.restorable_child_iff hfounded hlib (by rwa [hi])
          (by rw [hi]; exact Library.lookup_eq_some.mpr hget)
          (hw.get_of_list hl newest List.mem_cons_self) (hp.trans hnid.symm) (hnid ▸ hne)
        rw [hchild]
        constructor
        · intro h other hc
          have heq := hchain.symm.trans (hc.backupChainParent_eq hd).2
          obtain ⟨rest', hl'⟩ := hc.listed
          obtain rfl : newest = other := by
            rw [hl] at hl'
            cases hl'
            rfl
          exact h
        · intro h
          refine h newest ⟨⟨rest, hl⟩, ?_, hck, dom, hd, hst, hmem⟩
          rintro rfl
          have hfull := (backupChainParent_forced_full hl).symm.trans hchain
          cases hfull
          exact hne rfl

end Restorable

end History

/-! ### A full, an incremental, and the full deleted -/

namespace Severed

/-- One qcow2 disk. -/
def definition : Definition := ⟨[⟨.disk, .qcow2, "vda", "/vm1.qcow2"⟩], List.nodup_singleton "vda"⟩

/-- The running VM before its first backup. -/
def start : History :=
  .initial "vm1" definition .running fun p =>
    if p = .volume "/vm1.qcow2" then some ⟨.qcow2, none, fun _ => none⟩ else none

/-- The deletion of the full leaves its incremental, whose checkpoint is alive. -/
def ops : List HistoryOp :=
  [.backup (.smooth "bk-1" (.refl true) 1) none, .backup (.smooth "bk-2" (.refl true) 2) none,
    .delete .smooth "bk-1"]

theorem fresh :
    Machine.Along (History.step (.insertion Metadata.createdAt)) History.Fresh start ops :=
  .cons (List.not_mem_nil : "bk-1" ∉ []) rfl
    (.cons (by decide : "bk-2" ∉ ["bk-1"]) rfl (.cons trivial rfl (.nil _)))

theorem started : History.Started definition start := History.initial_started ..

/-- The next automatic backup. -/
def next : BackupEnv := .smooth "bk-3" (.refl true) 3

end Severed

/-- The exact condition, at work on the severed chain. -/
theorem History.backup_restorable_iff_severed :
    ∃ s r h', Machine.run (History.step (.insertion Metadata.createdAt)) Severed.start
        Severed.ops = some s ∧
      backupVirtualMachine (.insertion Metadata.createdAt) Severed.next s.host s.host.vm none =
        some (.ok r, h') ∧
      ∃ m, h'.library.get Severed.next.id = .ok m ∧
        (Restorable h'.library m ↔
          ∀ newest, ContinuesChain (.insertion Metadata.createdAt) s.host none newest →
            ∀ p, Lineage.Ancestor (Lineage.lookupIn Metadata.id s.points) Metadata.parent newest
                p → s.host.library.lookup p.id = some p) :=
  ⟨_, _, _, rfl, rfl,
    History.backup_restorable_iff Severed.started Severed.fresh rfl (by decide) rfl⟩

/-- A successful backup need not be restorable: after the deletion of the full, the next
automatic backup continues from the incremental that lost its parent. -/
theorem backup_not_restorable :
    ¬ ∀ (srt : SortDesc Metadata Metadata.createdAt) (D : Definition) (s₀ s : History)
        (ops : List HistoryOp) (env : BackupEnv) (req : Option CreateType) (r : Option Metadata)
        (h' : Host),
      History.Started D s₀ → Machine.Along (History.step srt) History.Fresh s₀ ops →
      Machine.run (History.step srt) s₀ ops = some s → env.id ∉ s.drawn →
      backupVirtualMachine srt env s.host s.host.vm req = some (.ok r, h') →
      ∃ m, h'.library.get env.id = .ok m ∧ Restorable h'.library m := by
  intro hall
  obtain ⟨m, hm, hres⟩ := hall (.insertion _) Severed.definition Severed.start _ Severed.ops
    Severed.next none _ _ Severed.started Severed.fresh rfl (by decide) rfl
  obtain rfl : m = _ := Except.ok.inj (hm.symm.trans rfl)
  exact not_restorable_of_error 3 rfl hres

end Ultrav
