import Ultrav.ConcurrentChains
import Ultrav.History

/-!
# Histories without overlap

The provider model takes one call after the other. Each of its calls is a run of the machine in
which calls may overlap, so what holds of every run holds of every history.

* `run_backup` / `run_deletion` — a call of the provider model, as a run.
* `Mirrors` — a history, and a run that has come to the same library.
* `history_run` — every history is a run in which no id is drawn twice.
-/

namespace Ultrav

/-! ## Calls, one after the other -/

/-- Directories of one name, with the same in them. -/
theorem PointDir.eq_of {d e : PointDir} (hvm : d.vmID = e.vmID) (hid : d.id = e.id)
    (hmeta : d.metadata = e.metadata) (hxml : d.domainXML = e.domainXML) : d = e := by
  cases d
  cases e
  cases hvm
  cases hid
  cases hmeta
  cases hxml
  rfl

namespace Chains

variable {srt : SortDesc Metadata Metadata.createdAt} {s : Chains} {c : ℕ} {vm id : String}

/-- A listing that nobody disturbs. -/
theorem run_read {todo : List String} : ∀ {s : Chains} {out : List Metadata},
    s.decisions c = some (.listing vm todo out) →
      ∃ events, Machine.run (Chains.step srt) s events =
        some (s.setDecision c (.listing vm [] (out ++ todo.filterMap (s.library.shown vm)))) := by
  induction todo with
  | nil =>
    intro s out hc
    refine ⟨[], congrArg some ?_⟩
    rw [List.filterMap_nil, List.append_nil, setDecision, ← hc, Function.update_eq_self]
  | cons id todo ih =>
    intro s out hc
    let s₁ := s.setDecision c (.listing vm todo (out ++ (s.library.shown vm id).toList))
    have hs₁ : Chains.step srt s (.read c) = some s₁ := by
      simp only [Chains.step, hc]
      rfl
    obtain ⟨events, hrun⟩ := ih (s := s₁) (Function.update_self ..)
    refine ⟨.read c :: events, Machine.run_cons_of hs₁ (hrun.trans (congrArg some ?_))⟩
    have hlist : out ++ (s.library.shown vm id).toList ++ todo.filterMap (s.library.shown vm) =
        out ++ (id :: todo).filterMap (s.library.shown vm) := by
      rw [List.filterMap_cons]
      cases s.library.shown vm id with
      | none => simp
      | some m => simp
    rw [← hlist]
    simp only [s₁, setDecision, Function.update_idem]
    rfl

/-- The whole decision, when nobody disturbs it. -/
theorem run_decide (hkey : s.library.Keyed) (hfree : s.decisions c = none) {dom : Domain}
    {req : Option CreateType} {p : String × String}
    (hchain : backupChainParent srt s.library dom vm req = .ok p) (state : DomainState) :
    idSafe vm = true ∧ ∃ events, Machine.run (Chains.step srt) s events =
      some (s.setDecision c (.decided vm (if state = .shutoff then "" else p.1))) := by
  obtain ⟨metas, hlist⟩ : ∃ metas, s.library.list srt vm = .ok metas := by
    rcases hlist : s.library.list srt vm with e | metas
    · rw [backupChainParent, hlist] at hchain
      cases hchain
    · exact ⟨metas, rfl⟩
  obtain ⟨hsafe, rfl⟩ := Library.list_eq_ok hlist
  rw [backupChainParent_eq_anchor hlist, ← hkey.filterMap_shown vm] at hchain
  refine ⟨hsafe, ?_⟩
  let s₁ := s.setDecision c (.listing vm (s.library.names vm) [])
  have hs₁ : Chains.step srt s (.readDir c vm) = some s₁ := by
    simp only [Chains.step, hfree, hsafe]
    rfl
  let s₂ := s₁.setDecision c
    (.listing vm [] ([] ++ (s.library.names vm).filterMap (s.library.shown vm)))
  obtain ⟨reads, hreads⟩ : ∃ reads, Machine.run (Chains.step srt) s₁ reads = some s₂ :=
    run_read (Function.update_self ..)
  have hs₂ : Chains.step srt s₂ (.decide c dom req state) =
      some (s₂.setDecision c (.decided vm (if state = .shutoff then "" else p.1))) := by
    have hc : s₂.decisions c =
        some (.listing vm [] ((s.library.names vm).filterMap (s.library.shown vm))) :=
      Function.update_self ..
    simp only [Chains.step, hc, hchain]
  refine ⟨.readDir c vm :: (reads ++ [.decide c dom req state]), Machine.run_cons_of hs₁ ?_⟩
  rw [Machine.run_append, hreads]
  refine (Machine.run_cons_of hs₂ rfl).trans (congrArg some ?_)
  simp only [s₂, s₁, setDecision, Function.update_idem]

/-- A directory, with what is written into it before its metadata. -/
theorem run_create {parentID : String} (hdecision : s.decisions c = some (.decided vm parentID))
    (hfree : s.backups.calls c = none) (hsafe : idSafe vm = true) (hid : idPattern id = true)
    (hfresh : ∀ d ∈ s.library, d.id ≠ id) (now : Time) (saved : Option Definition) :
    ∃ events s', Machine.run (Chains.step srt) s events = some s' ∧
      s'.library = s.library ++ [{ PointDir.empty vm id with domainXML := saved }] ∧
      s'.backups.calls = Function.update s.backups.calls c
        (some (.writing (.create vm id now))) ∧
      s'.decisions = s.decisions ∧ s'.drawn = id :: s.drawn := by
  let b₁ : Backups := ⟨s.library.mkdir vm id, Function.update s.backups.calls c
    (some (.writing (.create vm id now))), s.backups.resolved⟩
  let s₁ : Chains := { s with backups := b₁, drawn := id :: s.drawn }
  have hb₁ : s.backups.step (.call c (.create vm id now)) = some b₁ := by
    simp only [Backups.step, hfree, callStep, hsafe, hid]
    rfl
  have hs₁ : Chains.step srt s (.library (.call c (.create vm id now))) = some s₁ := by
    simp only [Chains.step, Decided, hdecision, hb₁]
    rfl
  have hlib₁ : b₁.library = s.library ++ [.empty vm id] := Library.mkdir_fresh hfresh
  cases saved with
  | none =>
    exact ⟨[.library (.call c (.create vm id now))], s₁, Machine.run_cons_of hs₁ rfl, hlib₁, rfl,
      rfl, rfl⟩
  | some D =>
    let b₂ : Backups := ⟨b₁.library.writeDomainXML vm id D, Function.update b₁.calls c
      (some (.writing (.create vm id now))), b₁.resolved⟩
    have hb₂ : b₁.step (.call c (.writeDomainXML D)) = some b₂ := by
      have hc : b₁.calls c = some (.writing (.create vm id now)) := Function.update_self ..
      simp only [Backups.step, hc]
      rfl
    have hs₂ : Chains.step srt s₁ (.library (.call c (.writeDomainXML D))) =
        some { s₁ with backups := b₂ } := by
      simp only [Chains.step, Decided, s₁, hb₂]
      rfl
    refine ⟨[.library (.call c (.create vm id now)), .library (.call c (.writeDomainXML D))],
      { s₁ with backups := b₂ }, Machine.run_cons_of hs₁ (Machine.run_cons_of hs₂ rfl), ?_,
      Function.update_idem .., rfl, rfl⟩
    exact (congrArg (Library.writeDomainXML · vm id D) hlib₁).trans
      (Library.writeDomainXML_fresh (d := .empty vm id) hfresh D)

/-- Its metadata are written. -/
theorem run_complete {m₀ m : Metadata} {lib : Library} {d : PointDir}
    (hdecision : s.decisions c = some (.decided m.vmID m.parentID)) (htyped : m.Typed)
    (hcall : s.backups.calls c = some (.writing m₀)) (hfills : m.Fills m₀)
    (hstate : m.state = .complete) (hlib : s.library = lib ++ [d])
    (hfresh : ∀ e ∈ lib, e.id ≠ d.id) (hkey : m.vmID = d.vmID ∧ m.id = d.id) :
    ∃ s', Machine.run (Chains.step srt) s [.library (.call c (.complete m))] = some s' ∧
      s'.library = lib ++ [d.save m hkey] ∧ s'.drawn = s.drawn ∧
      (∀ c', c' ≠ c → s'.backups.calls c' = s.backups.calls c') ∧ s'.decisions = s.decisions := by
  have hthere : (s.library.any fun d => d.vmID = m₀.vmID && d.id = m₀.id) = true := by
    refine List.any_eq_true.mpr ⟨d, hlib ▸ List.mem_append_right _ List.mem_cons_self, ?_⟩
    simpa [hkey.1, hkey.2] using And.intro (hkey.1.symm.trans hfills.2.1)
      (hkey.2.symm.trans hfills.1)
  let b : Backups := ⟨s.library.complete m, Function.update s.backups.calls c
    (some (.completed { m with state := .complete })), s.backups.resolved⟩
  have hb : s.backups.step (.call c (.complete m)) = some b := by
    have hstep : callStep s.backups.library (s.backups.calls c) (.complete m) =
        some (s.library.complete m, .completed { m with state := .complete }) := by
      rw [hcall]
      exact if_pos ⟨hfills, hthere⟩
    rw [Backups.step, hstep]
    rfl
  have hdec : s.Decided (.call c (.complete m)) = true := by
    simpa [Decided, hdecision, Metadata.Typed] using htyped
  refine ⟨{ s with backups := b, made := { m with state := .complete } :: s.made },
    Machine.run_cons_of ?_ rfl, ?_, rfl, fun c' hc' => Function.update_of_ne hc' .., rfl⟩
  · rw [Chains.step, if_pos hdec, hb]
    rfl
  · have hm : { m with state := .complete } = m := by rw [← hstate]
    change s.library.complete m = _
    rw [hlib, Library.complete_fresh hfresh hkey]
    simp only [hm]

/-- A run to a library in which one call moves and at most one id is drawn. -/
def RunsTo (srt : SortDesc Metadata Metadata.createdAt) (s : Chains) (c : ℕ) (id : String)
    (lib : Library) : Prop :=
  ∃ events s', Machine.run (Chains.step srt) s events = some s' ∧ s'.library = lib ∧
    (s'.drawn = s.drawn ∨ s'.drawn = id :: s.drawn) ∧
    ∀ c', c' ≠ c → s'.backups.calls c' = s.backups.calls c' ∧ s'.decisions c' = s.decisions c'

theorem RunsTo.stay (s : Chains) : s.RunsTo srt c id s.library :=
  ⟨[], s, rfl, rfl, .inl rfl, fun _ _ => ⟨rfl, rfl⟩⟩

/-- What is done once the call has decided. -/
theorem RunsTo.of_decision {D : Decision} {lib : Library}
    (hdecides : ∃ events, Machine.run (Chains.step srt) s events = some (s.setDecision c D))
    (h : (s.setDecision c D).RunsTo srt c id lib) : s.RunsTo srt c id lib := by
  obtain ⟨decides, hdecides⟩ := hdecides
  obtain ⟨events, s', hrun, hlib, hdrawn, hothers⟩ := h
  refine ⟨decides ++ events, s', ?_, hlib, hdrawn, fun c' hc' => ⟨(hothers c' hc').1, ?_⟩⟩
  · rw [Machine.run_append, hdecides]
    exact hrun
  · exact (hothers c' hc').2.trans (Function.update_of_ne hc' ..)

/-- A backup that leaves a directory behind. -/
theorem runsTo_leftover {parentID : String}
    (hdecision : s.decisions c = some (.decided vm parentID)) (hfree : s.backups.calls c = none)
    (hsafe : idSafe vm = true) (hid : idPattern id = true) (hfresh : ∀ d ∈ s.library, d.id ≠ id)
    (saved : Option Definition) :
    s.RunsTo srt c id (s.library ++ [{ PointDir.empty vm id with domainXML := saved }]) := by
  obtain ⟨creates, s₁, hcreates, hlib₁, hcalls₁, hdecisions₁, hdrawn₁⟩ :=
    run_create hdecision hfree hsafe hid hfresh default saved
  refine ⟨creates, s₁, hcreates, hlib₁, .inr hdrawn₁, fun c' hc' => ⟨?_, ?_⟩⟩
  · rw [hcalls₁, Function.update_of_ne hc']
  · rw [hdecisions₁]

/-- A backup that completes its point. -/
theorem runsTo_taken {m : Metadata} {now : Time} {d : PointDir}
    (hdecision : s.decisions c = some (.decided vm m.parentID)) (hfree : s.backups.calls c = none)
    (hsafe : idSafe vm = true) (hid : idPattern id = true) (hfresh : ∀ d ∈ s.library, d.id ≠ id)
    (htyped : m.Typed) (hfills : m.Fills (.create vm id now)) (hstate : m.state = .complete)
    (hvm : d.vmID = vm) (hdir : d.id = id) (hmeta : d.metadata = some m) :
    s.RunsTo srt c id (s.library ++ [d]) := by
  obtain ⟨creates, s₁, hcreates, hlib₁, hcalls₁, hdecisions₁, hdrawn₁⟩ :=
    run_create hdecision hfree hsafe hid hfresh now d.domainXML
  have hdecision₁ : s₁.decisions c = some (.decided m.vmID m.parentID) := by
    rw [hdecisions₁, hdecision, hfills.2.1]
    rfl
  have hcall₁ : s₁.backups.calls c = some (.writing (.create vm id now)) := by
    rw [hcalls₁, Function.update_self]
  obtain ⟨s₂, hs₂, hlib₂, hdrawn₂, hcalls₂, hdecisions₂⟩ := run_complete hdecision₁ htyped hcall₁
    hfills hstate hlib₁ hfresh ⟨hfills.2.1, hfills.1⟩
  refine ⟨creates ++ [.library (.call c (.complete m))], s₂, ?_, ?_,
    .inr (hdrawn₂.trans hdrawn₁), fun c' hc' => ⟨?_, ?_⟩⟩
  · rw [Machine.run_append, hcreates]
    exact hs₂
  · rw [hlib₂]
    exact congrArg (s.library ++ [·]) (PointDir.eq_of hvm.symm hdir.symm hmeta.symm rfl)
  · rw [hcalls₂ c' hc', hcalls₁, Function.update_of_ne hc']
  · rw [hdecisions₂, hdecisions₁]

section Provider

variable {env : BackupEnv} {h h' : Host} {req : Option CreateType}
  {r : Except ProviderError (Option Metadata)}

/-- A call that changes the library has decided. -/
theorem backupVirtualMachine_decides (hr : backupVirtualMachine srt env h h.vm req = some (r, h')) :
    h'.library = h.library ∨ ∃ dom p, h.domain = some dom ∧
      backupChainParent srt h.library dom h.vm req = .ok p := by
  have hlook : h.lookupDomain h.vm = h.domain := if_pos rfl
  rw [backupVirtualMachine, hlook] at hr
  split at hr
  · cases hr
    exact .inl rfl
  split at hr
  · cases hr
    exact .inl rfl
  rename_i dom hdom
  split at hr
  · cases hr
    exact .inl rfl
  · rename_i parentID parentCheckpoint hchain
    exact .inr ⟨dom, _, hdom, hchain⟩

/-- **A backup**, alone at work, is a run of one call. -/
theorem run_backup (hlib : s.library = h.library) (hkey : h.library.Keyed)
    (hfresh : ∀ d ∈ h.library, d.id ≠ env.id) (hcall : s.backups.calls c = none)
    (hfree : s.decisions c = none)
    (hr : backupVirtualMachine srt env h h.vm req = some (r, h')) :
    s.RunsTo srt c env.id h'.library := by
  rcases backupVirtualMachine_decides hr with hlib' | ⟨dom, p, hdom, hchain⟩
  · rw [hlib', ← hlib]
    exact .stay s
  rw [← hlib] at hkey hfresh hchain
  obtain ⟨hsafe, hdecides⟩ := run_decide hkey hfree hchain dom.state
  refine .of_decision hdecides ?_
  let D : Decision := .decided h.vm (if dom.state = .shutoff then "" else p.1)
  have hdecision : (s.setDecision c D).decisions c = some D := Function.update_self ..
  have heffect := backupVirtualMachine_effect srt req (hlib ▸ hfresh) hr
  cases hcompletes : env.completes srt h req with
  | true =>
    obtain ⟨-, -, -, d, m, hlib', hvm, hid, hmeta, htaken⟩ :=
      backupVirtualMachine_takes (hlib ▸ hfresh) hdom (hlib ▸ hchain) hcompletes hr
    have hparent : (s.setDecision c D).decisions c = some (.decided h.vm m.parentID) := by
      rw [hdecision, htaken.parentID]
    rw [hlib', ← hlib]
    exact runsTo_taken hparent hcall hsafe env.id_valid hfresh htaken.typed htaken.fills
      htaken.state hvm hid hmeta
  | false =>
    rw [hcompletes] at heffect
    cases backupVirtualMachine_eq_some (hlib ▸ hfresh) hr with
    | kept _ hlib' =>
      rw [hlib', ← hlib]
      exact .stay _
    | @leftover _ _ d _ _ hlib' hvm hid _ _ hmeta =>
      have hd : { PointDir.empty h.vm env.id with domainXML := d.domainXML } = d :=
        PointDir.eq_of hvm.symm hid.symm hmeta.symm rfl
      rw [hlib', ← hlib, ← hd]
      exact runsTo_leftover hdecision hcall hsafe env.id_valid hfresh _
    | @taken _ _ d _ m _ hlib' _ _ _ _ hmeta hpoint _ =>
      -- a completed point would be visible
      have hvisible : h'.library.visible = h.library.visible := heffect.2
      have hm : d.completed = some m := PointDir.completed_eq_some.mpr ⟨hmeta, hpoint.state⟩
      rw [hlib', Library.visible, List.filterMap_append] at hvisible
      simp [Library.visible, hm] at hvisible

/-- What happens to the library without the calls. -/
theorem run_library {events : List Backups.Event} (hnone : ∀ e ∈ events, ∀ c e', e ≠ .call c e') :
    ∀ {s : Chains} {b : Backups}, Machine.run Backups.step s.backups events = some b →
      Machine.run (Chains.step srt) s (events.map .library) = some { s with backups := b } := by
  induction events with
  | nil =>
    intro s b hrun
    cases hrun
    rfl
  | cons e events ih =>
    intro s b hrun
    obtain ⟨he, hevents⟩ := List.forall_mem_cons.mp hnone
    obtain ⟨b₁, hb₁, hrun⟩ := Machine.run_cons_eq_some hrun
    refine Machine.run_cons_of (t := { s with backups := b₁ }) ?_ (ih hevents hrun)
    cases e with
    | call c e => exact absurd rfl (he c e)
    | resolve id =>
      simp only [Chains.step, Decided, hb₁]
      rfl
    | remove vmID id rem =>
      simp only [Chains.step, Decided, hb₁]
      rfl

/-- **A deletion**, alone at work, is a run without calls. -/
theorem run_deletion (hlib : s.library = h.library) (hnd : (h.library.map PointDir.id).Nodup)
    (env : DeleteEnv) (id : String) :
    ∃ events s', Machine.run (Chains.step srt) s events = some s' ∧
      s'.library = (deleteBackup env h id).2.library ∧ s'.drawn = s.drawn ∧
      s'.backups.calls = s.backups.calls ∧ s'.decisions = s.decisions := by
  obtain ⟨events, hnone, hevents⟩ := deleteBackup_events env hnd id
  obtain ⟨b, hrun, hlib', hcalls⟩ := hevents s.backups hlib
  exact ⟨events.map .library, { s with backups := b }, run_library hnone hrun, hlib', rfl, hcalls,
    rfl⟩

end Provider

/-! ## Histories as runs -/

/-- The library of a history, with calls still to be made. -/
structure Mirrors (t : History) (s : Chains) : Prop where
  library : s.library = t.host.library
  drawn : s.drawn ⊆ t.drawn
  drawn_nodup : s.drawn.Nodup
  free : ∃ n, ∀ c, n ≤ c → s.backups.calls c = none ∧ s.decisions c = none

/-- Ids that tell directories apart, whatever the machine. -/
theorem keyed_of_ids {lib : Library} (h : (lib.map PointDir.id).Nodup) : lib.Keyed := by
  refine List.Nodup.of_map Prod.snd ?_
  rwa [List.map_map]

variable {D : Definition} {t t' : History} {op : HistoryOp}

theorem Mirrors.of_library (hm : Mirrors t s) (hlib : t'.host.library = t.host.library)
    (hdrawn : t'.drawn = t.drawn) : Mirrors t' s :=
  ⟨hm.library.trans hlib.symm, hdrawn ▸ hm.drawn, hm.drawn_nodup, hm.free⟩

/-- **One operation** of a history is a run. -/
theorem Mirrors.step (hm : Mirrors t s) (hwf : History.Wf D t) (hfresh : History.Fresh t op)
    (hs : History.step srt t op = some t') :
    ∃ events s', Machine.run (Chains.step srt) s events = some s' ∧ Mirrors t' s' := by
  have hstays : t'.host.library = t.host.library → t'.drawn = t.drawn →
      ∃ events s', Machine.run (Chains.step srt) s events = some s' ∧ Mirrors t' s' :=
    fun hlib hdrawn => ⟨[], s, rfl, hm.of_library hlib hdrawn⟩
  cases op with
  | write w =>
    rw [History.step] at hs
    split at hs
    · cases hs
    · rename_i dom hdom
      split at hs <;> cases hs
      refine hstays ?_ rfl
      simp only [Host.guestWrite, hdom]
  | power state =>
    obtain ⟨dom, hdom, rfl⟩ := Option.map_eq_some_iff.mp hs
    exact hstays rfl rfl
  | backup env req =>
    obtain ⟨⟨r, h'⟩, hr, rfl⟩ := Option.map_eq_some_iff.mp hs
    obtain ⟨n, hn⟩ := hm.free
    have hdirs := hwf.fresh_dirs hfresh
    obtain ⟨events, s', hrun, hlib, hdrawn, hothers⟩ := run_backup hm.library
      (keyed_of_ids hwf.dirs_nodup) hdirs (hn n le_rfl).1 (hn n le_rfl).2 hr
    have hsub : s'.drawn ⊆ env.id :: t.drawn := by
      rcases hdrawn with hdrawn | hdrawn
      · rw [hdrawn]
        exact fun i hi => List.mem_cons_of_mem _ (hm.drawn hi)
      · rw [hdrawn]
        exact List.cons_subset_cons _ hm.drawn
    refine ⟨events, s', hrun, hlib, hsub, ?_, n + 1, fun c hc => ?_⟩
    · rcases hdrawn with hdrawn | hdrawn
      · rw [hdrawn]
        exact hm.drawn_nodup
      · rw [hdrawn]
        exact List.nodup_cons.mpr ⟨fun hi => hfresh (hm.drawn hi), hm.drawn_nodup⟩
    · rw [(hothers c (by omega)).1, (hothers c (by omega)).2]
      exact hn c (by omega)
  | delete env id =>
    cases hs
    obtain ⟨events, s', hrun, hlib, hdrawn, hcalls, hdecisions⟩ :=
      run_deletion hm.library hwf.dirs_nodup env id
    refine ⟨events, s', hrun, hlib, ?_, ?_, ?_⟩
    · rw [hdrawn]
      exact hm.drawn
    · rw [hdrawn]
      exact hm.drawn_nodup
    · rw [hcalls, hdecisions]
      exact hm.free
  | restore env id =>
    obtain ⟨⟨r, h'⟩, hr, rfl⟩ := Option.map_eq_some_iff.mp hs
    refine hstays ?_ rfl
    cases (restoreBackup_eq_some hr).1 with
    | refused _ => rfl
    | stopped _ _ => rfl
    | restored _ _ _ => rfl

/-- **Every history** of one machine is a run in which no id is drawn twice. -/
theorem history_run {ops : List HistoryOp} (hstart : History.Started D t)
    (hfresh : Machine.Along (History.step srt) History.Fresh t ops)
    (hrun : Machine.run (History.step srt) t ops = some t') :
    ∃ events s, Machine.run (Chains.step srt) start events = some s ∧
      s.library = t'.host.library ∧ s.drawn.Nodup := by
  have hmirrors : History.Wf D t' ∧
      ∃ events s, Machine.run (Chains.step srt) start events = some s ∧ Mirrors t' s := by
    refine Machine.run_inv (I := fun t => History.Wf D t ∧ ∃ events s,
      Machine.run (Chains.step srt) start events = some s ∧ Mirrors t s)
      (fun t op t' ⟨hwf, events, s, hrun, hm⟩ hnew hs => ?_) ⟨hstart.wf, [], start, rfl, ?_⟩
      hfresh hrun
    · obtain ⟨more, s', hmore, hm'⟩ := hm.step hwf hnew hs
      refine ⟨hwf.step hnew hs, events ++ more, s', ?_, hm'⟩
      rw [Machine.run_append, hrun]
      exact hmore
    · exact ⟨hstart.library.symm, nofun, .nil, 0, fun _ _ => ⟨rfl, rfl⟩⟩
  obtain ⟨-, events, s, hrun', hm⟩ := hmirrors
  exact ⟨events, s, hrun', hm.library, hm.drawn_nodup⟩

end Chains

end Ultrav
