import Ultrav.ChainDecision
import Ultrav.Restore

/-!
# Two providers, one history

The mock provider and the libvirt provider, through the same history of one machine: an event
machine over both. No step of either fails for outside reasons, so that only their own decisions can
tell them apart.

* `Twin` / `Twin.step` — both providers, and a history of them.
* `Twin.Linked` — what keeps the two together as long as they agree.
* `agree_iff_mirrors` — they agree all along exactly when every backup meets `Mirrors`.
-/

namespace Ultrav

/-! ## Histories -/

/-- Both providers. -/
structure Twin where
  mock : MockSite
  real : Host

/-- What happens to the machine in both providers. -/
inductive Twin.Event where
  /-- `CreateVirtualMachine` -/
  | create (vm : MockVM) (D : Definition) (running : Bool)
  /-- `StartVirtualMachine` -/
  | start
  /-- `ShutdownVirtualMachine`: the guest is asked to shut down -/
  | shutdown
  /-- the guest is off, or `ForceStopVirtualMachine` -/
  | off
  /-- `BackupVirtualMachine` -/
  | backup (env : BackupEnv) (req : Option CreateType)
  /-- `DeleteBackup` -/
  | deleteBackup (env : DeleteEnv) (id : String)
  /-- `RestoreBackup` -/
  | restore (env : RestoreEnv) (id : String)
  /-- `DeleteVirtualMachine` -/
  | delete

namespace Twin

/-- The mock provider draws the same id at the same time. -/
def mockEnv (env : BackupEnv) : MockBackupEnv := .smooth env.id env.id_valid env.now

/-- Both providers sort the points with `sort.Slice`, which looks at their times alone. -/
abbrev SortTimes : Type := SortDesc (Time × ℕ) Prod.fst

variable (S : SortTimes)

/-- The sort of `List`. -/
abbrev sorted : SortDesc Metadata Metadata.createdAt := S.byKeys Metadata.createdAt

/-- A backup of the mock provider. -/
def mockBackup (s : Twin) (env : BackupEnv) (req : Option CreateType) :
    Except ProviderError Metadata × MockSite :=
  mockBackupVirtualMachine (sorted S) (mockEnv env) s.mock s.real.vm req

/-- A backup of the libvirt provider. -/
def realBackup (s : Twin) (env : BackupEnv) (req : Option CreateType) :
    Option (Except ProviderError (Option Metadata) × Host) :=
  backupVirtualMachine (sorted S) env s.real s.real.vm req

/-- The id is new, and the backup fails for no other reason than its chain. -/
def Ready (s : Twin) (env : BackupEnv) (req : Option CreateType) : Bool :=
  env.connected && (s.real.library.all fun d => d.id ≠ env.id) &&
    match s.real.domain with
    | none => true
    | some dom =>
      match backupChainParent (sorted S) s.real.library dom s.real.vm req with
      | .error _ => true
      | .ok _ => env.completes (sorted S) s.real req

/-- The machine changes its state in both. -/
def setState (s : Twin) (vm : MockVM) (dom : Domain) (state : MockState) (domState : DomainState) :
    Twin where
  mock := { s.mock with
    vms := Function.update s.mock.vms s.real.vm (some { vm with state := state }) }
  real := { s.real with domain := some { dom with state := domState } }

/-- What happens to both. Names of machines are such that the library accepts them. -/
def step (s : Twin) : Twin.Event → Option Twin
  | .create vm D running =>
    match s.mock.vms s.real.vm, s.real.domain with
    | none, none =>
      if idSafe s.real.vm then
        some (s.setState vm ⟨D, .shutoff, []⟩ (if running then .running else .stopped)
          (if running then .running else .shutoff))
      else none
    | _, _ => none
  | .start =>
    match s.mock.vms s.real.vm, s.real.domain with
    | some vm, some dom =>
      if vm.state = .stopped then some (s.setState vm dom .running .running) else none
    | _, _ => none
  | .shutdown =>
    match s.mock.vms s.real.vm, s.real.domain with
    | some vm, some dom =>
      if vm.state = .running then some (s.setState vm dom .shuttingDown dom.state) else none
    | _, _ => none
  | .off =>
    match s.mock.vms s.real.vm, s.real.domain with
    | some vm, some dom =>
      if vm.state ≠ .stopped then some (s.setState vm dom .stopped .shutoff) else none
    | _, _ => none
  | .backup env req =>
    if Ready S s env req then
      (s.realBackup S env req).map fun r => ⟨(s.mockBackup S env req).2, r.2⟩
    else none
  | .deleteBackup env id =>
    if env.removeFails then none
    else some ⟨(mockDeleteBackup s.mock id).2, (deleteBackup env s.real id).2⟩
  | .restore env id =>
    -- the mock provider restores nothing; a domain that is not defined again is lost
    if env.defineFails then none
    else (restoreBackup env s.real id).map fun r => { s with real := r.2 }
  | .delete =>
    match s.mock.vms s.real.vm, s.real.domain with
    | some vm, some _ =>
      if vm.state = .stopped then
        some ⟨{ s.mock with vms := Function.update s.mock.vms s.real.vm none },
          { s.real with domain := none }⟩
      else none
    | _, _ => none

/-- Nothing but the name of the machine. -/
def initial (vm : String) (files : Files) : Twin :=
  ⟨⟨fun _ => none, [], [], fun _ _ => none⟩, ⟨vm, [], files, none⟩⟩

/-- At a backup, both providers come to the same verdict. -/
def Agree (s : Twin) : Twin.Event → Prop
  | .backup env req => Ready S s env req = true → ∀ r, s.realBackup S env req = some r →
      Verdict.ofMock (s.mockBackup S env req).1 = Verdict.ofReal env.id r
  | _ => True

/-- If the newest point has a checkpoint and the backup is not a forced full, then it is not a
forced incremental of a stopped machine, and the domain of a running one still has the
checkpoint. -/
def Anchored (s : Twin) (vm : MockVM) (dom : Domain) (req : Option CreateType) : Prop :=
  ∀ newest, mockChain (sorted S) false s.mock.library s.real.vm = some newest →
    req ≠ some .full → (vm.state = .stopped → req ≠ some .incremental) ∧
      (vm.state = .running → newest.checkpoint ∈ dom.checkpoints.names)

/-- At a backup, the machine is not shutting down, and the chain is anchored in the domain. -/
def Mirrors (s : Twin) : Twin.Event → Prop
  | .backup env req => Ready S s env req = true → ∀ vm dom, s.mock.vms s.real.vm = some vm →
      s.real.domain = some dom → vm.state ≠ .shuttingDown ∧ Anchored S s vm dom req
  | _ => True

end Twin

/-! ## What keeps the two together -/

namespace Twin

/-- The machine is stopped in both, or in neither. -/
abbrev SameState (vm : MockVM) (dom : Domain) : Prop := vm.state = .stopped ↔ dom.state = .shutoff

/-- The two libraries show the same points, all complete, and the machines are in the same state. -/
structure Linked (s : Twin) : Prop where
  library : SameLibrary s.mock.library s.real.library
  completed : ∀ d ∈ s.real.library, d.completed.isSome
  machine : Option.Rel SameState (s.mock.vms s.real.vm) s.real.domain
  safe : s.real.domain.isSome → idSafe s.real.vm = true

variable {S : SortTimes} {s : Twin} {env : BackupEnv} {req : Option CreateType}

theorem sameState_refl (o : Option Domain) : Option.Rel (fun d d' => d.state = d'.state) o o := by
  cases o with
  | none => exact .none
  | some dom => exact .some rfl

/-- A step that leaves the machine in its state. -/
theorem Linked.next (hs : s.Linked) {s' : Twin} (hvms : s'.mock.vms = s.mock.vms)
    (hname : s'.real.vm = s.real.vm)
    (hdom : Option.Rel (fun d d' : Domain => d.state = d'.state) s.real.domain s'.real.domain)
    (hlib : SameLibrary s'.mock.library s'.real.library)
    (hc : ∀ d ∈ s'.real.library, d.completed.isSome) : s'.Linked := by
  have hmachine := hs.machine
  have hsafe := hs.safe
  refine ⟨hlib, hc, ?_, ?_⟩
  · rw [hvms, hname]
    generalize s.mock.vms s.real.vm = a, s.real.domain = b, s'.real.domain = c at hmachine hdom
    cases hdom with
    | none => exact hmachine
    | some hstate =>
      cases hmachine with
      | some h => exact .some (h.trans (by rw [hstate]))
  · rw [hname]
    generalize s.real.domain = b, s'.real.domain = c at hsafe hdom
    cases hdom with
    | none => exact hsafe
    | some _ => exact fun _ => hsafe rfl

theorem linked_initial (vm : String) (files : Files) : (initial vm files).Linked where
  library := .nil
  completed _ hd := by cases hd
  machine := .none
  safe h := by cases h

/-- The chains of both providers. -/
theorem Linked.chain (hs : s.Linked) (hsafe : idSafe s.real.vm = true) :
    Option.Rel SameChain (mockChain (sorted S) false s.mock.library s.real.vm)
      (mockChain (sorted S) false s.real.library s.real.vm) := by
  rw [mockChain_eq hsafe, mockChain_eq hsafe]
  have hhead := hs.library.head S s.real.vm
  revert hhead
  generalize ((sorted S).sort (s.mock.library.completed s.real.vm)).head? = a,
    ((sorted S).sort (s.real.library.completed s.real.vm)).head? = b
  intro hhead
  cases hhead with
  | none => exact .none
  | @some m n hmn =>
    rw [Option.filter_some, Option.filter_some, hmn.checkpoint]
    split
    · exact .some hmn
    · exact .none

/-- The plan of the mock provider. -/
def planOfMock (S : SortTimes) (s : Twin) (vm : MockVM) (req : Option CreateType) :
    Option String :=
  mockPlan (mockChain (sorted S) false s.mock.library s.real.vm) (vm.state = .running) s.real.vm req

/-- The plan of the libvirt provider. -/
def planOfReal (S : SortTimes) (s : Twin) (dom : Domain) (req : Option CreateType) :
    Option String :=
  realPlan (sorted S) s.real.library dom s.real.vm req

section Backup

variable {vm : MockVM} {dom : Domain} {r : Except ProviderError (Option Metadata) × Host}

/-- How the mock provider carries out its plan. -/
theorem mockBackup_plan (req : Option CreateType) (hf : ∀ d ∈ s.mock.library, d.id ≠ env.id)
    (hsafe : idSafe s.real.vm = true) (hvm : s.mock.vms s.real.vm = some vm)
    (hst : vm.state ≠ .shuttingDown) :
    Verdict.ofMock (s.mockBackup S env req).1 = .ofPlan (planOfMock S s vm req) ∧
      (s.mockBackup S env req).2.vms = s.mock.vms ∧
      match planOfMock S s vm req with
      | none => (s.mockBackup S env req).2.library = s.mock.library
      | some parentID => Takes s.real.vm env.id env.now parentID
          (if vm.state = .running then checkpointName env.id else "") s.mock.library
          (s.mockBackup S env req).2.library := by
  rw [mockBackup, mockBackupVirtualMachine, hvm]
  dsimp only
  rw [if_neg hst, if_neg (by simp [mockEnv, MockBackupEnv.smooth]), planOfMock, mockPlan]
  have hlist : (mockEnv env).listFails = false := rfl
  rw [hlist]
  rcases hparent : mockParent (mockChain (sorted S) false s.mock.library s.real.vm)
    (vm.state = .running) s.real.vm req with e | parent
  · exact ⟨mockParent_eq_error hparent, rfl, rfl⟩
  · have hnamed : ∀ m, parent = some m → m.id ≠ "" := fun m hm =>
      mockChain_id_ne (mockParent_eq_some (hparent.trans (congrArg _ hm)))
    obtain ⟨m, p', hwrite, hvms, hm, htakes⟩ :=
      mockWritePoint_takes env.id_valid env.now hsafe hf vm parent hnamed
    dsimp only
    rw [mockEnv, hwrite]
    exact ⟨Verdict.ofPoint_eq hm, hvms, htakes⟩

/-- How the libvirt provider carries out its plan. -/
theorem realBackup_plan (hready : Ready S s env req = true) (hsafe : idSafe s.real.vm = true)
    (hdom : s.real.domain = some dom) (hr : s.realBackup S env req = some r) :
    Verdict.ofReal env.id r = .ofPlan (planOfReal S s dom req) ∧ r.2.vm = s.real.vm ∧
      (∃ dom', r.2.domain = some dom' ∧ dom'.state = dom.state) ∧
      match planOfReal S s dom req with
      | none => r.2.library = s.real.library
      | some parentID => Takes s.real.vm env.id env.now parentID
          (if dom.state = .shutoff then "" else checkpointName env.id) s.real.library
          r.2.library := by
  obtain ⟨r, h'⟩ := r
  rw [Ready, hdom, Bool.and_eq_true, Bool.and_eq_true] at hready
  obtain ⟨⟨hconn, hf⟩, hready⟩ := hready
  have hf : ∀ d ∈ s.real.library, d.id ≠ env.id := by simpa using hf
  rw [planOfReal, realPlan]
  rcases hchain : backupChainParent (sorted S) s.real.library dom s.real.vm req with e | p
  · obtain ⟨rfl, rfl⟩ := backupVirtualMachine_refused hconn hdom hchain hr
    exact ⟨backupChainParent_eq_error hsafe hchain, rfl, ⟨dom, hdom, rfl⟩, rfl⟩
  · dsimp only at hready
    rw [hchain] at hready
    obtain ⟨⟨newest, rfl⟩, hvm, hdom', htakes⟩ :=
      backupVirtualMachine_takes hf hdom hchain hready hr
    obtain ⟨m, hm, htaken⟩ := htakes.lookup hf env.id_valid
    refine ⟨?_, hvm, hdom', htakes⟩
    rw [Verdict.ofReal, hm]
    exact Verdict.ofPoint_eq htaken

/-- **One decision** in a linked state: the plans are the same exactly when the chain is
anchored. -/
theorem Linked.plan_iff (hs : s.Linked) (hsafe : idSafe s.real.vm = true)
    (hstate : vm.state = .stopped ↔ dom.state = .shutoff) (hst : vm.state ≠ .shuttingDown) :
    planOfMock S s vm req = planOfReal S s dom req ↔ Anchored S s vm dom req := by
  have hoff : decide (vm.state = .running) = false ↔ vm.state = .stopped := by
    cases hvm : vm.state <;> simp_all
  have hrunning : decide (vm.state = .running) = true ↔ dom.state ≠ .shutoff := by
    rw [ne_eq, ← hstate, ← hoff, Bool.not_eq_false]
  rw [planOfMock, planOfReal, mockPlan_eq_realPlan_iff hsafe (hs.chain hsafe) hrunning, hoff]
  simp only [decide_eq_true_eq, Anchored]

/-- A backup that is ready comes to its end. -/
theorem realBackup_isSome (hready : Ready S s env req = true) (hdom : s.real.domain = some dom) :
    ∃ r, s.realBackup S env req = some r := by
  rw [Ready, hdom, Bool.and_eq_true, Bool.and_eq_true] at hready
  obtain ⟨⟨hconn, -⟩, hready⟩ := hready
  dsimp only at hready
  rcases hchain : backupChainParent (sorted S) s.real.library dom s.real.vm req with e | p
  · have hlook : s.real.lookupDomain s.real.vm = some dom := (if_pos rfl).trans hdom
    refine ⟨(.error e, s.real), ?_⟩
    rw [realBackup, backupVirtualMachine, hconn, if_neg (by simp), hlook]
    dsimp only
    rw [hchain]
  · rw [hchain] at hready
    exact backupVirtualMachine_isSome hdom hchain hready

/-- While the guest shuts down, the mock provider has no verdict. -/
theorem mockBackup_shuttingDown (hvm : s.mock.vms s.real.vm = some vm)
    (hst : vm.state = .shuttingDown) :
    Verdict.ofMock (s.mockBackup S env req).1 = .other := by
  rw [mockBackup, mockBackupVirtualMachine, hvm]
  dsimp only
  rw [if_pos hst]
  rfl

/-- Without the machine, neither has. -/
theorem backup_absent (hvm : s.mock.vms s.real.vm = none) (hdom : s.real.domain = none)
    (hr : s.realBackup S env req = some r) :
    Verdict.ofMock (s.mockBackup S env req).1 = .other ∧ Verdict.ofReal env.id r = .other ∧
      (s.mockBackup S env req).2 = s.mock ∧ r.2 = s.real := by
  have hlook : s.real.lookupDomain s.real.vm = none := (if_pos rfl).trans hdom
  rw [realBackup, backupVirtualMachine, hlook] at hr
  rw [mockBackup, mockBackupVirtualMachine, hvm]
  split at hr <;> cases hr <;> exact ⟨rfl, rfl, rfl, rfl⟩

/-- The machine is there in both, in one state, or in neither. -/
theorem Linked.machine_cases (hs : s.Linked) :
    s.mock.vms s.real.vm = none ∧ s.real.domain = none ∨
      ∃ vm dom, s.mock.vms s.real.vm = some vm ∧ s.real.domain = some dom ∧
        (vm.state = .stopped ↔ dom.state = .shutoff) ∧ idSafe s.real.vm = true := by
  have hmachine := hs.machine
  have hsafe := hs.safe
  generalize s.mock.vms s.real.vm = a, s.real.domain = b at hmachine hsafe
  cases hmachine with
  | none => exact .inl ⟨rfl, rfl⟩
  | @some vm dom hstate => exact .inr ⟨vm, dom, rfl, rfl, hstate, hsafe rfl⟩

theorem ready_fresh (hready : Ready S s env req = true) :
    ∀ d ∈ s.real.library, d.id ≠ env.id := by
  rw [Ready, Bool.and_eq_true, Bool.and_eq_true] at hready
  simpa using hready.1.2

/-- **One backup** in a linked state. -/
theorem Linked.agree_backup_iff (hs : s.Linked) (env : BackupEnv) (req : Option CreateType) :
    Agree S s (.backup env req) ↔ Mirrors S s (.backup env req) := by
  refine forall_congr' fun hready => ?_
  rcases hs.machine_cases with ⟨hvm, hdom⟩ | ⟨vm, dom, hvm, hdom, hstate, hsafe⟩
  · refine iff_of_true (fun r hr => ?_) fun vm dom h => by simp [hvm] at h
    obtain ⟨hmock, hreal, -⟩ := backup_absent hvm hdom hr
    exact hmock.trans hreal.symm
  · obtain ⟨r, hr⟩ := realBackup_isSome hready hdom
    obtain ⟨hreal, -⟩ := realBackup_plan hready hsafe hdom hr
    have hmirrors : (∀ vm' dom', s.mock.vms s.real.vm = some vm' → s.real.domain = some dom' →
        vm'.state ≠ .shuttingDown ∧ Anchored S s vm' dom' req) ↔
        vm.state ≠ .shuttingDown ∧ Anchored S s vm dom req := by
      refine ⟨fun h => h vm dom hvm hdom, fun h vm' dom' hvm' hdom' => ?_⟩
      obtain rfl : vm = vm' := Option.some.inj (hvm.symm.trans hvm')
      obtain rfl : dom = dom' := Option.some.inj (hdom.symm.trans hdom')
      exact h
    rw [hmirrors]
    simp only [hr, Option.some.injEq, forall_eq', hreal]
    by_cases hst : vm.state = .shuttingDown
    · rw [mockBackup_shuttingDown hvm hst]
      exact iff_of_false (Verdict.ofPlan_ne_other _).symm fun h => h.1 hst
    · obtain ⟨hmock, -⟩ := mockBackup_plan (S := S) req
        (hs.library.fresh (ready_fresh hready)) hsafe hvm hst
      rw [hmock, Verdict.ofPlan_injective.eq_iff, hs.plan_iff hsafe hstate hst]
      exact (and_iff_right hst).symm

/-- **A backup both agree on** keeps the two together. -/
theorem Linked.backup (hs : s.Linked) (hready : Ready S s env req = true)
    (hagree : Agree S s (.backup env req)) (hr : s.realBackup S env req = some r) :
    Linked ⟨(s.mockBackup S env req).2, r.2⟩ := by
  rcases hs.machine_cases with ⟨hvm, hdom⟩ | ⟨vm, dom, hvm, hdom, hstate, hsafe⟩
  · obtain ⟨-, -, hmock, hreal⟩ := backup_absent hvm hdom hr
    rw [hmock, hreal]
    exact hs
  obtain ⟨hst, hanchored⟩ := (hs.agree_backup_iff env req).mp hagree hready vm dom hvm hdom
  have hplans := (hs.plan_iff hsafe hstate hst).mpr hanchored
  obtain ⟨-, hvms, hmock⟩ := mockBackup_plan (S := S) req
    (hs.library.fresh (ready_fresh hready)) hsafe hvm hst
  obtain ⟨-, hname, ⟨dom', hdom', hstate'⟩, hreal⟩ := realBackup_plan hready hsafe hdom hr
  rw [hplans] at hmock
  have hckpt : (if vm.state = .running then checkpointName env.id else "") =
      if dom.state = .shutoff then "" else checkpointName env.id := by
    by_cases hoff : dom.state = .shutoff
    · rw [if_pos hoff, if_neg (by simp [hstate.mpr hoff])]
    · have hne : vm.state ≠ .stopped := fun h => hoff (hstate.mp h)
      rw [if_neg hoff, if_pos (by cases hvm' : vm.state <;> simp_all)]
  rw [hckpt] at hmock
  have hlib : SameLibrary (s.mockBackup S env req).2.library r.2.library ∧
      ∀ d ∈ r.2.library, d.completed.isSome := by
    generalize planOfReal S s dom req = plan at hmock hreal
    cases plan with
    | none =>
      rw [hmock, hreal]
      exact ⟨hs.library, hs.completed⟩
    | some parentID => exact ⟨hs.library.takes hmock hreal, hreal.completed hs.completed⟩
  refine hs.next hvms hname ?_ hlib.1 hlib.2
  rw [hdom, hdom']
  exact .some hstate'.symm

end Backup

/-! ## The other steps -/

theorem Linked.setState (hs : s.Linked) (hsafe : idSafe s.real.vm = true) {vm : MockVM}
    {dom : Domain} {state : MockState} {domState : DomainState}
    (h : state = .stopped ↔ domState = .shutoff) : (s.setState vm dom state domState).Linked where
  library := hs.library
  completed := hs.completed
  machine := by
    rw [Twin.setState]
    dsimp only
    rw [Function.update_self]
    exact .some h
  safe _ := hsafe

/-- A deletion removes the same point from both libraries. -/
theorem Linked.deleteBackup (hs : s.Linked) {env : DeleteEnv} (hremove : env.removeFails = false)
    (id : String) :
    Linked ⟨(mockDeleteBackup s.mock id).2, (Ultrav.deleteBackup env s.real id).2⟩ := by
  rcases hs.library.delete hs.completed id with
    ⟨e, e', hmock, hreal⟩ | ⟨vmID, m, hmock, hget, hreal⟩
  · have hm : (mockDeleteBackup s.mock id).2 = s.mock := by
      rw [mockDeleteBackup, hmock]
      cases e <;> rfl
    have hr : (Ultrav.deleteBackup env s.real id).2 = s.real := by
      rw [Ultrav.deleteBackup, hreal]
      cases e' <;> rfl
    rw [hm, hr]
    exact hs
  · have hm : (mockDeleteBackup s.mock id).2.library = s.mock.library.removeDir vmID id ∧
        (mockDeleteBackup s.mock id).2.vms = s.mock.vms := by
      rw [mockDeleteBackup, hmock]
      exact ⟨rfl, rfl⟩
    have heff : DeleteEffect s.real id (Ultrav.deleteBackup env s.real id).2 := deleteBackup_eq rfl
    have hlib : (Ultrav.deleteBackup env s.real id).2.library =
        s.real.library.removeDir vmID id := by
      rw [Ultrav.deleteBackup, hget, hreal, hremove]
      dsimp only
      rw [if_neg Bool.false_ne_true]
      split
      · rfl
      · rw [Host.dropCheckpoint]
        split <;> rfl
    refine hs.next hm.2 heff.vm ?_ ?_ fun d hd => ?_
    · rcases heff.domain with hdom | ⟨dom, m', hdom, -, hdom'⟩
      · rw [hdom]
        exact sameState_refl _
      · rw [hdom, hdom']
        exact .some rfl
    · dsimp only
      rw [hm.1, hlib]
      exact hs.library.removeDir vmID id
    · dsimp only at hd
      rw [hlib] at hd
      exact hs.completed d (Library.mem_removeDir.mp hd).1

/-- A domain that is defined again is stopped, as it was. -/
theorem redefine_stopped {env : RestoreEnv} (hdefine : env.defineFails = false) (m : Metadata)
    (dir : PointDir) {dom : Domain} (hst : dom.state = .shutoff) :
    ∃ dom', redefine env m dir (deleteUltravCheckpoints env dom) = some dom' ∧
      dom'.state = .shutoff := by
  have hkept : (deleteUltravCheckpoints env dom).state = .shutoff := by
    rw [deleteUltravCheckpoints]
    split <;> exact hst
  rw [redefine, hdefine]
  split
  · split
    · exact ⟨_, rfl, hkept⟩
    · split
      · exact ⟨_, rfl, hkept⟩
      · exact ⟨_, rfl, rfl⟩
  · exact ⟨_, rfl, hkept⟩

/-- A restore leaves the library, and the domain in its state. -/
theorem Linked.restore (hs : s.Linked) {env : RestoreEnv} (hdefine : env.defineFails = false)
    {id : String} {r : Except ProviderError Domain × Host}
    (hr : restoreBackup env s.real id = some r) : Linked { s with real := r.2 } := by
  obtain ⟨hout, -⟩ := restoreBackup_eq_some hr
  generalize r.1 = res, r.2 = h' at hout
  cases hout with
  | refused _ => exact hs
  | stopped _ _ => exact hs.next rfl rfl (sameState_refl _) hs.library hs.completed
  | @restored plan fs dom hopen _ hdom =>
    obtain ⟨-, -, -, hdom₀, hst, -⟩ := openRestore_eq_ok hopen
    obtain ⟨dom', hdom', hst'⟩ := redefine_stopped hdefine plan.metadata plan.dir hst
    refine hs.next rfl rfl ?_ hs.library hs.completed
    dsimp only
    rw [hdom₀, hdom, hdom']
    exact .some (hst.trans hst'.symm)

/-- **Every step both agree on** keeps the two together. -/
theorem Linked.step (hs : s.Linked) {e : Twin.Event} {s' : Twin} (hagree : Agree S s e)
    (hstep : s.step S e = some s') : s'.Linked := by
  cases e with
  | create vm D running =>
    rw [Twin.step] at hstep
    split at hstep
    · split at hstep
      · cases hstep
        exact hs.setState ‹_› (by cases running <;> simp)
      · cases hstep
    · cases hstep
  | start =>
    rw [Twin.step] at hstep
    split at hstep
    · rename_i vm dom hvm hdom
      split at hstep
      · cases hstep
        exact hs.setState (hs.safe (by rw [hdom]; rfl)) (by simp)
      · cases hstep
    · cases hstep
  | shutdown =>
    rw [Twin.step] at hstep
    split at hstep
    · rename_i vm dom hvm hdom
      split at hstep
      · rename_i hst
        cases hstep
        have hmachine := hs.machine
        rw [hvm, hdom] at hmachine
        cases hmachine with
        | some h =>
          have hoff : dom.state ≠ .shutoff := fun hd => by
            have hstopped := h.mpr hd
            rw [hst] at hstopped
            cases hstopped
          exact hs.setState (hs.safe (by rw [hdom]; rfl)) (iff_of_false (by simp) hoff)
      · cases hstep
    · cases hstep
  | off =>
    rw [Twin.step] at hstep
    split at hstep
    · rename_i vm dom hvm hdom
      split at hstep
      · cases hstep
        exact hs.setState (hs.safe (by rw [hdom]; rfl)) (by simp)
      · cases hstep
    · cases hstep
  | backup env req =>
    rw [Twin.step] at hstep
    split at hstep
    · obtain ⟨r, hr, rfl⟩ := Option.map_eq_some_iff.mp hstep
      exact hs.backup ‹_› hagree hr
    · cases hstep
  | deleteBackup env id =>
    rw [Twin.step] at hstep
    split at hstep
    · cases hstep
    · rename_i hremove
      cases hstep
      exact hs.deleteBackup (by simpa using hremove) id
  | restore env id =>
    rw [Twin.step] at hstep
    split at hstep
    · cases hstep
    · rename_i hdefine
      obtain ⟨r, hr, rfl⟩ := Option.map_eq_some_iff.mp hstep
      exact hs.restore (by simpa using hdefine) hr
  | delete =>
    rw [Twin.step] at hstep
    split at hstep
    · split at hstep
      · cases hstep
        refine ⟨hs.library, hs.completed, ?_, fun h => by cases h⟩
        dsimp only
        rw [Function.update_self]
        exact .none
      · cases hstep
    · cases hstep

/-- **The two providers agree** at every backup of a history exactly when every backup of it meets
`Mirrors`. -/
theorem agree_iff_mirrors (S : SortTimes) (vm : String) (files : Files) (es : List Twin.Event) :
    Machine.Along (step S) (Agree S) (initial vm files) es ↔
      Machine.Along (step S) (Mirrors S) (initial vm files) es := by
  refine Machine.along_iff_of_inv (fun s e hs => ?_) (fun _ _ _ hs => hs.step)
    (linked_initial vm files)
  cases e with
  | backup env req => exact hs.agree_backup_iff env req
  | _ => exact Iff.rfl

/-- The image of the machine. -/
def imageFiles : Files :=
  Files.put (fun _ => none) (.volume "/img/erp01.qcow2") ⟨.qcow2, none, fun _ => none⟩

/-- A point is restored between two backups of a running machine. -/
def restored : List Twin.Event :=
  [.create ⟨.stopped, [], MockVM.nodup_nil⟩ ⟨[⟨.disk, .qcow2, "vda", "/img/erp01.qcow2"⟩],
    List.nodup_singleton _⟩ true,
    .backup (.smooth "bk-1" idPattern_bk1 1) none, .off, .restore (.smooth 1) "bk-1", .start]

/-- The next backup continues the chain in the mock provider, and is a full in the other one. -/
theorem restored_disagree :
    ∃ s, Machine.run (step (.insertion Prod.fst)) (initial "erp01" imageFiles) restored =
      some s ∧ Ready (.insertion Prod.fst) s (.smooth "bk-2" (by decide) 2) none = true ∧
      Verdict.ofMock (s.mockBackup (.insertion Prod.fst) (.smooth "bk-2" (by decide) 2) none).1 =
        .incremental "bk-1" ∧
      (s.realBackup (.insertion Prod.fst) (.smooth "bk-2" (by decide) 2) none).map
        (Verdict.ofReal "bk-2") = some .full := by
  exact ⟨_, rfl, rfl, rfl, rfl⟩

end Twin

end Ultrav
