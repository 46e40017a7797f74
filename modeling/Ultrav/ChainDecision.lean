import Ultrav.BackupReturns
import Ultrav.MockBackup
import Ultrav.ProviderCalls

/-!
# Two chain decisions

The mock provider infers the chain from the newest point, the libvirt provider also looks at the
checkpoints of the domain. Both write what they decide into the point they take.

* `Verdict` — how a backup was taken, or that it was refused.
* `SameLibrary` — libraries whose points differ in their disks at most.
* `mockPlan_eq_realPlan_iff` — when the two decisions are one.
* `backupVirtualMachine_takes` / `mockWritePoint_takes` — what a backup adds to its library.
-/

namespace Ultrav

/-! ## Verdicts -/

/-- How a backup was taken. -/
inductive Verdict where
  /-- refused with `ErrBackupInvalidState` -/
  | refused
  | full
  | incremental (parentID : String)
  /-- neither refused nor taken: another error -/
  | other
  deriving DecidableEq, Repr

namespace Verdict

def ofError : ProviderError → Verdict
  | .invalidState _ => .refused
  | _ => .other

def ofPoint (m : Metadata) : Verdict :=
  match m.type with
  | .full => .full
  | .incremental => .incremental m.parentID

/-- The verdict of the mock provider. -/
def ofMock : Except ProviderError Metadata → Verdict
  | .error e => ofError e
  | .ok m => ofPoint m

/-- The verdict of the libvirt provider: the point it completed. -/
def ofReal (id : String) : Except ProviderError (Option Metadata) × Host → Verdict
  | (.error e, _) => ofError e
  | (.ok _, h) =>
    match h.library.lookup id with
    | some m => ofPoint m
    | none => .other

end Verdict

/-! ## Libraries that show the same chain -/

/-- Metadata that differ in their disks at most. -/
structure SameChain (m n : Metadata) : Prop where
  id : m.id = n.id
  vmID : m.vmID = n.vmID
  type : m.type = n.type
  state : m.state = n.state
  createdAt : m.createdAt = n.createdAt
  parentID : m.parentID = n.parentID
  checkpoint : m.checkpoint = n.checkpoint

/-- Directories of one name, with such metadata. -/
structure SameDir (d e : PointDir) : Prop where
  vmID : d.vmID = e.vmID
  id : d.id = e.id
  metadata : Option.Rel SameChain d.metadata e.metadata

theorem SameDir.completed {d e : PointDir} (h : SameDir d e) :
    Option.Rel SameChain d.completed e.completed := by
  rw [PointDir.completed, PointDir.completed]
  have hm := h.metadata
  generalize d.metadata = a, e.metadata = b at hm
  cases hm with
  | none => exact .none
  | @some m n hmn =>
    rw [Option.filter_some, Option.filter_some, hmn.state]
    split
    · exact .some hmn
    · exact .none

/-- Libraries of such directories. -/
abbrev SameLibrary : Library → Library → Prop := List.Forall₂ SameDir

namespace SameLibrary

variable {lib lib' : Library}

theorem completed (h : SameLibrary lib lib') (vmID : String) :
    List.Forall₂ SameChain (lib.completed vmID) (lib'.completed vmID) := by
  induction h with
  | nil => exact .nil
  | @cons d e lib lib' hde _ ih =>
    rw [Library.completed, Library.completed, List.filter_cons, List.filter_cons, hde.vmID, hde.id]
    split
    · have hc := hde.completed
      rw [List.filterMap_cons, List.filterMap_cons]
      generalize d.completed = a, e.completed = b at hc
      cases hc with
      | none => exact ih
      | some hmn => exact .cons hmn ih
    · exact ih

/-- **The newest point** is the same, however equal times are sorted. -/
theorem head (h : SameLibrary lib lib') (S : SortDesc (Time × ℕ) Prod.fst) (vmID : String) :
    Option.Rel SameChain ((S.byKeys Metadata.createdAt).sort (lib.completed vmID)).head?
      ((S.byKeys Metadata.createdAt).sort (lib'.completed vmID)).head? := by
  have hsorted := S.forall₂_byKeys (fun _ _ h => SameChain.createdAt h) (h.completed vmID)
  revert hsorted
  generalize (S.byKeys Metadata.createdAt).sort (lib.completed vmID) = ms,
    (S.byKeys Metadata.createdAt).sort (lib'.completed vmID) = ns
  intro hsorted
  cases hsorted with
  | nil => exact .none
  | cons hmn _ => exact .some hmn

theorem map_id (h : SameLibrary lib lib') : lib.map PointDir.id = lib'.map PointDir.id := by
  induction h with
  | nil => rfl
  | cons hde _ ih => rw [List.map_cons, List.map_cons, hde.id, ih]

/-- A name that is new in one is new in the other. -/
theorem fresh (h : SameLibrary lib lib') {id : String} (hf : ∀ d ∈ lib', d.id ≠ id) :
    ∀ d ∈ lib, d.id ≠ id := by
  intro d hd hid
  have hmem : d.id ∈ lib'.map PointDir.id := h.map_id ▸ List.mem_map_of_mem hd
  obtain ⟨e, he, heq⟩ := List.mem_map.mp hmem
  exact hf e he (heq.trans hid)

theorem find (h : SameLibrary lib lib') (id : String) :
    Option.Rel SameDir (lib.find? fun d => d.id = id) (lib'.find? fun d => d.id = id) := by
  induction h with
  | nil => exact .none
  | @cons d e lib lib' hde _ ih =>
    rw [List.find?_cons, List.find?_cons, hde.id]
    split
    · exact .some hde
    · exact ih

theorem removeDir (h : SameLibrary lib lib') (vmID id : String) :
    SameLibrary (lib.removeDir vmID id) (lib'.removeDir vmID id) := by
  induction h with
  | nil => exact .nil
  | @cons d e lib lib' hde _ ih =>
    rw [Library.removeDir, Library.removeDir, List.filter_cons, List.filter_cons, hde.vmID, hde.id]
    split
    · exact .cons hde ih
    · exact ih

/-- A deletion finds the same directory, when all points are complete. -/
theorem delete (h : SameLibrary lib lib') (hc : ∀ d ∈ lib', d.completed.isSome) (id : String) :
    (∃ e e', lib.delete id = .error e ∧ lib'.get id = .error e') ∨
      ∃ vmID m, lib.delete id = .ok (lib.removeDir vmID id) ∧ lib'.get id = .ok m ∧
        lib'.delete id = .ok (lib'.removeDir vmID id) := by
  have hfind := h.find id
  by_cases hp : idPattern id = true
  · generalize hd : lib.find? (fun d => d.id = id) = a,
      he : lib'.find? (fun d => d.id = id) = b at hfind
    cases hfind with
    | none =>
      refine .inl ⟨.notFound, .notFound, ?_, ?_⟩
      · simp [Library.delete, Library.readableDir, Library.pointDir, hp, hd]
      · simp [Library.get, Library.pointDir, hp, he]
    | @some d e hde =>
      have hid : e.id = id := by simpa using List.find?_some he
      obtain ⟨m, hm⟩ := Option.isSome_iff_exists.mp (hc e (List.mem_of_find?_eq_some he))
      have hmeta := (PointDir.completed_eq_some.mp hm).1
      have hread : d.metadata.isSome := by
        have hrel := hde.metadata
        rw [hmeta] at hrel
        generalize d.metadata = o at hrel
        cases hrel
        rfl
      refine .inr ⟨e.vmID, m, ?_, ?_, ?_⟩
      · simp [Library.delete, Library.readableDir, Library.pointDir, hp, hd, hread, hde.vmID,
          hde.id, hid]
      · simp [Library.get, Library.pointDir, hp, he, hm]
      · simp [Library.delete, Library.readableDir, Library.pointDir, hp, he, hmeta, hid]
  · refine .inl ⟨.invalidID, .invalidID, ?_, ?_⟩
    · simp [Library.delete, Library.readableDir, Library.pointDir, hp]
    · simp [Library.get, Library.pointDir, hp]

end SameLibrary

/-! ## The decisions -/

section Decisions

variable {srt : SortDesc Metadata Metadata.createdAt} {lib : Library} {dom : Domain} {vm : String}
  {req : Option CreateType}

/-- A point to continue from has a name. -/
theorem mockChain_id_ne {newest : Metadata} (h : mockChain srt false lib vm = some newest) :
    newest.id ≠ "" := by
  rw [mockChain, if_neg Bool.false_ne_true] at h
  split at h
  · rename_i n rest hlist
    split at h
    · cases h
      intro hid
      have hmem : newest ∈ srt.sort (lib.completed vm) := by
        rw [← (Library.list_eq_ok hlist).2]
        exact List.mem_cons_self
      obtain ⟨d, -, -, hpattern, hm⟩ := Library.mem_completed.mp (srt.mem_sort.mp hmem)
      rw [← (PointDir.completed_keyed hm).2, hid, idPattern_empty] at hpattern
      cases hpattern
    · cases h
  · cases h

/-- What the chain of the mock provider is: the newest point, if it has a checkpoint. -/
theorem mockChain_eq (hsafe : idSafe vm = true) :
    mockChain srt false lib vm =
      (srt.sort (lib.completed vm)).head?.filter fun m => m.checkpoint ≠ "" := by
  rw [mockChain, if_neg Bool.false_ne_true, Library.list, if_pos hsafe]
  cases srt.sort (lib.completed vm) with
  | nil => rfl
  | cons m ms =>
    rw [List.head?_cons, Option.filter_some]
    by_cases hm : m.checkpoint = "" <;> simp [hm]

/-- The chain of the libvirt provider: the same point, if the domain has its checkpoint. -/
theorem backupChainParent_eq (hsafe : idSafe vm = true) :
    (backupChainParent srt lib dom vm req).toOption =
      if req = some .full then some ("", "")
      else
        match mockChain srt false lib vm with
        | none => if req = some .incremental then none else some ("", "")
        | some newest =>
          if newest.checkpoint ∈ dom.checkpoints.names then some (newest.id, newest.checkpoint)
          else if req = some .incremental then none else some ("", "") := by
  rw [backupChainParent, mockChain_eq hsafe, Library.list, if_pos hsafe]
  dsimp only
  split
  · rfl
  have hnone : (backupChainParent.noChain vm req).toOption =
      if req = some .incremental then none else some ("", "") := by
    rw [backupChainParent.noChain]
    split <;> rfl
  cases srt.sort (lib.completed vm) with
  | nil => exact hnone
  | cons m ms =>
    rw [List.head?_cons]
    dsimp only
    by_cases hm : m.checkpoint = ""
    · have hfilter : (some m).filter (fun m : Metadata => m.checkpoint ≠ "") = none := by
        simp [hm]
      rw [if_pos hm, hfilter]
      exact hnone
    · have hfilter : (some m).filter (fun m : Metadata => m.checkpoint ≠ "") = some m := by
        simp [hm]
      rw [if_neg hm, hfilter]
      dsimp only
      split
      · rfl
      · split <;> rfl

/-- The parent the libvirt provider takes a backup with, empty for a full; none when it is
refused. A stopped machine is copied in full. -/
def realPlan (srt : SortDesc Metadata Metadata.createdAt) (lib : Library) (dom : Domain)
    (vm : String) (req : Option CreateType) : Option String :=
  (backupChainParent srt lib dom vm req).toOption.map fun p =>
    if dom.state = .shutoff then "" else p.1

/-- The parent the mock provider takes a backup with. -/
def mockPlan (chain : Option Metadata) (running : Bool) (vm : String) (req : Option CreateType) :
    Option String :=
  (mockParent chain running vm req).toOption.map fun parent => (parent.map Metadata.id).getD ""

/-- **One decision**: the plans are the same exactly when they mirror each other. -/
theorem mockPlan_eq_realPlan_iff {lib' : Library} {running : Bool} (hsafe : idSafe vm = true)
    (hchain : Option.Rel SameChain (mockChain srt false lib' vm) (mockChain srt false lib vm))
    (hstate : running = true ↔ dom.state ≠ .shutoff) :
    mockPlan (mockChain srt false lib' vm) running vm req = realPlan srt lib dom vm req ↔
      ∀ newest, mockChain srt false lib' vm = some newest → req ≠ some .full →
        (running = false → req ≠ some .incremental) ∧
          (running = true → newest.checkpoint ∈ dom.checkpoints.names) := by
  have hnamed : ∀ newest, mockChain srt false lib' vm = some newest → newest.id ≠ "" :=
    fun _ => mockChain_id_ne
  rw [realPlan, backupChainParent_eq hsafe]
  generalize mockChain srt false lib' vm = a, mockChain srt false lib vm = b at hchain hnamed
  cases hchain with
  | none =>
    refine iff_of_true ?_ (by simp)
    rcases req with _ | ⟨⟨⟩ | ⟨⟩⟩ <;> simp [mockPlan, mockParent, Except.toOption]
  | @some m n hmn =>
    have hne : n.id ≠ "" := hmn.id ▸ hnamed m rfl
    have hoff : dom.state = .shutoff ↔ running = false := by
      rw [← not_iff_not, ← ne_eq, ← hstate, Bool.not_eq_false]
    simp only [Option.some.injEq, forall_eq', mockPlan, mockParent, hmn.checkpoint, hoff]
    rcases req with _ | ⟨⟨⟩ | ⟨⟩⟩
    · by_cases hmem : n.checkpoint ∈ dom.checkpoints.names <;> cases running <;>
        simp [hmem, hne, hmn.id, Except.toOption]
    · simp [Except.toOption]
    · by_cases hmem : n.checkpoint ∈ dom.checkpoints.names <;> cases running <;>
        simp [hmem, hne, hmn.id, Except.toOption]

end Decisions

/-! ## What a backup adds -/

/-- The metadata of a completed point. -/
structure IsTaken (vm id : String) (now : Time) (parentID checkpoint : String)
    (m : Metadata) : Prop where
  fills : m.Fills (.create vm id now)
  state : m.state = .complete
  typed : m.Typed
  parentID : m.parentID = parentID
  checkpoint : m.checkpoint = checkpoint

/-- One more directory, with the metadata of a completed point. -/
def Takes (vm id : String) (now : Time) (parentID checkpoint : String) (lib lib' : Library) :
    Prop :=
  ∃ d m, lib' = lib ++ [d] ∧ d.vmID = vm ∧ d.id = id ∧ d.metadata = some m ∧
    IsTaken vm id now parentID checkpoint m

/-- A point that is created and completed: one more directory. -/
theorem Library.complete_mkdir {lib : Library} {vm id : String} {now : Time} {m : Metadata}
    (hf : ∀ d ∈ lib, d.id ≠ id) (hm : m.Fills (.create vm id now)) (D : Definition) :
    ∃ d, ((lib.mkdir vm id).writeDomainXML vm id D).complete m = lib ++ [d] ∧ d.vmID = vm ∧
      d.id = id ∧ d.metadata = some { m with state := .complete } := by
  have hwrite : (lib ++ [PointDir.empty vm id]).writeDomainXML vm id D =
      lib ++ [{ PointDir.empty vm id with domainXML := some D }] :=
    Library.writeDomainXML_fresh (d := .empty vm id) hf D
  refine ⟨{ PointDir.empty vm id with domainXML := some D }.save { m with state := .complete }
    ⟨hm.2.1, hm.1⟩, ?_, rfl, rfl, rfl⟩
  rw [Library.mkdir_fresh hf, hwrite]
  exact Library.complete_fresh (d := { PointDir.empty vm id with domainXML := some D }) hf _

namespace Verdict

/-- The verdict of a plan. -/
def ofPlan : Option String → Verdict
  | none => .refused
  | some parentID => if parentID = "" then .full else .incremental parentID

theorem ofPlan_injective : Function.Injective ofPlan := by
  intro a b h
  cases a with
  | none =>
    cases b with
    | none => rfl
    | some q =>
      rw [ofPlan, ofPlan] at h
      split at h <;> cases h
  | some p =>
    cases b with
    | none =>
      rw [ofPlan, ofPlan] at h
      split at h <;> cases h
    | some q =>
      rw [ofPlan, ofPlan] at h
      split at h <;> split at h <;> simp_all

theorem ofPlan_ne_other (p : Option String) : ofPlan p ≠ other := by
  cases p with
  | none => exact fun h => by cases h
  | some parentID =>
    rw [ofPlan]
    split <;> exact fun h => by cases h

/-- The verdict of a point is the one of its parent. -/
theorem ofPoint_eq {vm id : String} {now : Time} {parentID checkpoint : String} {m : Metadata}
    (h : IsTaken vm id now parentID checkpoint m) : ofPoint m = ofPlan (some parentID) := by
  rw [ofPoint, h.typed, h.parentID, ofPlan]
  by_cases hp : parentID = ""
  · rw [if_pos hp, if_pos hp]
  · rw [if_neg hp, if_neg hp]

end Verdict

/-- Points that are alike. -/
theorem IsTaken.sameChain {vm id : String} {now : Time} {parentID checkpoint : String}
    {m n : Metadata} (hm : IsTaken vm id now parentID checkpoint m)
    (hn : IsTaken vm id now parentID checkpoint n) : SameChain m n where
  id := hm.fills.1.trans hn.fills.1.symm
  vmID := hm.fills.2.1.trans hn.fills.2.1.symm
  type := by rw [hm.typed, hn.typed, hm.parentID, hn.parentID]
  state := hm.state.trans hn.state.symm
  createdAt := hm.fills.2.2.trans hn.fills.2.2.symm
  parentID := hm.parentID.trans hn.parentID.symm
  checkpoint := hm.checkpoint.trans hn.checkpoint.symm

theorem SameLibrary.takes {vm id : String} {now : Time} {parentID checkpoint : String}
    {lib₁ lib₁' lib₂ lib₂' : Library} (h : SameLibrary lib₁ lib₂)
    (h₁ : Takes vm id now parentID checkpoint lib₁ lib₁')
    (h₂ : Takes vm id now parentID checkpoint lib₂ lib₂') : SameLibrary lib₁' lib₂' := by
  obtain ⟨d, m, rfl, hvm, hid, hmeta, hm⟩ := h₁
  obtain ⟨e, n, rfl, hvm', hid', hmeta', hn⟩ := h₂
  refine List.rel_append h (.cons ⟨hvm.trans hvm'.symm, hid.trans hid'.symm, ?_⟩ .nil)
  rw [hmeta, hmeta']
  exact .some (hm.sameChain hn)

/-- The new point is found by its id. -/
theorem Takes.lookup {vm id : String} {now : Time} {parentID checkpoint : String}
    {lib lib' : Library} (h : Takes vm id now parentID checkpoint lib lib')
    (hf : ∀ d ∈ lib, d.id ≠ id) (hid : idPattern id = true) :
    ∃ m, lib'.lookup id = some m ∧ IsTaken vm id now parentID checkpoint m := by
  obtain ⟨d, m, rfl, -, rfl, hmeta, hm⟩ := h
  refine ⟨m, Library.lookup_eq_some.mpr ?_, hm⟩
  exact Library.get_append_self hf hid (PointDir.completed_eq_some.mpr ⟨hmeta, hm.state⟩)

/-- It is a completed one, like the others. -/
theorem Takes.completed {vm id : String} {now : Time} {parentID checkpoint : String}
    {lib lib' : Library} (h : Takes vm id now parentID checkpoint lib lib')
    (hlib : ∀ d ∈ lib, d.completed.isSome) : ∀ d ∈ lib', d.completed.isSome := by
  obtain ⟨d, m, rfl, -, -, hmeta, hm⟩ := h
  intro e he
  rcases List.mem_append.mp he with he | he
  · exact hlib e he
  · rw [List.mem_singleton.mp he, PointDir.completed_eq_some.mpr ⟨hmeta, hm.state⟩]
    rfl

/-! ## The backup of the libvirt provider -/

section Real

variable {srt : SortDesc Metadata Metadata.createdAt} {env : BackupEnv} {h h' : Host}
  {dom : Domain} {req : Option CreateType} {r : Except ProviderError (Option Metadata)}

/-- The chain is refused with `ErrBackupInvalidState` only. -/
theorem backupChainParent_eq_error {e : ProviderError} (hsafe : idSafe h.vm = true)
    (hchain : backupChainParent srt h.library dom h.vm req = .error e) :
    Verdict.ofError e = .refused := by
  have hno : backupChainParent.noChain h.vm req = .error e → Verdict.ofError e = .refused := by
    rw [backupChainParent.noChain]
    split
    · intro heq
      cases heq
      rfl
    · intro heq
      cases heq
  rw [backupChainParent, Library.list, if_pos hsafe] at hchain
  dsimp only at hchain
  split at hchain
  · cases hchain
  split at hchain
  · exact hno hchain
  split at hchain
  · exact hno hchain
  split at hchain
  · cases hchain
  split at hchain
  · cases hchain
    rfl
  · cases hchain

theorem backupVirtualMachine_refused {e : ProviderError} (hconn : env.connected = true)
    (hdom : h.domain = some dom)
    (hchain : backupChainParent srt h.library dom h.vm req = .error e)
    (hr : backupVirtualMachine srt env h h.vm req = some (r, h')) : r = .error e ∧ h' = h := by
  have hlook : h.lookupDomain h.vm = some dom := (if_pos rfl).trans hdom
  rw [backupVirtualMachine, hconn, if_neg (by simp), hlook] at hr
  dsimp only at hr
  rw [hchain] at hr
  cases hr
  exact ⟨rfl, rfl⟩

/-- The point a backup takes, when every step up to it goes through. -/
theorem backupVirtualMachine_takes {p : String × String} (hf : ∀ d ∈ h.library, d.id ≠ env.id)
    (hdom : h.domain = some dom)
    (hchain : backupChainParent srt h.library dom h.vm req = .ok p)
    (hcompletes : env.completes srt h req = true)
    (hr : backupVirtualMachine srt env h h.vm req = some (r, h')) :
    (∃ newest, r = .ok newest) ∧ h'.vm = h.vm ∧
      (∃ dom', h'.domain = some dom' ∧ dom'.state = dom.state) ∧
      Takes h.vm env.id env.now (if dom.state = .shutoff then "" else p.1)
        (if dom.state = .shutoff then "" else checkpointName env.id) h.library h'.library := by
  have hok : r.toBool = true := (backupVirtualMachine_effect srt req hf hr).1.trans hcompletes
  cases r with
  | error e => cases hok
  | ok newest =>
  obtain ⟨-, D, -, m₀, hfills, htyped, hlib₀⟩ := backupVirtualMachine_library hr
  obtain ⟨d₀, hd₀, -, -, hmeta₀⟩ := Library.complete_mkdir hf hfills D
  rw [hd₀] at hlib₀
  have hout := backupVirtualMachine_eq_some hf hr
  generalize hres : (.ok newest : Except ProviderError (Option Metadata)) = r' at hout
  cases hout with
  | kept _ _ => cases hres
  | leftover _ _ _ _ _ _ _ => cases hres
  | @taken _ _ d dom₁ m hframe hlib hvm hid hdom₁ _ hmeta hpoint htaken =>
    obtain rfl : dom = dom₁ := Option.some.inj (hdom.symm.trans hdom₁)
    -- the directory is the one `Complete` wrote
    obtain rfl : d = d₀ := by simpa using hlib.symm.trans hlib₀
    obtain rfl : m = { m₀ with state := .complete } :=
      Option.some.inj (hmeta.symm.trans hmeta₀)
    have hplan : m₀.parentID = (if dom.state = .shutoff then "" else p.1) ∧
        m₀.checkpoint = (if dom.state = .shutoff then "" else checkpointName env.id) := by
      cases htaken with
      | offline hst hparent hckpt _ =>
        rw [if_pos hst, if_pos hst]
        exact ⟨hparent, hckpt⟩
      | online hst hchain' hparent hckpt _ _ _ =>
        rw [hchain] at hchain'
        cases hchain'
        rw [if_neg hst, if_neg hst]
        exact ⟨hparent, hckpt⟩
    refine ⟨⟨newest, hres.symm⟩, hframe.vm, ?_, d, _, hlib, hvm, hid, hmeta, hfills, rfl, htyped,
      hplan.1, hplan.2⟩
    cases hframe.guest with
    | untouched hd _ => exact ⟨dom, hd.trans hdom, rfl⟩
    | @begun dom₁ hd _ hd' _ =>
      obtain rfl : dom = dom₁ := Option.some.inj (hdom.symm.trans hd)
      exact ⟨_, hd', rfl⟩

/-- A backup job that completes is polled to its end. -/
theorem backupOnline_eq_none {vm parentID parentCheckpoint : String}
    (h : backupOnline env h dom vm parentID parentCheckpoint = none) :
    pollJob env.polls = none := by
  rw [backupOnline] at h
  split at h
  · cases h
  split at h
  · cases h
  dsimp only at h
  split at h
  · cases h
  split at h
  · cases h
  split at h
  · cases h
  split at h
  · assumption
  · cases h
  · split at h <;> cases h

theorem backupVirtualMachine_isSome {parentID parentCheckpoint : String}
    (hdom : h.domain = some dom)
    (hchain : backupChainParent srt h.library dom h.vm req = .ok (parentID, parentCheckpoint))
    (hcompletes : env.completes srt h req = true) :
    ∃ r, backupVirtualMachine srt env h h.vm req = some r := by
  have hlook : h.lookupDomain h.vm = some dom := (if_pos rfl).trans hdom
  rw [BackupEnv.completes, hdom] at hcompletes
  dsimp only at hcompletes
  rw [hchain] at hcompletes
  dsimp only at hcompletes
  rw [backupVirtualMachine, hlook]
  dsimp only
  rw [hchain]
  split
  · exact ⟨_, rfl⟩
  dsimp only
  by_cases hst : dom.state = .shutoff
  · rw [if_pos hst]
    exact ⟨_, rfl⟩
  · rw [if_neg hst] at hcompletes ⊢
    cases honline : backupOnline env h dom h.vm parentID parentCheckpoint with
    | none =>
      -- the job would never be seen to complete
      simp [BackupEnv.jobCompletes, backupOnline_eq_none honline] at hcompletes
    | some r => exact ⟨_, rfl⟩

end Real

/-! ## The backup of the mock provider -/

section Mock

variable {env : MockBackupEnv} {vmID : String}

/-- The parent is the newest point of the chain. -/
theorem mockParent_eq_some {chain : Option Metadata} {running : Bool} {id : String}
    {req : Option CreateType} {m : Metadata}
    (h : mockParent chain running id req = .ok (some m)) : chain = some m := by
  rcases req with _ | ⟨⟨⟩ | ⟨⟩⟩
  · cases running with
    | false => cases h
    | true => exact Except.ok.inj h
  · cases h
  · cases chain with
    | none => cases h
    | some n => exact Except.ok.inj h

/-- The chain is refused with `ErrBackupInvalidState` only. -/
theorem mockParent_eq_error {chain : Option Metadata} {running : Bool} {id : String}
    {req : Option CreateType} {e : ProviderError}
    (h : mockParent chain running id req = .error e) : Verdict.ofError e = .refused := by
  rcases req with _ | ⟨⟨⟩ | ⟨⟩⟩
  · cases h
  · cases h
  · cases chain with
    | none =>
      cases h
      rfl
    | some n => cases h

/-- The loop over the disks changes the disks of the metadata only. -/
theorem mockWriteImages_eq (hwrite : ∀ name, env.writeFails name = false) (size : ℤ)
    (ds : List MockDisk) :
    ∀ (m : Metadata) (images : String → String → Option ℤ), ∃ disks images',
      mockWriteImages env size ds m images = (.ok { m with disks := disks }, images') := by
  induction ds with
  | nil => exact fun m images => ⟨m.disks, images, rfl⟩
  | cons d ds ih =>
    intro m images
    rw [mockWriteImages, hwrite, if_neg Bool.false_ne_true]
    exact ih _ _

/-- A point of the mock provider. -/
theorem mockWritePoint_takes {id : String} (id_valid : idPattern id = true) (now : Time)
    {p : MockSite} (hsafe : idSafe vmID = true) (hf : ∀ d ∈ p.library, d.id ≠ id) (vm : MockVM)
    (parent : Option Metadata) (hparent : ∀ m, parent = some m → m.id ≠ "") :
    ∃ m p', mockWritePoint (.smooth id id_valid now) p vmID vm parent = (.ok m, p') ∧
      p'.vms = p.vms ∧
      IsTaken vmID id now ((parent.map Metadata.id).getD "")
        (if vm.state = .running then checkpointName id else "") m ∧
      Takes vmID id now ((parent.map Metadata.id).getD "")
        (if vm.state = .running then checkpointName id else "") p.library p'.library := by
  let mp := mockPoint (.smooth id id_valid now) vmID parent (vm.state = .running)
  have hfills : mp.Fills (.create vmID id now) := by
    simp only [mp, mockPoint]
    cases parent <;> split <;> exact ⟨rfl, rfl, rfl⟩
  have hparentID : mp.parentID = (parent.map Metadata.id).getD "" := by
    simp only [mp, mockPoint]
    cases parent <;> split <;> rfl
  have hckpt : mp.checkpoint = if vm.state = .running then checkpointName id else "" := by
    simp only [mp, mockPoint, decide_eq_true_eq]
    cases parent <;> split <;> rfl
  have htyped : mp.Typed := by
    rw [Metadata.Typed, hparentID]
    simp only [mp, mockPoint]
    cases parent with
    | none => split <;> rfl
    | some q =>
      have hq : ((some q).map Metadata.id).getD "" ≠ "" := hparent q rfl
      rw [if_neg hq]
      split <;> rfl
  obtain ⟨disks, images, himages⟩ := @mockWriteImages_eq (.smooth id id_valid now)
    (fun _ => rfl) (mockImageSize parent.isSome) vm.vmDisks mp p.images
  have hfills' : Metadata.Fills { mp with disks := disks, hasDomainXML := true }
      (.create vmID id now) := hfills
  obtain ⟨d, hlib, hvm, hid, hmeta⟩ := Library.complete_mkdir hf hfills' vm.mockDomainXML
  have htaken : IsTaken vmID id now ((parent.map Metadata.id).getD "")
      (if vm.state = .running then checkpointName id else "")
      { mp with disks := disks, hasDomainXML := true, state := .complete } :=
    ⟨hfills, rfl, htyped, hparentID, hckpt⟩
  refine ⟨_, { p with
    library := p.library ++ [d], vmDirs := addVMDir p.vmDirs vmID, images := images }, ?_, rfl,
    htaken, d, _, rfl, hvm, hid, hmeta, htaken⟩
  rw [mockWritePoint, hsafe, if_neg (by simp), if_neg (by simp [MockBackupEnv.smooth])]
  dsimp only
  rw [himages, ← hlib]
  rfl

end Mock

end Ultrav
