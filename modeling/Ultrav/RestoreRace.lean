import Ultrav.DiskFootprint
import Ultrav.Machine
import Ultrav.Restore

/-!
# Restores side by side

Each `RestoreBackup` request runs in a goroutine of its own, and nothing locks the
virtual machine: its steps interleave with those of other restores and with
`StartVirtualMachine`. `Race` is that system.

* `Phase` / `Call` — where a restore stands: one libvirt call, download, `qemu-img` run or
  rename at a time.
* `RaceEvent` / `Race.step` — one step of one call. A failure is an event.
* `Replacing` — the restores between their stopped check and their last rename.
* `Safe` — the steps that do not run into one another: no boot during a replacement, no
  scratch file lost to another restore, no failure halfway.
* `Settled` — what a volume holds once every restore has returned.

A restore carries a record of what it last left in each file. No step depends on it; it
only says in `Safe` whether somebody else has written since.
-/

namespace Ultrav

/-! ## Calls -/

/-- Where a restore stands once it has its plan. -/
inductive Phase where
  /-- the disks of the loop still to do -/
  | next (todo : List DiskEntry)
  /-- inside `restoreDiskChain`: the disks after it, the disk, its remaining steps, its
  variables, and what the restore last left in each file -/
  | disk (todo : List DiskEntry) (name : String) (rest : List DiskStep) (sc : Scratch)
      (left : Files)
  /-- a step of the disk failed, the deferred removals are due -/
  | unwind (sc : Scratch)
  /-- before `ListAllCheckpoints` -/
  | listing
  /-- deleting these checkpoints -/
  | dropping (keys : List String)
  /-- before reading the saved domain XML -/
  | readXML
  /-- before `Undefine` -/
  | undefining (saved : Definition)
  /-- before `DomainDefineXML` -/
  | defining (saved : Definition)
  /-- before `GetVirtualMachine` -/
  | readBack

/-- A running `RestoreBackup` call. -/
inductive Call where
  /-- the domain was found stopped -/
  | checked (m : Metadata) (dir : PointDir)
  /-- at work, with the disks it has put in place -/
  | running (plan : RestorePlan) (renamed : List (String × String)) (phase : Phase)

/-- A running `StartVirtualMachine` call that has read the state of the domain. -/
inductive StartCall where
  /-- `Resume` is next -/
  | willResume
  /-- `Create` is next -/
  | willCreate
  deriving DecidableEq, Repr

/-- A virtual machine and the calls at work on it. -/
structure Race where
  /-- library, files and domain -/
  host : Host
  /-- the domain runs without a definition -/
  transient : Bool
  /-- the restores, by goroutine -/
  calls : ℕ → Option Call
  /-- the starts, by goroutine -/
  starts : ℕ → Option StartCall
  /-- the restores that have returned without an error -/
  done : List RestorePlan

/-- A step of one of the calls. -/
inductive RaceEvent where
  /-- a restore looks its point up and finds the domain stopped -/
  | check (i : ℕ) (id : String)
  /-- it reads the domain XML and resolves the chain -/
  | plan (i : ℕ) (rounds : ℕ)
  /-- it takes its next step -/
  | act (i : ℕ)
  /-- its next step fails, best effort -/
  | skip (i : ℕ)
  /-- its next step fails and so does the restore; `junk` is left in the scratch file -/
  | fail (i : ℕ) (junk : Option Image)
  /-- a start looks the domain up and reads its state -/
  | startCheck (j : ℕ)
  /-- `Create` -/
  | create (j : ℕ)
  /-- `Resume` -/
  | resume (j : ℕ)
  /-- a start returns without booting anything -/
  | startReturn (j : ℕ)
  /-- the guest shuts down -/
  | powerOff

/-! ## Steps -/

/-- No domain, or a stopped one. -/
def Host.Stopped (h : Host) : Prop := ∀ dom, h.domain = some dom → dom.state = .shutoff

/-- The first checks of `RestoreBackup`. -/
def Host.restoreCheck (h : Host) (id : String) : Option (Metadata × PointDir) :=
  match h.library.get id, h.library.readableDir id with
  | .ok m, .ok dir =>
    match h.lookupDomain m.vmID with
    | some dom => if dom.state = .shutoff then some (m, dir) else none
    | none => none
  | _, _ => none

/-- The volumes that disks of a point are restored onto. -/
def RestorePlan.targets (plan : RestorePlan) (disks : List DiskEntry) : List (String × String) :=
  disks.filterMap fun bd =>
    (plan.domain.definition.sources bd.name).map fun dst => (bd.name, dst)

namespace Race

/-- A restore moves on, or returns. -/
def move (s : Race) (i : ℕ) (h : Host) (transient : Bool) (c : Option Call) : Race :=
  { s with host := h, transient := transient, calls := Function.update s.calls i c }

/-- The next step of a restore with a plan succeeds. -/
def actRunning (s : Race) (i : ℕ) (plan : RestorePlan) (renamed : List (String × String)) :
    Phase → Option Race
  | .next [] => some (s.move i s.host s.transient (some (.running plan renamed .listing)))
  | .next (bd :: todo) =>
    (plan.domain.definition.sources bd.name).map fun dst =>
      s.move i s.host s.transient (some (.running plan renamed
        (.disk todo bd.name (restoreDiskChain plan.chain bd.name) ⟨dst, []⟩ s.host.files)))
  | .disk todo _ [] _ _ =>
    some (s.move i s.host s.transient (some (.running plan renamed (.next todo))))
  | .disk todo name (st :: rest) sc left =>
    (st.exec sc s.host.files).map fun w =>
      s.move i { s.host with files := w.2 } s.transient (some (.running plan
        (if st = .rename then renamed ++ [(name, sc.dst)] else renamed)
        (.disk todo name rest w.1 (st.record sc left w.2))))
  | .unwind sc =>
    some (s.move i { s.host with files := sc.cleanup s.host.files } s.transient none)
  | .listing =>
    s.host.domain.map fun dom => s.move i s.host s.transient (some (.running plan renamed
      (.dropping (dom.checkpoints.names.filter isUltravCheckpoint))))
  | .dropping [] => some (s.move i s.host s.transient (some (.running plan renamed .readXML)))
  | .dropping (k :: ks) =>
    s.host.domain.map fun dom =>
      s.move i { s.host with domain := some { dom with checkpoints := dom.checkpoints.drop k } }
        s.transient (some (.running plan renamed (.dropping ks)))
  | .readXML =>
    if plan.metadata.hasDomainXML then
      plan.dir.domainXML.map fun saved =>
        s.move i s.host s.transient (some (.running plan renamed (.undefining saved)))
    else some (s.move i s.host s.transient (some (.running plan renamed .readBack)))
  | .undefining saved =>
    s.host.domain.bind fun dom =>
      -- libvirt keeps the metadata of checkpoints, and a domain that runs
      if s.transient || !dom.checkpoints.isEmpty then none
      else if dom.state = .shutoff then
        some (s.move i { s.host with domain := none } false
          (some (.running plan renamed (.defining saved))))
      else some (s.move i s.host true (some (.running plan renamed (.defining saved))))
  | .defining saved =>
    let dom := match s.host.domain with
      | none => ⟨saved, .shutoff, []⟩
      | some dom => { dom with definition := saved }
    some (s.move i { s.host with domain := some dom } false
      (some (.running plan renamed .readBack)))
  | .readBack =>
    s.host.domain.map fun _ =>
      { s.move i s.host s.transient none with done := plan :: s.done }

/-- The next step of a restore succeeds. -/
def act (s : Race) (i : ℕ) : Option Race :=
  match s.calls i with
  | some (.running plan renamed phase) => s.actRunning i plan renamed phase
  | _ => none

/-- The next step of a restore fails without failing the restore. -/
def skip (s : Race) (i : ℕ) : Option Race :=
  match s.calls i with
  | some (.running plan renamed phase) =>
    let goto := fun p => some (s.move i s.host s.transient (some (.running plan renamed p)))
    match phase with
    | .listing => goto (.dropping [])
    | .dropping (_ :: ks) => goto (.dropping ks)
    | .readXML => if plan.metadata.hasDomainXML then goto .readBack else none
    | .undefining _ => goto .readBack
    | .defining _ => goto .readBack
    | _ => none
  | _ => none

/-- The next step of a restore fails, and the restore returns an error. -/
def fail (s : Race) (i : ℕ) (junk : Option Image) : Option Race :=
  match s.calls i with
  | some (.checked _ _) => some (s.move i s.host s.transient none)
  | some (.running plan renamed phase) =>
    match phase with
    | .next (bd :: _) =>
      if plan.domain.definition.sources bd.name = none then
        some (s.move i s.host s.transient none)
      else none
    | .disk _ _ (st :: _) sc _ =>
      if st.canFail || (st.exec sc s.host.files).isNone then
        some (s.move i { s.host with files := st.wreck sc s.host.files junk } s.transient
          (some (.running plan renamed (.unwind sc))))
      else none
    | .readBack => some (s.move i s.host s.transient none)
    | _ => none
  | none => none

/-- One step of one call. -/
def step (s : Race) : RaceEvent → Option Race
  | .check i id =>
    match s.calls i with
    | some _ => none
    | none =>
      (s.host.restoreCheck id).map fun w =>
        s.move i s.host s.transient (some (.checked w.1 w.2))
  | .plan i rounds =>
    match s.calls i, s.host.domain with
    | some (.checked m dir), some dom =>
      match restoreChain rounds s.host.library m with
      | some (.ok chain) =>
        some (s.move i s.host s.transient
          (some (.running ⟨m, dir, dom, chain⟩ [] (.next m.disks))))
      | _ => none
    | _, _ => none
  | .act i => s.act i
  | .skip i => s.skip i
  | .fail i junk => s.fail i junk
  | .startCheck j =>
    match s.starts j, s.host.domain with
    | none, some dom =>
      match dom.state with
      | .running => none
      | .blocked => none
      | .paused => some { s with starts := Function.update s.starts j (some .willResume) }
      | .pmsuspended => some { s with starts := Function.update s.starts j (some .willResume) }
      | _ => some { s with starts := Function.update s.starts j (some .willCreate) }
    | _, _ => none
  | .create j =>
    s.host.domain.bind fun dom =>
      if s.starts j = some .willCreate ∧ dom.state = .shutoff then
        some { s with
          host := { s.host with domain := some { dom with state := .running } }
          starts := Function.update s.starts j none }
      else none
  | .resume j =>
    s.host.domain.bind fun dom =>
      if s.starts j = some .willResume ∧ (dom.state = .paused ∨ dom.state = .pmsuspended) then
        some { s with
          host := { s.host with domain := some { dom with state := .running } }
          starts := Function.update s.starts j none }
      else none
  | .startReturn j => some { s with starts := Function.update s.starts j none }
  | .powerOff =>
    some { s with
      host := { s.host with
        domain := if s.transient then none
          else s.host.domain.map fun dom => { dom with state := .shutoff } }
      transient := false }

end Race

/-! ## Safe steps -/

namespace Call

/-- The restore has passed its stopped check and still has a disk to put in place. -/
def Replacing : Call → Prop
  | checked _ _ => True
  | running _ _ (.next todo) => todo ≠ []
  | running _ _ (.disk todo _ rest _ _) => .rename ∈ rest ∨ todo ≠ []
  | _ => False

/-- The scratch files that the next step reads are as the restore left them. -/
def Undisturbed (fs : Files) : Call → Prop
  | running _ _ (.disk _ _ (st :: _) sc left) => ∀ p ∈ st.reads sc, fs p = left p
  | _ => True

/-- The restore has put `disk` of the plan onto volume `v`. -/
def Put (plan : RestorePlan) (disk v : String) : Option Call → Prop
  | some (running p renamed _) => p = plan ∧ (disk, v) ∈ renamed
  | _ => False

end Call

namespace Race

/-- No boot during a replacement, no scratch file lost to another restore, and no failure
of a restore that has put a disk in place. -/
def Safe (s : Race) : RaceEvent → Prop
  | .act i =>
    match s.calls i with
    | some c => c.Undisturbed s.host.files
    | none => True
  | .fail i _ => ∀ plan disk v, ¬ Call.Put plan disk v (s.calls i)
  | .create _ => ∀ i c, s.calls i = some c → ¬ c.Replacing
  | _ => True

/-- A step that replaces a disk image. -/
def Replaces (s : Race) : RaceEvent → Prop
  | .act i =>
    match s.calls i with
    | some (.running _ _ (.disk _ _ (.rename :: _) _ _)) => True
    | _ => False
  | _ => False

/-- No call is at work, and none has returned yet. -/
def Idle (s : Race) : Prop := (∀ i, s.calls i = none) ∧ (∀ j, s.starts j = none) ∧ s.done = []

/-- Every restore has returned. -/
def Returned (s : Race) : Prop := ∀ i, s.calls i = none

/-- What a volume holds at the end: an image assembled for it by a restore that succeeded,
or what it held before when no such restore covers it. -/
def Settled (s t : Race) (v : String) : Prop :=
  (∃ plan ∈ t.done, ∃ bd ∈ plan.metadata.disks,
    plan.domain.definition.sources bd.name = some v ∧
    ∃ img, assemble s.host.files plan.chain bd.name = some img ∧
      t.host.files (.volume v) = some img) ∨
  (∀ plan ∈ t.done, ∀ bd ∈ plan.metadata.disks,
    plan.domain.definition.sources bd.name ≠ some v) ∧
    t.host.files (.volume v) = s.host.files (.volume v)

end Race

end Ultrav
