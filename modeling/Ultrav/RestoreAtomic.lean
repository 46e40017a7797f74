import Ultrav.Restore

/-!
# A failed restore and the disks

`RestoreBackup` renames the disks into place one at a time, so a failure on a later
disk comes after earlier disks have been replaced. `restoreBackup_error_unchanged_iff`
says exactly when a failed restore leaves every disk as it was.
-/

namespace Ultrav

/-- Whatever the restore gets through is already in place: the image it puts onto each
volume is the one the volume holds. -/
def RestorePlan.InPlace (plan : RestorePlan) (env : RestoreEnv) (fs : Files) : Prop :=
  ∀ v disk, lastOnto v (plan.restored env fs) = some disk →
    assemble fs plan.chain disk = fs (.volume v)

/-- A restore of images that are in place leaves every volume. -/
theorem volumes_of_inPlace {env : RestoreEnv} {h h' : Host} {id : String}
    {r : Except ProviderError Domain} {plan : RestorePlan}
    (hr : restoreBackup env h id = some (r, h')) (ho : openRestore env h id = some (.ok plan))
    (hin : plan.InPlace env h.files) : ∀ v, h'.files (.volume v) = h.files (.volume v) := by
  obtain ⟨-, -, hvol⟩ := restoreBackup_eq_some hr
  intro v
  rw [hvol plan ho v]
  rcases hd : lastOnto v (plan.restored env h.files) with _ | disk
  · rfl
  · exact hin v disk hd

/-- **A failed restore leaves every disk image exactly when the disks it got through
already held what it put there.** -/
theorem restoreBackup_error_unchanged_iff {env : RestoreEnv} {h h' : Host} {id : String}
    {e : ProviderError} (hr : restoreBackup env h id = some (.error e, h')) :
    (∀ v, h'.files (.volume v) = h.files (.volume v)) ↔
      ∀ plan, openRestore env h id = some (.ok plan) → plan.InPlace env h.files := by
  obtain ⟨-, -, hvol⟩ := restoreBackup_eq_some hr
  constructor
  · intro hsame plan ho v disk hd
    have hv := hvol plan ho v
    rw [hd] at hv
    exact hv.symm.trans (hsame v)
  · intro hplace v
    by_cases ho : ∃ plan, openRestore env h id = some (.ok plan)
    · obtain ⟨plan, ho⟩ := ho
      exact volumes_of_inPlace hr ho (hplace plan ho) v
    · rw [restoreBackup_refused hr fun plan hp => ho ⟨plan, hp⟩]

/-! ### A backup of two disks, one of them detached since -/

namespace Detached

/-- An image whose first block reads `v`. -/
def image (v : ℕ) : Image := ⟨.qcow2, none, fun b => if b = 0 then some v else none⟩

/-- The domain after `vdb` was detached. -/
def definition : Definition :=
  ⟨[⟨.disk, .qcow2, "vda", "/vm1-a.qcow2"⟩], List.nodup_singleton "vda"⟩

/-- The full backup taken before. -/
def point : Metadata :=
  ⟨"bk-1", "vm1", "vm1", .full, .complete, 0,
    [⟨"vda", "vda.qcow2", .qcow2, 1⟩, ⟨"vdb", "vdb.qcow2", .qcow2, 1⟩], true, "", "chk-1"⟩

/-- The stopped VM; its disk was written after the backup. -/
def host : Host where
  vm := "vm1"
  library := [⟨"vm1", "bk-1", some point, some definition, by decide⟩]
  files p :=
    if p = .volume "/vm1-a.qcow2" then some (image 2)
    else if p = .point "bk-1" "vda.qcow2" ∨ p = .point "bk-1" "vdb.qcow2" then some (image 1)
    else none
  domain := some ⟨definition, .shutoff, []⟩

end Detached

/-- The exact condition, at work on the detached disk. -/
theorem restoreBackup_error_unchanged_iff_detached :
    ∃ e h', restoreBackup (.smooth 1) Detached.host "bk-1" = some (.error e, h') ∧
      ((∀ v, h'.files (.volume v) = Detached.host.files (.volume v)) ↔
        ∀ plan, openRestore (.smooth 1) Detached.host "bk-1" = some (.ok plan) →
          plan.InPlace (.smooth 1) Detached.host.files) :=
  ⟨_, _, rfl, restoreBackup_error_unchanged_iff rfl⟩

/-- A failed restore can leave a disk replaced: the missing target of `vdb` is found only
after `vda` was renamed into place. -/
theorem restoreBackup_error_replaces_disk :
    ¬ ∀ (env : RestoreEnv) (h h' : Host) (id : String) (e : ProviderError),
      restoreBackup env h id = some (.error e, h') →
        ∀ v, h'.files (.volume v) = h.files (.volume v) := by
  intro hall
  have hsame := hall (.smooth 1) Detached.host _ "bk-1" _ rfl "/vm1-a.qcow2"
  have hread := congrArg (Option.map fun img => img.read 0) hsame
  revert hread
  decide

end Ultrav
