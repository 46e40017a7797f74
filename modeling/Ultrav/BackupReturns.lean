import Ultrav.Machine
import Ultrav.Retention
import Mathlib.Data.List.Dedup
import Mathlib.Logic.Function.Basic

/-!
# What a backup call returns

`BackupVirtualMachine` completes its point, then lists the points of the machine and returns the
newest. Other calls and deletions run meanwhile; a listing reads one entry after the other.

* `Backups` — the library and the calls at work on it, `Backups.step` — what happens to them.
* `OwnNewest` — what a listing has to find: the point of its call, and no other that is as new.
* `returns_own_iff` — a call returns its own point exactly when its listing finds that.
* `backupVirtualMachine_run` / `deleteBackup_run` — calls of the model above, as runs.
-/

namespace Ultrav

/-! ## The directories of a machine -/

/-- What `RemoveAll` leaves of a directory, while it is at work or when it has stopped. -/
structure Removal where
  left : PointDir → Option PointDir
  remnant : ∀ d d', left d = some d' → d'.RemnantOf d

theorem none_remnant : ∀ d d' : PointDir, none = some d' → d'.RemnantOf d :=
  fun _ _ h => absurd h.symm (Option.some_ne_none _)

/-- Nothing is left. -/
def Removal.entire : Removal := ⟨fun _ => none, none_remnant⟩

namespace Library

/-- The entries of the directory of a machine that may be points. -/
def names (lib : Library) (vmID : String) : List String :=
  ((lib.filter fun d => d.vmID = vmID && idPattern d.id).map PointDir.id).dedup

/-- The completed point of an entry. -/
def shown (lib : Library) (vmID id : String) : Option Metadata :=
  (lib.find? fun d => d.vmID = vmID && d.id = id).bind PointDir.completed

/-- A removal is at work on a directory. -/
def remove (lib : Library) (vmID id : String) (rem : Removal) : Library :=
  lib.filterMap fun d => if d.vmID = vmID ∧ d.id = id then rem.left d else some d

theorem shown_keyed {lib : Library} {vmID id : String} {m : Metadata}
    (h : lib.shown vmID id = some m) : m.vmID = vmID ∧ m.id = id := by
  obtain ⟨d, hd, hm⟩ := Option.bind_eq_some_iff.mp h
  have hkey : d.vmID = vmID ∧ d.id = id := by simpa using List.find?_some hd
  rw [← hkey.1, ← hkey.2]
  exact PointDir.completed_keyed hm

end Library

/-! ## Calls -/

/-- The metadata `Create` starts from. -/
def Metadata.create (vmID id : String) (now : Time) : Metadata :=
  ⟨id, vmID, vmID, .full, .writing, now, [], false, "", ""⟩

/-- The point, the machine and the time are those of `Create`; the rest was filled in since. -/
def Metadata.Fills (m m₀ : Metadata) : Prop :=
  m.id = m₀.id ∧ m.vmID = m₀.vmID ∧ m.createdAt = m₀.createdAt

instance (m m₀ : Metadata) : Decidable (m.Fills m₀) := inferInstanceAs (Decidable (_ ∧ _ ∧ _))

/-- Where a call of `BackupVirtualMachine` is, with the metadata of its point. -/
inductive BackupCall where
  /-- the point was created, its images are being written -/
  | writing (m : Metadata)
  /-- `Complete` has returned -/
  | completed (m : Metadata)
  /-- `List` reads the entries `todo`, and has read `out` -/
  | listing (m : Metadata) (todo : List String) (out : List Metadata)
  /-- `Abort` -/
  | aborting (m : Metadata)

/-- What a call does to the library. A call that fails without touching it does nothing more. -/
inductive CallEvent where
  | create (vmID id : String) (now : Time)
  | writeDomainXML (D : Definition)
  | complete (m : Metadata)
  | abort (rem : Removal)
  /-- `os.ReadDir` -/
  | readDir
  /-- `pointFromDir` of the next entry -/
  | read

/-- A call takes a step. -/
def callStep (lib : Library) : Option BackupCall → CallEvent → Option (Library × BackupCall)
  | none, .create vmID id now =>
    if idSafe vmID && idPattern id then
      some (lib.mkdir vmID id, .writing (.create vmID id now))
    else none
  | some (.writing m₀), .writeDomainXML D =>
    some (lib.writeDomainXML m₀.vmID m₀.id D, .writing m₀)
  | some (.writing m₀), .complete m =>
    -- the file is written into the directory, which must be there
    if m.Fills m₀ ∧ (lib.any fun d => d.vmID = m₀.vmID && d.id = m₀.id) then
      some (lib.complete m, .completed { m with state := .complete })
    else none
  | some (.writing m₀), .abort rem => some (lib.remove m₀.vmID m₀.id rem, .aborting m₀)
  | some (.aborting m₀), .abort rem => some (lib.remove m₀.vmID m₀.id rem, .aborting m₀)
  | some (.completed m), .readDir => some (lib, .listing m (lib.names m.vmID) [])
  | some (.listing m (id :: todo) out), .read =>
    some (lib, .listing m todo (out ++ (lib.shown m.vmID id).toList))
  | _, _ => none

/-- The library, the calls at work on it, and the directories deletions have resolved. -/
structure Backups where
  library : Library
  calls : ℕ → Option BackupCall
  resolved : List (String × String)

namespace Backups

inductive Event where
  | call (c : ℕ) (e : CallEvent)
  /-- a `Store.Delete` has found the point of this id -/
  | resolve (id : String)
  /-- it removes entries of the directory -/
  | remove (vmID id : String) (rem : Removal)

def step (s : Backups) : Event → Option Backups
  | .call c e => (callStep s.library (s.calls c) e).map fun r =>
      { s with library := r.1, calls := Function.update s.calls c (some r.2) }
  | .resolve id =>
    match s.library.readableDir id with
    | .error _ => none
    | .ok d => some { s with resolved := (d.vmID, d.id) :: s.resolved }
  | .remove vmID id rem =>
    if (vmID, id) ∈ s.resolved then some { s with library := s.library.remove vmID id rem }
    else none

/-- No call has been made yet. -/
def start (lib : Library) : Backups := ⟨lib, fun _ => none, []⟩

/-- What the next step of a call has to find, for the call to return its own point: when the
directory is read the entry of the point is there, when the entry is read it shows the point, and
no other entry shows one that is not older. -/
def Finds (lib : Library) : Option BackupCall → CallEvent → Prop
  | some (.completed m), .readDir => m.id ∈ lib.names m.vmID
  | some (.listing m (id :: _) _), .read =>
    if id = m.id then lib.shown m.vmID id = some m
    else ∀ b, lib.shown m.vmID id = some b → b.createdAt < m.createdAt
  | _, _ => True

/-- The listing of call `c` finds its own point, and no other that is as new. -/
def OwnNewest (c : ℕ) (s : Backups) : Event → Prop
  | .call c' e => c' = c → Finds s.library (s.calls c) e
  | _ => True

/-! ## Steps of a listing -/

/-- Each entry is read once. -/
def ReadOnce : Option BackupCall → Prop
  | some (.listing _ todo out) => todo.Nodup ∧ ∀ b ∈ out, b.id ∉ todo
  | _ => True

/-- So far nothing was read that is as new as the own point, and that was read or will be. -/
def Newest : Option BackupCall → Prop
  | some (.listing m todo out) =>
    (∀ b ∈ out, b ≠ m → b.createdAt < m.createdAt) ∧ (m ∈ out ∨ m.id ∈ todo)
  | _ => True

variable {lib lib' : Library} {oc : Option BackupCall} {call : BackupCall} {e : CallEvent}

/-- What a call is after a step, as far as its listing goes. -/
theorem callStep_cases (h : callStep lib oc e = some (lib', call)) :
    (∃ m, oc = some (.completed m) ∧ e = .readDir ∧ call = .listing m (lib.names m.vmID) []) ∨
    (∃ m id todo out, oc = some (.listing m (id :: todo) out) ∧ e = .read ∧
      call = .listing m todo (out ++ (lib.shown m.vmID id).toList)) ∨
    ((∀ m todo out, oc ≠ some (.listing m todo out)) ∧ (∀ m todo out, call ≠ .listing m todo out) ∧
      e ≠ .readDir ∧ e ≠ .read) := by
  unfold callStep at h
  split at h
  · split at h <;> cases h
    exact .inr (.inr ⟨by simp, by simp, by simp, by simp⟩)
  · cases h
    exact .inr (.inr ⟨by simp, by simp, by simp, by simp⟩)
  · split at h <;> cases h
    exact .inr (.inr ⟨by simp, by simp, by simp, by simp⟩)
  · cases h
    exact .inr (.inr ⟨by simp, by simp, by simp, by simp⟩)
  · cases h
    exact .inr (.inr ⟨by simp, by simp, by simp, by simp⟩)
  · cases h
    exact .inl ⟨_, rfl, rfl, rfl⟩
  · cases h
    exact .inr (.inl ⟨_, _, _, _, rfl, rfl, rfl⟩)
  · cases h

/-- A listing that is not at its end goes on with the entries that are left. -/
theorem readOnce_step (hread : ReadOnce oc) (h : callStep lib oc e = some (lib', call)) :
    ReadOnce (some call) := by
  rcases callStep_cases h with ⟨m, rfl, rfl, rfl⟩ | ⟨m, id, todo, out, rfl, rfl, rfl⟩ |
    ⟨-, hcall, -, -⟩
  · exact ⟨List.nodup_dedup _, fun b hb => (by cases hb)⟩
  · obtain ⟨hnd, hout⟩ := hread
    rw [List.nodup_cons] at hnd
    refine ⟨hnd.2, fun b hb hmem => ?_⟩
    rcases List.mem_append.mp hb with hb | hb
    · exact hout b hb (List.mem_cons_of_mem _ hmem)
    · have hid := (Library.shown_keyed (Option.mem_toList.mp hb)).2
      exact hnd.1 (hid ▸ hmem)
  · cases call with
    | listing m todo out => exact absurd rfl (hcall m todo out)
    | _ => trivial

section Entry

variable {m : Metadata} {id : String} {todo : List String} {out : List Metadata}

/-- The own entry: it was not read before and is not read again. -/
theorem newest_read_own (hread : ReadOnce (some (.listing m (id :: todo) out))) (hid : id = m.id) :
    Newest (some (.listing m todo (out ++ (lib.shown m.vmID id).toList))) ↔
      Newest (some (.listing m (id :: todo) out)) ∧ lib.shown m.vmID id = some m := by
  obtain ⟨hnd, hout⟩ := hread
  have hnot : m ∉ out := fun hm => hout m hm (hid ▸ List.mem_cons_self)
  have hdone : m.id ∉ todo := hid ▸ (List.nodup_cons.mp hnd).1
  simp only [Newest, List.mem_append, Option.mem_toList, List.mem_cons]
  constructor
  · rintro ⟨hnew, (hm | hm) | hm⟩
    · exact absurd hm hnot
    · exact ⟨⟨fun b hb => hnew b (.inl hb), .inr (.inl hid.symm)⟩, hm⟩
    · exact absurd hm hdone
  · rintro ⟨⟨hnew, -⟩, hm⟩
    refine ⟨fun b hb hne => ?_, .inl (.inr hm)⟩
    rcases hb with hb | hb
    · exact hnew b hb hne
    · exact absurd (Option.some.inj (hb.symm.trans hm)) hne

/-- The entry of another point. -/
theorem newest_read_other (hid : id ≠ m.id) :
    Newest (some (.listing m todo (out ++ (lib.shown m.vmID id).toList))) ↔
      Newest (some (.listing m (id :: todo) out)) ∧
        ∀ b, lib.shown m.vmID id = some b → b.createdAt < m.createdAt := by
  have hshown : ∀ b, lib.shown m.vmID id = some b → b.id = id := fun b hb =>
    (Library.shown_keyed hb).2
  simp only [Newest, List.mem_append, Option.mem_toList, List.mem_cons]
  constructor
  · rintro ⟨hnew, hm⟩
    refine ⟨⟨fun b hb => hnew b (.inl hb), ?_⟩, fun b hb => hnew b (.inr hb) ?_⟩
    · rcases hm with (hm | hm) | hm
      · exact .inl hm
      · exact absurd (hshown m hm).symm hid
      · exact .inr (.inr hm)
    · rintro rfl
      exact hid (hshown b hb).symm
  · rintro ⟨⟨hnew, hm⟩, hother⟩
    refine ⟨fun b hb hne => hb.elim (fun hb => hnew b hb hne) (hother b), ?_⟩
    rcases hm with hm | hm | hm
    · exact .inl (.inl hm)
    · exact absurd hm.symm hid
    · exact .inr hm

end Entry

/-- **One step of a listing** keeps the own point the newest exactly when it finds it so. -/
theorem newest_step (hread : ReadOnce oc) (h : callStep lib oc e = some (lib', call)) :
    Newest (some call) ↔ Newest oc ∧ Finds lib oc e := by
  rcases callStep_cases h with ⟨m, rfl, rfl, rfl⟩ | ⟨m, id, todo, out, rfl, rfl, rfl⟩ |
    ⟨hoc, hcall, hdir, hread'⟩
  · simp [Newest, Finds]
  · rw [Finds]
    split
    · rename_i hid
      exact newest_read_own hread hid
    · rename_i hid
      exact newest_read_other hid
  · have hnew : Newest oc := by
      cases oc with
      | none => trivial
      | some x =>
        cases x with
        | listing m todo out => exact absurd rfl (hoc m todo out)
        | _ => trivial
    have hnew' : Newest (some call) := by
      cases call with
      | listing m todo out => exact absurd rfl (hcall m todo out)
      | _ => trivial
    have hfinds : Finds lib oc e := by
      unfold Finds
      split
      · exact absurd rfl hdir
      · exact absurd rfl hread'
      · trivial
    exact iff_of_true hnew' ⟨hnew, hfinds⟩

/-! ## Runs -/

variable {s s' : Backups} {ev : Event}

theorem step_call {c : ℕ} (hl : s.library = lib) (hc : s.calls c = oc)
    (h : callStep lib oc e = some (lib', call)) :
    ∃ s', s.step (.call c e) = some s' ∧ s'.library = lib' ∧ s'.calls c = some call :=
  ⟨⟨lib', Function.update s.calls c (some call), s.resolved⟩,
    by rw [step, hl, hc, h, Option.map_some], rfl, Function.update_self _ _ _⟩

/-- What one event does to a call. -/
theorem step_calls (c : ℕ) (h : s.step ev = some s') :
    (s'.calls c = s.calls c ∧ ∀ e, ev ≠ .call c e) ∨
      ∃ e lib call, ev = .call c e ∧ callStep s.library (s.calls c) e = some (lib, call) ∧
        s'.calls c = some call := by
  cases ev with
  | call c' e =>
    obtain ⟨⟨lib, call⟩, hstep, rfl⟩ := Option.map_eq_some_iff.mp h
    by_cases hc : c' = c
    · subst hc
      exact .inr ⟨e, lib, call, rfl, hstep, Function.update_self _ _ _⟩
    · refine .inl ⟨Function.update_of_ne (Ne.symm hc) _ _, fun e' he => hc ?_⟩
      injection he
  | resolve id =>
    rw [step] at h
    split at h <;> cases h
    exact .inl ⟨rfl, by simp⟩
  | remove vmID id rem =>
    rw [step] at h
    split at h <;> cases h
    exact .inl ⟨rfl, by simp⟩

theorem ownNewest_of_ne {c : ℕ} (h : ∀ e, ev ≠ .call c e) : OwnNewest c s ev := by
  cases ev with
  | call c' e =>
    intro hc
    subst hc
    exact absurd rfl (h e)
  | _ => trivial

theorem readOnce_calls (c : ℕ) (hread : ReadOnce (s.calls c)) (h : s.step ev = some s') :
    ReadOnce (s'.calls c) := by
  rcases step_calls c h with ⟨hsame, -⟩ | ⟨e, lib, call, -, hcall, hc⟩
  · rwa [hsame]
  · rw [hc]
    exact readOnce_step hread hcall

theorem newest_calls (c : ℕ) (hread : ReadOnce (s.calls c)) (h : s.step ev = some s') :
    Newest (s'.calls c) ↔ Newest (s.calls c) ∧ OwnNewest c s ev := by
  rcases step_calls c h with ⟨hsame, hother⟩ | ⟨e, lib, call, rfl, hcall, hc⟩
  · rw [hsame]
    exact (and_iff_left (ownNewest_of_ne hother)).symm
  · rw [hc, newest_step hread hcall]
    exact and_congr_right fun _ => ⟨fun hf _ => hf, fun hf => hf rfl⟩

/-- **Every interleaving**: a call that has listed the library returns its own point, whatever the
sort does with equal times, exactly when its listing found that point, and else only older ones. -/
theorem returns_own_iff {es : List Event} {c : ℕ} {m : Metadata} {out : List Metadata}
    (hrun : Machine.run step (start lib) es = some s)
    (hret : s.calls c = some (.listing m [] out)) :
    (∀ srt : SortDesc Metadata Metadata.createdAt, (srt.sort out).head? = some m) ↔
      Machine.Along step (OwnNewest c) (start lib) es := by
  have hread : ReadOnce ((start lib).calls c) := trivial
  have hnewest : Newest (s.calls c) ↔
      Newest ((start lib).calls c) ∧ Machine.Along step (OwnNewest c) (start lib) es :=
    Machine.run_iff_along (I := fun s => ReadOnce (s.calls c)) (P := fun s => Newest (s.calls c))
      (fun _ _ _ hread h => readOnce_calls c hread h)
      (fun _ _ _ hread h => newest_calls c hread h) hread hrun
  have hstart : Newest ((start lib).calls c) := trivial
  rw [SortDesc.forall_head?_sort, ← and_iff_right hstart (b := Machine.Along _ _ _ _), ← hnewest,
    hret]
  -- at the end of the listing no entry is left to be read
  simp only [Newest, List.not_mem_nil, or_false]
  exact and_comm

/-- A completed point without disks. -/
def point (id : String) (now : Time) : Metadata :=
  { Metadata.create "erp01" id now with state := .complete }

/-- A call with nobody else at work. -/
theorem returns_own_iff_alone :
    (∀ srt : SortDesc Metadata Metadata.createdAt,
      (srt.sort [point "bk-a" 0]).head? = some (point "bk-a" 0)) ↔
    Machine.Along step (OwnNewest 1) (start [])
      [.call 1 (.create "erp01" "bk-a" 0), .call 1 (.complete (point "bk-a" 0)), .call 1 .readDir,
        .call 1 .read] :=
  returns_own_iff rfl rfl

/-- Two calls on one machine; the one that started first completes last. -/
def overlapping : List Event :=
  [.call 1 (.create "erp01" "bk-a" 0), .call 2 (.create "erp01" "bk-b" 1),
    .call 2 (.complete (point "bk-b" 1)), .call 1 (.complete (point "bk-a" 0)), .call 1 .readDir,
    .call 1 .read, .call 1 .read]

/-- It returns the point of the other call. -/
theorem overlapping_returns_other : ∃ s, Machine.run step (start []) overlapping = some s ∧
    s.calls 1 = some (.listing (point "bk-a" 0) [] [point "bk-a" 0, point "bk-b" 1]) ∧
    ∀ srt : SortDesc Metadata Metadata.createdAt,
      (srt.sort [point "bk-a" 0, point "bk-b" 1]).head? = some (point "bk-b" 1) := by
  refine ⟨_, rfl, rfl, fun srt => srt.head?_sort (by decide) ?_⟩
  decide

end Backups

/-! ## Calls of the provider, as runs -/

/-- Directories are told apart by their names. -/
def Library.Keyed (lib : Library) : Prop := (lib.map fun d => (d.vmID, d.id)).Nodup

namespace Library

variable {lib : Library}

theorem Keyed.mkdir (h : lib.Keyed) (vmID id : String) : (lib.mkdir vmID id).Keyed := by
  rw [Library.mkdir]
  split
  · exact h
  · rename_i hnew
    rw [Keyed, List.map_append, List.nodup_append]
    refine ⟨h, List.nodup_singleton _, fun key hkey key' hkey' heq => hnew ?_⟩
    obtain ⟨d, hd, rfl⟩ := List.mem_map.mp hkey
    rw [List.map_singleton, List.mem_singleton] at hkey'
    obtain ⟨hvm, hid⟩ : d.vmID = vmID ∧ d.id = id := Prod.mk.inj (heq.trans hkey')
    exact List.any_eq_true.mpr ⟨d, hd, by simpa using And.intro hvm hid⟩

theorem mem_mkdir (lib : Library) (vmID id : String) :
    ∃ d ∈ lib.mkdir vmID id, d.vmID = vmID ∧ d.id = id := by
  rw [Library.mkdir]
  split
  · rename_i h
    obtain ⟨d, hd, hkey⟩ := List.any_eq_true.mp h
    exact ⟨d, hd, by simpa using hkey⟩
  · exact ⟨.empty vmID id, List.mem_append_right _ List.mem_cons_self, rfl, rfl⟩

/-- Writing into directories does not rename them. -/
theorem Keyed.map (h : lib.Keyed) {f : PointDir → PointDir}
    (hf : ∀ d, (f d).vmID = d.vmID ∧ (f d).id = d.id) : Keyed (lib.map f) := by
  rw [Keyed, List.map_map, List.map_congr_left (g := fun d => (d.vmID, d.id))]
  · exact h
  · intro d _
    rw [Function.comp_apply, (hf d).1, (hf d).2]

theorem Keyed.writeDomainXML (h : lib.Keyed) (vmID id : String) (D : Definition) :
    (lib.writeDomainXML vmID id D).Keyed :=
  h.map fun d => by split <;> exact ⟨rfl, rfl⟩

theorem Keyed.complete (h : lib.Keyed) (m : Metadata) : (lib.complete m).Keyed :=
  h.map fun d => by split <;> exact ⟨rfl, rfl⟩

/-- A directory is found by its name. -/
theorem Keyed.find (h : lib.Keyed) {d : PointDir} (hd : d ∈ lib) :
    (lib.find? fun e => e.vmID = d.vmID && e.id = d.id) = some d := by
  induction lib with
  | nil => cases hd
  | cons e lib ih =>
    rw [Keyed, List.map_cons, List.nodup_cons] at h
    rcases List.mem_cons.mp hd with rfl | hd
    · exact List.find?_cons_of_pos (by simp)
    · rw [List.find?_cons_of_neg]
      · exact ih h.2 hd
      · intro hp
        have hkey : e.vmID = d.vmID ∧ e.id = d.id := by simpa using hp
        refine h.1 (List.mem_map.mpr ⟨d, hd, ?_⟩)
        rw [hkey.1, hkey.2]

/-- Reading the entries one after the other finds the completed points. -/
theorem Keyed.filterMap_shown (h : lib.Keyed) (vmID : String) :
    (lib.names vmID).filterMap (lib.shown vmID) = lib.completed vmID := by
  have hmem : ∀ d ∈ lib.filter fun d => d.vmID = vmID && idPattern d.id,
      d ∈ lib ∧ d.vmID = vmID := by
    intro d hd
    obtain ⟨hd, hp⟩ := List.mem_filter.mp hd
    have hp' : d.vmID = vmID ∧ idPattern d.id = true := by simpa using hp
    exact ⟨hd, hp'.1⟩
  have hnd : ((lib.filter fun d => d.vmID = vmID && idPattern d.id).map PointDir.id).Nodup := by
    refine List.Nodup.of_map (fun id => (vmID, id)) ?_
    rw [List.map_map, List.map_congr_left (g := fun d => (d.vmID, d.id))]
    · exact List.Nodup.sublist (List.filter_sublist.map _) h
    · intro d hd
      rw [Function.comp_apply, (hmem d hd).2]
  rw [names, hnd.dedup, List.filterMap_map, completed]
  refine List.filterMap_congr fun d hd => ?_
  obtain ⟨hlib, rfl⟩ := hmem d hd
  rw [Function.comp_apply, shown, h.find hlib, Option.bind_some]

end Library

section Provider

variable {srt : SortDesc Metadata Metadata.createdAt} {env : BackupEnv} {h h' : Host}
  {dom : Domain} {vm : String} {req : Option CreateType}

/-- The type says whether there is a parent. -/
def Metadata.Typed (m : Metadata) : Prop :=
  m.type = if m.parentID = "" then .full else .incremental

/-- What a backup that succeeds did to the library. -/
def CompletesPoint (env : BackupEnv) (lib lib' : Library) (vm : String) (D : Definition) : Prop :=
  idSafe vm = true ∧ ∃ m : Metadata, m.Fills (.create vm env.id env.now) ∧ m.Typed ∧
    lib' = ((lib.mkdir vm env.id).writeDomainXML vm env.id D).complete m

theorem completePoint_library {D : Definition} {m : Metadata} {lib : Library}
    (hsafe : idSafe vm = true) (hm : m.Fills (.create vm env.id env.now)) (htype : m.Typed)
    (hlib : h.library = lib.mkdir vm env.id) (hr : completePoint env h D m = (.ok (), h')) :
    CompletesPoint env lib h'.library vm D := by
  obtain ⟨hid, hvm, hnow⟩ := hm
  rw [completePoint] at hr
  split at hr
  · cases hr
  dsimp only at hr
  split at hr
  · cases hr
  · cases hr
    obtain ⟨disks, heq, -⟩ := recordDiskSizes_eq env.stat (m.setDomainXML true)
    rw [heq, hlib, hid, hvm]
    exact ⟨hsafe, { m.setDomainXML true with disks := disks }, ⟨hid, hvm, hnow⟩, htype, rfl⟩

theorem backupOnline_library {parentID parentCheckpoint : String}
    (hr : backupOnline env h dom vm parentID parentCheckpoint = some (.ok (), h')) :
    CompletesPoint env h.library h'.library vm dom.definition := by
  rw [backupOnline] at hr
  split at hr
  · cases hr
  rename_i hsafe
  split at hr
  · cases hr
  dsimp only at hr
  split at hr
  · cases hr
  split at hr
  · cases hr
  split at hr
  · cases hr
  split at hr
  · cases hr
  · cases hr
  split at hr
  · have hm : (onlinePoint env dom vm parentID).Fills (.create vm env.id env.now) ∧
        (onlinePoint env dom vm parentID).Typed := by
      obtain ⟨disks, heq, -⟩ := diskPath_foldl dom.definition.fileDisks
        ((if parentID = "" then newPoint env vm else (newPoint env vm).setParent
          parentID).setCheckpoint (checkpointName env.id))
      rw [onlinePoint, heq]
      by_cases hp : parentID = ""
      · rw [if_pos hp]
        exact ⟨⟨rfl, rfl, rfl⟩, (if_pos rfl).symm⟩
      · rw [if_neg hp]
        exact ⟨⟨rfl, rfl, rfl⟩, (if_neg hp).symm⟩
    refine completePoint_library (by simpa using hsafe) hm.1 hm.2 ?_ (Option.some.inj hr)
    rw [Host.guestWrites_eq env.writes rfl]
    rfl
  · cases hr

theorem backupOffline_library (hr : backupOffline env h dom vm = (.ok (), h')) :
    CompletesPoint env h.library h'.library vm dom.definition := by
  rw [backupOffline] at hr
  split at hr
  · cases hr
  rename_i hsafe
  split at hr
  · cases hr
  dsimp only at hr
  split at hr
  · cases hr
  split at hr
  · cases hr
  · rename_i m fs hc
    obtain ⟨-, hok⟩ := copyDisks_eq dom.definition.fileDisks_nodup hc
    obtain ⟨disks, heq, -⟩ := diskPath_foldl dom.definition.fileDisks (newPoint env vm)
    have hm : m.Fills (.create vm env.id env.now) ∧ m.Typed := by
      rw [(hok m rfl).1, heq]
      exact ⟨⟨rfl, rfl, rfl⟩, (if_pos rfl).symm⟩
    exact completePoint_library (by simpa using hsafe) hm.1 hm.2 rfl hr

/-- A successful backup completed its point and lists the library it left. -/
theorem backupVirtualMachine_library {r : Option Metadata}
    (hr : backupVirtualMachine srt env h vm req = some (.ok r, h')) :
    r = (srt.sort (h'.library.completed vm)).head? ∧
      ∃ D, CompletesPoint env h.library h'.library vm D := by
  rw [backupVirtualMachine] at hr
  split at hr
  · cases hr
  split at hr
  · cases hr
  rename_i dom hdom
  split at hr
  · cases hr
  obtain ⟨⟨r₁, h₁⟩, hrun, hr⟩ := Option.map_eq_some_iff.mp hr
  rcases r₁ with e | ⟨⟨⟩⟩
  · cases hr
  dsimp only at hr
  split at hr
  · cases hr
  · rename_i ms hlist
    cases hr
    refine ⟨congrArg List.head? (Library.list_eq_ok hlist).2, dom.definition, ?_⟩
    split at hrun
    · exact backupOffline_library (Option.some.inj hrun)
    · exact backupOnline_library hrun

/-- The point is created, written and completed, and the directory is read. -/
theorem Backups.run_complete {id : String} {now : Time} (hsafe : idSafe vm = true)
    (hid : idPattern id = true) (lib : Library) (D : Definition) {m : Metadata}
    (hm : m.Fills (.create vm id now)) :
    ∃ events s, Machine.run step (start lib) events = some s ∧
      s.library = ((lib.mkdir vm id).writeDomainXML vm id D).complete m ∧
      s.calls 0 = some (.listing { m with state := .complete } (s.library.names vm) []) := by
  obtain ⟨d, hd, hkey⟩ := Library.mem_mkdir lib vm id
  have hany : (((lib.mkdir vm id).writeDomainXML vm id D).any fun d =>
      d.vmID = vm && d.id = id) = true := by
    refine List.any_eq_true.mpr ⟨{ d with domainXML := some D }, ?_, by simpa using hkey⟩
    exact List.mem_map.mpr ⟨d, hd, if_pos hkey⟩
  have hvm : m.vmID = vm := hm.2.1
  let lib₁ := lib.mkdir vm id
  let lib₂ := lib₁.writeDomainXML vm id D
  let lib₃ := lib₂.complete m
  let writing : BackupCall := .writing (.create vm id now)
  let completed : BackupCall := .completed { m with state := .complete }
  let listing : BackupCall := .listing { m with state := .complete } (lib₃.names vm) []
  have hcreate : callStep lib none (.create vm id now) = some (lib₁, writing) := by
    rw [callStep, hsafe, hid]
    rfl
  have hcomplete : callStep lib₂ writing (.complete m) = some (lib₃, completed) :=
    if_pos ⟨hm, hany⟩
  have hreadDir : callStep lib₃ completed .readDir = some (lib₃, listing) := by
    rw [show listing = .listing _ (lib₃.names m.vmID) [] by rw [hvm]]
    rfl
  have hwrite : callStep lib₁ writing (.writeDomainXML D) = some (lib₂, writing) := rfl
  obtain ⟨s₁, hs₁, hl₁, hc₁⟩ := step_call (s := start lib) (c := 0) rfl rfl hcreate
  obtain ⟨s₂, hs₂, hl₂, hc₂⟩ := step_call hl₁ hc₁ hwrite
  obtain ⟨s₃, hs₃, hl₃, hc₃⟩ := step_call hl₂ hc₂ hcomplete
  obtain ⟨s₄, hs₄, hl₄, hc₄⟩ := step_call hl₃ hc₃ hreadDir
  refine ⟨[.call 0 (.create vm id now), .call 0 (.writeDomainXML D), .call 0 (.complete m),
    .call 0 .readDir], s₄, Machine.run_cons_of hs₁ (Machine.run_cons_of hs₂
    (Machine.run_cons_of hs₃ (Machine.run_cons_of hs₄ rfl))), hl₄, ?_⟩
  rw [hl₄]
  exact hc₄

/-- The entries of a listing that nobody disturbs. -/
theorem Backups.run_read {s : Backups} {c : ℕ} {m : Metadata} {todo : List String} :
    ∀ {out : List Metadata}, s.calls c = some (.listing m todo out) →
      ∃ events s', Machine.run step s events = some s' ∧ s'.library = s.library ∧
        s'.calls c = some (.listing m [] (out ++ todo.filterMap (s.library.shown m.vmID))) := by
  induction todo generalizing s with
  | nil =>
    intro out hc
    exact ⟨[], s, rfl, rfl, by simpa using hc⟩
  | cons id todo ih =>
    intro out hc
    obtain ⟨s₁, hs₁, hl₁, hc₁⟩ := step_call (e := .read) rfl hc rfl
    obtain ⟨events, s', hrun, hlib, hc'⟩ := ih hc₁
    rw [hl₁] at hlib hc'
    refine ⟨.call c .read :: events, s', Machine.run_cons_of hs₁ hrun, hlib, hc'.trans ?_⟩
    rw [List.filterMap_cons]
    cases hshown : s.library.shown m.vmID id with
    | none => simp
    | some b => simp

/-- **A successful backup** is a run of one call, and returns what that call returns. -/
theorem backupVirtualMachine_run {r : Option Metadata} (hkey : h.library.Keyed)
    (hr : backupVirtualMachine srt env h vm req = some (.ok r, h')) :
    ∃ s events m out, Machine.run Backups.step (Backups.start h.library) events = some s ∧
      s.library = h'.library ∧ s.calls 0 = some (.listing m [] out) ∧ m.id = env.id ∧
      m.vmID = vm ∧ r = (srt.sort out).head? := by
  obtain ⟨hres, D, hsafe, m, ⟨hid, hvm, hnow⟩, -, hlib⟩ := backupVirtualMachine_library hr
  have hkey' : h'.library.Keyed := by
    rw [hlib]
    exact ((hkey.mkdir vm env.id).writeDomainXML vm env.id D).complete m
  obtain ⟨events, t, hrun, htlib, hlisting⟩ := Backups.run_complete hsafe env.id_valid h.library D
    ⟨hid, hvm, hnow⟩
  obtain ⟨reads, s, hreads, hslib, hcall⟩ := Backups.run_read hlisting
  refine ⟨s, events ++ reads, { m with state := .complete }, _, ?_,
    hslib.trans (htlib.trans hlib.symm), hcall, hid, hvm, ?_⟩
  · rw [Machine.run_append, hrun]
    exact hreads
  · rw [hres, ← hkey'.filterMap_shown vm, List.nil_append, htlib, ← hlib]
    exact congrArg (fun v => (srt.sort ((h'.library.names vm).filterMap
      (h'.library.shown v))).head?) hvm.symm

/-- What a deletion does, whatever calls are at work: the directory of the point is resolved and
removed. -/
theorem deleteBackup_events (denv : DeleteEnv) (hnd : (h.library.map PointDir.id).Nodup)
    (id : String) : ∃ events : List Backups.Event, (∀ e ∈ events, ∀ c e', e ≠ .call c e') ∧
      ∀ s : Backups, s.library = h.library → ∃ s', Machine.run Backups.step s events = some s' ∧
        s'.library = (deleteBackup denv h id).2.library ∧ s'.calls = s.calls := by
  rcases hget : h.library.get id with e | m
  · refine ⟨[], nofun, fun s hs => ⟨s, rfl, ?_, rfl⟩⟩
    rw [deleteBackup, hget]
    cases e with
    | notFound => exact hs
    | invalidID => exact hs
  · obtain rfl := Library.get_keyed hget
    obtain ⟨d, hd, hm⟩ := Library.get_eq_ok hget
    obtain ⟨hmem, hid⟩ := Library.mem_of_pointDir hd
    have hread : h.library.readableDir m.id = .ok d := by
      rw [Library.readableDir, hd]
      exact if_pos (by rw [(PointDir.completed_eq_some.mp hm).1]; rfl)
    let rem : Removal := ⟨denv.left, fun _ _ => DeleteEnv.left_remnant⟩
    refine ⟨[.resolve m.id, .remove d.vmID d.id rem], by simp, fun s hs =>
      ⟨⟨h.library.remove d.vmID d.id rem, s.calls, (d.vmID, d.id) :: s.resolved⟩, ?_, ?_, rfl⟩⟩
    · simp [Machine.run, Backups.step, hs, hread]
    · rw [deleteBackup_library denv hnd hget]
      refine List.filterMap_congr fun e he => ?_
      by_cases heid : e.id = m.id
      · obtain rfl : e = d := List.inj_on_of_nodup_map hnd he hmem (heid.trans hid.symm)
        rw [if_pos ⟨rfl, rfl⟩, if_pos heid]
      · rw [if_neg fun hp => heid (hp.2.trans hid), if_neg heid]

/-- **A deletion** is a run in which the directory of the point is resolved and removed. -/
theorem deleteBackup_run (denv : DeleteEnv) (hnd : (h.library.map PointDir.id).Nodup)
    (id : String) : ∃ s events, Machine.run Backups.step (Backups.start h.library) events = some s ∧
      s.library = (deleteBackup denv h id).2.library := by
  obtain ⟨events, -, hevents⟩ := deleteBackup_events denv hnd id
  obtain ⟨s, hrun, hlib, -⟩ := hevents (.start h.library) rfl
  exact ⟨s, events, hrun, hlib⟩

end Provider

end Ultrav
