import Ultrav.TaskRegistry

/-!
# The trim of the task history

`Start` drops ended tasks, oldest first, until the history is down to `maxHistory`. It ranges over
the list that every drop shifts, so its cursor passes by the task behind each dropped one.

* `Registry.trimFrom_view` — what the loop leaves, cell by cell of the shifted array.
* `Manager.Listed` — the registry a `Start` finds, with tasks in any statuses.
* `Manager.TrimsOldest` — the history without its oldest ended tasks.
* `trims_oldest_iff` — when `Start` leaves that.
-/

namespace Ultrav

/-- The task of a pointer has ended. -/
def ended (jobs : ℕ → Option Job) (p : ℕ) : Bool := (jobs p).any fun j => j.task.status.terminal

/-! ## The loop -/

namespace Registry

variable {jobs : ℕ → Option Job}

theorem ended_of_job {p : ℕ} {j : Job} (hj : jobs p = some j) :
    ended jobs p = j.task.status.terminal := by
  rw [ended, hj]
  rfl

/-- Behind the end of the list the loop finds nothing to drop. -/
theorem trimFrom_stale (n : ℕ) {r : Registry} :
    ∀ {k : ℕ}, r.order.len ≤ k → (∀ q ∈ r.order.cells.drop r.order.len, ended jobs q = false) →
      trimFrom jobs r k n = r := by
  induction n with
  | zero =>
    intro k _ _
    rfl
  | succ n ih =>
    intro k hk hstale
    rw [trimFrom]
    split
    · rfl
    · split
      · rfl
      · rename_i p t hpt
        obtain ⟨q, hq, hmap⟩ := Option.bind_eq_some_iff.mp hpt
        obtain ⟨j, hj, heq⟩ := Option.map_eq_some_iff.mp hmap
        cases heq
        have hmem : p ∈ r.order.cells.drop r.order.len := by
          refine List.mem_of_getElem? (i := k - r.order.len) ?_
          rw [List.getElem?_drop, Nat.add_sub_cancel' hk]
          exact hq
        have hlive := hstale p hmem
        rw [ended_of_job hj] at hlive
        rw [if_neg (by simp [hlive])]
        exact ih (Nat.le_succ_of_le hk) hstale

/-- The loop has passed `kept`, and `rest` is still before it. The last task of the list has not
ended, and what the drops leave behind the end is that task. -/
structure Cursor (jobs : ℕ → Option Job) (x : ℕ) (r : Registry) (kept rest : List ℕ) : Prop where
  view : r.order.view = kept ++ rest
  nodup : r.order.view.Nodup
  known : ∀ p ∈ r.order.view, ∃ j, jobs p = some j
  last : r.order.view.getLast? = some x
  stale : ∀ q ∈ r.order.cells.drop r.order.len, ended jobs q = false

section Cursor

variable {x : ℕ} {r : Registry} {kept rest : List ℕ} {a b : ℕ}

theorem Cursor.mem (h : Cursor jobs x r kept (a :: rest)) : a ∈ r.order.view := by
  rw [h.view]
  exact List.mem_append_right _ List.mem_cons_self

/-- What the loop reads. -/
theorem Cursor.cell (h : Cursor jobs x r kept (a :: rest)) {j : Job} (hj : jobs a = some j) :
    ((r.order.cells[kept.length]?).bind fun p => (jobs p).map fun j => (p, j.task)) =
      some (a, j.task) := by
  rw [Slice.getElem?_cells h.view, Option.bind_some, hj]
  rfl

/-- A task is passed. -/
theorem Cursor.pass (h : Cursor jobs x r kept (a :: rest)) : Cursor jobs x r (kept ++ [a]) rest :=
  { h with view := by rw [h.view, List.append_cons] }

/-- The last task is not dropped. -/
theorem Cursor.ne_last (h : Cursor jobs x r kept [a]) : a = x := by
  have hlast := h.last
  rw [h.view, List.getLast?_append_of_ne_nil _ (List.cons_ne_nil a [])] at hlast
  exact Option.some.inj hlast

/-- A task is dropped, and the cursor passes by the one behind it. -/
theorem Cursor.drop (h : Cursor jobs x r kept (a :: b :: rest)) (hx : ended jobs x = false)
    (t : Task) : Cursor jobs x (r.drop a t) (kept ++ [b]) rest := by
  have hnd := h.nodup
  rw [h.view] at hnd
  have hnot : a ∉ kept := fun ha => List.disjoint_of_nodup_append hnd ha List.mem_cons_self
  have hview : (r.drop a t).order.view = kept ++ b :: rest := by
    rw [Registry.drop, Slice.view_erase, h.view, List.erase_append_right _ hnot,
      List.erase_cons_head]
  have hsub : (r.drop a t).order.view.Sublist r.order.view := by
    rw [Registry.drop, Slice.view_erase]
    exact List.erase_sublist
  refine ⟨by rw [hview, List.append_cons], h.nodup.sublist hsub,
    fun p hp => h.known p (hsub.subset hp), ?_, ?_⟩
  · rw [hview, ← h.last, h.view, List.getLast?_append_of_ne_nil _ (List.cons_ne_nil b rest),
      List.getLast?_append_of_ne_nil _ (List.cons_ne_nil a _), List.getLast?_cons_cons]
  · rw [Registry.drop, Slice.drop_cells_erase h.mem h.last]
    intro q hq
    rcases List.mem_cons.mp hq with rfl | hq
    · exact hx
    · exact h.stale q hq

end Cursor

/-- **What the loop leaves**. -/
theorem trimFrom_view {x : ℕ} (hx : ended jobs x = false) (n : ℕ) :
    ∀ {r : Registry} {kept rest : List ℕ}, Cursor jobs x r kept rest → rest.length ≤ n →
      (trimFrom jobs r kept.length n).order.view =
        kept ++ dropSkipping (ended jobs) (r.order.len - maxHistory) rest := by
  induction n with
  | zero =>
    intro r kept rest h hlen
    obtain rfl := List.length_eq_zero_iff.mp (Nat.le_zero.mp hlen)
    rw [trimFrom, h.view]
    cases r.order.len - maxHistory <;> rfl
  | succ n ih =>
    intro r kept rest h hlen
    cases rest with
    | nil =>
      have hk : r.order.len ≤ kept.length := by
        rw [← Slice.length_view, h.view, List.append_nil]
      rw [trimFrom_stale _ hk h.stale, h.view]
      cases r.order.len - maxHistory <;> rfl
    | cons a rest =>
      rw [trimFrom]
      by_cases hcap : r.order.len ≤ maxHistory
      · rw [if_pos hcap, Nat.sub_eq_zero_of_le hcap, dropSkipping_zero, h.view]
      obtain ⟨j, hj⟩ := h.known a h.mem
      rw [if_neg hcap, h.cell hj]
      dsimp only
      rw [List.length_cons] at hlen
      obtain ⟨e, he⟩ : ∃ e, r.order.len - maxHistory = e + 1 :=
        Nat.exists_eq_succ_of_ne_zero (by omega)
      by_cases hend : j.task.status.terminal = true
      · have hpa : ended jobs a = true := (ended_of_job hj).trans hend
        rw [if_pos hend]
        cases rest with
        | nil =>
          rw [h.ne_last] at hpa
          cases hx.symm.trans hpa
        | cons b rest =>
          have hlen' : (r.drop a j.task).order.len - maxHistory = e := by
            rw [drop, Slice.len_erase h.mem]
            omega
          rw [List.length_cons] at hlen
          have hnext := ih (h.drop hx j.task) (by omega)
          rw [List.length_append, List.length_singleton, hlen'] at hnext
          rw [hnext, he, dropSkipping, if_pos hpa, List.append_assoc]
          rfl
      · have hpa : ¬ ended jobs a = true := fun h => hend ((ended_of_job hj).symm.trans h)
        have hnext := ih h.pass (by omega)
        rw [List.length_append, List.length_singleton] at hnext
        rw [if_neg hend, hnext, he, List.append_assoc]
        cases rest with
        | nil =>
          rw [dropSkipping, dropSkipping, if_neg hpa]
          rfl
        | cons b rest =>
          rw [dropSkipping.eq_4, if_neg hpa]
          rfl

end Registry

/-! ## The manager -/

namespace Manager

/-- The registry that `Start` finds: the tasks in it may have any status. -/
structure Listed (m : Manager) : Prop where
  ids : ∀ p j, m.jobs p = some j → j.task.id = taskID p
  sync : InSync m.order m.byID
  known : ∀ p ∈ m.order, ∃ j, m.jobs p = some j
  /-- the next number is not used yet -/
  fresh : m.seq + 1 ∉ m.order

theorem Registered.listed {m : Manager} (h : m.Registered) : m.Listed where
  ids := h.ids
  sync := h.sync
  known := h.known
  fresh hmem := by
    obtain ⟨j, hj⟩ := h.known _ hmem
    have := (h.tracked _ j hj).1
    omega

/-- `m'` has the history of `m` without its oldest ended tasks: so many of them that it is down to
`maxHistory`, or all of them. -/
structure TrimsOldest (m m' : Manager) : Prop where
  order : m'.order = dropFirst (ended m.jobs) (m.order.length - maxHistory) m.order
  byID : ∀ id p, m'.byID id = some p ↔ p ∈ m'.order ∧ taskID p = id

/-- Of the tasks that the trim is to drop, no two are neighbours in the history. -/
@[irreducible] def TrimSpaced (m : Manager) : Prop :=
  Spaced (ended m.jobs) (m.order.length - maxHistory) m.order

variable {m m' : Manager} {typ resourceID name : String} {fn : Bool} {now : Time}

/-- The trim, when the last task of the history has not ended. -/
theorem trim_order {x : ℕ} (hx : ended m.jobs x = false) (hlast : m.order.getLast? = some x)
    (hnd : m.order.Nodup) (hknown : ∀ p ∈ m.order, ∃ j, m.jobs p = some j) :
    m.trim.order = dropSkipping (ended m.jobs) (m.order.length - maxHistory) m.order := by
  rw [trim]
  dsimp only
  rw [trimmed]
  split
  · have hcursor : Registry.Cursor m.jobs x ⟨Slice.ofList m.order, m.byID⟩ [] m.order := by
      refine ⟨Slice.view_ofList _, ?_, ?_, ?_, ?_⟩
      · rwa [Slice.view_ofList]
      · rwa [Slice.view_ofList]
      · rwa [Slice.view_ofList]
      · intro q hq
        rw [Slice.ofList, List.drop_length] at hq
        cases hq
    have hview := Registry.trimFrom_view hx m.order.length hcursor (Nat.le_refl _)
    rw [List.nil_append] at hview
    exact hview
  · rename_i hcap
    rw [Nat.sub_eq_zero_of_le (Nat.le_of_not_lt hcap), dropSkipping_zero, Slice.view_ofList]

/-- The history that the trim works on. -/
theorem Listed.register (h : m.Listed) (typ resourceID name : String) (now : Time) :
    (m.register typ resourceID name now).order.Nodup ∧
      (m.register typ resourceID name now).order.getLast? = some (m.seq + 1) ∧
      ended (m.register typ resourceID name now).jobs (m.seq + 1) = false ∧
      (∀ p ∈ (m.register typ resourceID name now).order,
        ∃ j, (m.register typ resourceID name now).jobs p = some j) ∧
      (∀ p j, (m.register typ resourceID name now).jobs p = some j → j.task.id = taskID p) ∧
      InSync (m.register typ resourceID name now).order
        (m.register typ resourceID name now).byID := by
  have hsync := h.sync.concat h.fresh
  refine ⟨hsync.1, List.getLast?_concat, ?_, fun p hp => ?_, fun p j hj => ?_, hsync⟩
  · exact Registry.ended_of_job (Function.update_self _ _ _)
  · by_cases hnew : p = m.seq + 1
    · exact ⟨_, by rw [hnew]; exact Function.update_self _ _ _⟩
    · obtain ⟨j, hj⟩ := h.known p (by simpa [Manager.register, hnew] using hp)
      exact ⟨j, (Function.update_of_ne hnew _ _).trans hj⟩
  · rcases start_jobs_eq_some hj with ⟨rfl, rfl⟩ | hj
    · rfl
    · exact h.ids p j hj

/-- `Start` of a valid task. -/
theorem start_eq (htyp : taskTypeValid typ = true) :
    m.start typ resourceID name true now = .ok (m.register typ resourceID name now).trim := by
  rw [start, htyp]
  rfl

/-- Inversion for `Start`. -/
theorem start_eq_ok (hstart : m.start typ resourceID name fn now = .ok m') :
    m' = (m.register typ resourceID name now).trim := by
  rw [start] at hstart
  split at hstart
  · cases hstart
  · split at hstart <;> cases hstart
    rfl

/-- What is left is the history without its oldest ended tasks when no two of them are
neighbours. -/
theorem Listed.trim_order_iff (h : m.Listed) (typ resourceID name : String) (now : Time) :
    (m.register typ resourceID name now).trim.order =
        dropFirst (ended (m.register typ resourceID name now).jobs)
          ((m.register typ resourceID name now).order.length - maxHistory)
          (m.register typ resourceID name now).order ↔
      (m.register typ resourceID name now).TrimSpaced := by
  obtain ⟨hnd, hlast, hlive, hknown, -, -⟩ := h.register typ resourceID name now
  rw [trim_order hlive hlast hnd hknown, TrimSpaced]
  exact dropSkipping_eq_iff hnd

/-- The registry behind a `Start`. -/
theorem Listed.trims_oldest (h : m.Listed) (typ resourceID name : String) (now : Time) :
    TrimsOldest (m.register typ resourceID name now) (m.register typ resourceID name now).trim ↔
      (m.register typ resourceID name now).TrimSpaced := by
  obtain ⟨-, -, -, -, hids, hsync⟩ := h.register typ resourceID name now
  rw [← h.trim_order_iff]
  exact ⟨fun ht => ht.order, fun ht => ⟨ht, (trimmed_inv hids hsync).sync.2⟩⟩

/-- **The trim** of a `Start` drops the oldest ended tasks exactly when no two of them are
neighbours. -/
theorem trims_oldest_iff (h : m.Listed)
    (hstart : m.start typ resourceID name fn now = .ok m') :
    TrimsOldest (m.register typ resourceID name now) m' ↔
      (m.register typ resourceID name now).TrimSpaced := by
  obtain rfl := start_eq_ok hstart
  exact h.trims_oldest typ resourceID name now

end Manager

/-! ### Two neighbours -/

namespace NeighbourTasks

/-- The task of a number; the two oldest have ended. -/
def job (p : ℕ) : Job :=
  let t := Task.new (taskID p) "vm-create" "erp01" "erp01" 0
  if p ≤ 2 then ((Job.new t).begin 1).finish none 2 else .new t

/-- 501 tasks, of which the others have not begun. -/
def manager : Manager where
  seq := 501
  order := List.range' 1 501
  byID id := (List.range' 1 501).find? fun p => taskID p = id
  jobs p := if 1 ≤ p ∧ p ≤ 501 then some (job p) else none

theorem manager_jobs {p : ℕ} {j : Job} (h : manager.jobs p = some j) :
    p ∈ manager.order ∧ j = job p := by
  rw [manager] at h ⊢
  dsimp only at h ⊢
  split at h <;> cases h
  rename_i hp
  exact ⟨List.mem_range'_1.mpr (by omega), rfl⟩

theorem manager_listed : manager.Listed where
  ids p j hj := by
    obtain ⟨-, rfl⟩ := manager_jobs hj
    rw [job]
    split
    · exact Task.finish_id _ _ _ _
    · rfl
  sync := by
    refine ⟨List.nodup_range', fun id p => ?_⟩
    have hfind : manager.byID id = (List.range' 1 501).find? fun p => taskID p = id := rfl
    rw [hfind]
    constructor
    · intro h
      exact ⟨List.mem_of_find?_eq_some h, by simpa using List.find?_some h⟩
    · rintro ⟨hp, rfl⟩
      obtain ⟨q, hq⟩ := Option.isSome_iff_exists.mp
        (List.find?_isSome (p := fun q => taskID q = taskID p).mpr ⟨p, hp, decide_eq_true rfl⟩)
      have hid : taskID q = taskID p := by simpa using List.find?_some hq
      obtain rfl := taskID_injective hid
      exact hq
  known p hp := by
    have hp' := List.mem_range'_1.mp hp
    exact ⟨job p, if_pos (by omega)⟩
  fresh hmem := absurd (List.mem_range'_1.mp hmem).2 (by decide)

/-- Two tasks are to go, and they are neighbours. -/
theorem not_spaced : ¬ (manager.register "vm-create" "erp02" "erp02" 3).TrimSpaced := by
  have horder : (manager.register "vm-create" "erp02" "erp02" 3).order =
      1 :: 2 :: (List.range' 3 499 ++ [502]) := by
    rw [Manager.register, manager]
    dsimp only
    rw [List.range'_succ, List.range'_succ, List.cons_append, List.cons_append]
  have hexcess : (1 :: 2 :: (List.range' 3 499 ++ [502])).length - maxHistory = 2 := by
    simp [maxHistory]
  rw [Manager.TrimSpaced, horder, hexcess, Spaced]
  generalize hjobs : (manager.register "vm-create" "erp02" "erp02" 3).jobs = jobs
  have hone : ended jobs 1 = true := by rw [← hjobs]; rfl
  have htwo : ended jobs 2 = true := by rw [← hjobs]; rfl
  rw [if_pos hone]
  rintro ⟨h, -⟩
  cases (h Nat.one_pos 2 rfl).symm.trans htwo

end NeighbourTasks

theorem Manager.trims_oldest_iff_neighbours :
    ∃ m', NeighbourTasks.manager.start "vm-create" "erp02" "erp02" true 3 = .ok m' ∧
      (Manager.TrimsOldest (NeighbourTasks.manager.register "vm-create" "erp02" "erp02" 3) m' ↔
        (NeighbourTasks.manager.register "vm-create" "erp02" "erp02" 3).TrimSpaced) :=
  ⟨_, Manager.start_eq rfl,
    Manager.trims_oldest_iff NeighbourTasks.manager_listed (Manager.start_eq rfl)⟩

/-- The trim can keep an old task and drop none of the younger ones for it: two tasks are to go, and
the second one stays. -/
theorem trim_keeps_old_task :
    ¬ ∀ (m m' : Manager) (typ resourceID name : String) (fn : Bool) (now : Time), m.Listed →
      m.start typ resourceID name fn now = .ok m' →
      Manager.TrimsOldest (m.register typ resourceID name now) m' := by
  intro hall
  have hlisted := NeighbourTasks.manager_listed
  have h := hall NeighbourTasks.manager _ "vm-create" "erp02" "erp02" true 3 hlisted
    (Manager.start_eq rfl)
  exact NeighbourTasks.not_spaced ((hlisted.trims_oldest "vm-create" "erp02" "erp02" 3).mp h)

end Ultrav
