import Mathlib.Data.List.Basic
import Mathlib.Logic.Function.Basic

/-!
# Dirty logs: incremental copies of a changing memory

A memory `β → ν` is written cell by cell, and named checkpoints are put into its
history. Each checkpoint owns the cells written between it and the next newer one,
so the cells written *since* a checkpoint are those of its own set and of all newer
sets. Dropping a checkpoint hands its set to the next older one.

* `since` — the cells written since a checkpoint; `since_begin_ne`, `since_mark`,
  `mem_since_drop` say how it moves.
* `Covers` — every cell that differs from an old memory was written since the
  checkpoint; kept by every operation that keeps the checkpoint.
* `Delta` / `replay` — a partial copy that holds at least the changed cells, and
  the rebuilding of a memory from a base and a sequence of such copies.

Only writes that go through `mark` are seen: a cell changed behind the log's back
breaks `Covers` for good.
-/

namespace Ultrav

universe u v w

/-- Checkpoint names with the cells written after them, newest first. -/
abbrev DirtyLog (κ : Type u) (β : Type v) : Type (max u v) := List (κ × List β)

namespace DirtyLog

variable {κ : Type u} {β : Type v} {ν : Type w}

/-- The checkpoints of the log. -/
def names (L : DirtyLog κ β) : List κ := L.map Prod.fst

/-- A new checkpoint, with nothing written after it yet. -/
def begin (k : κ) (L : DirtyLog κ β) : DirtyLog κ β := (k, []) :: L

/-- A write: the newest checkpoint records the cell. -/
def mark (b : β) : DirtyLog κ β → DirtyLog κ β
  | [] => []
  | (k, bs) :: rest => (k, b :: bs) :: rest

@[simp] theorem names_begin (k : κ) (L : DirtyLog κ β) :
    (L.begin k).names = k :: L.names := rfl

@[simp] theorem names_mark (b : β) (L : DirtyLog κ β) : (L.mark b).names = L.names := by
  rcases L with _ | ⟨⟨k, bs⟩, rest⟩ <;> rfl

variable [DecidableEq κ]

/-- The cells written since checkpoint `k`. -/
def since (k : κ) : DirtyLog κ β → List β
  | [] => []
  | (j, bs) :: rest => if j = k then bs else bs ++ since k rest

/-- Drop checkpoint `k`: its cells go to the next older checkpoint. -/
def drop (k : κ) : DirtyLog κ β → DirtyLog κ β
  | [] => []
  | [(j, bs)] => if j = k then [] else [(j, bs)]
  | (j, bs) :: (i, cs) :: rest =>
    if j = k then (i, bs ++ cs) :: rest else (j, bs) :: drop k ((i, cs) :: rest)

/-- Drop, one after the other, the checkpoints whose name meets `p`. -/
def dropWhere (p : κ → Bool) (L : DirtyLog κ β) : DirtyLog κ β :=
  L.names.foldl (fun L k => if p k then L.drop k else L) L

theorem since_begin_ne {j k : κ} (hjk : j ≠ k) (L : DirtyLog κ β) :
    (L.begin j).since k = L.since k := by
  simp [begin, since, hjk]

theorem since_mark {k : κ} {b : β} {L : DirtyLog κ β} (hk : k ∈ L.names) :
    (L.mark b).since k = b :: L.since k := by
  rcases L with _ | ⟨⟨j, bs⟩, rest⟩
  · cases hk
  · by_cases hj : j = k
    · simp [mark, since, hj]
    · simp [mark, since, hj]

theorem names_drop (k : κ) :
    ∀ L : DirtyLog κ β, (L.drop k).names = L.names.erase k
  | [] => rfl
  | [(j, bs)] => by
      by_cases hj : j = k
      · simp [drop, names, hj]
      · simp [drop, names, hj]
  | (j, bs) :: (i, cs) :: rest => by
      by_cases hj : j = k
      · simp [drop, names, hj]
      · have ih := names_drop k ((i, cs) :: rest)
        simp only [names, List.map_cons] at ih
        simp [drop, names, hj, ih]

/-- Dropping one checkpoint leaves the cells written since another one. -/
theorem mem_since_drop {j k : κ} (hjk : j ≠ k) (b : β) :
    ∀ L : DirtyLog κ β, k ∈ L.names → (b ∈ (L.drop j).since k ↔ b ∈ L.since k)
  | [], hk => by cases hk
  | [(i, bs)], hk => by
      obtain rfl : k = i := by simpa [names] using hk
      simp [drop, Ne.symm hjk]
  | (i, bs) :: (h, cs) :: rest, hk => by
      by_cases hij : i = j
      · -- the head goes: `k` is older, and the head's cells move down to meet it
        have hik : i ≠ k := fun hh => hjk (hij.symm.trans hh)
        by_cases hhk : h = k
        · simp [drop, since, hij, hjk, hhk]
        · simp [drop, since, hij, hjk, hhk]
      · by_cases hik : i = k
        · simp [drop, since, hik, Ne.symm hjk]
        · have hk' : k ∈ names ((h, cs) :: rest) := by
            simpa [names, Ne.symm hik] using hk
          have ih := mem_since_drop hjk b ((h, cs) :: rest) hk'
          simp only [drop, if_neg hij]
          rw [since, since, if_neg hik, if_neg hik, List.mem_append, List.mem_append, ih]

/-- A property of logs that each drop keeps is kept by `dropWhere`. -/
theorem dropWhere_inv {I : DirtyLog κ β → Prop} (p : κ → Bool)
    (hdrop : ∀ L k, p k = true → I L → I (L.drop k)) {L : DirtyLog κ β} (hI : I L) :
    I (L.dropWhere p) := by
  rw [dropWhere]
  generalize L.names = ks
  induction ks generalizing L with
  | nil => exact hI
  | cons k ks ih =>
    rw [List.foldl_cons]
    by_cases hk : p k = true
    · rw [if_pos hk]
      exact ih (hdrop L k hk hI)
    · rw [if_neg hk]
      exact ih hI

/-- What `dropWhere` leaves was there before. -/
theorem mem_of_mem_dropWhere {p : κ → Bool} {k : κ} {L : DirtyLog κ β}
    (hk : k ∈ (L.dropWhere p).names) : k ∈ L.names :=
  dropWhere_inv (I := fun L' => k ∈ L'.names → k ∈ L.names) p
    (fun L' j _ ih h => ih (by rw [names_drop] at h; exact List.mem_of_mem_erase h)) id hk

theorem nodup_dropWhere {p : κ → Bool} {L : DirtyLog κ β} (hL : L.names.Nodup) :
    (L.dropWhere p).names.Nodup :=
  dropWhere_inv (I := fun L' => L'.names.Nodup) p
    (fun L' j _ h => by rw [names_drop]; exact h.erase j) hL

/-- With distinct names, `dropWhere` leaves no name that meets the predicate. -/
theorem not_mem_dropWhere {p : κ → Bool} {k : κ} (hp : p k = true) {L : DirtyLog κ β}
    (hL : L.names.Nodup) : k ∉ (L.dropWhere p).names := by
  have key : ∀ (ks : List κ) (M : DirtyLog κ β), M.names.Nodup → (k ∈ M.names → k ∈ ks) →
      k ∉ (ks.foldl (fun M j => if p j then M.drop j else M) M).names := by
    intro ks
    induction ks with
    | nil =>
      intro M _ hM hk
      exact absurd (hM hk) List.not_mem_nil
    | cons j ks ih =>
      intro M hnd hM
      rw [List.foldl_cons]
      by_cases hj : p j = true
      · rw [if_pos hj]
        have hnd' : (M.drop j).names.Nodup := by rw [names_drop]; exact hnd.erase j
        refine ih (M.drop j) hnd' fun hk => ?_
        rw [names_drop, hnd.mem_erase_iff] at hk
        rcases List.mem_cons.mp (hM hk.2) with h | h
        · exact absurd h hk.1
        · exact h
      · rw [if_neg hj]
        refine ih M hnd fun hk => ?_
        rcases List.mem_cons.mp (hM hk) with rfl | h
        · exact absurd hp hj
        · exact h
  exact key L.names L hL id

/-! ## What a checkpoint still knows -/

/-- Every cell that differs between the memories was written since `k`. -/
def Covers (L : DirtyLog κ β) (k : κ) (old new : β → ν) : Prop :=
  ∀ b, old b ≠ new b → b ∈ L.since k

theorem Covers.begin_self (k : κ) (L : DirtyLog κ β) (m : β → ν) :
    (L.begin k).Covers k m m := fun _ hb => absurd rfl hb

theorem Covers.begin_ne {j k : κ} {L : DirtyLog κ β} {old new : β → ν}
    (h : L.Covers k old new) (hjk : j ≠ k) : (L.begin j).Covers k old new := by
  intro b hb
  rw [since_begin_ne hjk]
  exact h b hb

/-- A marked write: the memories may differ in the cell from now on. -/
theorem Covers.write {k : κ} {L : DirtyLog κ β} {old new new' : β → ν}
    (h : L.Covers k old new) (hk : k ∈ L.names) {b : β} (hnew : ∀ c, c ≠ b → new' c = new c) :
    (L.mark b).Covers k old new' := by
  intro c hc
  rw [since_mark hk]
  by_cases hcb : c = b
  · rw [hcb]
    exact List.mem_cons_self
  · rw [hnew c hcb] at hc
    exact List.mem_cons_of_mem _ (h c hc)

theorem Covers.drop {j k : κ} {L : DirtyLog κ β} {old new : β → ν}
    (h : L.Covers k old new) (hk : k ∈ L.names) (hjk : j ≠ k) :
    (L.drop j).Covers k old new :=
  fun b hb => (mem_since_drop hjk b L hk).mpr (h b hb)

theorem Covers.dropWhere {p : κ → Bool} {k : κ} {L : DirtyLog κ β} {old new : β → ν}
    (h : L.Covers k old new) (hL : L.names.Nodup) (hk : k ∈ (L.dropWhere p).names) :
    (L.dropWhere p).Covers k old new := by
  have hkept := dropWhere_inv
    (I := fun M => M.names.Nodup ∧ (k ∈ M.names → M.Covers k old new)) p (fun M j _ hM => ?_)
    ⟨hL, fun _ => h⟩
  · exact hkept.2 hk
  · rw [names_drop]
    refine ⟨hM.1.erase j, fun hkj => ?_⟩
    rw [hM.1.mem_erase_iff] at hkj
    exact (hM.2 hkj.2).drop hkj.2 (Ne.symm hkj.1)

end DirtyLog

/-! ## Partial copies -/

section Delta

variable {β : Type v} {ν : Type w}

/-- `d` is a partial copy of `new` that holds every cell where `old` differs. -/
def Delta (old new : β → ν) (d : β → Option ν) : Prop :=
  ∀ b, d b = some (new b) ∨ d b = none ∧ old b = new b

/-- Put the cells of a partial copy over a memory. -/
def replay (m : β → ν) (d : β → Option ν) : β → ν := fun b => (d b).getD (m b)

/-- Replaying a delta over the old memory gives the new one. -/
theorem Delta.replay_eq {old new : β → ν} {d : β → Option ν} (h : Delta old new d) :
    replay old d = new := by
  funext b
  rcases h b with hb | ⟨hb, heq⟩
  · rw [replay, hb]
    rfl
  · rw [replay, hb]
    exact heq

/-- A copy of the cells a checkpoint knows to be written is a delta, on any part `cell` of
the memory. -/
theorem DirtyLog.Covers.delta {κ : Type u} [DecidableEq κ] {γ : Type*} {k : κ}
    {L : DirtyLog κ β} {old new : β → ν} (h : L.Covers k old new) (cell : γ → β)
    {d : γ → Option ν} (hd : ∀ c, cell c ∈ L.since k → d c = some (new (cell c)))
    (hn : ∀ c, cell c ∉ L.since k → d c = none) :
    Delta (fun c => old (cell c)) (fun c => new (cell c)) d := by
  intro c
  by_cases hc : cell c ∈ L.since k
  · exact .inl (hd c hc)
  · refine .inr ⟨hn c hc, ?_⟩
    by_contra hne
    exact hc (h (cell c) hne)

end Delta

end Ultrav
