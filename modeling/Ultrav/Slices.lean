import Mathlib.Data.List.Sort

/-!
# Slices

The slice idioms of Go whose behaviour a proof has to pin down.

* `SortDesc` — `sort.Slice` with a "later first" comparison: some reordering that
  ends sorted. Equal keys may come out in any order, so nothing more is promised.
* `setFirst` — the loop that replaces the first matching element in place.
-/

namespace Ultrav

universe u v

/-- `sort.Slice(xs, key descending)`: not stable, only sorted. -/
structure SortDesc (α : Type u) {τ : Type v} [LinearOrder τ] (key : α → τ) where
  /-- the reordering -/
  sort : List α → List α
  /-- nothing is lost or invented -/
  perm : ∀ l, (sort l).Perm l
  /-- larger keys come first -/
  sorted : ∀ l, (sort l).Pairwise fun a b => key b ≤ key a

namespace SortDesc

variable {α : Type u} {τ : Type v} [LinearOrder τ] {key : α → τ}

@[simp] theorem mem_sort (S : SortDesc α key) {l : List α} {a : α} :
    a ∈ S.sort l ↔ a ∈ l := (S.perm l).mem_iff

/-- One such sort, by insertion. -/
def insertion (key : α → τ) : SortDesc α key where
  sort l := l.insertionSort fun a b => key b ≤ key a
  perm l := List.perm_insertionSort _ l
  sorted l := by
    have : Std.Total fun a b : α => key b ≤ key a := ⟨fun a b => le_total (key b) (key a)⟩
    have : IsTrans α fun a b => key b ≤ key a := ⟨fun _ _ _ h₁ h₂ => le_trans h₂ h₁⟩
    exact List.pairwise_insertionSort _ l

/-! ### The first element -/

/-- The only element with the largest key comes first. -/
theorem head?_sort (S : SortDesc α key) {l : List α} {a : α} (ha : a ∈ l)
    (hlt : ∀ b ∈ l, b ≠ a → key b < key a) : (S.sort l).head? = some a := by
  have hmem : a ∈ S.sort l := S.mem_sort.mpr ha
  have hsorted := S.sorted l
  rcases hs : S.sort l with _ | ⟨x, rest⟩
  · rw [hs] at hmem
    cases hmem
  · rw [hs] at hmem hsorted
    have hx : x ∈ l := S.mem_sort.mp (hs ▸ List.mem_cons_self)
    rcases List.mem_cons.mp hmem with rfl | hrest
    · rfl
    · have hle : key a ≤ key x := (List.pairwise_cons.mp hsorted).1 a hrest
      by_cases hxa : x = a
      · rw [hxa]
        rfl
      · exact absurd (hlt x hx hxa) (not_lt.mpr hle)

/-- A sort that puts `b` in front of its equals. -/
def preferring [DecidableEq α] (S : SortDesc α key) (b : α) : SortDesc α key where
  sort l := if b ∈ l ∧ ∀ c ∈ l, key c ≤ key b then b :: (S.sort l).erase b else S.sort l
  perm l := by
    split
    · rename_i h
      exact (List.perm_cons_erase (S.mem_sort.mpr h.1)).symm.trans (S.perm l)
    · exact S.perm l
  sorted l := by
    split
    · rename_i h
      refine List.pairwise_cons.mpr ⟨fun c hc => ?_, (S.sorted l).sublist List.erase_sublist⟩
      exact h.2 c (S.mem_sort.mp (List.mem_of_mem_erase hc))
    · exact S.sorted l

/-- What comes first whatever happens to equal keys is the only element with the largest. -/
theorem forall_head?_sort [DecidableEq α] {l : List α} {a : α} :
    (∀ S : SortDesc α key, (S.sort l).head? = some a) ↔
      a ∈ l ∧ ∀ b ∈ l, b ≠ a → key b < key a := by
  refine ⟨fun h => ?_, fun h S => S.head?_sort h.1 h.2⟩
  have ha : a ∈ l := (insertion key).mem_sort.mp (List.mem_of_mem_head? (h (insertion key)))
  refine ⟨ha, fun b hb hne => ?_⟩
  by_contra hlt
  -- then `b` is one of the largest, and another sort puts it first
  have hmax : ∀ c ∈ l, key c ≤ key b := by
    intro c hc
    obtain ⟨rest, hs⟩ := List.head?_eq_some_iff.mp (h (insertion key))
    have hsorted := (insertion key).sorted l
    rw [hs] at hsorted
    have hca : key c ≤ key a := by
      rcases List.mem_cons.mp (hs ▸ (insertion key).mem_sort.mpr hc) with rfl | hc
      · exact le_refl _
      · exact (List.pairwise_cons.mp hsorted).1 c hc
    exact le_trans hca (not_lt.mp hlt)
  have hfirst : (((insertion key).preferring b).sort l).head? = some b := by
    simp only [preferring, if_pos (And.intro hb hmax), List.head?_cons]
  exact hne (Option.some.inj (hfirst.symm.trans (h _)))

/-! ### Sorting by the keys alone -/

omit [LinearOrder τ] in
theorem filterMap_zipIdx (key : α → τ) (l : List α) :
    (l.map key).zipIdx.filterMap (fun p => l[p.2]?) = l := by
  have hget : ∀ p ∈ l.zipIdx, l[p.2]? = some p.1 := fun p hp =>
    List.mem_zipIdx_iff_getElem?.mp hp
  rw [List.zipIdx_map, List.filterMap_map]
  refine (List.filterMap_congr (g := some ∘ Prod.fst) hget).trans ?_
  rw [List.filterMap_eq_map, List.zipIdx_map_fst]

/-- A sort that looks at nothing but the keys: it sorts the pairs of a key and a place. -/
def byKeys (S : SortDesc (τ × ℕ) Prod.fst) (key : α → τ) : SortDesc α key where
  sort l := (S.sort (l.map key).zipIdx).filterMap fun p => l[p.2]?
  perm l := by
    have h := (S.perm (l.map key).zipIdx).filterMap fun p => l[p.2]?
    rwa [filterMap_zipIdx] at h
  sorted l := by
    refine List.pairwise_filterMap.mpr ((S.sorted _).imp_of_mem ?_)
    intro p q hp hq hle a ha b hb
    have hkey : ∀ {r : τ × ℕ} {c : α}, r ∈ S.sort (l.map key).zipIdx → l[r.2]? = some c →
        r.1 = key c := by
      intro r c hr hc
      have hr' := List.mem_zipIdx_iff_getElem?.mp (S.mem_sort.mp hr)
      rw [List.getElem?_map, hc] at hr'
      exact (Option.some.inj hr').symm
    rwa [← hkey hp ha, ← hkey hq hb]

/-- Lists with the same keys come out in the same order. -/
theorem forall₂_byKeys {β : Type u} {key' : β → τ} (S : SortDesc (τ × ℕ) Prod.fst)
    {R : α → β → Prop} (hkey : ∀ a b, R a b → key a = key' b) {l : List α} {l' : List β}
    (h : List.Forall₂ R l l') :
    List.Forall₂ R ((S.byKeys key).sort l) ((S.byKeys key').sort l') := by
  have hkeys : l.map key = l'.map key' := by
    induction h with
    | nil => rfl
    | cons hab _ ih => rw [List.map_cons, List.map_cons, hkey _ _ hab, ih]
  change List.Forall₂ R ((S.sort (l.map key).zipIdx).filterMap fun p => l[p.2]?)
    ((S.sort (l'.map key').zipIdx).filterMap fun p => l'[p.2]?)
  rw [← hkeys]
  induction S.sort (l.map key).zipIdx with
  | nil => exact .nil
  | cons p ps ih =>
    have hp : Option.Rel R l[p.2]? l'[p.2]? := by
      clear ih hkeys
      generalize p.2 = i
      induction h generalizing i with
      | nil => exact .none
      | cons hab _ ih =>
        cases i with
        | zero => exact .some hab
        | succ i => simpa using ih i
    rw [List.filterMap_cons, List.filterMap_cons]
    generalize l[p.2]? = a, l'[p.2]? = b at hp
    cases hp with
    | none => exact ih
    | some hab => exact .cons hab ih

end SortDesc

/-! ## Replacing in place -/

variable {α : Type u}

/-- Replace the first element that meets `p`; `none` when there is none. -/
def setFirst (p : α → Bool) (a : α) : List α → Option (List α)
  | [] => none
  | b :: l => if p b then some (a :: l) else (setFirst p a l).map (b :: ·)

theorem setFirst_eq_none {p : α → Bool} {a : α} :
    ∀ {l : List α}, setFirst p a l = none ↔ ∀ b ∈ l, p b = false
  | [] => by simp [setFirst]
  | b :: l => by
      by_cases hb : p b = true
      · simp [setFirst, hb]
      · simp [setFirst, hb, setFirst_eq_none]

theorem setFirst_middle {p : α → Bool} {a b : α} {pre : List α} (hpre : ∀ c ∈ pre, p c = false)
    (hb : p b = true) (post : List α) :
    setFirst p a (pre ++ b :: post) = some (pre ++ a :: post) := by
  induction pre with
  | nil => exact if_pos hb
  | cons c pre ih =>
    rw [List.cons_append, setFirst, if_neg (by simp [hpre c List.mem_cons_self]),
      ih fun d hd => hpre d (List.mem_cons_of_mem _ hd)]
    rfl

/-- What the loop does: it splits the slice at the first match. -/
theorem setFirst_eq_some {p : α → Bool} {a : α} :
    ∀ {l l' : List α}, setFirst p a l = some l' →
      ∃ pre b post, l = pre ++ b :: post ∧ l' = pre ++ a :: post ∧ p b = true ∧
        ∀ c ∈ pre, p c = false
  | [], _, h => by cases h
  | b :: l, l', h => by
      by_cases hb : p b = true
      · rw [setFirst, if_pos hb] at h
        cases h
        exact ⟨[], b, l, rfl, rfl, hb, by simp⟩
      · rw [setFirst, if_neg hb, Option.map_eq_some_iff] at h
        obtain ⟨l₁, h₁, rfl⟩ := h
        obtain ⟨pre, c, post, rfl, rfl, hc, hpre⟩ := setFirst_eq_some h₁
        refine ⟨b :: pre, c, post, rfl, rfl, hc, fun d hd => ?_⟩
        rcases List.mem_cons.mp hd with rfl | hd
        · simpa using hb
        · exact hpre d hd

/-! ## Deletion from a selection -/

/-- Deleting the first element of a selection deletes it from the whole list. -/
theorem filter_eraseP {p q : α → Bool} {d : α} (hpq : ∀ x, p x = true → q x = true)
    (hp : p d = true) : ∀ {l : List α}, l.find? q = some d →
      (l.eraseP p).filter q = (l.filter q).tail := by
  intro l
  induction l with
  | nil =>
    intro h
    cases h
  | cons x l ih =>
    intro h
    by_cases hq : q x = true
    · rw [List.find?_cons_of_pos hq] at h
      cases h
      rw [List.eraseP_cons_of_pos hp, List.filter_cons_of_pos hq, List.tail_cons]
    · have hpx : ¬ p x = true := fun h => hq (hpq x h)
      rw [List.find?_cons_of_neg hq] at h
      rw [List.eraseP_cons_of_neg hpx, List.filter_cons_of_neg hq, List.filter_cons_of_neg hq]
      exact ih h

end Ultrav
