import Mathlib.Data.List.Basic

/-!
# Slices over a shared array

A slice is an array and a length. Deleting from the middle by
`append(s[:i], s[i+1:]...)` shifts the cells behind `i` in place, so a loop that ranges over
the slice as it was before sees the shifted cells, and in the end stale ones.

* `Slice` — the cells of the array, and how many of them the slice has.
* `Slice.removeAt` / `Slice.erase` — the deletions, with what they leave (`view_removeAt`,
  `view_erase`).
* `mem_cells_erase` — a deletion puts no new value into a cell.
* `dropFirst` / `dropSkipping` — deleting the first elements that meet a predicate, and what a
  loop makes of it whose cursor passes by the element behind each deleted one.
* `dropSkipping_eq_iff` — they agree when no two neighbours are to be deleted (`Spaced`).
-/

namespace Ultrav

universe u

/-- A slice: the array behind it, and its length. -/
structure Slice (α : Type u) where
  /-- the cells of the array -/
  cells : List α
  /-- the length of the slice -/
  len : ℕ
  /-- the slice lies in the array -/
  len_le : len ≤ cells.length

namespace Slice

variable {α : Type u}

/-- What the slice holds. -/
def view (s : Slice α) : List α := s.cells.take s.len

/-- A slice that fills its array. -/
def ofList (l : List α) : Slice α := ⟨l, l.length, Nat.le_refl _⟩

@[simp] theorem view_ofList (l : List α) : (ofList l).view = l := List.take_length

@[simp] theorem length_view (s : Slice α) : s.view.length = s.len := by
  rw [view, List.length_take, Nat.min_eq_left s.len_le]

/-- The cells after `append(s[:i], s[i+1:]...)`: those behind `i` move up by one, and the
last one of the slice stays as it was. -/
def shifted (s : Slice α) (i : ℕ) : List α := s.view.eraseIdx i ++ s.cells.drop (s.len - 1)

/-- Deletion of the cell at `i`. -/
def removeAt (s : Slice α) (i : ℕ) (hi : i < s.len) : Slice α where
  cells := s.shifted i
  len := s.len - 1
  len_le := by
    rw [shifted, List.length_append, List.length_eraseIdx_of_lt (by simpa using hi), length_view]
    exact Nat.le_add_right _ _

@[simp] theorem view_removeAt (s : Slice α) (i : ℕ) (hi : i < s.len) :
    (s.removeAt i hi).view = s.view.eraseIdx i := by
  have hlen : (s.view.eraseIdx i).length = s.len - 1 := by
    rw [List.length_eraseIdx_of_lt (by simpa using hi), length_view]
  rw [view]
  dsimp only [removeAt, shifted]
  rw [List.take_append_of_le_length (by omega), List.take_of_length_le (by omega)]

/-- A deletion puts no new value into a cell. -/
theorem mem_cells_removeAt {s : Slice α} {i : ℕ} {hi : i < s.len} {a : α}
    (h : a ∈ (s.removeAt i hi).cells) : a ∈ s.cells := by
  rcases List.mem_append.mp h with h | h
  · exact List.mem_of_mem_take (List.mem_of_mem_eraseIdx h)
  · exact List.mem_of_mem_drop h

/-- What the slice shows at the cursor. -/
theorem getElem?_cells {s : Slice α} {kept rest : List α} {a : α}
    (h : s.view = kept ++ a :: rest) : s.cells[kept.length]? = some a := by
  have hsplit : s.cells = s.view ++ s.cells.drop s.len := (List.take_append_drop _ _).symm
  rw [hsplit, h, List.append_assoc, List.getElem?_append_right (Nat.le_refl _), Nat.sub_self]
  rfl

section Erase

variable [DecidableEq α]

/-- Deletion of the first cell that holds `a`, if there is one. -/
def erase (s : Slice α) (a : α) : Slice α :=
  if hi : s.view.idxOf a < s.len then s.removeAt (s.view.idxOf a) hi else s

@[simp] theorem view_erase (s : Slice α) (a : α) : (s.erase a).view = s.view.erase a := by
  rw [erase]
  split
  · rw [view_removeAt, List.eraseIdx_idxOf_eq_erase]
  · rename_i hi
    have hnot : a ∉ s.view := fun ha => hi (by simpa using List.idxOf_lt_length_of_mem ha)
    rw [List.erase_of_not_mem hnot]

theorem mem_cells_erase {s : Slice α} {a b : α} (h : b ∈ (s.erase a).cells) : b ∈ s.cells := by
  rw [erase] at h
  split at h
  · exact mem_cells_removeAt h
  · exact h

/-- Behind the end of the slice a deletion adds what was its last element. -/
theorem drop_cells_erase {s : Slice α} {a x : α} (ha : a ∈ s.view)
    (hx : s.view.getLast? = some x) :
    (s.erase a).cells.drop (s.erase a).len = x :: s.cells.drop s.len := by
  have hi : s.view.idxOf a < s.len := by simpa using List.idxOf_lt_length_of_mem ha
  have hlen : (s.view.eraseIdx (s.view.idxOf a)).length = s.len - 1 := by
    rw [List.length_eraseIdx_of_lt (by simpa using hi), length_view]
  obtain ⟨init, hinit⟩ := List.getLast?_eq_some_iff.mp hx
  have hcells : s.cells = init ++ x :: s.cells.drop s.len := by
    rw [List.append_cons, ← hinit, view, List.take_append_drop]
  have hinitlen : init.length = s.len - 1 := by
    rw [← length_view s, hinit, List.length_append, List.length_singleton, Nat.add_sub_cancel]
  rw [erase, dif_pos hi]
  dsimp only [removeAt, shifted]
  rw [List.drop_append_of_le_length (by omega), List.drop_of_length_le (by omega),
    List.nil_append]
  rw [← hinitlen]
  exact (congrArg (List.drop init.length) hcells).trans List.drop_left

/-- A deletion takes one cell off the slice. -/
theorem len_erase {s : Slice α} {a : α} (ha : a ∈ s.view) : (s.erase a).len = s.len - 1 := by
  rw [← length_view, ← length_view, view_erase, List.length_erase_of_mem ha]

end Erase

end Slice

/-! ## Deleting the first matches -/

section DropFirst

variable {α : Type u} (p : α → Bool)

/-- The list without its first `n` elements that meet `p`. -/
def dropFirst : ℕ → List α → List α
  | 0, l => l
  | _ + 1, [] => []
  | n + 1, a :: l => if p a then dropFirst n l else a :: dropFirst (n + 1) l

/-- The same by a cursor that passes by the element behind each deleted one. -/
def dropSkipping : ℕ → List α → List α
  | 0, l => l
  | _ + 1, [] => []
  | n + 1, [a] => if p a then dropSkipping n [] else [a]
  | n + 1, a :: b :: l =>
    if p a then b :: dropSkipping n l else a :: dropSkipping (n + 1) (b :: l)

/-- Of the first `n` elements that meet `p`, no two are neighbours. -/
def Spaced : ℕ → List α → Prop
  | 0, _ => True
  | _ + 1, [] => True
  | n + 1, a :: l =>
    if p a then (0 < n → ∀ b ∈ l.head?, p b = false) ∧ Spaced n l else Spaced (n + 1) l

variable {p}

@[simp] theorem dropFirst_zero (l : List α) : dropFirst p 0 l = l := by cases l <;> rfl

@[simp] theorem dropSkipping_zero (l : List α) : dropSkipping p 0 l = l := by
  rcases l with _ | ⟨a, _ | ⟨b, l⟩⟩ <;> rfl

theorem Spaced.zero (l : List α) : Spaced p 0 l := by cases l <;> trivial

theorem dropFirst_sublist (n : ℕ) (l : List α) : (dropFirst p n l).Sublist l := by
  fun_induction dropFirst p n l with
  | case1 l => exact .refl l
  | case2 n => exact .refl []
  | case3 n a l hp ih => exact ih.cons a
  | case4 n a l hp ih => exact ih.cons_cons a

/-- **The cursor that skips** deletes the right elements exactly when they are spaced. -/
theorem dropSkipping_eq_iff {n : ℕ} {l : List α} (hnd : l.Nodup) :
    dropSkipping p n l = dropFirst p n l ↔ Spaced p n l := by
  fun_induction dropSkipping p n l with
  | case1 l => exact iff_of_true (dropFirst_zero l).symm (.zero l)
  | case2 n => exact iff_of_true rfl trivial
  | case3 n a hp ih =>
    rw [dropFirst, Spaced, if_pos hp, if_pos hp, ih List.nodup_nil]
    exact (and_iff_right fun _ _ hb => by cases hb).symm
  | case4 n a hp =>
    rw [dropFirst, Spaced, if_neg hp, if_neg hp]
    exact iff_of_true rfl trivial
  | case5 n a b l hp ih =>
    have hb := List.nodup_cons.mp (List.nodup_cons.mp hnd).2
    rw [dropFirst, Spaced, if_pos hp, if_pos hp]
    cases n with
    | zero =>
      rw [dropSkipping_zero, dropFirst_zero]
      exact iff_of_true rfl ⟨fun h => absurd h (Nat.lt_irrefl 0), .zero _⟩
    | succ n =>
      by_cases hpb : p b = true
      · -- the neighbour is to be deleted, and stays
        rw [dropFirst, if_pos hpb]
        refine iff_of_false (fun heq => ?_) fun h => ?_
        · have hmem : b ∈ dropFirst p n l := heq ▸ List.mem_cons_self
          exact hb.1 ((dropFirst_sublist n l).subset hmem)
        · cases (h.1 (Nat.succ_pos n) b rfl).symm.trans hpb
      · rw [dropFirst, Spaced, if_neg hpb, if_neg hpb, List.cons.injEq, ih hb.2]
        refine ⟨fun h => ⟨fun _ c hc => ?_, h.2⟩, fun h => ⟨rfl, h.2⟩⟩
        cases hc
        exact Bool.eq_false_iff.mpr hpb
  | case6 n a b l hp ih =>
    rw [dropFirst, Spaced, if_neg hp, if_neg hp, List.cons.injEq, ih (List.nodup_cons.mp hnd).2]
    exact and_iff_right rfl

end DropFirst

end Ultrav
