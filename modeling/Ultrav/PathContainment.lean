import Ultrav.LibraryViews

/-!
# Containment of the paths of the library

A machine's directory and those of its points are built from its name, after `idSafe` looked at it.

* `Contained` — the paths of one point are where the layout puts them, and its machine's alone.
* `contained_iff` — the names for which they are.
-/

namespace Ultrav

namespace StoreDir

open DirPath

/-- The paths of a point of a machine, below the root `dir` of the library. -/
structure Contained (dir name id : String) : Prop where
  /-- exactly two levels below the root -/
  two_levels : ∃ a b, join [dir, name, id] = child (child (root dir) a) b
  inside : (root dir).within (join [dir, name, id]) = true
  /-- no other name and id give this path -/
  injective : ∀ name' id', idSafe name' = true → idPattern id' = true →
    join [dir, name', id'] = join [dir, name, id] → name' = name ∧ id' = id
  /-- the directory that is listed is neither the library nor that of another machine -/
  lists_own : join [dir, name] ≠ root dir ∧
    ∀ name', idSafe name' = true → name' ≠ name → join [dir, name] ≠ join [dir, name']
  /-- the directory that is removed takes neither the library nor another machine along -/
  removes_own : (join [dir, name, id]).within (root dir) = false ∧
    ∀ name', idSafe name' = true → name' ≠ name →
      (join [dir, name, id]).within (join [dir, name']) = false

variable {dir name id : String}

/-- The directory of the machine `/` is the root. -/
theorem join_root (hdir : dir ≠ "") : join [dir, "/"] = root dir := by
  rw [join_eq_foldl hdir, root, join_eq_foldl hdir, List.foldl_cons, List.foldl_nil,
    List.foldl_nil, push_slash]

/-- A directory is not below one that is deeper. -/
theorem within_of_depth_lt {p q : DirPath} (h : q.depth < p.depth) : p.within q = false :=
  Bool.eq_false_iff.mpr fun hin => absurd (depth_le_of_within hin) (Nat.not_le.mpr h)

/-- The paths of a plain name. -/
theorem contained_of_plain (hdir : dir ≠ "") (hsafe : idSafe name = true) (hslash : name ≠ "/")
    (hid : idPattern id = true) : Contained dir name id := by
  have hname := plain_of_idSafe hsafe hslash
  have hmachine := join_one hdir hname
  have hpoint := join_two hdir hname (plain_of_idPattern hid)
  refine ⟨⟨name, id, hpoint⟩, ?_, fun name' id' hsafe' hid' heq => ?_, ⟨?_, ?_⟩, ?_, ?_⟩
  · simp only [hpoint, within, within_refl, Bool.or_true]
  · rw [hpoint] at heq
    by_cases hslash' : name' = "/"
    · -- the points of the machine `/` are one level higher
      subst hslash'
      rw [join_slash hdir (plain_of_idPattern hid')] at heq
      exact absurd heq (child_ne_pointPath id' name id)
    · rw [join_two hdir (plain_of_idSafe hsafe' hslash') (plain_of_idPattern hid')] at heq
      exact pointPath_inj.mp heq
  · rw [hmachine]
    intro heq
    have hdepth := congrArg depth heq
    simp [depth] at hdepth
  · intro name' hsafe' hne heq
    rw [hmachine] at heq
    by_cases hslash' : name' = "/"
    · subst hslash'
      have hdepth := congrArg depth (heq.trans (join_root hdir))
      simp [depth] at hdepth
    · rw [join_one hdir (plain_of_idSafe hsafe' hslash')] at heq
      injection heq with _ hsame
      exact hne hsame.symm
  · rw [hpoint]
    exact within_of_depth_lt (Nat.lt_add_right 1 (Nat.lt_succ_self _))
  · intro name' hsafe' _
    rw [hpoint]
    by_cases hslash' : name' = "/"
    · rw [hslash', join_root hdir]
      exact within_of_depth_lt (Nat.lt_add_right 1 (Nat.lt_succ_self _))
    · rw [join_one hdir (plain_of_idSafe hsafe' hslash')]
      exact within_of_depth_lt (Nat.lt_succ_self _)

/-- **Containment**: of the names that `idSafe` lets by, all but `/` keep to their own paths. -/
theorem contained_iff (hdir : dir ≠ "") (hsafe : idSafe name = true) (hid : idPattern id = true) :
    Contained dir name id ↔ name ≠ "/" := by
  refine ⟨?_, fun hslash => contained_of_plain hdir hsafe hslash hid⟩
  rintro h rfl
  obtain ⟨a, b, hdeep⟩ := h.two_levels
  rw [join_slash hdir (plain_of_idPattern hid)] at hdeep
  exact absurd hdeep (child_ne_pointPath id a b)

theorem contained_erp01 : Contained "/backups" "erp01" "bk-1" :=
  (contained_iff (by decide) (by decide) (by decide)).mpr (by decide)

/-- The name `/` is let by: its points are entries of the root, where another machine's directory
can be, and its directory is the root. -/
theorem slash_not_contained : idSafe "/" = true ∧ idPattern "bk-1" = true ∧ idSafe "bk-1" = true ∧
    ¬ Contained "/backups" "/" "bk-1" ∧
    join ["/backups", "/", "bk-1"] = join ["/backups", "bk-1"] ∧
    join ["/backups", "/"] = join ["/backups"] := by
  refine ⟨by decide, by decide, by decide, fun h => ?_, by decide, by decide⟩
  exact h.lists_own.1 (by decide)

end StoreDir

end Ultrav
