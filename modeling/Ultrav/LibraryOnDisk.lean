import Ultrav.LibraryViews

/-!
# The library on disk

A `Library` is a list of point directories; on disk they are directories below a root. As long as
lookups find what they should, the one stands for the other.

* `Shows` — a tree of directories shows a library.
* `Shows.step` — every step of the tree is a step of the library.
* `library_of_run` — after a history, the lookups and listings are those of the library.
-/

namespace Ultrav

namespace StoreDir

open DirPath

/-! ## Steps of a library -/

/-- What an event does to a library. -/
def libraryStep (lib : Library) : Event → Library
  | .create vmID id _ => lib.mkdir vmID id
  | .complete m => lib.complete m
  | .abort vmID id => lib.removeDir vmID id
  | .delete id =>
    match lib.delete id with
    | .error _ => lib
    | .ok lib => lib

/-- The point directories of a tree are those of a library. -/
structure Shows (dir : String) (t : FileTree Metadata) (lib : Library) : Prop where
  dirs : ∀ vmID id, t.has (pointPath dir vmID id) = true ↔ ∃ d ∈ lib, d.vmID = vmID ∧ d.id = id
  metadata : ∀ d ∈ lib, d.metadata = t.read (pointPath dir d.vmID d.id)

variable {dir : String} {t₀ : FileTree Metadata} {s s' : Shelf} {lib : Library}

/-! ## Lookups -/

/-- An id resolves to the same directory. -/
theorem Shows.pointDir (hshows : Shows dir s.tree lib) (hs : Kept dir t₀ s) (h : Opened dir t₀)
    (hfinds : FindsItself dir t₀) (id : String) : StoreDir.pointDir dir s.tree id =
      ((lib.pointDir id).map fun d => pointPath dir d.vmID d.id).mapError .store := by
  by_cases hid : idPattern id = true
  · rw [Library.pointDir, if_pos hid]
    cases hfind : lib.find? fun d => d.id = id with
    | none =>
      refine hs.pointDir_of_not_has h hfinds hid fun vmID hhas => ?_
      obtain ⟨d, hd, -, hdid⟩ := (hshows.dirs vmID id).mp hhas
      exact List.find?_eq_none.mp hfind d hd (decide_eq_true hdid)
    | some d =>
      have hdid : d.id = id := by simpa using List.find?_some hfind
      have hhas := (hshows.dirs d.vmID id).mpr ⟨d, List.mem_of_find?_eq_some hfind, rfl, hdid⟩
      rw [hs.pointDir_of_has h hfinds hid hhas, ← hdid]
      rfl
  · rw [Library.pointDir, StoreDir.pointDir, if_neg hid, if_neg hid]
    rfl

/-- So does `PointDir`. -/
theorem Shows.readableDir (hshows : Shows dir s.tree lib) (hs : Kept dir t₀ s)
    (h : Opened dir t₀) (hfinds : FindsItself dir t₀) (id : String) :
    StoreDir.readableDir dir s.tree id =
      ((lib.readableDir id).map fun d => pointPath dir d.vmID d.id).mapError .store := by
  rw [StoreDir.readableDir, hshows.pointDir hs h hfinds, Library.readableDir]
  cases hdir : lib.pointDir id with
  | error e => rfl
  | ok d =>
    have hmeta := hshows.metadata d (Library.mem_of_pointDir hdir).1
    simp only [Except.map, Except.mapError, ← hmeta]
    cases d.metadata.isSome <;> rfl

/-- **`Get`** is that of the library. -/
theorem Shows.get (hshows : Shows dir s.tree lib) (hs : Kept dir t₀ s) (h : Opened dir t₀)
    (hfinds : FindsItself dir t₀) (id : String) :
    StoreDir.get dir s.tree id = (lib.get id).mapError .store := by
  rw [StoreDir.get, hshows.pointDir hs h hfinds, Library.get]
  cases hdir : lib.pointDir id with
  | error e => rfl
  | ok d =>
    have hmeta := hshows.metadata d (Library.mem_of_pointDir hdir).1
    simp only [Except.map, Except.mapError, completedAt, ← hmeta, PointDir.completed]
    cases d.metadata.filter fun m => m.state = .complete <;> rfl

/-- **`List`** shows the points of the library. -/
theorem Shows.mem_completed (hshows : Shows dir s.tree lib) (hs : Kept dir t₀ s)
    (h : Opened dir t₀) {vmID : String} (hsafe : idSafe vmID = true) {m : Metadata} :
    m ∈ completed dir s.tree vmID ↔ m ∈ lib.completed vmID := by
  rw [hs.mem_completed h hsafe, Library.mem_completed]
  constructor
  · rintro ⟨-, hid, hread⟩
    obtain ⟨d, hd, rfl, hdid⟩ := (hshows.dirs _ _).mp (FileTree.has_of_read hread)
    refine ⟨d, hd, rfl, by rwa [hdid], PointDir.completed_eq_some.mpr ⟨?_, ?_⟩⟩
    · rw [hshows.metadata d hd, hdid, hread]
    · exact (hs.keyed _ _ _ hread).2.2
  · rintro ⟨d, hd, rfl, hid, hm⟩
    have hread := (PointDir.completed_eq_some.mp hm).1
    rw [hshows.metadata d hd] at hread
    obtain ⟨-, hmid, -⟩ := hs.keyed _ _ _ hread
    obtain ⟨p, hp, hpvm, -⟩ := hs.placed _ _ (FileTree.has_of_read hread)
    rw [hmid]
    exact ⟨hpvm ▸ (hs.safe p hp).2.1, hid, hread⟩

/-! ## Steps -/

theorem shows_opened (h : Opened dir t₀) : Shows dir t₀ [] := by
  refine ⟨fun vmID id => ?_, fun d hd => (List.not_mem_nil hd).elim⟩
  refine iff_of_false (fun hhas => ?_) fun ⟨d, hd, _⟩ => List.not_mem_nil hd
  obtain ⟨p, hp, -⟩ := h.kept.placed vmID id hhas
  exact List.not_mem_nil hp

theorem Shows.removeAll (hshows : Shows dir s.tree lib) (vmID id : String) :
    Shows dir (s.tree.removeAll (pointPath dir vmID id)) (lib.removeDir vmID id) := by
  refine ⟨fun v i => ?_, fun d hd => ?_⟩
  · rw [FileTree.has_removeAll, hshows.dirs, Bool.eq_false_iff, ne_eq, within_pointPath]
    constructor
    · rintro ⟨⟨d, hd, rfl, rfl⟩, hne⟩
      exact ⟨d, Library.mem_removeDir.mpr ⟨hd, hne⟩, rfl, rfl⟩
    · rintro ⟨d, hd, rfl, rfl⟩
      obtain ⟨hd, hne⟩ := Library.mem_removeDir.mp hd
      exact ⟨⟨d, hd, rfl, rfl⟩, hne⟩
  · obtain ⟨hd, hne⟩ := Library.mem_removeDir.mp hd
    rw [FileTree.read_removeAll, if_neg fun hin => hne (within_pointPath.mp hin)]
    exact hshows.metadata d hd

theorem Shows.create (hshows : Shows dir s.tree lib) (hroot : s.tree.has (root dir) = true)
    {vmID id : String} (hfresh : s.tree.has (pointPath dir vmID id) = false) :
    Shows dir (s.tree.mkdirAll (pointPath dir vmID id)) (lib.mkdir vmID id) := by
  have hmkdir : lib.mkdir vmID id = lib ++ [.empty vmID id] := by
    refine if_neg fun hany => ?_
    obtain ⟨d, hd, hkey⟩ := List.any_eq_true.mp hany
    have hhas := (hshows.dirs vmID id).mpr ⟨d, hd, by simpa using hkey⟩
    rw [hfresh] at hhas
    cases hhas
  rw [hmkdir]
  refine ⟨fun v i => ?_, fun d hd => ?_⟩
  · rw [FileTree.has_mkdirAll hroot hfresh, hshows.dirs, pointPath_inj]
    constructor
    · rintro (⟨d, hd, hkey⟩ | heq | ⟨rfl, rfl⟩)
      · exact ⟨d, List.mem_append_left _ hd, hkey⟩
      · exact absurd heq.symm (child_ne_pointPath vmID v i)
      · exact ⟨.empty v i, List.mem_append_right _ List.mem_cons_self, rfl, rfl⟩
    · rintro ⟨d, hd, rfl, rfl⟩
      rcases List.mem_append.mp hd with hd | hd
      · exact .inl ⟨d, hd, rfl, rfl⟩
      · rw [List.mem_singleton.mp hd]
        exact .inr (.inr ⟨rfl, rfl⟩)
  · rw [FileTree.read_mkdirAll]
    rcases List.mem_append.mp hd with hd | hd
    · exact hshows.metadata d hd
    · rw [List.mem_singleton.mp hd]
      cases hread : s.tree.read (pointPath dir vmID id) with
      | none => exact hread.symm
      | some m =>
        have hhas := FileTree.has_of_read hread
        rw [hfresh] at hhas
        cases hhas

theorem Shows.write (hshows : Shows dir s.tree lib) (m : Metadata) :
    Shows dir (s.tree.write (pointPath dir m.vmID m.id) { m with state := .complete })
      (lib.complete m) := by
  refine ⟨fun v i => ?_, fun d' hd' => ?_⟩
  · rw [FileTree.has, FileTree.paths_write, ← FileTree.has, hshows.dirs, Library.complete]
    simp only [List.mem_map, exists_exists_and_eq_and]
    refine exists_congr fun d => and_congr_right fun _ => ?_
    split <;> rfl
  · obtain ⟨d, hd, rfl⟩ := List.mem_map.mp hd'
    rw [FileTree.read_write]
    split
    · rename_i hkey
      obtain ⟨hvm, hid⟩ := hkey
      have hhas : s.tree.has (pointPath dir m.vmID m.id) = true :=
        (hshows.dirs _ _).mpr ⟨d, hd, hvm.symm, hid.symm⟩
      rw [if_pos ⟨pointPath_inj.mpr ⟨hvm.symm, hid.symm⟩, hhas⟩]
      rfl
    · rename_i hkey
      rw [if_neg, hshows.metadata d hd]
      rintro ⟨hpath, -⟩
      obtain ⟨hvm, hid⟩ := pointPath_inj.mp hpath
      exact hkey ⟨hvm.symm, hid.symm⟩

/-- **Every step** of the tree is one of the library. -/
theorem Shows.step (hshows : Shows dir s.tree lib) (hs : Kept dir t₀ s) (h : Opened dir t₀)
    (hfinds : FindsItself dir t₀) {e : Event} (hmoves : Moves dir s e s') :
    Shows dir s'.tree (libraryStep lib e) := by
  cases hmoves with
  | create hsafe hslash hid hnew =>
    refine hshows.create (hs.has_root h) (Bool.eq_false_iff.mpr fun hhas => ?_)
    obtain ⟨m, hm, -, hmid⟩ := hs.placed _ _ hhas
    exact hnew m hm hmid
  | complete => exact hshows.write _
  | abort => exact hshows.removeAll _ _
  | @delete id t hdelete =>
    rw [StoreDir.delete, hshows.readableDir hs h hfinds] at hdelete
    rw [libraryStep, Library.delete]
    cases hdir : lib.readableDir id with
    | error e =>
      rw [hdir] at hdelete
      cases hdelete
    | ok d =>
      rw [hdir] at hdelete
      cases hdelete
      exact hshows.removeAll d.vmID d.id
  | @refuse id e hdelete =>
    rw [StoreDir.delete, hshows.readableDir hs h hfinds] at hdelete
    rw [libraryStep, Library.delete]
    cases hdir : lib.readableDir id with
    | error e => exact hshows
    | ok d =>
      rw [hdir] at hdelete
      cases hdelete

/-- **Every history** of the tree is one of the library. -/
theorem shows_of_run (h : Opened dir t₀) (hfinds : FindsItself dir t₀) {es : List Event} :
    ∀ {s : Shelf} {lib : Library}, Kept dir t₀ s → Shows dir s.tree lib →
      Machine.Along (StoreDir.step dir) BelowRoot s es →
      Machine.run (StoreDir.step dir) s es = some s' →
      Kept dir t₀ s' ∧ Shows dir s'.tree (es.foldl libraryStep lib) := by
  induction es with
  | nil =>
    intro s lib hs hshows _ hrun
    obtain rfl := Option.some.inj hrun
    exact ⟨hs, hshows⟩
  | cons e es ih =>
    intro s lib hs hshows hbelow hrun
    obtain ⟨s₁, hstep, hrun⟩ := Machine.run_cons_eq_some hrun
    have hmoves := hs.moves h hbelow.1 hstep
    exact ih (hs.step h hfinds hmoves) (hshows.step hs h hfinds hmoves) (hbelow.2 s₁ hstep) hrun

/-- **The library on disk**: after a history, lookups and listings are those of the library that
the same history leaves. -/
theorem library_of_run (h : Opened dir t₀) (hfinds : FindsItself dir t₀) {es : List Event}
    (hbelow : Machine.Along (StoreDir.step dir) BelowRoot ⟨t₀, []⟩ es)
    (hrun : Machine.run (StoreDir.step dir) ⟨t₀, []⟩ es = some s) :
    ∃ lib, lib = es.foldl libraryStep [] ∧
      (∀ id, StoreDir.get dir s.tree id = (Library.get lib id).mapError .store) ∧
      (∀ id, StoreDir.readableDir dir s.tree id =
        ((lib.readableDir id).map fun d => pointPath dir d.vmID d.id).mapError .store) ∧
      ∀ vmID m, idSafe vmID = true → (m ∈ completed dir s.tree vmID ↔ m ∈ lib.completed vmID) := by
  obtain ⟨hs, hshows⟩ := shows_of_run h hfinds h.kept (shows_opened h) hbelow hrun
  exact ⟨_, rfl, hshows.get hs h hfinds, hshows.readableDir hs h hfinds,
    fun _ _ hsafe => hshows.mem_completed hs h hsafe⟩

end StoreDir

end Ultrav
