import Ultrav.PathContainment

/-!
# Points that are started and aborted

`Create` makes the directory of the id that was drawn, or takes it as it is; images are written
into it; `Abort` removes it.

* `DiskState` — the directories of the library with their metadata, and the other files.
* `DiskState.create` / `writeImage` / `complete` / `abort` — the calls on a point.
* `Untouched` — the completed points, their files and the listings are as they were.
* `Vacant` — no completed point is in a directory.
* `aborted_untouched_iff` — which drawn ids leave everything as it was.
-/

namespace Ultrav

open DirPath

namespace FileTree

variable {α : Type} {t : FileTree α} {p q : DirPath}

/-- Every directory is in one. -/
def Closed (t : FileTree α) : Prop := ∀ d name, t.has (child d name) = true → t.has d = true

/-- **New directories**: the path and what is above it. -/
theorem has_mkdirAll_iff (ht : t.Closed) :
    (t.mkdirAll p).has q = true ↔ t.has q = true ∨ q.within p = true := by
  induction p with
  | dot =>
    have hin : q.within dot = true ↔ q = dot := by simp [within, eq_comm]
    rw [mkdirAll, hin]
    split
    · rename_i hdot
      exact ⟨.inl, fun h => h.elim id fun hq => hq ▸ hdot⟩
    · exact has_append
  | slash =>
    have hin : q.within slash = true ↔ q = slash := by simp [within, eq_comm]
    rw [mkdirAll, hin]
    split
    · rename_i hslash
      exact ⟨.inl, fun h => h.elim id fun hq => hq ▸ hslash⟩
    · exact has_append
  | child d name ih =>
    rw [within, Bool.or_eq_true, decide_eq_true_eq, mkdirAll]
    split
    · rename_i hhas
      rw [or_iff_left_of_imp]
      rintro (rfl | hin)
      · exact hhas
      · -- what is above a directory that is there is there
        have hsame := ih.mpr (.inr hin)
        rwa [mkdirAll_of_has (ht d name hhas)] at hsame
    · rw [has_append, ih]
      constructor
      · rintro ((hq | hq) | rfl)
        · exact .inl hq
        · exact .inr (.inr hq)
        · exact .inr (.inl rfl)
      · rintro (hq | rfl | hq)
        · exact .inl (.inl hq)
        · exact .inr rfl
        · exact .inl (.inr hq)

/-- What is in an entry of a directory is in the directory. -/
theorem within_of_child {d : DirPath} {name : String} (h : (child d name).within p = true) :
    d.within p = true := by
  induction p with
  | dot => simp [within] at h
  | slash => simp [within] at h
  | child e n ih =>
    rw [within, Bool.or_eq_true, decide_eq_true_eq] at h ⊢
    rcases h with heq | hin
    · cases heq
      exact .inr (within_refl d)
    · exact .inr (ih hin)

theorem Closed.mkdirAll (ht : t.Closed) : (t.mkdirAll p).Closed := by
  intro d name h
  rw [has_mkdirAll_iff ht] at h ⊢
  exact h.imp (ht d name) within_of_child

theorem Closed.removeAll (ht : t.Closed) : (t.removeAll p).Closed := by
  intro d name h
  rw [has_removeAll] at h ⊢
  refine ⟨ht d name h.1, Bool.eq_false_iff.mpr fun hin => ?_⟩
  have hchild := h.2
  rw [within, hin, Bool.or_true] at hchild
  cases hchild

theorem Closed.write (ht : t.Closed) (a : α) : (t.write p a).Closed := by
  intro d name h
  rw [has, paths_write, ← has] at h ⊢
  exact ht d name h

/-- What sorted lists show is the same when they have the same entries that show something. -/
theorem filterMap_eq_of_pairwise {β : Type} {f : String → Option β} {l l' : List String}
    (hl : l.Pairwise (· ≤ ·)) (hl' : l'.Pairwise (· ≤ ·)) (hnd : l.Nodup) (hnd' : l'.Nodup)
    (h : ∀ a, (f a).isSome = true → (a ∈ l ↔ a ∈ l')) : l.filterMap f = l'.filterMap f := by
  have hshown : ∀ m : List String,
      m.filterMap f = (m.filter fun a => (f a).isSome).filterMap f := by
    intro m
    rw [List.filterMap_filter]
    refine List.filterMap_congr fun a _ => ?_
    cases f a <;> rfl
  have hperm : (l.filter fun a => (f a).isSome).Perm (l'.filter fun a => (f a).isSome) := by
    rw [List.perm_ext_iff_of_nodup (hnd.filter _) (hnd'.filter _)]
    intro a
    rw [List.mem_filter, List.mem_filter]
    exact and_congr_left (h a)
  rw [hshown l, hshown l', hperm.eq_of_pairwise' (hl.filter _) (hl'.filter _)]

/-- The entries of a directory are sorted. -/
theorem pairwise_names : (t.names p).Pairwise (· ≤ ·) := by
  rw [names]
  split
  · exact List.pairwise_insertionSort _ _
  · exact .nil

end FileTree

namespace StoreDir

/-! ## The calls on a point -/

/-- The library on disk. -/
structure DiskState (β : Type) where
  /-- the directories, with the `metadata.json` in them -/
  tree : FileTree Metadata
  /-- the other files: images and domain XML -/
  files : DirPath → Option β
  closed : tree.Closed

/-- An image that is written through `DiskPath`; the target names of libvirt have no separator. -/
structure ImageWrite (β : Type) where
  name : String
  format : Format
  image : β
  plain : '/' ∉ name.toList

variable {β : Type}

/-- The file name is that of an entry. -/
theorem ImageWrite.plain_diskFile (w : ImageWrite β) :
    Plain (Metadata.diskFile w.name w.format) := by
  have hlen : ∀ suffix t : String, t.length < suffix.length → w.name ++ suffix ≠ t := by
    rintro suffix t hlt rfl
    rw [String.length_append] at hlt
    omega
  refine ⟨?_, ?_, ?_, ?_⟩
  · cases w.format with
    | qcow2 => simpa [Metadata.diskFile] using w.plain
    | raw => simpa [Metadata.diskFile] using w.plain
  all_goals
    cases w.format with
    | qcow2 => exact hlen _ _ (by decide)
    | raw => exact hlen _ _ (by decide)

namespace DiskState

variable (dir : String) (s : DiskState β)

/-- No file is where a directory of a path is to be. -/
def clear (files : DirPath → Option β) : DirPath → Bool
  | .child d name => (files (.child d name)).isNone && clear files d
  | p => (files p).isNone

/-- `Create`, with the id that was drawn. A directory that is there is taken as it is. -/
def create (vmID id : String) : Option (DiskState β) :=
  if idSafe vmID && clear s.files (.join [dir, vmID, id]) then
    some { s with
      tree := s.tree.mkdirAll (.join [dir, vmID, id])
      closed := s.closed.mkdirAll }
  else none

/-- An image is written to the path that `DiskPath` returns. -/
def writeImage (vmID id : String) (w : ImageWrite β) : DiskState β :=
  { s with
    files := Function.update s.files
      (.join [dir, vmID, id, Metadata.diskFile w.name w.format]) (some w.image) }

/-- `Complete` -/
def complete (m : Metadata) : DiskState β :=
  { s with
    tree := s.tree.write (.join [dir, m.vmID, m.id]) { m with state := .complete }
    closed := s.closed.write _ }

/-- `Abort` -/
def abort (vmID id : String) : DiskState β where
  tree := s.tree.removeAll (.join [dir, vmID, id])
  files p := if (DirPath.join [dir, vmID, id]).within p then none else s.files p
  closed := s.closed.removeAll

/-- A point is started, images are written into it, and it is aborted. -/
def startAndAbort (vmID id : String) (ws : List (ImageWrite β)) : Option (DiskState β) :=
  (s.create dir vmID id).map fun s =>
    (ws.foldl (fun s w => s.writeImage dir vmID id w) s).abort dir vmID id

end DiskState

/-! ## What is left -/

/-- The completed points, the files in their directories and the listings are as they were. -/
structure Untouched (srt : SortDesc Metadata Metadata.createdAt) (dir : String)
    (s s' : DiskState β) : Prop where
  points : ∀ vmID id m, idSafe vmID = true → idPattern id = true →
    completedAt s.tree (.join [dir, vmID, id]) = some m →
      completedAt s'.tree (.join [dir, vmID, id]) = some m ∧
        ∀ name, Plain name →
          s'.files (.join [dir, vmID, id, name]) = s.files (.join [dir, vmID, id, name])
  listings : ∀ vmID, list srt dir s'.tree vmID = list srt dir s.tree vmID

/-- No completed point is in the directory. -/
def Vacant (dir : String) (t : FileTree Metadata) (p : DirPath) : Prop :=
  ∀ vmID id, idSafe vmID = true → idPattern id = true →
    (completedAt t (.join [dir, vmID, id])).isSome = true →
      p.within (.join [dir, vmID, id]) = false

variable {dir vmID id : String} {s s' : DiskState β}

@[simp] theorem DiskState.tree_abort :
    (s.abort dir vmID id).tree = s.tree.removeAll (.join [dir, vmID, id]) := rfl

@[simp] theorem DiskState.files_abort (p : DirPath) : (s.abort dir vmID id).files p =
    if (DirPath.join [dir, vmID, id]).within p then none else s.files p := rfl

/-- One more element of a path. -/
theorem join_push (hdir : dir ≠ "") {s : List String} {name : String} (h : Plain name) :
    DirPath.join (dir :: (s ++ [name])) = child (.join (dir :: s)) name := by
  rw [join_eq_foldl hdir, join_eq_foldl hdir, List.foldl_append, List.foldl_cons, List.foldl_nil,
    push_plain h]

/-- The images go into the directory of the point. -/
theorem files_foldl_writeImage (hdir : dir ≠ "") {p : DirPath} {name : String}
    (hp : p ≠ .join [dir, vmID, id]) (ws : List (ImageWrite β)) : ∀ s : DiskState β,
    (ws.foldl (fun s w => s.writeImage dir vmID id w) s).files (child p name) =
      s.files (child p name) := by
  induction ws with
  | nil => exact fun s => rfl
  | cons w ws ih =>
    intro s
    rw [List.foldl_cons, ih, DiskState.writeImage]
    refine Function.update_of_ne (fun heq => ?_) _ _
    have hjoin : DirPath.join [dir, vmID, id, Metadata.diskFile w.name w.format] = _ :=
      join_push (s := [vmID, id]) hdir w.plain_diskFile
    rw [hjoin] at heq
    injection heq with hsame
    exact hp hsame

theorem tree_foldl_writeImage (ws : List (ImageWrite β)) : ∀ s : DiskState β,
    (ws.foldl (fun s w => s.writeImage dir vmID id w) s).tree = s.tree := by
  induction ws with
  | nil => exact fun s => rfl
  | cons w ws ih =>
    intro s
    rw [List.foldl_cons, ih]
    rfl

/-- **What such a point leaves**: what is in its directory goes, new directories are empty, and
nothing else happens. -/
theorem startAndAbort_eq_some {ws : List (ImageWrite β)} (hdir : dir ≠ "")
    (h : s.startAndAbort dir vmID id ws = some s') :
    DiskState.clear s.files (.join [dir, vmID, id]) = true ∧
      (∀ p, s'.tree.read p =
        if (DirPath.join [dir, vmID, id]).within p then none else s.tree.read p) ∧
      (∀ p, s'.tree.has p = true ↔ (s.tree.has p = true ∨
        p.within (.join [dir, vmID, id]) = true) ∧
          (DirPath.join [dir, vmID, id]).within p = false) ∧
      ∀ p name, p ≠ .join [dir, vmID, id] → s'.files (child p name) =
        if (DirPath.join [dir, vmID, id]).within (child p name) then none
        else s.files (child p name) := by
  rw [DiskState.startAndAbort, DiskState.create] at h
  split at h
  · rename_i hsafe
    rw [Bool.and_eq_true] at hsafe
    cases h
    refine ⟨hsafe.2, fun p => ?_, fun p => ?_, fun p name hp => ?_⟩
    · rw [DiskState.tree_abort, FileTree.read_removeAll, tree_foldl_writeImage,
        FileTree.read_mkdirAll]
    · rw [DiskState.tree_abort, FileTree.has_removeAll, tree_foldl_writeImage,
        FileTree.has_mkdirAll_iff s.closed]
    · rw [DiskState.files_abort, files_foldl_writeImage hdir hp]
  · cases h

/-- No file is where a directory was made. -/
theorem files_of_clear {files : DirPath → Option β} {p : DirPath}
    (h : DiskState.clear files p = true) : files p = none := by
  cases p with
  | dot => simpa [DiskState.clear] using h
  | slash => simpa [DiskState.clear] using h
  | child d name =>
    rw [DiskState.clear, Bool.and_eq_true] at h
    simpa using h.1

/-- The metadata of a completed point. -/
theorem read_of_completedAt {t : FileTree Metadata} {p : DirPath}
    (h : (completedAt t p).isSome = true) : (t.read p).isSome = true := by
  obtain ⟨m, hm⟩ := Option.isSome_iff_exists.mp h
  rw [completedAt, Option.filter_eq_some_iff] at hm
  rw [hm.1]
  rfl

/-- A listing shows the same when the completed points it shows are where they were. -/
theorem completed_eq (hdir : dir ≠ "") {t t' : FileTree Metadata} (ht : t.Closed)
    (hread : ∀ name, idPattern name = true →
      completedAt t' (.join [dir, vmID, name]) = completedAt t (.join [dir, vmID, name]))
    (hhas : ∀ name, idPattern name = true →
      (completedAt t (.join [dir, vmID, name])).isSome = true →
        t'.has (.join [dir, vmID]) = true ∧ t'.has (.join [dir, vmID, name]) = true) :
    completed dir t' vmID = completed dir t vmID := by
  have hpath : ∀ {name}, idPattern name = true →
      DirPath.join [dir, vmID, name] = child (.join [dir, vmID]) name :=
    fun hid => join_push (s := [vmID]) hdir (plain_of_idPattern hid)
  rw [completed, completed]
  have hsame : ((t'.names (.join [dir, vmID])).filter idPattern).filterMap
        (fun name => completedAt t' (.join [dir, vmID, name])) =
      ((t'.names (.join [dir, vmID])).filter idPattern).filterMap
        fun name => completedAt t (.join [dir, vmID, name]) :=
    List.filterMap_congr fun name hname => hread name (List.mem_filter.mp hname).2
  rw [hsame]
  refine FileTree.filterMap_eq_of_pairwise (FileTree.pairwise_names.filter _)
    (FileTree.pairwise_names.filter _) (FileTree.nodup_names.filter _)
    (FileTree.nodup_names.filter _) fun name hsome => ?_
  rw [List.mem_filter, List.mem_filter]
  refine and_congr_left fun hid => ?_
  -- a completed point is there, before and after
  obtain ⟨m, hm⟩ := Option.isSome_iff_exists.mp (read_of_completedAt hsome)
  have hbefore := FileTree.has_of_read hm
  have hafter := hhas name hid hsome
  rw [hpath hid] at hbefore hafter
  exact iff_of_true (FileTree.mem_names.mpr hafter)
    (FileTree.mem_names.mpr ⟨ht _ _ hbefore, hbefore⟩)

section Aborted

variable {ws : List (ImageWrite β)}

/-- The completed points in the directory of the aborted one go with it. -/
theorem completedAt_abort (hdir : dir ≠ "") (h : s.startAndAbort dir vmID id ws = some s')
    (p : DirPath) : completedAt s'.tree p =
      if (DirPath.join [dir, vmID, id]).within p then none else completedAt s.tree p := by
  rw [completedAt, (startAndAbort_eq_some hdir h).2.1]
  split <;> rfl

variable {v i : String}

theorem completedAt_kept (hdir : dir ≠ "") (h : s.startAndAbort dir vmID id ws = some s')
    (hvacant : Vacant dir s.tree (.join [dir, vmID, id])) (hv : idSafe v = true)
    (hi : idPattern i = true) :
    completedAt s'.tree (.join [dir, v, i]) = completedAt s.tree (.join [dir, v, i]) := by
  rw [completedAt_abort hdir h]
  split
  · rename_i hin
    cases hsome : completedAt s.tree (.join [dir, v, i]) with
    | none => rfl
    | some m =>
      have hno := hvacant v i hv hi (by rw [hsome]; rfl)
      rw [hin] at hno
      cases hno
  · rfl

/-- The files in a directory outside. -/
theorem files_kept (hdir : dir ≠ "") (h : s.startAndAbort dir vmID id ws = some s')
    (hno : (DirPath.join [dir, vmID, id]).within (.join [dir, v, i]) = false) {name : String}
    (hname : Plain name) :
    s'.files (.join [dir, v, i, name]) = s.files (.join [dir, v, i, name]) := by
  obtain ⟨hclear, -, -, hfiles⟩ := startAndAbort_eq_some hdir h
  have hne : DirPath.join [dir, v, i] ≠ .join [dir, vmID, id] := by
    intro heq
    rw [heq, within_refl] at hno
    cases hno
  have hjoin : DirPath.join [dir, v, i, name] = _ := join_push (s := [v, i]) hdir hname
  rw [hjoin, hfiles _ _ hne]
  split
  · rename_i hin
    rw [within, hno, Bool.or_false, decide_eq_true_eq] at hin
    -- a directory was made there, so there was no file
    rw [hin, files_of_clear hclear]
  · rfl

/-- What a listing shows of a machine. -/
theorem completed_kept (hdir : dir ≠ "") (h : s.startAndAbort dir vmID id ws = some s')
    (hvacant : Vacant dir s.tree (.join [dir, vmID, id])) (hv : idSafe v = true) :
    completed dir s'.tree v = completed dir s.tree v := by
  obtain ⟨-, -, hhas, -⟩ := startAndAbort_eq_some hdir h
  refine completed_eq hdir s.closed (fun i hi => completedAt_kept hdir h hvacant hv hi)
    fun i hi hsome => ?_
  obtain ⟨m, hm⟩ := Option.isSome_iff_exists.mp (read_of_completedAt hsome)
  have hthere := FileTree.has_of_read hm
  have hno := hvacant v i hv hi hsome
  have hpath : DirPath.join [dir, v, i] = child (.join [dir, v]) i :=
    join_push (s := [v]) hdir (plain_of_idPattern hi)
  rw [hpath] at hthere hno ⊢
  refine ⟨(hhas _).mpr ⟨.inl (s.closed _ _ hthere), Bool.eq_false_iff.mpr fun hin => ?_⟩,
    (hhas _).mpr ⟨.inl hthere, hno⟩⟩
  rw [within, hin, Bool.or_true] at hno
  cases hno

end Aborted

/-- **Aborted points**: starting and aborting a point leaves everything as it was exactly when no
completed point is in the directory of the id that was drawn. -/
theorem aborted_untouched_iff (srt : SortDesc Metadata Metadata.createdAt)
    {ws : List (ImageWrite β)} (hdir : dir ≠ "")
    (h : s.startAndAbort dir vmID id ws = some s') :
    Untouched srt dir s s' ↔ Vacant dir s.tree (.join [dir, vmID, id]) := by
  constructor
  · intro huntouched v i hv hi hsome
    obtain ⟨m, hm⟩ := Option.isSome_iff_exists.mp hsome
    have hkept := (huntouched.points v i m hv hi hm).1
    by_contra hin
    rw [completedAt_abort hdir h, if_pos (by simpa using hin)] at hkept
    cases hkept
  · intro hvacant
    refine ⟨fun v i m hv hi hm => ⟨?_, fun name hname => ?_⟩, fun v => ?_⟩
    · exact (completedAt_kept hdir h hvacant hv hi).trans hm
    · exact files_kept hdir h (hvacant v i hv hi (by rw [hm]; rfl)) hname
    · rw [list, list]
      split
      · rename_i hv
        rw [completed_kept hdir h hvacant hv]
      · rfl

/-- The directories that a drawn id can share: for a machine other than `/`, that of its own
point of that id. -/
theorem vacant_iff (hdir : dir ≠ "") (hvm : idSafe vmID = true) (hslash : vmID ≠ "/")
    (hid : idPattern id = true) {t : FileTree Metadata} :
    Vacant dir t (.join [dir, vmID, id]) ↔ completedAt t (.join [dir, vmID, id]) = none := by
  constructor
  · intro hvacant
    by_contra hsome
    have hout := hvacant vmID id hvm hid (Option.isSome_iff_ne_none.mpr hsome)
    rw [within_refl] at hout
    cases hout
  · intro hnone v i hv hi hsome
    have hplain := plain_of_idPattern hi
    rw [join_two hdir (plain_of_idSafe hvm hslash) (plain_of_idPattern hid)] at hnone ⊢
    by_cases hv' : v = "/"
    · rw [hv', join_slash hdir hplain]
      exact within_of_depth_lt (Nat.lt_succ_self _)
    · rw [join_two hdir (plain_of_idSafe hv hv') hplain] at hsome ⊢
      refine Bool.eq_false_iff.mpr fun hin => ?_
      obtain ⟨rfl, rfl⟩ := within_pointPath.mp hin
      rw [hnone] at hsome
      cases hsome

/-! ## An id that is drawn again -/

/-- A library with nothing in it. -/
def emptyShelf : DiskState String where
  tree := [(.child .slash "backups", none), (.slash, none)]
  files _ := none
  closed := by
    intro d name h
    have hmem := FileTree.has_iff.mp h
    simp only [FileTree.paths, List.map_cons, List.map_nil, List.mem_cons, child.injEq,
      reduceCtorEq, List.not_mem_nil, or_false] at hmem
    rw [hmem.1]
    decide

/-- A point of the first of January 2026. -/
def newYear : Metadata := .create "erp01" "bk-20260101-120000-00ff" 0

/-- The library once it is completed. -/
def newYearShelf : DiskState String :=
  ((emptyShelf.create "/backups" "erp01" "bk-20260101-120000-00ff").getD emptyShelf).complete
    "/backups" newYear

/-- One image. -/
def oneImage : ImageWrite String := ⟨"vda", .qcow2, "zeros", by decide⟩

theorem aborted_untouched_newYear :
    ∃ s', newYearShelf.startAndAbort "/backups" "erp01" "bk-20260101-120000-0100" [oneImage] =
        some s' ∧
      (Untouched (.insertion Metadata.createdAt) "/backups" newYearShelf s' ↔
        Vacant "/backups" newYearShelf.tree
          (.join ["/backups", "erp01", "bk-20260101-120000-0100"])) ∧
      Vacant "/backups" newYearShelf.tree
        (.join ["/backups", "erp01", "bk-20260101-120000-0100"]) :=
  ⟨_, rfl, aborted_untouched_iff _ (by decide) rfl,
    (vacant_iff (by decide) (by decide) (by decide) (by decide)).mpr (by decide)⟩

/-- The id of a completed point is drawn again: the point is gone. -/
theorem redrawn_id_removes :
    ∃ s', newYearShelf.startAndAbort "/backups" "erp01" "bk-20260101-120000-00ff" [] = some s' ∧
      ¬ Untouched (.insertion Metadata.createdAt) "/backups" newYearShelf s' := by
  refine ⟨_, rfl, fun h => ?_⟩
  have hgone := (h.points "erp01" "bk-20260101-120000-00ff"
    { newYear with state := .complete } (by decide) (by decide) (by decide)).1
  revert hgone
  decide

end StoreDir

end Ultrav
