import Ultrav.BackupReturns
import Ultrav.Glob

/-!
# Views of the library directory

The store over a tree of directories: `List` walks the directory of one machine, `Get`, `PointDir`
and `Delete` look an id up with a pattern over all of them.

* `StoreDir` — the operations, at a root directory given as a text.
* `StoreDir.step` — creations, completions, abortions and deletions.
* `StoreDir.Kept` — where things are, as long as no point is created for the machine `/`.
* `ViewsAgree` / `views_agree` — the views show the same points, when the root finds itself.
-/

namespace Ultrav

/-- Errors of a lookup. -/
inductive LookupError where
  | store (e : StoreError)
  /-- `filepath.ErrBadPattern` -/
  | badPattern
  deriving DecidableEq, Repr

namespace StoreDir

/-! ## The store at its root -/

section Views

variable (srt : SortDesc Metadata Metadata.createdAt) (dir : String) (t : FileTree Metadata)

/-- `pointFromDir`, of a completed point -/
def completedAt (p : DirPath) : Option Metadata := (t.read p).filter fun m => m.state = .complete

/-- The completed points of a machine, in the order of their names. -/
def completed (vmID : String) : List Metadata :=
  ((t.names (.join [dir, vmID])).filter idPattern).filterMap fun name =>
    completedAt t (.join [dir, vmID, name])

/-- `List` -/
def list (vmID : String) : Except StoreError (List Metadata) :=
  if idSafe vmID then .ok (srt.sort (completed dir t vmID)) else .error .invalidID

/-- `pointDir` -/
def pointDir (id : String) : Except LookupError DirPath :=
  if idPattern id then
    match t.glob (.join [dir, "*", id]) with
    | none => .error .badPattern
    | some [] => .error (.store .notFound)
    | some (d :: _) => .ok d
  else .error (.store .invalidID)

/-- `Get` -/
def get (id : String) : Except LookupError Metadata :=
  match pointDir dir t id with
  | .error e => .error e
  | .ok d =>
    match completedAt t d with
    | some m => .ok m
    | none => .error (.store .notFound)

/-- `PointDir` -/
def readableDir (id : String) : Except LookupError DirPath :=
  match pointDir dir t id with
  | .error e => .error e
  | .ok d => if (t.read d).isSome then .ok d else .error (.store .notFound)

/-- `Delete` -/
def delete (id : String) : Except LookupError (FileTree Metadata) :=
  match readableDir dir t id with
  | .error e => .error e
  | .ok d => .ok (t.removeAll d)

/-- **The views agree**. -/
structure ViewsAgree : Prop where
  /-- `Get` finds what a `List` shows. -/
  get_iff : ∀ id m, get dir t id = .ok m ↔
    ∃ vmID ms, list srt dir t vmID = .ok ms ∧ m ∈ ms ∧ m.id = id
  /-- `PointDir` is the directory of the point. -/
  own_dir : ∀ vmID ms, list srt dir t vmID = .ok ms → ∀ m ∈ ms,
    readableDir dir t m.id = .ok (.join [dir, vmID, m.id])
  /-- `Delete` removes the point from the listings, and no other. -/
  deletes : ∀ vmID ms, list srt dir t vmID = .ok ms → ∀ m ∈ ms, ∃ t', delete dir t m.id = .ok t' ∧
    ∀ vmID' ms', list srt dir t vmID' = .ok ms' → ∃ ms'', list srt dir t' vmID' = .ok ms'' ∧
      ms''.Perm (ms'.filter fun a => a.id ≠ m.id)
  /-- A `List` shows completed points of its machine. -/
  own_points : ∀ vmID ms, list srt dir t vmID = .ok ms → ∀ m ∈ ms,
    m.vmID = vmID ∧ m.state = .complete
  newest_first : ∀ vmID ms, list srt dir t vmID = .ok ms →
    ms.Pairwise fun a b => b.createdAt ≤ a.createdAt

end Views

/-! ## Histories -/

/-- What a call does to the directory. -/
inductive Event where
  | create (vmID id : String) (now : Time)
  | complete (m : Metadata)
  | abort (vmID id : String)
  | delete (id : String)

/-- The directory, and the points `Create` has returned. -/
structure Shelf where
  tree : FileTree Metadata
  points : List Metadata

variable (dir : String)

/-- Ids are drawn once, and a point is completed or aborted by whom it was returned to. -/
def step (s : Shelf) : Event → Option Shelf
  | .create vmID id now =>
    if idSafe vmID && idPattern id && (s.points.all fun p => p.id ≠ id) then
      some ⟨s.tree.mkdirAll (.join [dir, vmID, id]), s.points ++ [.create vmID id now]⟩
    else none
  | .complete m =>
    if s.points.any fun p => m.Fills p then
      some { s with
        tree := s.tree.write (.join [dir, m.vmID, m.id]) { m with state := .complete } }
    else none
  | .abort vmID id =>
    if s.points.any fun p => p.vmID = vmID && p.id = id then
      some { s with tree := s.tree.removeAll (.join [dir, vmID, id]) }
    else none
  | .delete id =>
    match StoreDir.delete dir s.tree id with
    | .error _ => some s
    | .ok t => some { s with tree := t }

/-- The directory of the library. -/
abbrev root : DirPath := .join [dir]

/-- `New`: the directory is there, and empty. -/
structure Opened (t : FileTree Metadata) : Prop where
  named : dir ≠ ""
  there : t.has (root dir) = true
  bare : ∀ p, t.has p = true → (root dir).within p = true → p = root dir

/-- The root, read as a pattern, finds itself and nothing else. -/
def FindsItself (t : FileTree Metadata) : Prop := t.glob (root dir) = some [root dir]

/-- No point is created for the machine `/`. -/
def BelowRoot (_ : Shelf) : Event → Prop
  | .create vmID _ _ => vmID ≠ "/"
  | _ => True

/-! ## Names and paths -/

open DirPath

/-- A safe name is one entry, or the root. -/
theorem plain_of_idSafe {name : String} (h : idSafe name = true) (hne : name ≠ "/") :
    Plain name := by
  have hsafe : name = filepathBase name ∧ name ≠ "." ∧ name ≠ ".." ∧ name ≠ "" := by
    simpa [idSafe, and_assoc] using h
  obtain ⟨hbase, hdot, hdotdot, hempty⟩ := hsafe
  refine ⟨?_, hempty, hdot, hdotdot⟩
  rw [filepathBase, if_neg hempty] at hbase
  split at hbase
  · exact absurd hbase hne
  · rw [hbase, String.toList_ofList, List.mem_reverse]
    intro hmem
    simpa using List.all_eq_true.mp List.all_takeWhile _ hmem

theorem idChar_of_idPattern {id : String} (h : idPattern id = true) :
    ∀ c ∈ id.toList, idChar c = true := by
  rw [idPattern] at h
  split at h
  · rename_i cs hcs
    rw [hcs]
    have hall : cs.all idChar = true := (Bool.and_eq_true_iff.mp h).2
    have hpre : ['b', 'k', '-'].all idChar = true := by decide
    intro c hc
    rcases List.mem_append.mp (show c ∈ ['b', 'k', '-'] ++ cs from hc) with hc | hc
    · exact List.all_eq_true.mp hpre c hc
    · exact List.all_eq_true.mp hall c hc
  · cases h

theorem plain_of_idPattern {id : String} (h : idPattern id = true) : Plain id := by
  refine ⟨fun hmem => ?_, ?_, ?_, ?_⟩
  · have hslash : idChar '/' = true := idChar_of_idPattern h _ hmem
    exact absurd hslash (by decide)
  all_goals
    rintro rfl
    exact absurd h (by decide)

/-- An id stands for itself in a pattern. -/
theorem hasMeta_of_idPattern {id : String} (h : idPattern id = true) : Glob.hasMeta id = false := by
  rw [Glob.hasMeta, List.any_eq_false]
  intro c hc hmeta
  have hchar := idChar_of_idPattern h c hc
  have hcases : ((c = '*' ∨ c = '?') ∨ c = '[') ∨ c = '\\' := by simpa [Glob.metaChar] using hmeta
  rcases hcases with ((rfl | rfl) | rfl) | rfl <;> exact absurd hchar (by decide)

theorem plain_star : Plain "*" := by
  refine ⟨by decide, by decide, by decide, by decide⟩

variable {dir : String}

/-- The paths of the store. -/
theorem join_one (hdir : dir ≠ "") {a : String} (ha : Plain a) :
    join [dir, a] = child (root dir) a := by
  rw [join_eq_foldl hdir, root, join_eq_foldl hdir, List.foldl_cons, List.foldl_nil,
    List.foldl_nil, push_plain ha]

theorem join_two (hdir : dir ≠ "") {a b : String} (ha : Plain a) (hb : Plain b) :
    join [dir, a, b] = child (child (root dir) a) b := by
  rw [join_eq_foldl hdir, root, join_eq_foldl hdir, List.foldl_cons, List.foldl_cons,
    List.foldl_nil, List.foldl_nil, push_plain ha, push_plain hb]

/-- The name `/` leads nowhere. -/
theorem push_slash (p : DirPath) : (splitOn '/' "/".toList).foldl push p = p := by
  have hslash : splitOn '/' "/".toList = [[], []] := by decide
  have hempty : ∀ p, push p [] = p := fun p => if_pos (.inl rfl)
  rw [hslash, List.foldl_cons, List.foldl_cons, List.foldl_nil, hempty, hempty]

/-- The points of the machine `/` are not below a directory of their own. -/
theorem join_slash (hdir : dir ≠ "") {b : String} (hb : Plain b) :
    join [dir, "/", b] = child (root dir) b := by
  rw [join_eq_foldl hdir, root, join_eq_foldl hdir, List.foldl_cons, List.foldl_cons,
    List.foldl_nil, List.foldl_nil, push_slash, push_plain hb]

/-! ## Where things are -/

/-- The directory of a point. -/
abbrev pointPath (dir vmID id : String) : DirPath := child (child (root dir) vmID) id

theorem pointPath_inj {v w i j : String} :
    pointPath dir v i = pointPath dir w j ↔ v = w ∧ i = j := by
  rw [child.injEq, child.injEq, and_iff_right rfl]

/-- Points are next to each other. -/
theorem within_pointPath {v w i j : String} :
    (pointPath dir v i).within (pointPath dir w j) = true ↔ w = v ∧ j = i := by
  have hdeep : (pointPath dir v i).depth = (child (root dir) w).depth + 1 := rfl
  rw [within_child hdeep, decide_eq_true_eq, pointPath_inj]

/-- Below the root there are the points that were created, in directories of their machines, and
the documents of completed ones. Up to the root, all is as it was. -/
structure Kept (dir : String) (t₀ : FileTree Metadata) (s : Shelf) : Prop where
  shallow : s.tree.shallow (root dir).depth = t₀.shallow (root dir).depth
  safe : ∀ m ∈ s.points, idSafe m.vmID = true ∧ m.vmID ≠ "/" ∧ idPattern m.id = true
  ids : (s.points.map Metadata.id).Nodup
  parent : ∀ vmID id, s.tree.has (pointPath dir vmID id) = true →
    s.tree.has (child (root dir) vmID) = true
  placed : ∀ vmID id, s.tree.has (pointPath dir vmID id) = true →
    ∃ m ∈ s.points, m.vmID = vmID ∧ m.id = id
  bare : ∀ vmID, s.tree.read (child (root dir) vmID) = none
  keyed : ∀ vmID id m, s.tree.read (pointPath dir vmID id) = some m →
    m.vmID = vmID ∧ m.id = id ∧ m.state = .complete

variable {t₀ : FileTree Metadata} {s s' : Shelf}

theorem Opened.kept (h : Opened dir t₀) : Kept dir t₀ ⟨t₀, []⟩ := by
  have hbelow : ∀ p, (root dir).within p = true → (root dir).depth < p.depth →
      t₀.has p ≠ true := by
    intro p hp hdepth hhas
    rw [h.bare p hhas hp] at hdepth
    exact lt_irrefl _ hdepth
  have hchild : ∀ {p name}, (root dir).within p = true → (root dir).within (child p name) = true :=
    fun hp => by rw [within, hp, Bool.or_true]
  have hmachine : ∀ vmID, t₀.has (child (root dir) vmID) ≠ true := fun vmID =>
    hbelow _ (hchild (within_refl _)) (Nat.lt_succ_self _)
  have hpoint : ∀ vmID id, t₀.has (pointPath dir vmID id) ≠ true := fun vmID id =>
    hbelow _ (hchild (hchild (within_refl _))) (Nat.lt_add_right 1 (Nat.lt_succ_self _))
  refine ⟨rfl, fun _ hm => (List.not_mem_nil hm).elim, .nil,
    fun vmID id hhas => absurd hhas (hpoint vmID id),
    fun vmID id hhas => absurd hhas (hpoint vmID id), fun vmID => ?_, fun vmID id m hread => ?_⟩
  · cases hread : t₀.read (child (root dir) vmID) with
    | none => rfl
    | some m => exact absurd (FileTree.has_of_read hread) (hmachine vmID)
  · exact absurd (FileTree.has_of_read hread) (hpoint vmID id)

theorem Kept.plain (hs : Kept dir t₀ s) {m : Metadata} (hm : m ∈ s.points) :
    Plain m.vmID ∧ Plain m.id := by
  obtain ⟨hsafe, hne, hid⟩ := hs.safe m hm
  exact ⟨plain_of_idSafe hsafe hne, plain_of_idPattern hid⟩

theorem Kept.has_root (hs : Kept dir t₀ s) (h : Opened dir t₀) : s.tree.has (root dir) = true :=
  (FileTree.has_congr hs.shallow le_rfl).trans h.there

/-- **What a lookup finds**: the directories of points of that id. -/
theorem Kept.mem_expand (hs : Kept dir t₀ s) (h : Opened dir t₀) (hfinds : FindsItself dir t₀)
    {id : String} (hid : idPattern id = true) {d : DirPath} :
    d ∈ s.tree.expand (child (child (root dir) "*") id) ↔
      ∃ vmID, s.tree.has (pointPath dir vmID id) = true ∧ d = pointPath dir vmID id := by
  have hroot : s.tree.expand (root dir) = [root dir] := by
    rw [FileTree.expand_congr hs.shallow le_rfl]
    rw [FindsItself, FileTree.glob] at hfinds
    split at hfinds
    · exact Option.some.inj hfinds
    · cases hfinds
  have hstar : (child (root dir) "*").hasMeta = true := by
    rw [DirPath.hasMeta, Bool.or_eq_true]
    exact .inr (by decide)
  have hmeta : (child (child (root dir) "*") id).hasMeta = true := by
    rw [DirPath.hasMeta, hstar, Bool.true_or]
  rw [FileTree.mem_expand_child hmeta]
  constructor
  · rintro ⟨d', hd', n, hn, hmatch, rfl⟩
    obtain ⟨r, hr, vmID, hvm, -, rfl⟩ := (FileTree.mem_expand_child hstar).mp hd'
    rw [hroot, List.mem_singleton] at hr
    subst hr
    rw [Glob.matchName_literal (hasMeta_of_idPattern hid), decide_eq_true_eq] at hmatch
    subst hmatch
    exact ⟨vmID, (FileTree.mem_names.mp hn).2, rfl⟩
  · rintro ⟨vmID, hhas, rfl⟩
    obtain ⟨m, hm, rfl, rfl⟩ := hs.placed vmID id hhas
    have hvm := hs.parent _ _ hhas
    refine ⟨child (root dir) m.vmID, (FileTree.mem_expand_child hstar).mpr ⟨root dir, ?_, m.vmID,
      ?_, ?_, rfl⟩, m.id, FileTree.mem_names.mpr ⟨hvm, hhas⟩, ?_, rfl⟩
    · rw [hroot]
      exact List.mem_singleton_self _
    · exact FileTree.mem_names.mpr ⟨hs.has_root h, hvm⟩
    · exact Glob.matchName_star (hs.plain hm).1.no_slash
    · rw [Glob.matchName_literal (hasMeta_of_idPattern hid), decide_eq_true_eq]

/-- A point is in one place. -/
theorem Kept.vmID_inj (hs : Kept dir t₀ s) {v w id : String}
    (hv : s.tree.has (pointPath dir v id) = true) (hw : s.tree.has (pointPath dir w id) = true) :
    v = w := by
  obtain ⟨m, hm, rfl, hmid⟩ := hs.placed v id hv
  obtain ⟨n, hn, rfl, hnid⟩ := hs.placed w id hw
  rw [List.inj_on_of_nodup_map hs.ids hm hn (hmid.trans hnid.symm)]

/-- An id resolves to the first of what is found. -/
theorem pointDir_eq_head (h : Opened dir t₀) (hfinds : FindsItself dir t₀) {id : String}
    (hid : idPattern id = true) (t : FileTree Metadata) : pointDir dir t id =
      match t.expand (child (child (root dir) "*") id) with
      | [] => .error (.store .notFound)
      | d :: _ => .ok d := by
  have hwf : (child (child (root dir) "*") id).wellFormed = true := by
    rw [FindsItself, FileTree.glob] at hfinds
    split at hfinds
    · rename_i hroot
      have hstar : (Glob.terms "*".toList).isSome = true := by decide
      rw [wellFormed, wellFormed, hroot, hstar, Glob.terms_literal (hasMeta_of_idPattern hid)]
      rfl
    · cases hfinds
  rw [pointDir, if_pos hid, join_two h.named plain_star (plain_of_idPattern hid), FileTree.glob,
    if_pos hwf]
  cases t.expand (child (child (root dir) "*") id) <;> rfl

/-- The directory of a point is the only one its id resolves to. -/
theorem Kept.pointDir_of_has (hs : Kept dir t₀ s) (h : Opened dir t₀)
    (hfinds : FindsItself dir t₀) {vmID id : String} (hid : idPattern id = true)
    (hhas : s.tree.has (pointPath dir vmID id) = true) :
    pointDir dir s.tree id = .ok (pointPath dir vmID id) := by
  have hmem := fun d => hs.mem_expand h hfinds hid (d := d)
  rw [pointDir_eq_head h hfinds hid]
  generalize s.tree.expand (child (child (root dir) "*") id) = found at hmem
  cases found with
  | nil => exact (List.not_mem_nil ((hmem _).mpr ⟨vmID, hhas, rfl⟩)).elim
  | cons d found =>
    obtain ⟨v, hv, rfl⟩ := (hmem d).mp List.mem_cons_self
    rw [hs.vmID_inj hv hhas]

theorem Kept.pointDir_of_not_has (hs : Kept dir t₀ s) (h : Opened dir t₀)
    (hfinds : FindsItself dir t₀) {id : String} (hid : idPattern id = true)
    (hnot : ∀ vmID, s.tree.has (pointPath dir vmID id) ≠ true) :
    pointDir dir s.tree id = .error (.store .notFound) := by
  have hmem := fun d => hs.mem_expand h hfinds hid (d := d)
  rw [pointDir_eq_head h hfinds hid]
  generalize s.tree.expand (child (child (root dir) "*") id) = found at hmem
  cases found with
  | nil => rfl
  | cons d found =>
    obtain ⟨v, hv, -⟩ := (hmem d).mp List.mem_cons_self
    exact absurd hv (hnot v)

/-- The directory `pointDir` resolves an id to. -/
theorem Kept.pointDir_eq_ok (hs : Kept dir t₀ s) (h : Opened dir t₀)
    (hfinds : FindsItself dir t₀) {id : String} {d : DirPath} :
    pointDir dir s.tree id = .ok d ↔ idPattern id = true ∧
      ∃ vmID, s.tree.has (pointPath dir vmID id) = true ∧ d = pointPath dir vmID id := by
  by_cases hid : idPattern id = true
  · rw [and_iff_right hid]
    constructor
    · intro hdir
      by_contra hno
      have hnot : ∀ vmID, s.tree.has (pointPath dir vmID id) ≠ true := by
        intro vmID hhas
        rw [hs.pointDir_of_has h hfinds hid hhas] at hdir
        cases hdir
        exact hno ⟨vmID, hhas, rfl⟩
      rw [hs.pointDir_of_not_has h hfinds hid hnot] at hdir
      cases hdir
    · rintro ⟨vmID, hhas, rfl⟩
      exact hs.pointDir_of_has h hfinds hid hhas
  · rw [pointDir, if_neg hid]
    exact iff_of_false (fun heq => by cases heq) fun hex => hid hex.1

/-- A point that goes leaves the others where they are. -/
theorem Kept.removeAll (hs : Kept dir t₀ s) (vmID id : String) :
    Kept dir t₀ { s with tree := s.tree.removeAll (pointPath dir vmID id) } := by
  have hdeep : (root dir).depth < (pointPath dir vmID id).depth :=
    Nat.lt_add_right 1 (Nat.lt_succ_self _)
  refine ⟨(FileTree.shallow_removeAll hdeep).trans hs.shallow, hs.safe, hs.ids,
    fun v i hhas => ?_, fun v i hhas => ?_, fun v => ?_, fun v i m hread => ?_⟩
  · rw [FileTree.has_removeAll] at hhas ⊢
    refine ⟨hs.parent v i hhas.1, Bool.eq_false_iff.mpr fun hw => ?_⟩
    have hle := depth_le_of_within hw
    simp only [depth] at hle
    omega
  · exact hs.placed v i (FileTree.has_removeAll.mp hhas).1
  · rw [FileTree.read_removeAll]
    split
    · rfl
    · exact hs.bare v
  · rw [FileTree.read_removeAll] at hread
    split at hread
    · cases hread
    · exact hs.keyed v i m hread

/-- The directory of a point and that of a machine are not the same. -/
theorem child_ne_pointPath (v vmID id : String) : child (root dir) v ≠ pointPath dir vmID id := by
  intro heq
  have hdepth := congrArg depth heq
  simp only [depth] at hdepth
  omega

/-- A new point. -/
theorem Kept.create (hs : Kept dir t₀ s) (h : Opened dir t₀) {vmID id : String} {now : Time}
    (hvm : idSafe vmID = true) (hne : vmID ≠ "/") (hid : idPattern id = true)
    (hnew : ∀ p ∈ s.points, p.id ≠ id) :
    Kept dir t₀ ⟨s.tree.mkdirAll (pointPath dir vmID id), s.points ++ [.create vmID id now]⟩ := by
  have hfresh : s.tree.has (pointPath dir vmID id) = false := by
    refine Bool.eq_false_iff.mpr fun hhas => ?_
    obtain ⟨m, hm, -, hmid⟩ := hs.placed vmID id hhas
    exact hnew m hm hmid
  have hhas := fun q => FileTree.has_mkdirAll (q := q) (hs.has_root h) hfresh
  refine ⟨(FileTree.shallow_mkdirAll (hs.has_root h)).trans hs.shallow, fun m hm => ?_, ?_,
    fun v i hp => ?_, fun v i hp => ?_, fun v => ?_, fun v i m hread => ?_⟩
  · rcases List.mem_append.mp hm with hm | hm
    · exact hs.safe m hm
    · rw [List.mem_singleton.mp hm]
      exact ⟨hvm, hne, hid⟩
  · rw [List.map_append, List.nodup_append]
    refine ⟨hs.ids, List.nodup_singleton _, fun i hi j hj heq => ?_⟩
    obtain ⟨m, hm, rfl⟩ := List.mem_map.mp hi
    rw [List.map_singleton, List.mem_singleton] at hj
    exact hnew m hm (heq.trans hj)
  · rw [hhas] at hp ⊢
    rcases hp with hp | heq | heq
    · exact .inl (hs.parent v i hp)
    · exact absurd heq.symm (child_ne_pointPath vmID v i)
    · injection heq with hparent
      exact .inr (.inl hparent)
  · rw [hhas] at hp
    rcases hp with hp | heq | heq
    · obtain ⟨m, hm, hkey⟩ := hs.placed v i hp
      exact ⟨m, List.mem_append_left _ hm, hkey⟩
    · exact absurd heq.symm (child_ne_pointPath vmID v i)
    · obtain ⟨rfl, rfl⟩ := pointPath_inj.mp heq
      exact ⟨.create v i now, List.mem_append_right _ List.mem_cons_self, rfl, rfl⟩
  · rw [FileTree.read_mkdirAll]
    exact hs.bare v
  · rw [FileTree.read_mkdirAll] at hread
    exact hs.keyed v i m hread

/-- A completed point. -/
theorem Kept.write (hs : Kept dir t₀ s) (m : Metadata) :
    Kept dir t₀ { s with
      tree := s.tree.write (pointPath dir m.vmID m.id) { m with state := .complete } } := by
  have hhas : ∀ q, (FileTree.write s.tree (pointPath dir m.vmID m.id)
      { m with state := .complete }).has q = s.tree.has q := by
    intro q
    rw [FileTree.has, FileTree.paths_write, FileTree.has]
  refine ⟨?_, hs.safe, hs.ids, fun v i hp => ?_, fun v i hp => ?_, fun v => ?_,
    fun v i n hread => ?_⟩
  · rw [← hs.shallow, FileTree.shallow, FileTree.paths_write, FileTree.shallow]
  · rw [hhas] at hp ⊢
    exact hs.parent v i hp
  · rw [hhas] at hp
    exact hs.placed v i hp
  · rw [FileTree.read_write, if_neg fun hq => child_ne_pointPath v m.vmID m.id hq.1]
    exact hs.bare v
  · rw [FileTree.read_write] at hread
    split at hread
    · rename_i hq
      obtain rfl := Option.some.inj hread
      obtain ⟨rfl, rfl⟩ := pointPath_inj.mp hq.1
      exact ⟨rfl, rfl, rfl⟩
    · exact hs.keyed v i n hread

/-- A deletion removes the directory its id resolves to. -/
theorem delete_eq_ok {t t' : FileTree Metadata} {id : String} (h : delete dir t id = .ok t') :
    ∃ d, pointDir dir t id = .ok d ∧ t' = t.removeAll d := by
  rw [delete, readableDir] at h
  split at h
  · cases h
  · rename_i d hd
    cases h
    split at hd
    · cases hd
    · rename_i d' hd'
      split at hd
      · cases hd
        exact ⟨d, hd', rfl⟩
      · cases hd

/-- What a step does, where no point is created for the machine `/`. -/
inductive Moves (dir : String) (s : Shelf) : Event → Shelf → Prop where
  | create {vmID id : String} {now : Time} : idSafe vmID = true → vmID ≠ "/" →
      idPattern id = true → (∀ p ∈ s.points, p.id ≠ id) →
      Moves dir s (.create vmID id now)
        ⟨s.tree.mkdirAll (pointPath dir vmID id), s.points ++ [.create vmID id now]⟩
  | complete {m : Metadata} : Moves dir s (.complete m) { s with
      tree := s.tree.write (pointPath dir m.vmID m.id) { m with state := .complete } }
  | abort {vmID id : String} : Moves dir s (.abort vmID id)
      { s with tree := s.tree.removeAll (pointPath dir vmID id) }
  | delete {id : String} {t : FileTree Metadata} : StoreDir.delete dir s.tree id = .ok t →
      Moves dir s (.delete id) { s with tree := t }
  | refuse {id : String} {e : LookupError} : StoreDir.delete dir s.tree id = .error e →
      Moves dir s (.delete id) s

/-- **Inversion for `step`**. -/
theorem Kept.moves (hs : Kept dir t₀ s) (h : Opened dir t₀) {e : Event} (hbelow : BelowRoot s e)
    (hstep : StoreDir.step dir s e = some s') : Moves dir s e s' := by
  cases e with
  | create vmID id now =>
    rw [StoreDir.step] at hstep
    split at hstep
    · rename_i hok
      cases hstep
      have hok' : (idSafe vmID = true ∧ idPattern id = true) ∧ ∀ p ∈ s.points, p.id ≠ id := by
        simpa using hok
      rw [join_two h.named (plain_of_idSafe hok'.1.1 hbelow) (plain_of_idPattern hok'.1.2)]
      exact .create hok'.1.1 hbelow hok'.1.2 hok'.2
    · cases hstep
  | complete m =>
    rw [StoreDir.step] at hstep
    split at hstep
    · rename_i hown
      cases hstep
      obtain ⟨p, hp, hfills⟩ := List.any_eq_true.mp hown
      obtain ⟨hid, hvm, -⟩ := of_decide_eq_true hfills
      have hvm' : m.vmID = p.vmID := hvm
      have hid' : m.id = p.id := hid
      rw [join_two h.named (hvm' ▸ (hs.plain hp).1) (hid' ▸ (hs.plain hp).2)]
      exact .complete
    · cases hstep
  | abort vmID id =>
    rw [StoreDir.step] at hstep
    split at hstep
    · rename_i hown
      cases hstep
      obtain ⟨p, hp, hkey⟩ := List.any_eq_true.mp hown
      obtain ⟨rfl, rfl⟩ : p.vmID = vmID ∧ p.id = id := by simpa using hkey
      rw [join_two h.named (hs.plain hp).1 (hs.plain hp).2]
      exact .abort
    · cases hstep
  | delete id =>
    rw [StoreDir.step] at hstep
    split at hstep
    · rename_i hdelete
      cases hstep
      exact .refuse hdelete
    · rename_i hdelete
      cases hstep
      exact .delete hdelete

/-- **Every step** that creates no point for the machine `/` keeps things in their places. -/
theorem Kept.step (hs : Kept dir t₀ s) (h : Opened dir t₀) (hfinds : FindsItself dir t₀)
    {e : Event} (hmoves : Moves dir s e s') : Kept dir t₀ s' := by
  cases hmoves with
  | create hsafe hslash hid hnew => exact hs.create h hsafe hslash hid hnew
  | complete => exact hs.write _
  | abort => exact hs.removeAll _ _
  | delete hdelete =>
    obtain ⟨d, hd, rfl⟩ := delete_eq_ok hdelete
    obtain ⟨-, vmID, -, rfl⟩ := (hs.pointDir_eq_ok h hfinds).mp hd
    exact hs.removeAll vmID _
  | refuse _ => exact hs

/-- Things are in their places after every such history. -/
theorem Opened.kept_of_run (h : Opened dir t₀) (hfinds : FindsItself dir t₀) {es : List Event}
    (hbelow : Machine.Along (StoreDir.step dir) BelowRoot ⟨t₀, []⟩ es)
    (hrun : Machine.run (StoreDir.step dir) ⟨t₀, []⟩ es = some s) : Kept dir t₀ s := by
  refine Machine.run_inv (fun s e s' hs hbelow hstep => ?_) h.kept hbelow hrun
  exact hs.step h hfinds (hs.moves h hbelow hstep)

/-! ## What the views show -/

theorem Kept.completedAt_eq_some (hs : Kept dir t₀ s) {vmID id : String} {m : Metadata} :
    completedAt s.tree (pointPath dir vmID id) = some m ↔
      s.tree.read (pointPath dir vmID id) = some m := by
  rw [completedAt, Option.filter_eq_some_iff, decide_eq_true_eq]
  exact and_iff_left_of_imp fun hread => (hs.keyed vmID id m hread).2.2

/-- An entry of a listing: there is none of the machine `/`. -/
theorem Kept.completedAt_join (hs : Kept dir t₀ s) (h : Opened dir t₀) {vmID name : String}
    (hsafe : idSafe vmID = true) (hid : idPattern name = true) {m : Metadata} :
    completedAt s.tree (.join [dir, vmID, name]) = some m ↔
      vmID ≠ "/" ∧ s.tree.read (pointPath dir vmID name) = some m := by
  by_cases hslash : vmID = "/"
  · rw [hslash, join_slash h.named (plain_of_idPattern hid), completedAt, hs.bare name]
    exact iff_of_false (fun heq => by cases heq) fun hm => hm.1 rfl
  · rw [join_two h.named (plain_of_idSafe hsafe hslash) (plain_of_idPattern hid),
      and_iff_right hslash]
    exact hs.completedAt_eq_some

/-- The listing of a machine. -/
theorem Kept.mem_completed (hs : Kept dir t₀ s) (h : Opened dir t₀) {vmID : String}
    (hsafe : idSafe vmID = true) {m : Metadata} :
    m ∈ completed dir s.tree vmID ↔ vmID ≠ "/" ∧ idPattern m.id = true ∧
      s.tree.read (pointPath dir vmID m.id) = some m := by
  rw [completed, List.mem_filterMap]
  constructor
  · rintro ⟨name, hname, hm⟩
    have hid := (List.mem_filter.mp hname).2
    obtain ⟨hslash, hread⟩ := (hs.completedAt_join h hsafe hid).mp hm
    obtain ⟨-, rfl, -⟩ := hs.keyed vmID name m hread
    exact ⟨hslash, hid, hread⟩
  · rintro ⟨hslash, hid, hread⟩
    have hhas := FileTree.has_of_read hread
    refine ⟨m.id, List.mem_filter.mpr ⟨?_, hid⟩,
      (hs.completedAt_join h hsafe hid).mpr ⟨hslash, hread⟩⟩
    rw [join_one h.named (plain_of_idSafe hsafe hslash)]
    exact FileTree.mem_names.mpr ⟨hs.parent vmID m.id hhas, hhas⟩

theorem Kept.nodup_completed (hs : Kept dir t₀ s) (h : Opened dir t₀) {vmID : String}
    (hsafe : idSafe vmID = true) : (completed dir s.tree vmID).Nodup := by
  refine List.pairwise_filterMap.mpr ((FileTree.nodup_names.filter _).imp_of_mem ?_)
  rintro a b ha hb hne m hm n hn rfl
  -- a point is recorded under the name of its directory
  have hread := ((hs.completedAt_join h hsafe (List.mem_filter.mp ha).2).mp hm).2
  have hread' := ((hs.completedAt_join h hsafe (List.mem_filter.mp hb).2).mp hn).2
  exact hne ((hs.keyed _ _ _ hread).2.1.symm.trans (hs.keyed _ _ _ hread').2.1)

/-- The listings of a safe name. -/
theorem list_eq_ok {srt : SortDesc Metadata Metadata.createdAt} {t : FileTree Metadata}
    {vmID : String} {ms : List Metadata} :
    list srt dir t vmID = .ok ms ↔ idSafe vmID = true ∧ ms = srt.sort (completed dir t vmID) := by
  rw [list]
  split
  · rename_i hsafe
    rw [Except.ok.injEq, and_iff_right hsafe, eq_comm]
  · rename_i hsafe
    exact iff_of_false (fun heq => by cases heq) fun hex => hsafe hex.1

theorem Kept.get_eq_ok (hs : Kept dir t₀ s) (h : Opened dir t₀) (hfinds : FindsItself dir t₀)
    {id : String} {m : Metadata} :
    get dir s.tree id = .ok m ↔ idPattern id = true ∧
      ∃ vmID, s.tree.read (pointPath dir vmID id) = some m := by
  rw [get]
  cases hdir : pointDir dir s.tree id with
  | error e =>
    refine iff_of_false (fun heq => by cases heq) ?_
    rintro ⟨hid, vmID, hread⟩
    have hok := (hs.pointDir_eq_ok h hfinds).mpr ⟨hid, vmID, FileTree.has_of_read hread, rfl⟩
    rw [hdir] at hok
    cases hok
  | ok d =>
    obtain ⟨hid, v, hv, rfl⟩ := (hs.pointDir_eq_ok h hfinds).mp hdir
    dsimp only
    constructor
    · intro heq
      split at heq
      · rename_i n hn
        cases heq
        exact ⟨hid, v, hs.completedAt_eq_some.mp hn⟩
      · cases heq
    · rintro ⟨-, w, hread⟩
      obtain rfl := hs.vmID_inj hv (FileTree.has_of_read hread)
      rw [hs.completedAt_eq_some.mpr hread]

/-- **A deletion** removes one point from the listings. -/
theorem Kept.mem_completed_removeAll (hs : Kept dir t₀ s) (h : Opened dir t₀) {vmID id : String}
    (hhas : s.tree.has (pointPath dir vmID id) = true) {v : String} (hsafe : idSafe v = true)
    {m : Metadata} : m ∈ completed dir (s.tree.removeAll (pointPath dir vmID id)) v ↔
      m ∈ completed dir s.tree v ∧ m.id ≠ id := by
  rw [(hs.removeAll vmID id).mem_completed h hsafe, hs.mem_completed h hsafe,
    FileTree.read_removeAll, and_assoc, and_assoc]
  refine and_congr_right fun _ => and_congr_right fun _ => ?_
  split
  · rename_i hin
    exact iff_of_false (fun heq => by cases heq) fun hm => hm.2 (within_pointPath.mp hin).2
  · rename_i hout
    refine (and_iff_left_of_imp fun hread hid => hout (within_pointPath.mpr ⟨?_, hid⟩)).symm
    subst hid
    exact hs.vmID_inj (FileTree.has_of_read hread) hhas

/-- **What things in their places show**. -/
theorem Kept.viewsAgree (hs : Kept dir t₀ s) (h : Opened dir t₀) (hfinds : FindsItself dir t₀)
    (srt : SortDesc Metadata Metadata.createdAt) : ViewsAgree srt dir s.tree := by
  have hshown : ∀ {vmID ms m}, list srt dir s.tree vmID = .ok ms → m ∈ ms →
      idSafe vmID = true ∧ vmID ≠ "/" ∧ idPattern m.id = true ∧
        s.tree.read (pointPath dir vmID m.id) = some m := by
    intro vmID ms m hlist hm
    obtain ⟨hsafe, rfl⟩ := list_eq_ok.mp hlist
    exact ⟨hsafe, (hs.mem_completed h hsafe).mp (srt.mem_sort.mp hm)⟩
  have hown : ∀ {vmID ms m}, list srt dir s.tree vmID = .ok ms → m ∈ ms →
      readableDir dir s.tree m.id = .ok (pointPath dir vmID m.id) := by
    intro vmID ms m hlist hm
    obtain ⟨-, -, hid, hread⟩ := hshown hlist hm
    have hdir := (hs.pointDir_eq_ok h hfinds).mpr ⟨hid, vmID, FileTree.has_of_read hread, rfl⟩
    rw [readableDir, hdir]
    exact if_pos (by rw [hread]; rfl)
  refine ⟨fun id m => ?_, fun vmID ms hlist m hm => ?_, fun vmID ms hlist m hm => ?_,
    fun vmID ms hlist m hm => ?_, fun vmID ms hlist => ?_⟩
  · rw [hs.get_eq_ok h hfinds]
    constructor
    · rintro ⟨hid, vmID, hread⟩
      obtain ⟨rfl, rfl, -⟩ := hs.keyed vmID id m hread
      obtain ⟨p, hp, hvm, -⟩ := hs.placed _ _ (FileTree.has_of_read hread)
      obtain ⟨hsafe, hslash, -⟩ := hs.safe p hp
      rw [hvm] at hsafe hslash
      exact ⟨m.vmID, _, list_eq_ok.mpr ⟨hsafe, rfl⟩,
        srt.mem_sort.mpr ((hs.mem_completed h hsafe).mpr ⟨hslash, hid, hread⟩), rfl⟩
    · rintro ⟨vmID, ms, hlist, hm, rfl⟩
      obtain ⟨-, -, hid, hread⟩ := hshown hlist hm
      exact ⟨hid, vmID, hread⟩
  · obtain ⟨hsafe, hslash, hid, -⟩ := hshown hlist hm
    rw [hown hlist hm, join_two h.named (plain_of_idSafe hsafe hslash) (plain_of_idPattern hid)]
  · obtain ⟨-, -, -, hread⟩ := hshown hlist hm
    refine ⟨s.tree.removeAll (pointPath dir vmID m.id), ?_, fun v ms' hlist' => ?_⟩
    · rw [delete, hown hlist hm]
    · obtain ⟨hsafe, rfl⟩ := list_eq_ok.mp hlist'
      refine ⟨_, list_eq_ok.mpr ⟨hsafe, rfl⟩, ?_⟩
      refine (srt.perm _).trans (.trans ?_ ((srt.perm _).filter _).symm)
      refine (List.perm_ext_iff_of_nodup ((hs.removeAll vmID m.id).nodup_completed h hsafe)
        ((hs.nodup_completed h hsafe).filter _)).mpr fun a => ?_
      rw [hs.mem_completed_removeAll h (FileTree.has_of_read hread) hsafe, List.mem_filter,
        decide_eq_true_eq]
  · obtain ⟨-, -, -, hread⟩ := hshown hlist hm
    obtain ⟨hvm, -, hstate⟩ := hs.keyed _ _ _ hread
    exact ⟨hvm, hstate⟩
  · obtain ⟨-, rfl⟩ := list_eq_ok.mp hlist
    exact srt.sorted _

/-- **The views agree** after every history, when the root finds itself as a pattern and no point
is created for the machine `/`. -/
theorem views_agree (srt : SortDesc Metadata Metadata.createdAt) (h : Opened dir t₀)
    (hfinds : FindsItself dir t₀) {es : List Event}
    (hbelow : Machine.Along (step dir) BelowRoot ⟨t₀, []⟩ es)
    (hrun : Machine.run (step dir) ⟨t₀, []⟩ es = some s) : ViewsAgree srt dir s.tree :=
  (h.kept_of_run hfinds hbelow hrun).viewsAgree h hfinds srt

/-- A directory below `/srv`. -/
def served (name : String) : FileTree Metadata :=
  [(slash, none), (child slash "srv", none), (child (child slash "srv") name, none)]

/-- A completed point without disks. -/
def point (vmID : String) : Metadata :=
  { Metadata.create vmID "bk-1" 0 with state := .complete }

/-- A point is created and completed. -/
def taken (vmID : String) : List Event :=
  [.create vmID "bk-1" 0, .complete (Metadata.create vmID "bk-1" 0)]

/-- A root without special characters. -/
theorem views_agree_served :
    ∃ s, Machine.run (step "/srv/backups") ⟨served "backups", []⟩ (taken "erp01") = some s ∧
      ViewsAgree (.insertion Metadata.createdAt) "/srv/backups" s.tree := by
  have hbare : ∀ p, (served "backups").has p = true →
      (root "/srv/backups").within p = true → p = root "/srv/backups" := by
    intro p hp hin
    have hcases : p = slash ∨ p = child slash "srv" ∨ p = child (child slash "srv") "backups" := by
      simpa [served, FileTree.has_iff] using hp
    rcases hcases with rfl | rfl | rfl
    · exact absurd hin (by decide)
    · exact absurd hin (by decide)
    · rfl
  have hopened : Opened "/srv/backups" (served "backups") := ⟨by decide, by decide, hbare⟩
  have hbelow : Machine.Along (step "/srv/backups") BelowRoot ⟨served "backups", []⟩
      (taken "erp01") :=
    .cons (by decide : "erp01" ≠ "/") rfl (.cons trivial rfl trivial)
  exact ⟨_, rfl, views_agree _ hopened rfl hbelow rfl⟩

/-- A root with special characters does not find itself, and the machine `/` has its points where
no lookup goes: they are listed, and not found. -/
theorem views_disagree :
    (∃ s, Machine.run (step "/srv/[ab]") ⟨served "[ab]", []⟩ (taken "erp01") = some s ∧
      ¬ ViewsAgree (.insertion Metadata.createdAt) "/srv/[ab]" s.tree) ∧
    ∃ s, Machine.run (step "/srv/backups") ⟨served "backups", []⟩ (taken "/") = some s ∧
      ¬ ViewsAgree (.insertion Metadata.createdAt) "/srv/backups" s.tree := by
  have hlost : ∀ {dir} {t : FileTree Metadata} (vmID),
      list (.insertion Metadata.createdAt) dir t vmID = .ok [point vmID] →
      get dir t "bk-1" = .error (.store .notFound) →
      ¬ ViewsAgree (.insertion Metadata.createdAt) dir t := by
    intro dir t vmID hlist hget hviews
    have hfound := (hviews.get_iff "bk-1" (point vmID)).mpr
      ⟨vmID, _, hlist, List.mem_cons_self, rfl⟩
    rw [hget] at hfound
    cases hfound
  exact ⟨⟨_, rfl, hlost "erp01" rfl rfl⟩, ⟨_, rfl, hlost "/" rfl rfl⟩⟩

end StoreDir

end Ultrav
