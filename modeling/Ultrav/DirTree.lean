import Mathlib.Data.List.Dedup
import Mathlib.Data.List.Sort
import Mathlib.Data.String.Basic
import Ultrav.UrlPath

/-!
# Directories

Paths in canonical form, and a tree of directories that hold one document each.

* `DirPath` / `DirPath.clean` / `DirPath.join` — paths, and how texts are read as paths.
* `join_eq_foldl` — a path is extended name by name.
* `FileTree` — the directories there are, `FileTree.shallow` — those up to a depth.
-/

namespace Ultrav

/-! ## Paths -/

/-- A path in canonical form. -/
inductive DirPath where
  /-- `.` -/
  | dot
  /-- `/` -/
  | slash
  | child (dir : DirPath) (name : String)
  deriving DecidableEq, Repr

namespace DirPath

/-- The element `..` takes the one before it along. -/
def up : DirPath → DirPath
  | dot => child dot ".."
  | slash => slash
  | child d name => if name = ".." then child (child d name) ".." else d

/-- One more element. -/
def push (p : DirPath) (e : List Char) : DirPath :=
  if e = [] ∨ e = ['.'] then p
  else if e = ['.', '.'] then p.up
  else child p (String.ofList e)

/-- `filepath.Clean` -/
def clean (s : List Char) : DirPath :=
  (splitOn '/' s).foldl push (if s.head? = some '/' then slash else dot)

/-- The text `filepath.Join` cleans: elements in front that are empty do not count. -/
def joinText : List String → List Char
  | [] => []
  | e :: es => if e = "" then joinText es else e.toList ++ es.flatMap fun e => '/' :: e.toList

/-- `filepath.Join` -/
def join (elems : List String) : DirPath := clean (joinText elems)

/-- How far below its start a path leads. -/
def depth : DirPath → ℕ
  | child d _ => d.depth + 1
  | _ => 0

/-- A path is in a directory, or is it. -/
def within (p : DirPath) : DirPath → Bool
  | child d name => decide (child d name = p) || p.within d
  | q => decide (q = p)

/-- A name of one entry. -/
structure Plain (name : String) : Prop where
  no_slash : '/' ∉ name.toList
  ne_empty : name ≠ ""
  ne_dot : name ≠ "."
  ne_dotdot : name ≠ ".."

theorem splitOn_append_sep {α : Type} [DecidableEq α] (sep : α) (l r : List α) :
    splitOn sep (l ++ sep :: r) = splitOn sep l ++ splitOn sep r := by
  induction l with
  | nil => simp [splitOn]
  | cons a l ih =>
    rw [List.cons_append, splitOn, splitOn, ih]
    split
    · rfl
    · obtain ⟨part, parts, hparts⟩ := List.exists_cons_of_ne_nil (splitOn_ne_nil sep l)
      rw [hparts]
      rfl

theorem clean_append {l : List Char} (hl : l ≠ []) (r : List Char) :
    clean (l ++ '/' :: r) = (splitOn '/' r).foldl push (clean l) := by
  rw [clean, clean, splitOn_append_sep, List.foldl_append, List.head?_append_of_ne_nil _ hl]

/-- **Element by element**: what a path is joined with goes below it. -/
theorem join_eq_foldl {dir : String} (hdir : dir ≠ "") (es : List String) :
    join (dir :: es) = es.foldl (fun p e => (splitOn '/' e.toList).foldl push p)
      (clean dir.toList) := by
  have hne : dir.toList ≠ [] := by simpa using hdir
  rw [join, joinText, if_neg hdir]
  generalize dir.toList = l at hne
  induction es generalizing l with
  | nil => simp
  | cons e es ih =>
    have hrest := ih (l ++ '/' :: e.toList) (by simp)
    rw [List.flatMap_cons, List.foldl_cons, List.cons_append, ← clean_append hne, ← hrest,
      List.append_assoc, List.cons_append]

theorem push_plain {name : String} (h : Plain name) (p : DirPath) :
    (splitOn '/' name.toList).foldl push p = child p name := by
  have hsplit : splitOn '/' name.toList = [name.toList] := by
    have hmem := h.no_slash
    generalize name.toList = l at hmem
    induction l with
    | nil => rfl
    | cons a l ih =>
      rw [List.mem_cons, not_or] at hmem
      rw [splitOn, if_neg (Ne.symm hmem.1), ih hmem.2]
  have hname : ∀ t : String, name ≠ t → name.toList ≠ t.toList :=
    fun t ht heq => ht (String.toList_inj.mp heq)
  have hdotdot : name.toList ≠ ['.', '.'] := hname ".." h.ne_dotdot
  rw [hsplit, List.foldl_cons, List.foldl_nil, push, if_neg, if_neg hdotdot, String.ofList_toList]
  rintro (heq | heq)
  · exact hname "" h.ne_empty heq
  · exact hname "." h.ne_dot heq

theorem within_refl (p : DirPath) : p.within p = true := by
  cases p <;> simp [within]

/-- What is in a directory is not above it. -/
theorem depth_le_of_within {p q : DirPath} (h : p.within q = true) : p.depth ≤ q.depth := by
  induction q with
  | dot =>
    obtain rfl : dot = p := by simpa [within] using h
    rfl
  | slash =>
    obtain rfl : slash = p := by simpa [within] using h
    rfl
  | child d name ih =>
    rw [within, Bool.or_eq_true, decide_eq_true_eq] at h
    rcases h with rfl | h
    · rfl
    · exact (ih h).trans (Nat.le_succ _)

/-- The entries of a directory are next to each other. -/
theorem within_child {p : DirPath} {d : DirPath} {name : String} (h : p.depth = d.depth + 1) :
    p.within (child d name) = decide (child d name = p) := by
  rw [within, Bool.or_eq_left_iff_imp]
  intro hd
  have hle := depth_le_of_within hd
  omega

end DirPath

/-! ## Trees -/

/-- Directories, with a document in some of them. -/
abbrev FileTree (α : Type) : Type := List (DirPath × Option α)

namespace FileTree

open DirPath

variable {α : Type}

/-- The directories. -/
abbrev paths (t : FileTree α) : List DirPath := t.map Prod.fst

/-- There is such a directory. -/
def has (t : FileTree α) (p : DirPath) : Bool := p ∈ t.paths

/-- The name of an entry of a directory. -/
def nameIn (p : DirPath) : DirPath → Option String
  | .child d name => if d = p then some name else none
  | _ => none

/-- The entries of a directory, sorted; a directory that cannot be opened has none. -/
def names (t : FileTree α) (p : DirPath) : List String :=
  if t.has p then ((t.paths.filterMap (nameIn p)).dedup).insertionSort (· ≤ ·) else []

/-- The document of a directory. -/
def read (t : FileTree α) (p : DirPath) : Option α := (t.find? fun e => e.1 = p).bind Prod.snd

/-- `os.MkdirAll` -/
def mkdirAll (t : FileTree α) : DirPath → FileTree α
  | .dot => if t.has .dot then t else t ++ [(.dot, none)]
  | .slash => if t.has .slash then t else t ++ [(.slash, none)]
  | .child d name =>
    if t.has (.child d name) then t else t.mkdirAll d ++ [(.child d name, none)]

/-- `os.WriteFile` of the document of a directory; without the directory it fails. -/
def write (t : FileTree α) (p : DirPath) (a : α) : FileTree α :=
  t.map fun e => if e.1 = p then (p, some a) else e

/-- `os.RemoveAll` -/
def removeAll (t : FileTree α) (p : DirPath) : FileTree α := t.filter fun e => !p.within e.1

/-- What there is up to a depth. -/
def shallow (n : ℕ) (t : FileTree α) : List DirPath := t.paths.filter fun p => p.depth ≤ n

variable {t : FileTree α} {p q : DirPath}

theorem has_iff : t.has p = true ↔ p ∈ t.paths := decide_eq_true_iff

theorem has_cons (e : DirPath × Option α) : has (e :: t) p = true ↔ p = e.1 ∨ t.has p = true := by
  rw [has_iff, has_iff, paths, List.map_cons, List.mem_cons]

theorem mem_names {name : String} :
    name ∈ t.names p ↔ t.has p = true ∧ t.has (.child p name) = true := by
  have hname : ∀ r, nameIn p r = some name ↔ r = .child p name := by
    intro r
    cases r with
    | dot => simp [nameIn]
    | slash => simp [nameIn]
    | child d n =>
      by_cases hd : d = p
      · simp [nameIn, hd]
      · simp [nameIn, hd]
  rw [names]
  split
  · rename_i hp
    rw [List.mem_insertionSort, List.mem_dedup, List.mem_filterMap, has_iff (p := .child p name)]
    simp only [hname, exists_eq_right, hp, true_and]
  · rename_i hp
    simp [hp]

theorem nodup_names : (t.names p).Nodup := by
  rw [names]
  split
  · exact (List.perm_insertionSort _ _).nodup_iff.mpr (List.nodup_dedup _)
  · exact List.nodup_nil

theorem has_of_read {a : α} (h : t.read p = some a) : t.has p = true := by
  rw [read] at h
  cases hfind : t.find? fun e => e.1 = p with
  | none =>
    rw [hfind] at h
    cases h
  | some e =>
    have he : e.1 = p := by simpa using List.find?_some hfind
    exact has_iff.mpr (he ▸ List.mem_map_of_mem (List.mem_of_find?_eq_some hfind))

/-! ### New directories -/

theorem has_append : has (t ++ [(p, none)]) q = true ↔ t.has q = true ∨ q = p := by
  simp [has]

theorem read_append : read (t ++ [(p, none)]) q = t.read q := by
  rw [read, read, List.find?_append]
  cases t.find? fun e => e.1 = q with
  | some e => rfl
  | none =>
    rw [Option.none_or, List.find?_cons]
    split <;> rfl

theorem shallow_append {n : ℕ} (h : n < p.depth) : shallow n (t ++ [(p, none)]) = t.shallow n := by
  simp [shallow, h]

theorem mkdirAll_of_has (h : t.has p = true) : t.mkdirAll p = t := by
  cases p <;> rw [mkdirAll, if_pos h]

theorem mkdirAll_child {name : String} (hp : t.has p = true) (hnew : t.has (child p name) = false) :
    t.mkdirAll (child p name) = t ++ [(child p name, none)] := by
  rw [mkdirAll, if_neg (by simp [hnew]), mkdirAll_of_has hp]

/-- New directories are empty. -/
theorem read_mkdirAll : (t.mkdirAll p).read q = t.read q := by
  induction p with
  | dot =>
    rw [mkdirAll]
    split
    · rfl
    · exact read_append
  | slash =>
    rw [mkdirAll]
    split
    · rfl
    · exact read_append
  | child d name ih =>
    rw [mkdirAll]
    split
    · rfl
    · exact read_append.trans ih

/-- A directory in a directory of its own. -/
theorem has_mkdirAll {a b : String} (hp : t.has p = true)
    (hnew : t.has (child (child p a) b) = false) :
    (t.mkdirAll (child (child p a) b)).has q = true ↔
      t.has q = true ∨ q = child p a ∨ q = child (child p a) b := by
  rw [mkdirAll, if_neg (by simp [hnew]), has_append]
  cases ha : t.has (child p a) with
  | true =>
    rw [mkdirAll_of_has ha]
    refine ⟨fun h => h.imp_right .inr, ?_⟩
    rintro (h | rfl | h)
    · exact .inl h
    · exact .inl ha
    · exact .inr h
  | false => rw [mkdirAll_child hp ha, has_append, or_assoc]

theorem shallow_mkdirAll {a b : String} (hp : t.has p = true) :
    shallow p.depth (t.mkdirAll (child (child p a) b)) = t.shallow p.depth := by
  rw [mkdirAll]
  split
  · rfl
  · rw [shallow_append (Nat.lt_add_right 1 (Nat.lt_succ_self p.depth))]
    cases ha : t.has (child p a) with
    | true => rw [mkdirAll_of_has ha]
    | false => rw [mkdirAll_child hp ha, shallow_append (by simp [depth])]

/-! ### A document -/

theorem paths_write (a : α) : (t.write p a).paths = t.paths := by
  rw [paths, write, List.map_map]
  refine List.map_congr_left fun e _ => ?_
  rw [Function.comp_apply]
  split
  · exact (Eq.symm ‹_›)
  · rfl

theorem read_cons (e : DirPath × Option α) :
    read (e :: t) q = if e.1 = q then e.2 else t.read q := by
  rw [read, List.find?_cons]
  split
  · rename_i h
    rw [if_pos (of_decide_eq_true h)]
    rfl
  · rename_i h
    rw [if_neg (of_decide_eq_false h), read]

theorem read_write (a : α) :
    (t.write p a).read q = if q = p ∧ t.has p = true then some a else t.read q := by
  induction t with
  | nil => simp [write, has]
  | cons e t ih =>
    have hcons : write (e :: t) p a = (if e.1 = p then (p, some a) else e) :: write t p a := rfl
    rw [hcons, read_cons, ih, read_cons]
    simp only [has_cons]
    obtain rfl | hq := eq_or_ne q p
    · by_cases he : e.1 = q
      · simp [he]
      · simp [he, Ne.symm he]
    · by_cases he : e.1 = p
      · simp [he, hq, Ne.symm hq]
      · simp [he, hq]

/-! ### A removal -/

theorem has_removeAll : (t.removeAll p).has q = true ↔ t.has q = true ∧ p.within q = false := by
  rw [has_iff, has_iff, paths, List.mem_map, List.mem_map]
  constructor
  · rintro ⟨e, he, rfl⟩
    obtain ⟨he, hp⟩ := List.mem_filter.mp he
    exact ⟨⟨e, he, rfl⟩, by simpa using hp⟩
  · rintro ⟨⟨e, he, rfl⟩, hp⟩
    exact ⟨e, List.mem_filter.mpr ⟨he, by simpa using hp⟩, rfl⟩

theorem read_removeAll :
    (t.removeAll p).read q = if p.within q then none else t.read q := by
  induction t with
  | nil => simp [removeAll, read]
  | cons e t ih =>
    rw [removeAll, List.filter_cons]
    split
    · rename_i he
      rw [read_cons, read_cons, ← removeAll, ih]
      split
      · rename_i heq
        rw [← heq, if_neg (by simpa using he)]
      · rfl
    · rename_i he
      rw [← removeAll, ih, read_cons]
      split
      · rfl
      · rename_i hq
        rw [if_neg]
        rintro rfl
        exact he (by simpa using hq)

theorem shallow_removeAll {n : ℕ} (h : n < p.depth) : shallow n (t.removeAll p) = t.shallow n := by
  rw [shallow, shallow, paths, paths, List.filter_map, List.filter_map, removeAll,
    List.filter_filter]
  refine congrArg _ (List.filter_congr fun e _ => ?_)
  rw [Function.comp_apply, Bool.and_eq_left_iff_imp, decide_eq_true_eq]
  intro hn
  rw [Bool.not_eq_true']
  refine Bool.eq_false_iff.mpr fun he => ?_
  have hle := depth_le_of_within he
  omega

/-! ### Up to a depth -/

theorem has_congr {n : ℕ} {t' : FileTree α} (h : t.shallow n = t'.shallow n) (hp : p.depth ≤ n) :
    t.has p = t'.has p := by
  have hmem : ∀ u : FileTree α, u.has p = true ↔ p ∈ u.shallow n := by
    intro u
    rw [has_iff, shallow, List.mem_filter]
    simp [hp]
  rw [Bool.eq_iff_iff, hmem, hmem, h]

theorem names_congr {n : ℕ} {t' : FileTree α} (h : t.shallow n = t'.shallow n) (hp : p.depth < n) :
    t.names p = t'.names p := by
  have hfilter : ∀ u : FileTree α,
      u.paths.filterMap (nameIn p) = (u.shallow n).filterMap (nameIn p) := by
    intro u
    rw [shallow, List.filterMap_filter]
    refine List.filterMap_congr fun r _ => ?_
    split
    · rfl
    · -- an entry of the directory is not that deep
      rename_i hdeep
      cases r with
      | dot => rfl
      | slash => rfl
      | child d name =>
        rw [nameIn, if_neg]
        rintro rfl
        exact hdeep (decide_eq_true hp)
  rw [names, names, has_congr h hp.le, hfilter, hfilter, h]

end FileTree

end Ultrav
