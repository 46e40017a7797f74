import Mathlib.Data.List.MinMax
import Ultrav.BackupChain
import Ultrav.PathText

/-!
# Where the host sees a path

Inside a container a path leads through the mounts of its own namespace. From the table of the
mounts the provider works out where the host sees it.

* `mountFor` / `inspectPathIn` — the functions of the provider.
* `kernelMount` — the mount the kernel goes through: of those with the longest mount point the one
  that was mounted last.
* `SeesLikeKernel` — the verdict is about that mount, and does not depend on how the path is
  written.
* `seesLikeKernel_iff` — the tables and paths for which it is.
-/

namespace Ultrav

open DirPath

/-! ## The functions -/

/-- `mountEntry` -/
structure MountEntry where
  root : String
  mountPoint : String
  fsType : String
  deriving DecidableEq, Repr

/-- `pathVisibility`, with the path on the host. -/
inductive PathVisibility where
  | unknown
  | same
  | elsewhere (hostPath : DirPath)
  | hidden
  deriving DecidableEq, Repr

/-- The mount point is above the cleaned path, by their texts. -/
def MountEntry.covers (m : MountEntry) (path : List Char) : Bool :=
  m.mountPoint = "/" || m.mountPoint.toList = path ||
    (m.mountPoint.toList ++ ['/']).isPrefixOf path

/-- `mountFor` -/
def mountFor (path : String) (mounts : List MountEntry) : Option MountEntry :=
  let path := (clean path.toList).text
  mounts.foldl (fun best m =>
    if !m.covers path then best
    else
      match best with
      | none => some m
      | some b => if b.mountPoint.utf8ByteSize < m.mountPoint.utf8ByteSize then some m else best)
    none

/-- The layers of the container: nothing under them exists on the host. -/
def MountEntry.isPrivate (m : MountEntry) : Bool :=
  m.fsType = "overlay" || m.fsType = "tmpfs" || m.fsType = "ramfs"

/-- The path on the host against the cleaned one. -/
def compareHost (path : String) (hostPath : DirPath) : PathVisibility :=
  if hostPath = clean path.toList then .same else .elsewhere hostPath

/-- `inspectPathIn` -/
def inspectPathIn (path : String) (mounts : List MountEntry) : PathVisibility :=
  match mountFor path mounts with
  | none => .unknown
  | some m =>
    if m.isPrivate then .hidden
    else compareHost path (.join [m.root, trimPrefix path m.mountPoint])

/-! ## What is expected -/

section Expected

variable (path : String) (mounts : List MountEntry)

/-- Where a mount is. -/
def MountEntry.point (m : MountEntry) : DirPath := clean m.mountPoint.toList

/-- The mounts whose mount point is the longest above the path, in the order of the table. -/
def nearestMounts : List MountEntry :=
  mounts.filter fun m => m.point.within (clean path.toList) &&
    mounts.all fun m' => !m'.point.within (clean path.toList) || m'.point.depth ≤ m.point.depth

/-- The mount the kernel goes through. -/
def kernelMount : Option MountEntry := (nearestMounts path mounts).getLast?

/-- The names of the cleaned path behind a mount point. -/
def namesBehind (m : MountEntry) : List String :=
  (clean path.toList).nameList.drop m.point.depth

/-- The verdict about a path through a mount. -/
def verdictThrough : Option MountEntry → PathVisibility
  | none => .unknown
  | some m =>
    if m.isPrivate then .hidden
    else compareHost path ((clean m.root.toList).descend (namesBehind path m))

/-- The verdict is about the mount the kernel goes through, and that about the cleaned path. -/
structure SeesLikeKernel : Prop where
  mount : mountFor path mounts = kernelMount path mounts
  verdict : inspectPathIn path mounts = verdictThrough path (kernelMount path mounts)
  cleaned : inspectPathIn path mounts =
    inspectPathIn (.ofList (clean path.toList).text) mounts

/-- A table of the kernel: mount points in canonical form, and roots that are not empty. -/
def KernelTable : Prop :=
  ∀ m ∈ mounts, (∃ p : DirPath, p.Rooted ∧ m.mountPoint = .ofList p.text) ∧ m.root ≠ ""

/-- The text behind the mount point leads below the mount where the cleaned path does. It may climb
out of the root of the mount if it comes back through it. -/
def CutsBehind (m : MountEntry) : Prop :=
  let w := walk (trimPrefix path m.mountPoint).toList
  ∃ back, w.2 = back ++ namesBehind path m ∧
    (up^[w.1] (clean m.root.toList)).descend back = clean m.root.toList

/-- What it takes: the first and the last of the nearest mounts are the same, and the mount hides
the path or is cut off of it. -/
structure VisibilityHolds : Prop where
  single : (nearestMounts path mounts).head? = (nearestMounts path mounts).getLast?
  cut : ∀ m, kernelMount path mounts = some m → m.isPrivate = true ∨ CutsBehind path m

end Expected

/-! ## The mount -/

/-- The first of the largest. -/
theorem argmax_eq_head? {α : Type} (f : α → ℕ) (l : List α) :
    l.argmax f = (l.filter fun a => l.all fun b => f b ≤ f a).head? := by
  induction l with
  | nil => rfl
  | cons a l ih =>
    rw [List.argmax_cons]
    cases hmax : l.argmax f with
    | none =>
      obtain rfl := List.argmax_eq_none.mp hmax
      simp
    | some c =>
      have hc : c ∈ l := List.argmax_mem hmax
      have hle : ∀ b ∈ l, f b ≤ f c := fun b hb => List.le_of_mem_argmax hb hmax
      change (if f a < f c then some c else some a) = _
      split
      · rename_i hlt
        have hsame : (a :: l).filter (fun x => (a :: l).all fun b => f b ≤ f x) =
            l.filter fun x => l.all fun b => f b ≤ f x := by
          rw [List.filter_cons_of_neg]
          · refine List.filter_congr fun x hx => ?_
            rw [List.all_cons, Bool.and_eq_right_iff_imp]
            intro hall
            have hcx := of_decide_eq_true (List.all_eq_true.mp hall c hc)
            exact decide_eq_true (by omega)
          · intro hall
            have hca := of_decide_eq_true (List.all_eq_true.mp hall c (List.mem_cons_of_mem _ hc))
            omega
        rw [hsame, ← ih, hmax]
      · rename_i hge
        rw [List.filter_cons_of_pos]
        · rfl
        · refine List.all_eq_true.mpr fun b hb => decide_eq_true ?_
          rcases List.mem_cons.mp hb with rfl | hb
          · exact Nat.le_refl _
          · exact (hle b hb).trans (by omega)

theorem size_lt_of_prefix {s t : String} (h : s.toList <+: t.toList) (hne : s ≠ t) :
    s.utf8ByteSize < t.utf8ByteSize := by
  obtain ⟨rest, hrest⟩ := h
  have ht : t = s ++ .ofList rest := by
    rw [← String.toList_inj, String.toList_append, String.toList_ofList, hrest]
  have hpos : (String.ofList rest).utf8ByteSize ≠ 0 := by
    intro hzero
    refine hne ?_
    rw [ht, String.utf8ByteSize_eq_zero_iff.mp hzero, String.append_empty]
  rw [ht, String.utf8ByteSize_append]
  omega

section Mount

variable {path : String} {mounts : List MountEntry} {m m' : MountEntry} {q : DirPath}

/-- The mount point of an entry of a table. -/
structure MountEntry.At (m : MountEntry) (p : DirPath) : Prop where
  rooted : p.Rooted
  text : m.mountPoint = .ofList p.text

theorem MountEntry.At.point_eq {p : DirPath} (h : m.At p) : m.point = p := by
  rw [MountEntry.point, h.text, String.toList_ofList, clean_text h.rooted]

theorem MountEntry.At.covers_eq {p : DirPath} (h : m.At p) (hq : q.Rooted) :
    m.covers q.text = p.within q := by
  have hslash : m.mountPoint = "/" ↔ p = slash := by
    constructor
    · intro heq
      rw [← clean_text h.rooted, ← String.toList_ofList (l := p.text), ← h.text, heq]
      rfl
    · rintro rfl
      exact h.text
  rw [Bool.eq_iff_iff, ← prefix_text_iff h.rooted hq, MountEntry.covers]
  simp only [Bool.or_eq_true, decide_eq_true_eq, hslash, List.isPrefixOf_iff_prefix]
  rw [h.text, String.toList_ofList, or_assoc]

/-- Of two mount points above a path the longer text is the one that is deeper. -/
theorem MountEntry.At.size_lt_iff {p p' : DirPath} (h : m.At p) (h' : m'.At p')
    (hp : p.within q = true) (hp' : p'.within q = true) :
    m.mountPoint.utf8ByteSize < m'.mountPoint.utf8ByteSize ↔ p.depth < p'.depth := by
  have hlt : ∀ {m m' : MountEntry} {p p' : DirPath}, m.At p → m'.At p' → p.within q = true →
      p'.within q = true → p.depth < p'.depth →
      m.mountPoint.utf8ByteSize < m'.mountPoint.utf8ByteSize := by
    intro m m' p p' h h' hp hp' hdepth
    have hwithin := within_of_depth_le hp hp' (Nat.le_of_lt hdepth)
    refine size_lt_of_prefix ?_ fun heq => ?_
    · rw [h.text, h'.text, String.toList_ofList, String.toList_ofList]
      exact text_prefix h'.rooted hwithin
    · rw [h.text, h'.text, String.ofList_inj] at heq
      rw [← clean_text h.rooted, heq, clean_text h'.rooted] at hdepth
      omega
  constructor
  · intro hsize
    by_contra hnot
    rcases Nat.lt_or_ge p'.depth p.depth with hdeep | hle
    · have hback := hlt h' h hp' hp hdeep
      omega
    · -- of two directories that are equally deep the one that is in the other is the other
      have hsame := eq_of_within (within_of_depth_le hp hp' hle) (Nat.not_lt.mp hnot)
      rw [h.text, h'.text, hsame] at hsize
      omega
  · exact hlt h h' hp hp'

theorem KernelTable.at (h : KernelTable mounts) (hm : m ∈ mounts) : m.At m.point := by
  obtain ⟨⟨p, hp, htext⟩, -⟩ := h m hm
  have hat : m.At p := ⟨hp, htext⟩
  rwa [hat.point_eq]

/-- **The mount that is found** is the first of those with the longest mount point. -/
theorem mountFor_eq (htable : KernelTable mounts) (habs : path.toList.head? = some '/') :
    mountFor path mounts = (nearestMounts path mounts).head? := by
  have hq := rooted_clean habs
  have hcovers : ∀ m ∈ mounts, m.covers (clean path.toList).text =
      m.point.within (clean path.toList) := fun m hm => (htable.at hm).covers_eq hq
  have hargmax : mountFor path mounts =
      (mounts.filter fun m => m.point.within (clean path.toList)).argmax
        fun m => m.mountPoint.utf8ByteSize := by
    rw [← List.filter_congr hcovers, List.argmax, List.foldl_filter, mountFor]
    congr 1
    funext best m
    cases best <;> cases m.covers (clean path.toList).text <;> rfl
  rw [hargmax, argmax_eq_head?, List.filter_filter, nearestMounts]
  congr 1
  refine List.filter_congr fun m hm => ?_
  rw [List.all_filter]
  cases hwithin : m.point.within (clean path.toList) with
  | false => rw [Bool.and_false, Bool.false_and]
  | true =>
    rw [Bool.and_true, Bool.true_and, Bool.eq_iff_iff, List.all_eq_true, List.all_eq_true]
    refine forall₂_congr fun m' hm' => ?_
    cases hwithin' : m'.point.within (clean path.toList) with
    | false => rfl
    | true =>
      have hsize := (htable.at hm).size_lt_iff (htable.at hm') hwithin hwithin'
      simpa using not_congr hsize

theorem mem_of_kernelMount (h : kernelMount path mounts = some m) :
    m ∈ mounts ∧ m.point.within (clean path.toList) = true := by
  obtain ⟨hmem, hnear⟩ := List.mem_filter.mp (List.mem_of_getLast? h)
  exact ⟨hmem, (Bool.and_eq_true_iff.mp hnear).1⟩

end Mount

/-! ## The host -/

section Host

variable {path : String} {mounts : List MountEntry} {m : MountEntry}

theorem compareHost_inj {p q : DirPath} : compareHost path p = compareHost path q ↔ p = q := by
  refine ⟨fun h => ?_, fun h => h ▸ rfl⟩
  rw [compareHost, compareHost] at h
  split_ifs at h with hp hq
  · rw [hp, hq]
  · exact PathVisibility.elsewhere.inj h

/-- **The path on the host** is the expected one when the text behind the mount point leads
there. -/
theorem join_eq_iff (hroot : m.root ≠ "") (habs : path.toList.head? = some '/') :
    .join [m.root, trimPrefix path m.mountPoint] =
      (clean m.root.toList).descend (namesBehind path m) ↔ CutsBehind path m := by
  rw [join_eq_foldl hroot, List.foldl_cons, List.foldl_nil, foldl_push_eq, CutsBehind]
  refine descend_eq_iff fun name hname => ?_
  exact (plain_of_mem_nameList (rooted_clean habs) (List.mem_of_mem_drop hname)).ne_dotdot

/-- **The verdict** about the mount of the kernel. -/
theorem inspectPathIn_eq_iff (htable : KernelTable mounts)
    (habs : path.toList.head? = some '/')
    (hmount : mountFor path mounts = kernelMount path mounts) :
    inspectPathIn path mounts = verdictThrough path (kernelMount path mounts) ↔
      ∀ m, kernelMount path mounts = some m → m.isPrivate = true ∨ CutsBehind path m := by
  rw [inspectPathIn, hmount]
  cases hkernel : kernelMount path mounts with
  | none => simp [verdictThrough]
  | some m =>
    have hroot := (htable m (mem_of_kernelMount hkernel).1).2
    simp only [verdictThrough, Option.some.injEq, forall_eq']
    split
    · simp [*]
    · rw [compareHost_inj, join_eq_iff hroot habs]
      simp [*]

/-- **A path in canonical form** is cut behind the mount point. -/
theorem cutsBehind_text (htable : KernelTable mounts) (habs : path.toList.head? = some '/')
    (h : kernelMount path mounts = some m) :
    CutsBehind (.ofList (clean path.toList).text) m := by
  obtain ⟨hmem, hwithin⟩ := mem_of_kernelMount h
  have hq := rooted_clean habs
  obtain ⟨rest, htext, hwalk⟩ := text_behind hq hwithin
  have htrim : trimPrefix (.ofList (clean path.toList).text) m.mountPoint = .ofList rest := by
    rw [trimPrefix, (htable.at hmem).text, ← String.length_toList, String.toList_ofList,
      String.toList_ofList, htext, if_pos (List.isPrefixOf_iff_prefix.mpr (List.prefix_append ..)),
      List.drop_left]
  refine ⟨[], ?_, ?_⟩
  · rw [htrim, String.toList_ofList, hwalk, namesBehind, String.toList_ofList, clean_text hq]
    rfl
  · rw [htrim, String.toList_ofList, hwalk]
    rfl

theorem inspectPathIn_text (htable : KernelTable mounts) (habs : path.toList.head? = some '/')
    (hmount : mountFor path mounts = kernelMount path mounts) :
    inspectPathIn (.ofList (clean path.toList).text) mounts =
      verdictThrough path (kernelMount path mounts) := by
  have hq := rooted_clean habs
  -- the path counts through the cleaned one only, up to where it is cut
  have hclean : clean (String.ofList (clean path.toList).text).toList = clean path.toList := by
    rw [String.toList_ofList, clean_text hq]
  have hnear : nearestMounts (.ofList (clean path.toList).text) mounts =
      nearestMounts path mounts := by
    rw [nearestMounts, nearestMounts, hclean]
  have hkernel : kernelMount (.ofList (clean path.toList).text) mounts =
      kernelMount path mounts := by
    rw [kernelMount, kernelMount, hnear]
  have hfor : mountFor (.ofList (clean path.toList).text) mounts = mountFor path mounts := by
    rw [mountFor, mountFor, hclean]
  have habs' : (String.ofList (clean path.toList).text).toList.head? = some '/' := by
    rw [String.toList_ofList, head?_text hq]
  have hverdict := (inspectPathIn_eq_iff htable habs' (by rw [hfor, hmount, hkernel])).mpr
    fun m hm => .inr (cutsBehind_text htable habs (hkernel ▸ hm))
  rw [hverdict, hkernel]
  cases kernelMount path mounts with
  | none => rfl
  | some m =>
    rw [verdictThrough, verdictThrough, compareHost, compareHost, namesBehind, namesBehind, hclean]

end Host

/-- **Where the host sees a path** is told from the mount of the kernel, and for the path as for the
cleaned one, exactly when there is one nearest mount and the path is cut behind it. -/
theorem seesLikeKernel_iff {path : String} {mounts : List MountEntry}
    (htable : KernelTable mounts) (habs : path.toList.head? = some '/') :
    SeesLikeKernel path mounts ↔ VisibilityHolds path mounts := by
  constructor
  · intro h
    exact ⟨by rw [← mountFor_eq htable habs, h.mount, kernelMount],
      (inspectPathIn_eq_iff htable habs h.mount).mp h.verdict⟩
  · intro h
    have hmount : mountFor path mounts = kernelMount path mounts := by
      rw [mountFor_eq htable habs, h.single, kernelMount]
    have hverdict := (inspectPathIn_eq_iff htable habs hmount).mpr h.cut
    exact ⟨hmount, hverdict, hverdict.trans (inspectPathIn_text htable habs hmount).symm⟩

/-- A container with an ISO library from the host. -/
def isoMounts : List MountEntry :=
  [⟨"/", "/", "overlay"⟩, ⟨"/srv/isos", "/srv/isos", "ext4"⟩]

theorem kernelTable_isoMounts : KernelTable isoMounts := by
  intro m hm
  rcases List.mem_pair.mp hm with rfl | rfl
  · exact ⟨⟨slash, trivial, rfl⟩, by decide⟩
  · exact ⟨⟨child (child slash "srv") "isos",
      ⟨⟨trivial, by constructor <;> decide⟩, by constructor <;> decide⟩, rfl⟩, by decide⟩

theorem seesLikeKernel_isoMounts : SeesLikeKernel "/srv/isos/x.iso" isoMounts := by
  refine (seesLikeKernel_iff kernelTable_isoMounts (by decide)).mpr ⟨by decide, ?_⟩
  intro m hm
  obtain rfl : ⟨"/srv/isos", "/srv/isos", "ext4"⟩ = m := Option.some.inj hm
  exact .inr ⟨[], by decide, by decide⟩

/-- A slash too many, and the mount point is not cut off. -/
theorem not_seesLikeKernel :
    ¬ ∀ path mounts, KernelTable mounts → path.toList.head? = some '/' →
      SeesLikeKernel path mounts := by
  intro h
  have hcleaned := (h "/srv//isos" isoMounts kernelTable_isoMounts (by decide)).cleaned
  exact absurd hcleaned (by decide)

end Ultrav
