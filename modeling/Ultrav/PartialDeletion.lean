import Ultrav.PointCreation
import Ultrav.Backup

/-!
# Deletion of a backup point

`Store.Delete` removes the directory of the point, one entry after the other, in the order the
directory has. What cannot be removed stays, the others go all the same, and the process can stop
after any of them.

* `removeAll` — the files some removals leave; `FileLibrary.delete` — the library they leave.
* `Gone` / `Intact` — the two states in which no damage can be seen.
* `deletion_safe_iff` — the orders in which it is one of them wherever the deletion stops.
* `FileEntry.Of.removing` — the directory in the model above.
-/

namespace Ultrav

/-! ## Removals -/

/-- `RemoveAll` at work: the entries it has tried, and whether their removal succeeded. -/
abbrev Removals : Type := List (String × Bool)

/-- The files some removals leave. -/
def removeAll (done : Removals) (files : String → Option (List UInt8)) :
    String → Option (List UInt8) :=
  done.foldl (fun files r => if r.2 then Function.update files r.1 none else files) files

/-- What was not removed is there as before. -/
theorem removeAll_apply {done : Removals} {files : String → Option (List UInt8)} (file : String) :
    removeAll done files file = if (file, true) ∈ done then none else files file := by
  induction done generalizing files with
  | nil => rfl
  | cons r done ih =>
    obtain ⟨name, removed⟩ := r
    rw [removeAll, List.foldl_cons]
    refine ih.trans ?_
    by_cases hdone : (file, true) ∈ done
    · rw [if_pos hdone, if_pos (List.mem_cons_of_mem _ hdone)]
    rw [if_neg hdone]
    cases removed with
    | false => simp [hdone]
    | true =>
      by_cases hname : file = name
      · subst hname
        simp
      · rw [if_pos rfl, Function.update_of_ne hname, if_neg]
        simp [hname, hdone]

/-- The entry of a directory some of whose files were removed. -/
def FileEntry.removing (e : FileEntry) (done : Removals) : FileEntry :=
  { e with files := e.files.map (removeAll done) }

/-- The files of a point besides its metadata. -/
def PointMeta.contents (m : PointMeta) : List String :=
  (m.disks.map DiskMeta.file ++ ["domain.xml"]).filter (· ≠ "metadata.json")

namespace FileLibrary

/-- `Delete`, up to the removals that were done when it stopped. -/
def delete (lib : FileLibrary) (id : String) (done : Removals) : Except StoreError FileLibrary :=
  if idPattern id then
    match lib.find? fun e => e.id = id with
    | none => .error .notFound
    | some e =>
      match e.pointFromDir with
      | none => .error .notFound
      | some _ => .ok ((setFirst (fun e => e.id = id) (e.removing done) lib).getD lib)
  else .error .invalidID

/-- A file of the directory that an id resolves to. -/
def file (lib : FileLibrary) (id file : String) : Option (List UInt8) :=
  ((lib.find? fun e => e.id = id).bind FileEntry.files).bind fun files => files file

/-- The library without that directory. -/
def without (lib : FileLibrary) (id : String) : FileLibrary := lib.eraseP fun e => e.id = id

/-- `List` and `Get` show the point no longer. -/
structure Gone (srt : SortDesc PointMeta PointMeta.createdAt) (lib lib' : FileLibrary)
    (id : String) : Prop where
  list : ∀ vmID, lib'.list srt vmID = (lib.without id).list srt vmID
  get : ∀ m, lib'.get id ≠ .ok m

/-- The images and the domain XML of the point are as they were. -/
def Intact (lib lib' : FileLibrary) (id : String) (m : PointMeta) : Prop :=
  ∀ file ∈ m.contents, lib'.file id file = lib.file id file

/-! ## A deletion that stops -/

variable {srt : SortDesc PointMeta PointMeta.createdAt} {lib : FileLibrary} {id : String}
  {m : PointMeta} {before after : FileLibrary} {e : FileEntry}

theorem find_middle (hbefore : ∀ f ∈ before, f.id ≠ id) (he : e.id = id)
    (after : FileLibrary) : (before ++ e :: after).find? (fun f => f.id = id) = some e := by
  rw [List.find?_append, List.find?_eq_none.mpr fun f hf => by simpa using hbefore f hf,
    Option.none_or]
  exact List.find?_cons_of_pos (by simpa using he)

/-- A visible point has a directory, and its deletion removes entries of it. -/
theorem delete_of_get (hget : lib.get id = .ok m) : ∃ before e after,
    lib = before ++ e :: after ∧ (∀ f ∈ before, f.id ≠ e.id) ∧ e.id = id ∧
      idPattern id = true ∧ e.completed = some m ∧
      ∀ done, lib.delete id done = .ok (before ++ e.removing done :: after) := by
  rw [get] at hget
  split at hget
  · rename_i hid
    split at hget
    · rename_i m' hfind
      cases hget
      obtain ⟨e, hfind, hm⟩ := Option.bind_eq_some_iff.mp hfind
      obtain ⟨hp, before, after, rfl, hbefore⟩ := List.find?_eq_some_iff_append.mp hfind
      have heid : e.id = id := of_decide_eq_true hp
      refine ⟨before, e, after, rfl, fun f hf heq => ?_, heid, hid, hm, fun done => ?_⟩
      · simpa [heq, heid] using hbefore f hf
      · have hread : e.pointFromDir = some m := (Option.filter_eq_some_iff.mp hm).1
        have hset := setFirst_middle (p := fun f : FileEntry => f.id = id)
          (a := e.removing done) (fun f hf => by simpa using hbefore f hf) hp after
        rw [delete, if_pos hid, hfind]
        dsimp only
        rw [hread, hset]
        rfl
    · cases hget
  · cases hget

/-- The metadata is read as long as its file is there. -/
theorem pointFromDir_removing (e : FileEntry) (done : Removals) :
    (e.removing done).pointFromDir =
      if ("metadata.json", true) ∈ done then none else e.pointFromDir := by
  rw [FileEntry.pointFromDir, FileEntry.pointFromDir, FileEntry.removing]
  cases e.files with
  | none => simp
  | some files =>
    simp only [Option.map_some, Option.bind_some, removeAll_apply]
    split <;> rfl

theorem completed_removing (e : FileEntry) (done : Removals) :
    (e.removing done).completed =
      if ("metadata.json", true) ∈ done then none else e.completed := by
  rw [FileEntry.completed, pointFromDir_removing, FileEntry.completed]
  split <;> rfl

/-- The files of the directory in the middle. -/
theorem file_middle (hbefore : ∀ f ∈ before, f.id ≠ e.id) (done : Removals) (file : String) :
    FileLibrary.file (before ++ e.removing done :: after) e.id file =
      if (file, true) ∈ done then none
      else FileLibrary.file (before ++ e :: after) e.id file := by
  rw [FileLibrary.file, FileLibrary.file, find_middle hbefore rfl,
    find_middle (e := e.removing done) hbefore rfl, Option.bind_some, Option.bind_some,
    FileEntry.removing]
  cases e.files with
  | none => simp
  | some files => exact removeAll_apply file

/-- **Once the metadata is removed** the point is gone. -/
theorem gone_of_removed (hbefore : ∀ f ∈ before, f.id ≠ e.id) {done : Removals}
    (hdone : ("metadata.json", true) ∈ done) :
    Gone srt (before ++ e :: after) (before ++ e.removing done :: after) e.id := by
  have hnone : (e.removing done).completed = none := by
    rw [completed_removing, if_pos hdone]
  have hwithout : (before ++ e :: after : FileLibrary).without e.id = before ++ after := by
    rw [without, List.eraseP_append_right _ fun f hf => by simpa using hbefore f hf,
      List.eraseP_cons_of_pos (by simp)]
  refine ⟨fun vmID => ?_, fun m hm => ?_⟩
  · rw [hwithout, list, list, completed_insert_hidden (.inr (.inr hnone))]
  · rw [get, find_middle (e := e.removing done) hbefore rfl, Option.bind_some, hnone] at hm
    split at hm <;> cases hm

/-- **Before that** it is shown. -/
theorem get_of_not_removed (hbefore : ∀ f ∈ before, f.id ≠ e.id) (hid : idPattern e.id = true)
    (hm : e.completed = some m) {done : Removals} (hdone : ("metadata.json", true) ∉ done) :
    FileLibrary.get (before ++ e.removing done :: after) e.id = .ok m := by
  rw [get, if_pos hid, find_middle (e := e.removing done) hbefore rfl, Option.bind_some,
    completed_removing, if_neg hdone, hm]

/-- **A deletion that stops**, whenever that is, leaves no damage that can be seen, exactly when
the order has no file of the point before its metadata. -/
theorem deletion_safe_iff (hget : lib.get id = .ok m) (order : Removals) :
    (∀ done, done <+: order →
      ∃ lib', lib.delete id done = .ok lib' ∧ (Gone srt lib lib' id ∨ Intact lib lib' id m)) ↔
    ∀ pre file post, order = pre ++ (file, true) :: post → file ∈ m.contents →
      lib.file id file ≠ none → ("metadata.json", true) ∈ pre := by
  obtain ⟨before, e, after, rfl, hbefore, rfl, hid, hm, hdelete⟩ := delete_of_get hget
  constructor
  · rintro h pre file post rfl hfile hthere
    have hne : file ≠ "metadata.json" := by simpa using (List.mem_filter.mp hfile).2
    obtain ⟨lib', hlib', hsafe⟩ := h (pre ++ [(file, true)]) ⟨post, by simp⟩
    obtain rfl := Except.ok.inj ((hdelete _).symm.trans hlib')
    by_contra hpre
    -- the point is shown, and the file is not there
    have hnot : ("metadata.json", true) ∉ pre ++ [(file, true)] := by simp [hpre, hne.symm]
    rcases hsafe with hgone | hintact
    · exact hgone.get m (get_of_not_removed hbefore hid hm hnot)
    · have hsame := hintact file hfile
      rw [file_middle hbefore, if_pos (by simp)] at hsame
      exact hthere hsame.symm
  · intro h done hdone
    refine ⟨_, hdelete done, ?_⟩
    by_cases hmeta : ("metadata.json", true) ∈ done
    · exact .inl (gone_of_removed hbefore hmeta)
    · refine .inr fun file hfile => ?_
      rw [file_middle hbefore]
      split
      · rename_i hremoved
        by_contra hthere
        obtain ⟨pre, post, rfl⟩ := List.append_of_mem hremoved
        obtain ⟨rest, rfl⟩ := hdone
        have hpre := h pre file (post ++ rest) (by simp) hfile (Ne.symm hthere)
        exact hmeta (List.mem_append_left _ hpre)
      · rfl

/-! ### A point with one disk -/

/-- A completed point with one disk. -/
def oneDisk : PointMeta := ((PointMeta.create "erp01" "bk-1" 0).diskPath "vda" .qcow2).complete

/-- Its directory. -/
def oneDiskEntry : FileEntry :=
  ⟨"erp01", "bk-1", some fun file =>
    if file = "metadata.json" then some (oneDisk.bytes.getD [])
    else if file ∈ oneDisk.contents then some [] else none⟩

theorem completed_oneDisk : oneDiskEntry.completed = some oneDisk := by
  have hsome : oneDisk.bytes.isSome = true := by decide
  obtain ⟨bytes, hbytes⟩ := Option.isSome_iff_exists.mp hsome
  have hfile : (oneDiskEntry.files.bind fun files => files "metadata.json") =
      some (oneDisk.bytes.getD []) := by
    rw [oneDiskEntry, Option.bind_some]
    exact if_pos rfl
  have hread : oneDiskEntry.pointFromDir = some oneDisk := by
    rw [FileEntry.pointFromDir, hfile, hbytes, Option.getD_some, Option.bind_some,
      readMeta_bytes hbytes]
  rw [FileEntry.completed, hread]
  rfl

theorem get_oneDisk : get [oneDiskEntry] "bk-1" = .ok oneDisk := by
  have hfind : [oneDiskEntry].find? (fun e => e.id = "bk-1") = some oneDiskEntry := rfl
  rw [get, if_pos (by decide), hfind, Option.bind_some, completed_oneDisk]

/-- The order that begins with the metadata. -/
theorem deletion_safe_iff_oneDisk :
    (∀ done, done <+: [("metadata.json", true), ("vda.qcow2", true), ("domain.xml", true)] →
      ∃ lib', FileLibrary.delete [oneDiskEntry] "bk-1" done = .ok lib' ∧
        (Gone (.insertion PointMeta.createdAt) [oneDiskEntry] lib' "bk-1" ∨
          Intact [oneDiskEntry] lib' "bk-1" oneDisk)) ↔
    ∀ pre file post,
      [("metadata.json", true), ("vda.qcow2", true), ("domain.xml", true)] =
        pre ++ (file, true) :: post →
      file ∈ oneDisk.contents → FileLibrary.file [oneDiskEntry] "bk-1" file ≠ none →
      ("metadata.json", true) ∈ pre :=
  deletion_safe_iff get_oneDisk _

/-- The domain XML is removed first, and the process dies: the point is shown without it. -/
theorem deletion_shows_damage :
    ∃ lib', FileLibrary.delete [oneDiskEntry] "bk-1" [("domain.xml", true)] = .ok lib' ∧
      ∀ srt : SortDesc PointMeta PointMeta.createdAt,
        ¬ (Gone srt [oneDiskEntry] lib' "bk-1" ∨ Intact [oneDiskEntry] lib' "bk-1" oneDisk) := by
  have hnone : ∀ f ∈ ([] : FileLibrary), f.id ≠ oneDiskEntry.id := fun _ hf => by cases hf
  have hshown : FileLibrary.get [oneDiskEntry.removing [("domain.xml", true)]] "bk-1" =
      .ok oneDisk := get_of_not_removed hnone (by decide) completed_oneDisk (by decide)
  refine ⟨[oneDiskEntry.removing [("domain.xml", true)]], ?_, fun srt => not_or.mpr ⟨?_, ?_⟩⟩
  · obtain ⟨before, e, after, hsplit, -, -, -, -, hdelete⟩ := delete_of_get get_oneDisk
    rcases before with _ | ⟨f, before⟩
    · cases hsplit
      exact hdelete _
    · simp at hsplit
  · exact fun hgone => hgone.get oneDisk hshown
  · intro hintact
    have hfile := hintact "domain.xml" (by decide)
    have hremoved : FileLibrary.file ([] ++ oneDiskEntry.removing [("domain.xml", true)] :: [])
        "bk-1" "domain.xml" = none :=
      (file_middle hnone [("domain.xml", true)] "domain.xml").trans (if_pos List.mem_cons_self)
    have hthere : FileLibrary.file [oneDiskEntry] "bk-1" "domain.xml" = some [] := by
      have hfind : [oneDiskEntry].find? (fun e => e.id = "bk-1") = some oneDiskEntry := rfl
      rw [FileLibrary.file, hfind, Option.bind_some, oneDiskEntry, Option.bind_some]
      exact (if_neg (by decide)).trans (if_pos (by decide))
    cases hthere.symm.trans (hfile.symm.trans hremoved)

end FileLibrary

/-! ## The model without files -/

/-- **A deletion that stopped** left a remnant of the directory, which shows the same. -/
theorem FileEntry.Of.removing {e : FileEntry} {d : PointDir} (h : e.Of d) (done : Removals) :
    ∃ d', d'.RemnantOf d ∧ (e.removing done).Of d' := by
  by_cases hdone : ("metadata.json", true) ∈ done
  · refine ⟨{ d with metadata := none, keyed := by simp }, ⟨rfl, rfl, .inr rfl, .inl rfl⟩,
      h.vmID, h.id, ?_, ?_⟩
    · rw [FileEntry.removing, Option.isSome_map, h.isDir]
    · rw [FileLibrary.pointFromDir_removing, if_pos hdone]
      rfl
  · refine ⟨d, ⟨rfl, rfl, .inl rfl, .inl rfl⟩, h.vmID, h.id, ?_, ?_⟩
    · rw [FileEntry.removing, Option.isSome_map, h.isDir]
    · rw [FileLibrary.pointFromDir_removing, if_neg hdone, h.metadata]

end Ultrav
