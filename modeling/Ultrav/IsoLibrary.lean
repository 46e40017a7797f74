import Mathlib.Data.List.AList
import Mathlib.Data.List.Sort
import Ultrav.ApiErrors
import Ultrav.ResourceUpdate
import Ultrav.UrlPath
import Ultrav.Utf8

/-!
# The ISO library

A directory on the host with the images that are attached to virtual machines. Names are bytes, as
the file system has them.

* `Directory` — what stands in a directory, by name.
* `Directory.listIsos`, `create`, `delete`, `isoFile` — the functions of `Store` on its directory.
* `handleUploadIso`, `handleDeleteIso` — the handlers around them.
* `mem_listIsos` — what is listed.
* `handleUploadIso_eq_ok` — what an upload that is accepted leaves behind.
-/

namespace Ultrav

open Url

/-! ## Names -/

/-- A name as a text. -/
def nameText (name : Bytes) : String := .ofList (Utf8.decode name)

/-- `unicode.ToLower`, on the characters whose lower case is an ASCII letter. -/
def lowerRune (c : Char) : Char :=
  if c = '\u0130' then 'i' else if c = '\u212A' then 'k' else c.toLower

/-- `strings.HasSuffix(strings.ToLower(name), ".iso")` -/
def isoSuffix (name : Bytes) : Bool :=
  ".iso".toList.isSuffixOf ((Utf8.decode name).map lowerRune)

/-- `filepath.Base` -/
def baseName (path : Bytes) : Bytes :=
  if path = [] then [0x2E]
  else
    match path.reverse.dropWhile (· = slash) with
    | [] => [slash]
    | bs => (bs.takeWhile (· ≠ slash)).reverse

/-! ## Directories -/

/-- What stands under a name. -/
inductive DirEntry where
  | file (content : Bytes)
  | dir (empty : Bool)
  /-- a symbolic link, and whether there is something at its end -/
  | link (target : Bytes) (resolves : Bool)
  deriving DecidableEq, Repr

namespace DirEntry

/-- `IsDir`, which does not follow links. -/
def isDir : DirEntry → Bool
  | dir _ => true
  | file _ | link _ _ => false

/-- Whether `os.Stat`, which follows links, finds something. -/
def stats : DirEntry → Bool
  | link _ resolves => resolves
  | file _ | dir _ => true

/-- `Size`, which does not follow links. -/
def size : DirEntry → ℕ
  | file content => content.length
  | link target _ => target.length
  | dir _ => 0

end DirEntry

/-- The entries of a directory, by name. -/
structure Directory where
  files : AList fun _ : Bytes => DirEntry
  no_slash : ∀ name ∈ files, slash ∉ name

namespace Directory

theorem no_slash_empty : ∀ name ∈ (∅ : AList fun _ : Bytes => DirEntry), slash ∉ name :=
  fun name hname => absurd hname (AList.notMem_empty name)

variable (d : Directory)

def lookup (name : Bytes) : Option DirEntry := d.files.lookup name

theorem no_slash_insert {name : Bytes} (h : slash ∉ name) (e : DirEntry) :
    ∀ n ∈ d.files.insert name e, slash ∉ n := by
  intro n hn
  rcases (AList.mem_insert _).mp hn with rfl | hn
  · exact h
  · exact d.no_slash n hn

/-- An entry is put under a name, in the place of the one that was there. -/
def put (name : Bytes) (h : slash ∉ name) (e : DirEntry) : Directory :=
  ⟨d.files.insert name e, no_slash_insert d h e⟩

theorem no_slash_erase (name : Bytes) : ∀ n ∈ d.files.erase name, slash ∉ n :=
  fun n hn => d.no_slash n (AList.mem_erase.mp hn).2

/-- A name is removed. -/
def erase (name : Bytes) : Directory := ⟨d.files.erase name, no_slash_erase d name⟩

theorem lookup_put (name : Bytes) (h : slash ∉ name) (e : DirEntry) (n : Bytes) :
    (d.put name h e).lookup n = if n = name then some e else d.lookup n := by
  split
  · rename_i heq
    rw [heq]
    exact AList.lookup_insert _
  · rename_i hne
    exact AList.lookup_insert_ne hne

theorem lookup_erase (name n : Bytes) :
    (d.erase name).lookup n = if n = name then none else d.lookup n := by
  split
  · rename_i heq
    rw [heq]
    exact AList.lookup_erase ..
  · rename_i hne
    exact AList.lookup_erase_ne hne

/-- `os.Stat` finds something under a name. -/
def stat (name : Bytes) : Bool := (d.lookup name).any DirEntry.stats

/-- `os.ReadDir`, in the order of the names. -/
def readDir : List (Bytes × DirEntry) :=
  (d.files.entries.map fun e => (e.1, e.2)).mergeSort fun a b => a.1 ≤ b.1

theorem mem_readDir {name : Bytes} {e : DirEntry} :
    (name, e) ∈ d.readDir ↔ d.lookup name = some e := by
  rw [readDir, List.mem_mergeSort, lookup, ← Option.mem_def, AList.mem_lookup_iff]
  simp only [List.mem_map, Prod.mk.injEq]
  constructor
  · rintro ⟨⟨n, f⟩, hmem, rfl, rfl⟩
    exact hmem
  · intro hmem
    exact ⟨⟨name, e⟩, hmem, rfl, rfl⟩

end Directory

/-! ## The store -/

/-- `types.Iso`, without the time. -/
structure Iso where
  id : Bytes
  fileName : Bytes
  sizeBytes : ℕ
  deriving DecidableEq, Repr

/-- `toModel` -/
def toIso (name : Bytes) (size : ℕ) : Iso := ⟨name, name, size⟩

/-- Errors of the store. -/
inductive IsoError where
  /-- `os.ErrInvalid` -/
  | invalid
  /-- `ErrNotFound` -/
  | notFound
  /-- `ErrAlreadyExists` -/
  | alreadyExists
  /-- what else the file system reports -/
  | other
  deriving DecidableEq, Repr

/-- The calls of an upload that fail. -/
structure UploadFaults where
  createTemp : Bool
  copy : Bool
  close : Bool
  chmod : Bool
  rename : Bool
  stat : Bool
  deriving DecidableEq, Repr

/-- A name that `ValidID` matches is in the alphabet. -/
theorem isoChar_of_isoValidID {s : String} (h : isoValidID s = true) {c : Char}
    (hc : c ∈ s.toList) : (alnum c || c = '.' || c = '_' || c = ' ' || c = '-') = true := by
  rw [isoValidID] at h
  cases hs : s.toList with
  | nil => simp [hs] at hc
  | cons a cs =>
    rw [hs] at h hc
    simp only [Bool.and_eq_true, List.all_eq_true] at h
    rcases List.mem_cons.mp hc with rfl | hc
    · simp [h.1.1.1.1]
    · exact h.2 c hc

theorem ascii_of_isoChar {c : Char}
    (h : (alnum c || c = '.' || c = '_' || c = ' ' || c = '-') = true) :
    c.toNat < 0x80 ∧ c ≠ '/' := by
  simp only [Bool.or_eq_true, decide_eq_true_eq] at h
  rcases h with (((h | rfl) | rfl) | rfl) | rfl
  · refine ⟨?_, by rintro rfl; exact absurd h (by decide)⟩
    have hle : ∀ z : Char, c ≤ z → c.toNat ≤ z.toNat := fun z hz => UInt32.le_iff_toNat_le.mp hz
    simp only [alnum, digit, Bool.or_eq_true, Bool.and_eq_true, decide_eq_true_eq] at h
    rcases h with (⟨-, h⟩ | ⟨-, h⟩) | ⟨-, h⟩
    · exact Nat.lt_of_le_of_lt (hle 'z' h) (by decide)
    · exact Nat.lt_of_le_of_lt (hle 'Z' h) (by decide)
    · exact Nat.lt_of_le_of_lt (hle '9' h) (by decide)
  all_goals decide

/-- A name that is matched is in ASCII. -/
theorem ascii_of_isoValidID {name : Bytes} (h : isoValidID (nameText name) = true) :
    ∀ c ∈ Utf8.decode name, c.toNat < 0x80 ∧ c ≠ '/' := by
  intro c hc
  refine ascii_of_isoChar (isoChar_of_isoValidID h ?_)
  rwa [nameText, String.toList_ofList]

theorem slash_notMem_encode {cs : List Char} (h : ∀ c ∈ cs, c.toNat < 0x80 ∧ c ≠ '/') :
    slash ∉ Utf8.encode cs := by
  intro hmem
  obtain ⟨c, hc, hbyte⟩ := List.mem_flatMap.mp hmem
  obtain ⟨hlt, hne⟩ := h c hc
  rw [Utf8.encodeChar_of_ascii hlt, List.mem_singleton] at hbyte
  refine hne (Char.toNat_inj.mp ?_)
  have hnat := congrArg UInt8.toNat hbyte
  change slash.toNat = c.toNat % 256 at hnat
  rw [Nat.mod_eq_of_lt (by omega)] at hnat
  exact hnat.symm

theorem no_slash_of_isoValidID {name : Bytes} (h : isoValidID (nameText name) = true) :
    slash ∉ name := by
  have hascii := ascii_of_isoValidID h
  rw [← Utf8.encode_decode_of_ascii fun c hc => (hascii c hc).1]
  exact slash_notMem_encode hascii

theorem suffix_of_isoValidID {s : String} (h : isoValidID s = true) :
    ".iso".toList <:+ s.toList := by
  rw [isoValidID] at h
  cases hs : s.toList with
  | nil => simp [hs] at h
  | cons c cs =>
    rw [hs] at h
    simp only [Bool.and_eq_true, decide_eq_true_eq] at h
    have hdrop : cs.drop (cs.length - 4) = ".iso".toList := h.1.1.2
    rw [← hdrop]
    exact (List.drop_suffix _ _).trans (List.suffix_cons _ _)

/-- A suffix in lower case. -/
theorem isoSuffix_of_suffix {name : Bytes} (h : ".iso".toList <:+ Utf8.decode name) :
    isoSuffix name = true := by
  obtain ⟨pre, hpre⟩ := h
  rw [isoSuffix, List.isSuffixOf_iff_suffix, ← hpre, List.map_append]
  exact List.suffix_append _ _

namespace Directory

variable (d : Directory)

/-- `List`. The names that are read are still there, so that `Info` gives no error. -/
def listIsos : List Iso :=
  d.readDir.filterMap fun (name, e) =>
    if e.isDir || !isoSuffix name then none else some (toIso name e.size)

/-- `Create`. On each way out the temporary file is removed. -/
def create (faults : UploadFaults) (name content : Bytes) : Except IsoError Iso × Directory :=
  if h : isoValidID (nameText name) = true then
    if d.stat name then (.error .alreadyExists, d)
    else if faults.createTemp || faults.copy || faults.close || faults.chmod || faults.rename then
      (.error .other, d)
    else
      let d' := d.put name (no_slash_of_isoValidID h) (.file content)
      if faults.stat then (.error .other, d') else (.ok (toIso name content.length), d')
  else (.error .invalid, d)

/-- `Delete`; a directory is removed when it is empty. -/
def delete (id : Bytes) : Except IsoError Unit × Directory :=
  if !isoValidID (nameText id) then (.error .invalid, d)
  else
    match d.lookup id with
    | none => (.error .notFound, d)
    | some (.dir false) => (.error .other, d)
    | some _ => (.ok (), d.erase id)

/-- `Path` -/
def isoFile (dir : String) (id : Bytes) : Except IsoError String :=
  if !isoValidID (nameText id) then .error .invalid
  else if !d.stat id then .error .notFound
  else .ok (isoPath dir (nameText id))

end Directory

/-! ## The handlers -/

/-- `handleUploadIso`, once the file is read from the form. -/
def handleUploadIso (faults : UploadFaults) (filename content : Bytes) (d : Directory) :
    Except ErrorReply Iso × Directory :=
  let name := baseName filename
  if !isoValidID (nameText name) then
    (.error (writeError .validationError
      "Filename must end in .iso (letters, digits, dot, dash, underscore, space)"), d)
  else
    match d.create faults name content with
    | (.ok img, d') => (.ok img, d')
    | (.error .alreadyExists, d') =>
      (.error (writeError .isoAlreadyExists "An ISO image with this filename already exists"), d')
    | (.error .invalid, d') => (.error (writeError .validationError "Invalid ISO filename"), d')
    | (.error _, d') => (.error (writeError .internalError ""), d')

/-- `handleDeleteIso` -/
def handleDeleteIso (d : Directory) (id : Bytes) : Except ErrorReply Unit × Directory :=
  match d.delete id with
  | (.ok (), d') => (.ok (), d')
  | (.error .notFound, d') =>
    (.error (writeError .isoNotFound "ISO image was not found"), d')
  | (.error .invalid, d') => (.error (writeError .validationError "Invalid ISO filename"), d')
  | (.error _, d') => (.error (writeError .internalError ""), d')

/-! ## What they do -/

section Lemmas

variable {d d' : Directory} {faults : UploadFaults} {filename content : Bytes} {img : Iso}

/-- What is listed. -/
theorem mem_listIsos : img ∈ d.listIsos ↔ ∃ name e, d.lookup name = some e ∧ e.isDir = false ∧
    isoSuffix name = true ∧ img = toIso name e.size := by
  simp only [Directory.listIsos, List.mem_filterMap, Prod.exists, Directory.mem_readDir]
  constructor
  · rintro ⟨name, e, hlookup, himg⟩
    split at himg
    · cases himg
    · rename_i hlisted
      simp only [Bool.or_eq_true, Bool.not_eq_true', not_or, Bool.not_eq_true,
        Bool.not_eq_false] at hlisted
      exact ⟨name, e, hlookup, hlisted.1, hlisted.2, (Option.some.inj himg).symm⟩
  · rintro ⟨name, e, hlookup, hdir, hsuffix, rfl⟩
    exact ⟨name, e, hlookup, by simp [hdir, hsuffix]⟩

/-- The calls of an upload that goes through. -/
def UploadFaults.none : UploadFaults := ⟨false, false, false, false, false, false⟩

theorem UploadFaults.eq_none_iff : faults = .none ↔
    (faults.createTemp || faults.copy || faults.close || faults.chmod || faults.rename) = false ∧
      faults.stat = false := by
  cases faults
  simp [UploadFaults.none, and_assoc]

/-- **An upload that is accepted**: a name that is free, and no call that fails. -/
theorem handleUploadIso_eq_ok :
    handleUploadIso faults filename content d = (.ok img, d') ↔
      ∃ h : isoValidID (nameText (baseName filename)) = true,
        d.stat (baseName filename) = false ∧ faults = .none ∧
        img = toIso (baseName filename) content.length ∧
        d' = d.put (baseName filename) (no_slash_of_isoValidID h) (.file content) := by
  rw [handleUploadIso]
  generalize baseName filename = name
  by_cases h : isoValidID (nameText name) = true
  · rw [Directory.create, dif_pos h, UploadFaults.eq_none_iff]
    simp only [h, Bool.not_true, Bool.false_eq_true, if_false, exists_true_left]
    cases d.stat name with
    | true => simp
    | false =>
      cases faults.createTemp || faults.copy || faults.close || faults.chmod || faults.rename with
      | true => simp
      | false =>
        cases faults.stat with
        | true => simp
        | false => simp [eq_comm]
  · simp [h]

end Lemmas

end Ultrav
