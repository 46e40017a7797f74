import Ultrav.AuthGate
import Ultrav.DirTree
import Ultrav.IsoLibrary

/-!
# Images that can be used and removed

An image is named by its file name everywhere: on upload, in the list, as `isoId` of an update and
in the path of the delete route. Each place has a test of its own.

* `route_deleteIso` — the router on `DELETE /api/v1/storage/isos/{id}`, for any name in a
  directory.
* `Usable` — an image can be attached and removed.
* `UploadUsable`, `ListUsable` — every upload, and everything that is listed.
* `isoLibrary_iff` — which names are.
-/

namespace Ultrav

open Url Mux

/-! ## The delete route -/

/-- The path of the library. -/
def isosPath : Bytes := bytesOf "/api/v1/storage/isos"

/-- The request that deletes an image. -/
def deleteIsoRequest (id : Bytes) : Request where
  method := bytesOf "DELETE"
  target := isosPath ++ slash :: escape id
  rawQuery := []
  headers := []

/-- What becomes of it. -/
def deleteIsoOutcome (id : Bytes) (user : Option UserRow) : Option Outcome :=
  (setPath (deleteIsoRequest id).target).map fun u => route (deleteIsoRequest id) u user

section Route

variable {id : Bytes}

theorem escape_append (as bs : Bytes) : escape (as ++ bs) = escape as ++ escape bs := by
  induction as with
  | nil => rfl
  | cons a as ih =>
    rw [List.cons_append, escape, escape, ih]
    split <;> simp

theorem escape_inj {as bs : Bytes} (h : escape as = escape bs) : as = bs := by
  have hread := congrArg (unescape false) h
  rw [unescape_escape, unescape_escape] at hread
  exact Option.some.inj hread

theorem slash_notMem_escape (h : slash ∉ id) : slash ∉ escape id := by
  have hhex : ∀ n : Fin 256, slash ≠ upperhex (UInt8.ofFin n >>> 4) ∧
      slash ≠ upperhex (UInt8.ofFin n &&& 15) := by decide +kernel
  induction id with
  | nil => simp [escape]
  | cons b bs ih =>
    obtain ⟨hb, hbs⟩ := not_or.mp (mt List.mem_cons.mpr h)
    rw [escape]
    split
    · simp only [List.mem_cons, not_or]
      exact ⟨by decide, (hhex b.toFin).1, (hhex b.toFin).2, ih hbs⟩
    · exact List.not_mem_cons_of_ne_of_not_mem hb (ih hbs)

/-- The path as it is routed. -/
theorem setPath_deleteIso :
    setPath (deleteIsoRequest id).target = some ⟨isosPath ++ slash :: id, []⟩ := by
  have htarget : (deleteIsoRequest id).target = escape (isosPath ++ slash :: id) := by
    have hbase : escape (isosPath ++ [slash]) = isosPath ++ [slash] := by decide
    rw [List.append_cons, escape_append, hbase]
    simp [deleteIsoRequest]
  rw [setPath, htarget, unescape_escape]
  exact congrArg some (if_pos rfl)

theorem escapedPath_deleteIso :
    (URL.mk (isosPath ++ slash :: id) []).escapedPath = isosPath ++ slash :: escape id := by
  have hbase : escape (isosPath ++ [slash]) = isosPath ++ [slash] := by decide
  have hstar : isosPath ++ slash :: id ≠ bytesOf "*" := by
    intro h
    have hlen := congrArg List.length h
    rw [List.length_append] at hlen
    change 20 + _ = 1 at hlen
    omega
  rw [URL.escapedPath, if_neg (by simp), if_neg hstar, List.append_cons, escape_append, hbase]
  simp

theorem splitOn_isosPath {x : Bytes} (hx : slash ∉ x) : splitOn slash (isosPath ++ slash :: x) =
    [[], bytesOf "api", bytesOf "v1", bytesOf "storage", bytesOf "isos", x] := by
  rw [DirPath.splitOn_append_sep, splitOn_of_not_mem hx]
  have hbase : splitOn slash isosPath =
      [[], bytesOf "api", bytesOf "v1", bytesOf "storage", bytesOf "isos"] := by decide
  rw [hbase]
  rfl

theorem getLast?_ne_slash {x : Bytes} (hx : slash ∉ x) (hne : x ≠ []) :
    (isosPath ++ slash :: x).getLast? ≠ some slash := by
  intro hlast
  have hmem := List.mem_of_getLast? (l := x) (a := slash) (by
    rwa [List.getLast?_append_of_ne_nil _ (by simp), List.getLast?_cons_of_ne_nil hne] at hlast)
  exact hx hmem

/-- The path is in canonical form. -/
theorem cleanPath_isosPath {x : Bytes} (hx : slash ∉ x) (hne : x ≠ []) (hdot : x ≠ [0x2E])
    (hdotdot : x ≠ [0x2E, 0x2E]) :
    cleanPath (isosPath ++ slash :: x) = isosPath ++ slash :: x := by
  have hhead : (isosPath ++ slash :: x).head? = some slash := rfl
  have hclean : cleanRooted slash 0x2E (isosPath ++ slash :: x) = isosPath ++ slash :: x := by
    have hbase : [[], bytesOf "api", bytesOf "v1", bytesOf "storage", bytesOf "isos"].foldl
        (cleanStep 0x2E) [] =
        [bytesOf "api", bytesOf "v1", bytesOf "storage", bytesOf "isos"] := by decide
    have hfold : (splitOn slash (isosPath ++ slash :: x)).foldl (cleanStep 0x2E) [] =
        [bytesOf "api", bytesOf "v1", bytesOf "storage", bytesOf "isos", x] := by
      rw [splitOn_isosPath hx]
      change cleanStep 0x2E ([[], bytesOf "api", bytesOf "v1", bytesOf "storage",
        bytesOf "isos"].foldl (cleanStep 0x2E) []) x = _
      rw [hbase, cleanStep, if_neg (not_or.mpr ⟨hne, hdot⟩), if_neg hdotdot]
      rfl
    rw [cleanRooted, hfold]
    have hjoined : joined slash [bytesOf "api", bytesOf "v1", bytesOf "storage", bytesOf "isos"] =
        isosPath := by decide
    rw [← hjoined]
    simp [joined]
  rw [cleanPath, if_pos hhead, hclean]
  exact if_neg fun h => getLast?_ne_slash hx hne h.1

/-- The pattern of the route. -/
def isosEntry : Entry (Guard × Handler) :=
  handleFunc "DELETE /api/v1/storage/isos/{id}" .vmID .deleteIso

theorem isosNode : ((((methodNode routes (bytesOf "DELETE")).findChild (bytesOf "api")).findChild
    (bytesOf "v1")).findChild (bytesOf "storage")).findChild (bytesOf "isos") =
      [([.wild (bytesOf "id")], isosEntry)] := by
  rfl

theorem matchMethodAndPath_isosPath (hslash : slash ∉ id) (hne : id ≠ []) :
    matchMethodAndPath routes (bytesOf "DELETE") (isosPath ++ slash :: escape id) =
      some (isosEntry, [id]) := by
  have hescape : escape id ≠ [] := fun h => hne (escape_inj (show escape id = escape [] from h))
  have hsegments : segments (isosPath ++ slash :: escape id) =
      [bytesOf "api", bytesOf "v1", bytesOf "storage", bytesOf "isos", id] := by
    have hsplit := splitOn_isosPath (slash_notMem_escape hslash)
    change splitOn slash (slash :: (isosPath.drop 1 ++ slash :: escape id)) = _ at hsplit
    rw [splitOn, if_pos rfl] at hsplit
    change readSegments (splitOn slash (isosPath.drop 1 ++ slash :: escape id)) = _
    rw [(List.cons.inj hsplit).2]
    simp only [readSegments, if_neg hescape, pathUnescape, unescape_escape, Option.getD_some]
    rfl
  have hwild : matchPath [([.wild (bytesOf "id")], isosEntry)] [] [id] =
      some (isosEntry, [id]) := by
    have hne' : id ≠ [slash] := fun h => hslash (by rw [h]; exact List.mem_cons_self ..)
    have hlit : Node.findChild [([.wild (bytesOf "id")], isosEntry)] id = [] := by
      rw [Node.findChild, if_neg hne]
      rfl
    rw [matchPath, hlit, if_neg hne']
    rfl
  rw [matchMethodAndPath, hsegments]
  simp only [matchPath, isosNode] at hwild ⊢
  rw [hwild]

/-- The router finds the handler, with the name as it is. -/
theorem findHandler_deleteIso (hslash : slash ∉ id) (hne : id ≠ []) (hdot : id ≠ [0x2E])
    (hdotdot : id ≠ [0x2E, 0x2E]) :
    findHandler routes (bytesOf "DELETE") ⟨isosPath ++ slash :: id, []⟩ =
      .handler isosEntry [id] := by
  have hescape : ∀ bs : Bytes, escape bs = bs → id ≠ bs → escape id ≠ bs := by
    intro bs hbs hid heq
    exact hid (escape_inj (heq.trans hbs.symm))
  have hclean := cleanPath_isosPath (slash_notMem_escape hslash) (hescape [] rfl hne)
    (hescape [0x2E] (by decide) hdot) (hescape [0x2E, 0x2E] (by decide) hdotdot)
  have hmatch := matchMethodAndPath_isosPath hslash hne
  have hfound : matchOrRedirect routes (bytesOf "DELETE") (isosPath ++ slash :: escape id) =
      some (some (isosEntry, [id])) := by
    have hexact : exactMatch isosEntry (isosPath ++ slash :: escape id) = true := by
      rw [exactMatch, if_pos (by decide)]
    rw [matchOrRedirect, hmatch]
    exact if_pos (.inl hexact)
  rw [findHandler, if_neg (by decide), escapedPath_deleteIso, hclean, hfound]
  exact if_neg (not_not.mpr rfl)

/-- **The delete route**: the guard looks at the name, and the handler runs when it is accepted. -/
theorem route_deleteIso (hslash : slash ∉ id) (hne : id ≠ []) (hdot : id ≠ [0x2E])
    (hdotdot : id ≠ [0x2E, 0x2E]) (user : Option UserRow) :
    deleteIsoOutcome id user = some (if namePattern (nameText id) = true then .run .deleteIso user
      else .error (writeError .validationError "Invalid virtual machine identifier")) := by
  have htarget : (deleteIsoRequest id).target ≠ bytesOf "*" := by
    intro h
    have hlen := congrArg List.length h
    rw [deleteIsoRequest, List.length_append] at hlen
    change 20 + _ = 1 at hlen
    omega
  have hhandler : findHandler routes (deleteIsoRequest id).method ⟨isosPath ++ slash :: id, []⟩ =
      .handler isosEntry [id] := findHandler_deleteIso hslash hne hdot hdotdot
  rw [deleteIsoOutcome, setPath_deleteIso, Option.map_some, route, if_neg htarget, hhandler]
  rfl

end Route

/-! ## What is expected -/

section Expected

variable (dir : String) (faults : UploadFaults) (filename content : Bytes) (d : Directory)

/-- The update that attaches an image. -/
def attach (id : Bytes) : VMUpdate := ⟨none, none, none, some (nameText id)⟩

/-- An image can be attached and removed. -/
structure Usable (id : Bytes) : Prop where
  attached : validateUpdateVM (attach id) = ""
  routed : ∀ user, deleteIsoOutcome id user = some (.run .deleteIso user)
  removed : handleDeleteIso d id = (.ok (), d.erase id)

/-- An image that is uploaded is in the list, under its name, and can be used. -/
def UploadUsable : Prop :=
  ∀ img d', handleUploadIso faults filename content d = (.ok img, d') →
    img.id = baseName filename ∧ img ∈ d'.listIsos ∧ Usable d' img.id

/-- What is listed has a path and can be used. -/
def ListUsable : Prop :=
  ∀ img ∈ d.listIsos, (∃ path, d.isoFile dir img.id = .ok path) ∧ Usable d img.id

/-- The name of an upload is one that the delete route takes. -/
def UploadNameFits : Prop :=
  isoValidID (nameText (baseName filename)) = true → d.stat (baseName filename) = false →
    faults = .none →
    ' ' ∉ Utf8.decode (baseName filename) ∧ (Utf8.decode (baseName filename)).length ≤ 64

/-- The names in the directory that are taken for images are those that the delete route takes, with
the suffix in lower case, and no link among them leads nowhere. -/
def ListNamesFit : Prop :=
  ∀ name e, d.lookup name = some e → e.isDir = false → isoSuffix name = true →
    namePattern (nameText name) = true ∧ ".iso".toList <:+ Utf8.decode name ∧ e.stats = true

end Expected

/-! ## Names -/

section Names

variable {s : String}

/-- The image names that the guard of the delete route takes. -/
theorem namePattern_of_isoValidID (h : isoValidID s = true) :
    namePattern s = true ↔ ' ' ∉ s.toList ∧ s.toList.length ≤ 64 := by
  rw [isoValidID] at h
  rw [namePattern]
  cases hs : s.toList with
  | nil => simp [hs] at h
  | cons c cs =>
    rw [hs] at h
    simp only [Bool.and_eq_true, decide_eq_true_eq, List.all_eq_true] at h ⊢
    obtain ⟨⟨⟨⟨hc, -⟩, -⟩, -⟩, hcs⟩ := h
    have hblank : c ≠ ' ' := by
      rintro rfl
      exact absurd hc (by decide)
    simp only [hc, true_and, List.mem_cons, not_or, List.length_cons]
    constructor
    · rintro ⟨hlen, halpha⟩
      exact ⟨⟨hblank.symm, fun hmem => absurd (halpha ' ' hmem) (by decide)⟩, by omega⟩
    · rintro ⟨⟨-, hmem⟩, hlen⟩
      refine ⟨by omega, fun x hx => ?_⟩
      have hne : decide (x = ' ') = false := decide_eq_false (by rintro rfl; exact hmem hx)
      simpa [hne] using hcs x hx

theorem isoValidID_of_namePattern (h : namePattern s = true)
    (hsuffix : ".iso".toList <:+ s.toList) : isoValidID s = true := by
  rw [namePattern] at h
  rw [isoValidID]
  cases hs : s.toList with
  | nil => simp [hs] at h
  | cons c cs =>
    rw [hs] at h hsuffix
    simp only [Bool.and_eq_true, decide_eq_true_eq, List.all_eq_true] at h ⊢
    obtain ⟨⟨hc, hlen⟩, hcs⟩ := h
    have htail : ".iso".toList <:+ cs := by
      rcases List.suffix_cons_iff.mp hsuffix with heq | htail
      · obtain rfl : c = '.' := (List.cons.inj heq).1.symm
        exact absurd hc (by decide)
      · exact htail
    have hfour : 4 ≤ cs.length := htail.length_le
    refine ⟨⟨⟨⟨hc, hfour⟩, (List.suffix_iff_eq_drop.mp htail).symm⟩, by omega⟩, fun x hx => ?_⟩
    have halpha := hcs x hx
    simp only [Bool.or_eq_true, decide_eq_true_eq] at halpha ⊢
    tauto

end Names

/-! ## Which images can be used -/

section Usable

variable {dir : String} {faults : UploadFaults} {filename content : Bytes} {d : Directory}
  {id : Bytes} {e : DirEntry}

theorem attached_iff : validateUpdateVM (attach id) = "" ↔
    nameText id = "" ∨ isoValidID (nameText id) = true := by
  by_cases hid : nameText id = "" <;> by_cases hvalid : isoValidID (nameText id) = true <;>
    simp [validateUpdateVM, attach, hid, hvalid]

/-- **An image in a directory** can be used when the guard of the delete route takes its name and
the suffix is in lower case. -/
theorem usable_iff (hentry : d.lookup id = some e) (hfile : e.isDir = false)
    (hsuffix : isoSuffix id = true) :
    Usable d id ↔ namePattern (nameText id) = true ∧ ".iso".toList <:+ Utf8.decode id := by
  have hslash : slash ∉ id := by
    refine d.no_slash id (AList.lookup_isSome.mp ?_)
    rw [← Directory.lookup, hentry]
    rfl
  have hne : ∀ bs : Bytes, isoSuffix bs = false → id ≠ bs := by
    rintro bs hbs rfl
    rw [hbs] at hsuffix
    cases hsuffix
  have hroute := route_deleteIso hslash (hne [] (by decide)) (hne [0x2E] (by decide))
    (hne [0x2E, 0x2E] (by decide))
  have htext : (nameText id).toList = Utf8.decode id := String.toList_ofList
  constructor
  · rintro ⟨hattached, hrouted, -⟩
    have hname : namePattern (nameText id) = true := by
      have hrun := (hroute none).symm.trans (hrouted none)
      by_contra hname
      rw [if_neg hname] at hrun
      cases hrun
    have hvalid : isoValidID (nameText id) = true := by
      refine (attached_iff.mp hattached).resolve_left fun hempty => ?_
      rw [hempty] at hname
      exact absurd hname (by decide)
    exact ⟨hname, htext ▸ suffix_of_isoValidID hvalid⟩
  · rintro ⟨hname, hlower⟩
    have hvalid : isoValidID (nameText id) = true :=
      isoValidID_of_namePattern hname (htext.symm ▸ hlower)
    refine ⟨attached_iff.mpr (.inr hvalid), fun user => by rw [hroute, if_pos hname], ?_⟩
    rw [handleDeleteIso, Directory.delete, hentry]
    cases e with
    | dir empty => cases hfile
    | file content => simp [hvalid]
    | link target resolves => simp [hvalid]

/-- What stands in the directory after an upload. -/
theorem usable_put_iff (hvalid : isoValidID (nameText id) = true) :
    Usable (d.put id (no_slash_of_isoValidID hvalid) (.file content)) id ↔
      ' ' ∉ Utf8.decode id ∧ (Utf8.decode id).length ≤ 64 := by
  have htext : (nameText id).toList = Utf8.decode id := String.toList_ofList
  have hlower : ".iso".toList <:+ Utf8.decode id := htext ▸ suffix_of_isoValidID hvalid
  have hentry : (d.put id (no_slash_of_isoValidID hvalid) (.file content)).lookup id =
      some (.file content) := by
    rw [Directory.lookup_put, if_pos rfl]
  rw [usable_iff hentry rfl (isoSuffix_of_suffix hlower), namePattern_of_isoValidID hvalid, htext]
  exact and_iff_left hlower

theorem uploadUsable_iff : UploadUsable faults filename content d ↔
    UploadNameFits faults filename d := by
  constructor
  · intro husable hvalid hfree hfaults
    obtain ⟨-, -, husable⟩ :=
      husable _ _ (handleUploadIso_eq_ok.mpr ⟨hvalid, hfree, hfaults, rfl, rfl⟩)
    exact (usable_put_iff hvalid).mp husable
  · intro hfits img d' haccepted
    obtain ⟨hvalid, hfree, hfaults, rfl, rfl⟩ := handleUploadIso_eq_ok.mp haccepted
    refine ⟨rfl, ?_, (usable_put_iff hvalid).mpr (hfits hvalid hfree hfaults)⟩
    have htext : (nameText (baseName filename)).toList = Utf8.decode (baseName filename) :=
      String.toList_ofList
    refine mem_listIsos.mpr ⟨baseName filename, .file content, ?_, rfl, ?_, rfl⟩
    · rw [Directory.lookup_put, if_pos rfl]
    · exact isoSuffix_of_suffix (htext ▸ suffix_of_isoValidID hvalid)

theorem isoFile_eq_ok {path : String} : d.isoFile dir id = .ok path ↔
    isoValidID (nameText id) = true ∧ d.stat id = true ∧ path = isoPath dir (nameText id) := by
  rw [Directory.isoFile]
  by_cases hvalid : isoValidID (nameText id) = true <;> by_cases hstat : d.stat id = true <;>
    simp [hvalid, hstat, eq_comm]

theorem listUsable_iff : ListUsable dir d ↔ ListNamesFit d := by
  have hstat : ∀ {name e}, d.lookup name = some e → d.stat name = e.stats := by
    intro name e hentry
    rw [Directory.stat, hentry, Option.any_some]
  constructor
  · intro husable name e hentry hfile hsuffix
    obtain ⟨⟨path, hpath⟩, hsafe⟩ :=
      husable (toIso name e.size) (mem_listIsos.mpr ⟨name, e, hentry, hfile, hsuffix, rfl⟩)
    obtain ⟨hname, hlower⟩ := (usable_iff hentry hfile hsuffix).mp hsafe
    exact ⟨hname, hlower, (hstat hentry).symm.trans (isoFile_eq_ok.mp hpath).2.1⟩
  · intro hfits img himg
    obtain ⟨name, e, hentry, hfile, hsuffix, rfl⟩ := mem_listIsos.mp himg
    obtain ⟨hname, hlower, hstats⟩ := hfits name e hentry hfile hsuffix
    have htext : (nameText name).toList = Utf8.decode name := String.toList_ofList
    have hvalid := isoValidID_of_namePattern hname (htext.symm ▸ hlower)
    exact ⟨⟨_, isoFile_eq_ok.mpr ⟨hvalid, (hstat hentry).trans hstats, rfl⟩⟩,
      (usable_iff hentry hfile hsuffix).mpr ⟨hname, hlower⟩⟩

/-- **The library**: every upload that is accepted can be used exactly when its name has no space
and at most 64 characters, and so can everything that is listed exactly when the guard takes the
names, the suffixes are in lower case and no link leads nowhere. -/
theorem isoLibrary_iff : (UploadUsable faults filename content d ↔
      UploadNameFits faults filename d) ∧
    (ListUsable dir d ↔ ListNamesFit d) :=
  ⟨uploadUsable_iff, listUsable_iff⟩

end Usable

/-- An empty library. -/
def noImages : Directory := ⟨∅, Directory.no_slash_empty⟩

theorem no_slash_debian : slash ∉ bytesOf "DEBIAN.ISO" := by decide

/-- An image that was copied there by hand. -/
def copiedImage : Directory := noImages.put (bytesOf "DEBIAN.ISO") no_slash_debian (.file [1])

/-- An image with a blank in its name is accepted but cannot be removed, and one with the suffix in
upper case is listed but cannot be used. -/
theorem not_isoLibrary : ¬ UploadUsable .none (bytesOf "my image.iso") [] noImages ∧
    ¬ ListUsable "/isos" copiedImage := by
  constructor
  · rw [uploadUsable_iff]
    intro hfits
    exact absurd (hfits (by decide) rfl rfl).1 (by decide)
  · rw [listUsable_iff]
    intro hfits
    have hlower := (hfits (bytesOf "DEBIAN.ISO") (.file [1]) rfl rfl (by decide)).2.1
    exact absurd hlower (by decide)

end Ultrav
