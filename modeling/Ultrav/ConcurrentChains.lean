import Ultrav.ChainDecision

/-!
# Chains under concurrent calls

`restoreChain` follows parent ids through the library, with no list of what it has visited. That
it ends rests on the order in which points come about: a backup decides its parent among the
completed points, and only then draws its own id. Backups and deletions of any machines may
overlap, and a listing reads one entry after the other.

* `chainAnchor` — the decision of `backupChainParent` on the points its `List` has read.
* `Chains` — the library and the calls at work on it, with the ids drawn and the points completed.
* `Chains.Wf` — as long as no id is drawn twice, parents are completed before their children.
* `restoreChain_ends` — the loop ends, with the chain of the point or for a missing ancestor.
-/

namespace Ultrav

/-! ## The decision of a call -/

section Anchor

variable {srt : SortDesc Metadata Metadata.createdAt} {lib : Library} {metas : List Metadata}
  {dom : Domain} {id : String} {req : Option CreateType}

/-- `backupChainParent`, once `List` has returned. -/
def chainAnchor (metas : List Metadata) (dom : Domain) (id : String) (req : Option CreateType) :
    Except ProviderError (String × String) :=
  if req = some .full then .ok ("", "")
  else
    match metas with
    | [] => backupChainParent.noChain id req
    | newest :: _ =>
      if newest.checkpoint = "" then backupChainParent.noChain id req
      else if newest.checkpoint ∈ dom.checkpoints.names then
        .ok (newest.id, newest.checkpoint)
      else if req = some .incremental then
        .error (.invalidState ("the checkpoint of backup " ++ newest.id ++
          " no longer exists in the domain — take a full backup first"))
      else .ok ("", "")

theorem backupChainParent_eq_anchor (hl : lib.list srt id = .ok metas) :
    backupChainParent srt lib dom id req = chainAnchor metas dom id req := by
  rw [backupChainParent, hl]
  rfl

/-- The parent is a point that was read. -/
theorem chainAnchor_eq_ok {p : String × String} (h : chainAnchor metas dom id req = .ok p) :
    p.1 = "" ∨ ∃ newest ∈ metas, p.1 = newest.id := by
  have hno : backupChainParent.noChain id req = .ok p → p.1 = "" := by
    intro hq
    rw [backupChainParent.noChain] at hq
    split at hq <;> cases hq
    rfl
  unfold chainAnchor at h
  split at h
  · cases h
    exact .inl rfl
  split at h
  · exact .inl (hno h)
  · rename_i newest rest
    split at h
    · exact .inl (hno h)
    split at h
    · cases h
      exact .inr ⟨newest, List.mem_cons_self, rfl⟩
    · split at h <;> cases h
      exact .inl rfl

end Anchor

/-! ## Libraries that only lose -/

/-- Directories may be gone, and metadata of those that are left. -/
structure Library.Shrinks (lib lib' : Library) : Prop where
  ids : (lib'.map PointDir.id).Sublist (lib.map PointDir.id)
  metadata : ∀ d' ∈ lib', ∃ d ∈ lib, d'.id = d.id ∧
    ∀ m, d'.metadata = some m → d.metadata = some m

namespace Library

variable {lib : Library}

theorem Shrinks.refl (lib : Library) : lib.Shrinks lib :=
  ⟨.refl _, fun d hd => ⟨d, hd, rfl, fun _ hm => hm⟩⟩

/-- What is left of directories. -/
theorem Shrinks.of_remnants {lib' : Library}
    (hids : (lib'.map PointDir.id).Sublist (lib.map PointDir.id))
    (hrem : ∀ d' ∈ lib', ∃ d ∈ lib, d'.RemnantOf d) : lib.Shrinks lib' := by
  refine ⟨hids, fun d' hd' => ?_⟩
  obtain ⟨d, hd, -, hid, hmeta, -⟩ := hrem d' hd'
  refine ⟨d, hd, hid, fun m hm => ?_⟩
  rcases hmeta with hmeta | hmeta
  · rw [← hmeta, hm]
  · rw [hmeta] at hm
    cases hm

theorem shrinks_remove (lib : Library) (vmID id : String) (rem : Removal) :
    lib.Shrinks (lib.remove vmID id rem) := by
  have hrem : ∀ d d', (if d.vmID = vmID ∧ d.id = id then rem.left d else some d) = some d' →
      d'.RemnantOf d := by
    intro d d' hd
    split at hd
    · exact rem.remnant d d' hd
    · cases hd
      exact .refl d
  refine .of_remnants (sublist_filterMap hrem) fun d' hd' => ?_
  obtain ⟨d, hd, hdd'⟩ := List.mem_filterMap.mp hd'
  exact ⟨d, hd, hrem d d' hdd'⟩

theorem shrinks_writeDomainXML (lib : Library) (vmID id : String) (D : Definition) :
    lib.Shrinks (lib.writeDomainXML vmID id D) := by
  constructor
  · rw [writeDomainXML, List.map_map, List.map_congr_left (g := PointDir.id)]
    · intro d _
      rw [Function.comp_apply]
      split <;> rfl
  · intro d' hd'
    obtain ⟨d, hd, rfl⟩ := List.mem_map.mp hd'
    refine ⟨d, hd, ?_, fun m hm => ?_⟩
    · split <;> rfl
    · split at hm <;> exact hm

/-- `Complete` writes into a directory of the point. -/
theorem mem_complete {m : Metadata} {d' : PointDir} (h : d' ∈ lib.complete m) :
    ∃ d ∈ lib, d'.id = d.id ∧
      (d'.metadata = d.metadata ∨ d'.metadata = some { m with state := .complete }) := by
  obtain ⟨d, hd, rfl⟩ := List.mem_map.mp h
  refine ⟨d, hd, ?_, ?_⟩
  · split <;> rfl
  · split
    · exact .inr rfl
    · exact .inl rfl

theorem ids_complete (lib : Library) (m : Metadata) :
    (lib.complete m).map PointDir.id = lib.map PointDir.id := by
  rw [complete, List.map_map]
  refine List.map_congr_left fun d _ => ?_
  rw [Function.comp_apply]
  split <;> rfl

end Library

/-! ## Calls that decide before they create -/

/-- Where the chain decision of a call is. -/
inductive Decision where
  /-- `List` reads the entries `todo`, and has read `out` -/
  | listing (vmID : String) (todo : List String) (out : List Metadata)
  /-- the point is to continue from `parentID`, empty for a full -/
  | decided (vmID parentID : String)
  deriving DecidableEq

/-- The library and the calls at work on it. -/
structure Chains where
  backups : Backups
  /-- the decision of each call -/
  decisions : ℕ → Option Decision
  /-- the ids ever drawn, newest first -/
  drawn : List String
  /-- the points ever completed, newest first -/
  made : List Metadata

namespace Chains

inductive Event where
  /-- call `c` for a machine starts: `os.ReadDir` of `backupChainParent`'s `List` -/
  | readDir (c : ℕ) (vmID : String)
  /-- `pointFromDir` of the next entry -/
  | read (c : ℕ)
  /-- the rest of `backupChainParent`, and `GetState` -/
  | decide (c : ℕ) (dom : Domain) (req : Option CreateType) (state : DomainState)
  /-- what happens to the library -/
  | library (e : Backups.Event)

def library (s : Chains) : Library := s.backups.library

/-- A call creates its point once it has decided, and completes it with the parent it decided:
`SetParent` is called for a parent only. -/
def Decided (s : Chains) : Backups.Event → Bool
  | .call c (.create vmID _ _) =>
    match s.decisions c with
    | some (.decided vmID' _) => vmID = vmID'
    | _ => false
  | .call c (.complete m) =>
    s.decisions c = some (.decided m.vmID m.parentID) &&
      m.type = if m.parentID = "" then .full else .incremental
  | _ => true

/-- `newID` -/
def draws : Backups.Event → List String
  | .call _ (.create _ id _) => [id]
  | _ => []

/-- The point an event completes. -/
def makes : Backups.Event → List Metadata
  | .call _ (.complete m) => [{ m with state := .complete }]
  | _ => []

/-- The decision of a call goes on. -/
def setDecision (s : Chains) (c : ℕ) (D : Decision) : Chains :=
  { s with decisions := Function.update s.decisions c (some D) }

def step (srt : SortDesc Metadata Metadata.createdAt) (s : Chains) : Event → Option Chains
  | .readDir c vmID =>
    if (s.decisions c).isNone && idSafe vmID then
      some (s.setDecision c (.listing vmID (s.library.names vmID) []))
    else none
  | .read c =>
    match s.decisions c with
    | some (.listing vmID (id :: todo) out) =>
      some (s.setDecision c (.listing vmID todo (out ++ (s.library.shown vmID id).toList)))
    | _ => none
  | .decide c dom req state =>
    match s.decisions c with
    | some (.listing vmID [] out) =>
      match chainAnchor (srt.sort out) dom vmID req with
      | .error _ => none
      -- a stopped domain is backed up in full
      | .ok (parentID, _) =>
        some (s.setDecision c (.decided vmID (if state = .shutoff then "" else parentID)))
    | _ => none
  | .library e =>
    if s.Decided e then
      (s.backups.step e).map fun b =>
        { s with backups := b, drawn := draws e ++ s.drawn, made := makes e ++ s.made }
    else none

/-- An empty library. -/
def start : Chains := ⟨.start [], fun _ => none, [], []⟩

/-! ## Parents come first -/

/-- A decision rests on completed points. -/
def Known (made : List Metadata) : Decision → Prop
  | .listing _ _ out => ∀ m ∈ out, m ∈ made
  | .decided _ parentID => parentID = "" ∨ ∃ p ∈ made, p.id = parentID

/-- What is recorded in a directory. -/
structure DirOf (s : Chains) (d : PointDir) : Prop where
  id : d.id ∈ s.drawn
  valid : idPattern d.id = true
  recorded : ∀ m, d.metadata = some m → m ∈ s.made

/-- Library, calls and past fit together. -/
structure Wf (s : Chains) : Prop where
  founded : Lineage.Founded Metadata.id Metadata.parent s.made
  points : ∀ m ∈ s.made, m.id ∈ s.drawn ∧ m.Typed
  dirs : ∀ d ∈ s.library, s.DirOf d
  dirs_nodup : (s.library.map PointDir.id).Nodup
  /-- the id of a point that is being written is that of no completed point -/
  writing : ∀ c m, s.backups.calls c = some (.writing m) →
    m.id ∈ s.drawn ∧ ∀ p ∈ s.made, p.id ≠ m.id
  /-- no two calls write one point -/
  apart : ∀ c c' m m', s.backups.calls c = some (.writing m) →
    s.backups.calls c' = some (.writing m') → m.id = m'.id → c = c'
  known : ∀ c D, s.decisions c = some D → Known s.made D

theorem wf_start : Wf start where
  founded := .nil
  points := nofun
  dirs := nofun
  dirs_nodup := .nil
  writing := fun _ _ h => absurd h.symm (Option.some_ne_none _)
  apart := fun _ _ _ _ h => absurd h.symm (Option.some_ne_none _)
  known := fun _ _ h => absurd h.symm (Option.some_ne_none _)

theorem Known.mono {made made' : List Metadata} (hsub : made ⊆ made') :
    ∀ {D : Decision}, Known made D → Known made' D
  | .listing _ _ _, h => fun m hm => hsub (h m hm)
  | .decided _ _, h => h.imp_right fun ⟨p, hp, hid⟩ => ⟨p, hsub hp, hid⟩

section Steps

variable {srt : SortDesc Metadata Metadata.createdAt} {s s' : Chains}

/-- A decision changes nothing else. -/
theorem Wf.setDecision (h : Wf s) {c : ℕ} {D : Decision} (hD : Known s.made D) :
    Wf (s.setDecision c D) := by
  refine ⟨h.founded, h.points, fun d hd => ?_, h.dirs_nodup, h.writing, h.apart,
    fun c' D' hc' => ?_⟩
  · obtain ⟨hid, hvalid, hrec⟩ := h.dirs d hd
    exact ⟨hid, hvalid, hrec⟩
  · rcases Machine.update_eq_some hc' with ⟨-, heq⟩ | ⟨-, hc'⟩
    · exact Option.some.inj heq ▸ hD
    · exact h.known c' D' hc'

/-- A listing reads completed points. -/
theorem Wf.shown_mem (h : Wf s) {vmID id : String} {m : Metadata}
    (hm : s.library.shown vmID id = some m) : m ∈ s.made := by
  obtain ⟨d, hd, hc⟩ := Option.bind_eq_some_iff.mp hm
  exact (h.dirs d (List.mem_of_find?_eq_some hd)).recorded m (PointDir.completed_eq_some.mp hc).1

/-- What a step of a call does to the library, and whether the call writes a point after it. -/
theorem callStep_effect {lib lib' : Library} {oc : Option BackupCall} {call : BackupCall}
    {e : CallEvent} (h : callStep lib oc e = some (lib', call)) :
    (∃ vmID id now, oc = none ∧ e = .create vmID id now ∧ idPattern id = true ∧
      lib' = lib.mkdir vmID id ∧ call = .writing (.create vmID id now)) ∨
    (∃ m₀ m, oc = some (.writing m₀) ∧ e = .complete m ∧ m.Fills m₀ ∧ lib' = lib.complete m ∧
      ∀ m₁, call ≠ .writing m₁) ∨
    ((∀ c, draws (.call c e) = []) ∧ (∀ c, makes (.call c e) = []) ∧ lib.Shrinks lib' ∧
      ∀ m₁, call = .writing m₁ → oc = some (.writing m₁)) := by
  unfold callStep at h
  split at h
  · split at h <;> cases h
    rename_i hid
    exact .inl ⟨_, _, _, rfl, rfl, (Bool.and_eq_true_iff.mp hid).2, rfl, rfl⟩
  · cases h
    exact .inr (.inr ⟨fun _ => rfl, fun _ => rfl, Library.shrinks_writeDomainXML .., by simp⟩)
  · split at h <;> cases h
    rename_i hm
    exact .inr (.inl ⟨_, _, rfl, rfl, hm.1, rfl, by simp⟩)
  · cases h
    exact .inr (.inr ⟨fun _ => rfl, fun _ => rfl, Library.shrinks_remove .., by simp⟩)
  · cases h
    exact .inr (.inr ⟨fun _ => rfl, fun _ => rfl, Library.shrinks_remove .., by simp⟩)
  · cases h
    exact .inr (.inr ⟨fun _ => rfl, fun _ => rfl, .refl _, by simp⟩)
  · cases h
    exact .inr (.inr ⟨fun _ => rfl, fun _ => rfl, .refl _, by simp⟩)
  · cases h

/-- Directories are gone, calls have stopped writing. -/
theorem Wf.shrink (h : Wf s) {b : Backups} (hlib : s.library.Shrinks b.library)
    (hcalls : ∀ c m, b.calls c = some (.writing m) → s.backups.calls c = some (.writing m)) :
    Wf { s with backups := b } where
  founded := h.founded
  points := h.points
  dirs d' hd' := by
    obtain ⟨d, hd, hid, hmeta⟩ := hlib.metadata d' hd'
    obtain ⟨hdrawn, hvalid, hrec⟩ := h.dirs d hd
    rw [← hid] at hdrawn hvalid
    exact ⟨hdrawn, hvalid, fun m hm => hrec m (hmeta m hm)⟩
  dirs_nodup := h.dirs_nodup.sublist hlib.ids
  writing c m hc := h.writing c m (hcalls c m hc)
  apart c c' m m' hc hc' := h.apart c c' m m' (hcalls c m hc) (hcalls c' m' hc')
  known := h.known

/-- A point is created under an id that was never drawn. -/
theorem Wf.create (h : Wf s) {b : Backups} {c : ℕ} {vmID id : String} {now : Time}
    (hnew : id ∉ s.drawn) (hvalid : idPattern id = true)
    (hlib : b.library = s.library.mkdir vmID id)
    (hcalls : b.calls = Function.update s.backups.calls c
      (some (.writing (.create vmID id now)))) :
    Wf { s with backups := b, drawn := id :: s.drawn } := by
  have hfresh : ∀ d ∈ s.library, d.id ≠ id := fun d hd hid => hnew (hid ▸ (h.dirs d hd).id)
  rw [Library.mkdir_fresh hfresh] at hlib
  have hdrawn : s.drawn ⊆ id :: s.drawn := List.subset_cons_self _ _
  -- what a call writes after the step
  have hwriting : ∀ c' m, b.calls c' = some (.writing m) →
      (c' = c ∧ m.id = id) ∨ (c' ≠ c ∧ s.backups.calls c' = some (.writing m)) := by
    intro c' m hc'
    rw [hcalls] at hc'
    rcases Machine.update_eq_some hc' with ⟨hcc, heq⟩ | hc'
    · cases heq
      exact .inl ⟨hcc, rfl⟩
    · exact .inr hc'
  refine ⟨h.founded, fun m hm => ?_, fun d hd => ?_, ?_, fun c' m hc' => ?_,
    fun c₁ c₂ m₁ m₂ h₁ h₂ hid => ?_, h.known⟩
  · exact ⟨hdrawn (h.points m hm).1, (h.points m hm).2⟩
  · rw [library, hlib] at hd
    rcases List.mem_append.mp hd with hd | hd
    · obtain ⟨hid, hv, hrec⟩ := h.dirs d hd
      exact ⟨hdrawn hid, hv, hrec⟩
    · obtain rfl := List.mem_singleton.mp hd
      exact ⟨List.mem_cons_self, hvalid, nofun⟩
  · rw [library, hlib, List.map_append, List.nodup_append]
    refine ⟨h.dirs_nodup, List.nodup_singleton _, fun i hi j hj => ?_⟩
    obtain ⟨d, hd, rfl⟩ := List.mem_map.mp hi
    obtain rfl := List.mem_singleton.mp hj
    exact hfresh d hd
  · rcases hwriting c' m hc' with ⟨-, hid⟩ | ⟨-, hc'⟩
    · rw [hid]
      exact ⟨List.mem_cons_self, fun p hp hpid => hnew (hpid ▸ (h.points p hp).1)⟩
    · exact ⟨hdrawn (h.writing c' m hc').1, (h.writing c' m hc').2⟩
  · rcases hwriting c₁ m₁ h₁ with ⟨rfl, hid₁⟩ | ⟨-, hc₁⟩
    · rcases hwriting c₂ m₂ h₂ with ⟨rfl, -⟩ | ⟨-, hc₂⟩
      · rfl
      · exact absurd (hid₁ ▸ hid ▸ (h.writing c₂ m₂ hc₂).1) hnew
    · rcases hwriting c₂ m₂ h₂ with ⟨rfl, hid₂⟩ | ⟨-, hc₂⟩
      · exact absurd (hid₂ ▸ hid ▸ (h.writing c₁ m₁ hc₁).1) hnew
      · exact h.apart c₁ c₂ m₁ m₂ hc₁ hc₂ hid

/-- **A point is completed** after its parent, and under an id of its own. -/
theorem Wf.complete (h : Wf s) {b : Backups} {c : ℕ} {m₀ m : Metadata} {call : BackupCall}
    (hc : s.backups.calls c = some (.writing m₀)) (hm : m.Fills m₀)
    (hdecision : s.decisions c = some (.decided m.vmID m.parentID)) (htyped : m.Typed)
    (hlib : b.library = s.library.complete m)
    (hcalls : b.calls = Function.update s.backups.calls c (some call))
    (hcall : ∀ m₁, call ≠ .writing m₁) :
    Wf { s with backups := b, made := { m with state := .complete } :: s.made } := by
  obtain ⟨hdrawn, hnew⟩ := h.writing c m₀ hc
  rw [← hm.1] at hdrawn hnew
  have hwriting : ∀ c' m₁, b.calls c' = some (.writing m₁) →
      c' ≠ c ∧ s.backups.calls c' = some (.writing m₁) := by
    intro c' m₁ hc'
    rw [hcalls] at hc'
    exact (Machine.update_eq_some hc').resolve_left fun heq => hcall m₁ (Option.some.inj heq.2)
  have hsub : s.made ⊆ { m with state := .complete } :: s.made := List.subset_cons_self _ _
  refine ⟨.cons h.founded hnew fun j hj => ?_, fun p hp => ?_, fun d' hd' => ?_, ?_,
    fun c' m₁ hc' => ?_, fun c₁ c₂ m₁ m₂ h₁ h₂ hid => ?_, fun c' D hc' => ?_⟩
  · obtain ⟨rfl, hne⟩ := Metadata.parent_eq_some.mp hj
    exact (h.known c _ hdecision).resolve_left hne
  · rcases List.mem_cons.mp hp with rfl | hp
    · exact ⟨hdrawn, htyped⟩
    · exact h.points p hp
  · rw [library, hlib] at hd'
    obtain ⟨d, hd, hid, hmeta⟩ := Library.mem_complete hd'
    obtain ⟨hdrawn', hvalid, hrec⟩ := h.dirs d hd
    rw [← hid] at hdrawn' hvalid
    refine ⟨hdrawn', hvalid, fun p hp => ?_⟩
    rcases hmeta with hmeta | hmeta
    · exact hsub (hrec p (hmeta ▸ hp))
    · rw [hmeta] at hp
      cases hp
      exact List.mem_cons_self
  · rw [library, hlib, Library.ids_complete]
    exact h.dirs_nodup
  · obtain ⟨hne, hc'⟩ := hwriting c' m₁ hc'
    obtain ⟨hdrawn₁, hnew₁⟩ := h.writing c' m₁ hc'
    refine ⟨hdrawn₁, fun p hp hid => ?_⟩
    rcases List.mem_cons.mp hp with rfl | hp
    · exact hne (h.apart c' c m₁ m₀ hc' hc (hid.symm.trans hm.1))
    · exact hnew₁ p hp hid
  · exact h.apart c₁ c₂ m₁ m₂ (hwriting c₁ m₁ h₁).2 (hwriting c₂ m₂ h₂).2 hid
  · exact (h.known c' D hc').mono hsub

/-- Ids are only added. -/
theorem drawn_sublist {e : Event} (hs : step srt s e = some s') : s.drawn.Sublist s'.drawn := by
  unfold step at hs
  split at hs
  · split at hs <;> cases hs
    exact .refl _
  · split at hs <;> cases hs
    exact .refl _
  · split at hs
    · split at hs <;> cases hs
      exact .refl _
    · cases hs
  · split at hs
    · obtain ⟨b, -, rfl⟩ := Option.map_eq_some_iff.mp hs
      exact List.sublist_append_right _ _
    · cases hs

/-- What happens to the library keeps the invariant, as long as no id is drawn twice. -/
theorem Wf.library_step (h : Wf s) {e : Backups.Event} {b : Backups} (hdec : s.Decided e = true)
    (hb : s.backups.step e = some b) (hids : (draws e ++ s.drawn).Nodup) :
    Wf { s with backups := b, drawn := draws e ++ s.drawn, made := makes e ++ s.made } := by
  cases e with
  | call c e =>
    obtain ⟨⟨lib, call⟩, hstep, rfl⟩ := Option.map_eq_some_iff.mp hb
    rcases callStep_effect hstep with ⟨vmID, id, now, -, rfl, hvalid, hlib, rfl⟩ |
      ⟨m₀, m, hc, rfl, hm, hlib, hcall⟩ | ⟨hdraws, hmakes, hlib, hcall⟩
    · exact h.create (List.nodup_cons.mp hids).1 hvalid hlib rfl
    · obtain ⟨hdecision, htyped⟩ : s.decisions c = some (.decided m.vmID m.parentID) ∧
          m.Typed := by simpa [Decided, Metadata.Typed] using hdec
      exact h.complete hc hm hdecision htyped hlib rfl hcall
    · rw [hdraws, hmakes]
      refine h.shrink hlib fun c' m hc' => ?_
      rcases Machine.update_eq_some hc' with ⟨rfl, heq⟩ | ⟨-, hc'⟩
      · exact hcall m (Option.some.inj heq)
      · exact hc'
  | resolve id =>
    rw [Backups.step] at hb
    split at hb <;> cases hb
    exact h.shrink (.refl _) fun _ _ hc => hc
  | remove vmID id rem =>
    rw [Backups.step] at hb
    split at hb <;> cases hb
    exact h.shrink (Library.shrinks_remove ..) fun _ _ hc => hc

/-- **One step** keeps the invariant. -/
theorem Wf.step (h : Wf s) {e : Event} (hs : Chains.step srt s e = some s')
    (hids : s'.drawn.Nodup) : Wf s' := by
  unfold Chains.step at hs
  split at hs
  · split at hs <;> cases hs
    exact h.setDecision nofun
  · split at hs <;> cases hs
    rename_i vmID id todo out hc
    refine h.setDecision fun m hm => ?_
    rcases List.mem_append.mp hm with hm | hm
    · exact h.known _ _ hc m hm
    · exact h.shown_mem (Option.mem_toList.mp hm)
  · split at hs
    · split at hs <;> cases hs
      rename_i dom req state vmID out hc _ parentID _ hanchor
      refine h.setDecision ?_
      split
      · exact .inl rfl
      · refine (chainAnchor_eq_ok hanchor).imp_right fun ⟨newest, hmem, hid⟩ => ?_
        exact ⟨newest, h.known _ _ hc newest (srt.mem_sort.mp hmem), hid.symm⟩
    · cases hs
  · split at hs
    · rename_i e hdec
      obtain ⟨b, hb, rfl⟩ := Option.map_eq_some_iff.mp hs
      exact h.library_step hdec hb hids
    · cases hs

/-- **Every interleaving**: as long as no id is drawn twice, the parent of a point was completed
before the point was created. -/
theorem wf_of_run {events : List Event} (hrun : Machine.run (Chains.step srt) start events = some s)
    (hids : s.drawn.Nodup) : Wf s := by
  have hinv : s.drawn.Nodup → Wf s := Machine.run_inv (I := fun s => s.drawn.Nodup → Wf s)
    (fun s e s' hwf _ hs hnd => (hwf (hnd.sublist (drawn_sublist hs))).step hs hnd)
    (fun _ => wf_start) (.unguarded start events) hrun
  exact hinv hids

end Steps

end Chains

/-! ## The chain of a restore -/

/-- The chain of a point: from a full point down to the point itself, each the parent of the
next. -/
structure IsChainOf (m : Metadata) (chain : List Metadata) : Prop where
  nodup : (chain.map Metadata.id).Nodup
  last : chain.getLast? = some m
  full : ∃ first, chain.head? = some first ∧ first.type = .full ∧ first.parentID = ""
  linked : chain.IsChain fun p c => c.parentID = p.id

namespace Chains

/-- An ancestor of the point, among all points ever completed, is no longer in the library. -/
def Missing (s : Chains) (m : Metadata) : Prop :=
  ∃ p, Lineage.Ancestor (Lineage.lookupIn Metadata.id s.made) Metadata.parent m p ∧
    s.library.lookup p.id = none

variable {srt : SortDesc Metadata Metadata.createdAt} {s : Chains}

/-- What the library shows was completed. -/
theorem Wf.lookup_sub (h : Wf s) (k : String) (p : Metadata)
    (hp : s.library.lookup k = some p) :
    Lineage.lookupIn Metadata.id s.made k = some p := by
  obtain ⟨d, hd, -, -, hm⟩ := Library.mem_of_get (Library.lookup_eq_some.mp hp)
  obtain rfl := Library.get_keyed (Library.lookup_eq_some.mp hp)
  exact h.founded.lookupIn_of_mem ((h.dirs d hd).recorded p (PointDir.completed_eq_some.mp hm).1)

/-- A completed point is found by its id. -/
theorem Wf.lookup_of_mem (h : Wf s) {d : PointDir} {m : Metadata} (hd : d ∈ s.library)
    (hm : d.completed = some m) : s.library.lookup m.id = some m := by
  rw [(PointDir.completed_keyed hm).2, Library.lookup_eq_some]
  exact Library.get_of_mem h.dirs_nodup hd (h.dirs d hd).valid hm

/-- The line of a completed point is its chain. -/
theorem Wf.isChainOf (h : Wf s) {m : Metadata} {chain : List Metadata}
    (hm : s.library.lookup m.id = some m)
    (hline : Lineage.Line s.library.lookup Metadata.parent m chain) : IsChainOf m chain := by
  have hkey : ∀ k p, s.library.lookup k = some p → p.id = k :=
    fun _ _ hk => Library.get_keyed (Library.lookup_eq_some.mp hk)
  obtain ⟨first, hfirst, hroot⟩ := hline.head?_eq
  have hparent := Metadata.parent_eq_none.mp hroot
  refine ⟨hline.nodup_keys hkey hm, hline.getLast?_eq, ⟨first, hfirst, ?_, hparent⟩, ?_⟩
  · -- it is a stored point, so its type tells whether it has a parent
    have hstored := hline.stored hkey hm first (List.mem_of_mem_head? hfirst)
    have hmade := (Lineage.lookupIn_eq_some (h.lookup_sub _ _ hstored)).1
    exact (h.points first hmade).2.trans (if_pos hparent)
  · exact (hline.isChain hkey).imp fun p c hpc => (Metadata.parent_eq_some.mp hpc).1

/-- **The loop ends**: as long as no id is drawn twice, the chain of every completed point is
resolved in one round for each point ever completed, and one more. It is refused exactly when an
ancestor is missing. -/
theorem restoreChain_ends {events : List Event}
    (hrun : Machine.run (Chains.step srt) start events = some s) (hids : s.drawn.Nodup)
    {d : PointDir} {m : Metadata} (hd : d ∈ s.library) (hm : d.completed = some m) :
    ∃ r, (∀ fuel, s.made.length < fuel → restoreChain fuel s.library m = some r) ∧
      ((s.Missing m ∧ ∃ detail, r = .error (.invalidState detail)) ∨
        (¬ s.Missing m ∧ ∃ chain, r = .ok chain ∧ IsChainOf m chain)) := by
  have hwf := wf_of_run hrun hids
  have hlook := hwf.lookup_of_mem hd hm
  have hmade := hwf.lookup_sub _ _ hlook
  have hrank : hwf.founded.pedigree.rank m < s.made.length + 1 :=
    Nat.lt_succ_of_le (Lineage.height_le Metadata.id m.id s.made)
  rcases hwf.founded.pedigree.climb_cases hwf.lookup_sub hmade hrank with
    ⟨chain, hclimb, hline, hthere⟩ | ⟨parentID, hclimb, hmissing⟩
  · have hends : restoreChain (s.made.length + 1) s.library m = some (.ok chain) := by
      rw [restoreChain, hclimb]
      rfl
    refine ⟨.ok chain, fun fuel hfuel => restoreChain_fuel_mono hfuel hends,
      .inr ⟨?_, chain, rfl, hwf.isChainOf hlook hline⟩⟩
    rintro ⟨p, hp, hnone⟩
    exact hthere p hp hnone
  · obtain ⟨detail, hends⟩ : ∃ detail, restoreChain (s.made.length + 1) s.library m =
        some (.error (.invalidState detail)) := ⟨_, by rw [restoreChain, hclimb]; rfl⟩
    exact ⟨.error (.invalidState detail), fun fuel hfuel => restoreChain_fuel_mono hfuel hends,
      .inl ⟨hmissing, detail, rfl⟩⟩

/-- A point of a running machine. -/
def runningPoint (id parentID : String) (now : Time) : Metadata :=
  { Metadata.create "erp01" id now with
    type := if parentID = "" then .full else .incremental
    parentID := parentID
    checkpoint := checkpointName id }

/-- The machine, once its first point was taken. -/
def bitmapped : Domain := ⟨⟨[], Definition.nodup_nil⟩, .running, [("chk-a", [])]⟩

/-- A full point, and two calls that overlap: both continue from it. -/
def overlapping : List Event :=
  [.readDir 1 "erp01", .decide 1 bitmapped none .running,
    .library (.call 1 (.create "erp01" "bk-a" 0)),
    .library (.call 1 (.complete (runningPoint "bk-a" "" 0))),
    .readDir 2 "erp01", .readDir 3 "erp01", .read 3, .read 2,
    .decide 2 bitmapped none .running, .decide 3 bitmapped none .running,
    .library (.call 3 (.create "erp01" "bk-c" 1)), .library (.call 2 (.create "erp01" "bk-b" 2)),
    .library (.call 2 (.complete (runningPoint "bk-b" "bk-a" 2))),
    .library (.call 3 (.complete (runningPoint "bk-c" "bk-a" 1)))]

theorem restoreChain_ends_overlapping : ∃ s r m,
    Machine.run (Chains.step (.insertion Metadata.createdAt)) start overlapping = some s ∧
      m = { runningPoint "bk-b" "bk-a" 2 with state := .complete } ∧
      (∀ fuel, s.made.length < fuel → restoreChain fuel s.library m = some r) ∧
      ((s.Missing m ∧ ∃ detail, r = .error (.invalidState detail)) ∨
        (¬ s.Missing m ∧ ∃ chain, r = .ok chain ∧ IsChainOf m chain)) := by
  have hrun : ∃ s, Machine.run (Chains.step (.insertion Metadata.createdAt)) start overlapping =
      some s ∧ s.drawn.Nodup ∧ ∃ d ∈ s.library,
        d.completed = some { runningPoint "bk-b" "bk-a" 2 with state := .complete } :=
    ⟨_, rfl, by decide, _, List.mem_cons_of_mem _ (List.mem_cons_of_mem _ List.mem_cons_self), rfl⟩
  obtain ⟨s, hrun, hids, d, hd, hm⟩ := hrun
  obtain ⟨r, hends, hr⟩ := restoreChain_ends hrun hids hd hm
  exact ⟨s, r, _, hrun, rfl, hends, hr⟩

end Chains

end Ultrav
