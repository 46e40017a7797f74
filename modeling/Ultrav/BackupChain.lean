import Ultrav.Lineage
import Ultrav.BackupStore

/-!
# Backup chains

The two chain decisions of the libvirt provider:

* `backupChainParent` — which point and checkpoint a new backup continues from. It
  looks at the newest completed point and at the domain's checkpoints.
* `restoreChain` — the ancestor chain of a point, oldest first. It follows the
  parent ids through the library.

Nothing ties the two together except the histories that produce the library.
-/

namespace Ultrav

/-- Errors of a provider operation. `invalidState` is `ErrBackupInvalidState`. -/
inductive ProviderError where
  /-- `ErrVMNotFound` -/
  | vmNotFound
  /-- `ErrBackupNotFound` -/
  | backupNotFound
  /-- `ErrBackupInvalidState`, with its detail -/
  | invalidState : String → ProviderError
  /-- an error of the backup library -/
  | store : StoreError → ProviderError
  /-- any other error -/
  | other : String → ProviderError
  deriving DecidableEq, Repr

/-- The host of one VM: its name, the backup library, the image files, and the
domain while it is defined. -/
structure Host where
  /-- name of the VM -/
  vm : String
  /-- the backup library -/
  library : Library
  /-- image files -/
  files : Files
  /-- the domain, when it is defined -/
  domain : Option Domain

/-- `LookupDomainByName` -/
def Host.lookupDomain (h : Host) (name : String) : Option Domain :=
  if name = h.vm then h.domain else none

/-! ## Checkpoint names -/

/-- `strings.TrimPrefix` -/
def trimPrefix (s pre : String) : String :=
  if pre.toList.isPrefixOf s.toList then String.ofList (s.toList.drop pre.length) else s

/-- The checkpoint created with a point. -/
def checkpointName (id : String) : String := "chk-" ++ trimPrefix id "bk-"

/-- The checkpoints UltraV created: `strings.HasPrefix(name, "chk-")`. -/
def isUltravCheckpoint (name : String) : Bool := "chk-".toList.isPrefixOf name.toList

theorem isUltravCheckpoint_checkpointName (id : String) :
    isUltravCheckpoint (checkpointName id) = true := by
  rw [isUltravCheckpoint, checkpointName, String.toList_append, List.isPrefixOf_iff_prefix]
  exact List.prefix_append ..

/-- Point ids start with `bk-`. -/
theorem toList_of_idPattern {id : String} (h : idPattern id = true) :
    ∃ cs, id.toList = 'b' :: 'k' :: '-' :: cs := by
  rw [idPattern] at h
  split at h
  · rename_i cs hcs
    exact ⟨cs, hcs⟩
  · cases h

/-- Distinct points have distinct checkpoints. -/
theorem checkpointName_inj {i j : String} (hi : idPattern i = true) (hj : idPattern j = true)
    (h : checkpointName i = checkpointName j) : i = j := by
  obtain ⟨cs, hcs⟩ := toList_of_idPattern hi
  obtain ⟨ds, hds⟩ := toList_of_idPattern hj
  have hb : "bk-".toList = ['b', 'k', '-'] := by decide
  have hlen : "bk-".length = 3 := by decide
  have htrim : trimPrefix i "bk-" = trimPrefix j "bk-" := by
    simpa [checkpointName] using h
  have hcd : cs = ds := by
    have := congrArg String.toList htrim
    simpa [trimPrefix, hb, hlen, hcs, hds] using this
  exact String.toList_inj.mp (by rw [hcs, hds, hcd])

/-! ## The chain a new backup continues -/

/-- The point type a request can force; absent is automatic. -/
inductive CreateType where
  /-- `BackupCreateTypeFull` -/
  | full
  /-- `BackupCreateTypeIncremental` -/
  | incremental
  deriving DecidableEq, Repr

/-- The chain anchor of the requested backup: parent id and its checkpoint, both
empty for a full. -/
def backupChainParent (srt : SortDesc Metadata Metadata.createdAt) (lib : Library)
    (dom : Domain) (id : String) (req : Option CreateType) :
    Except ProviderError (String × String) :=
  match lib.list srt id with
  | .error e => .error (.store e)
  | .ok metas =>
    if req = some .full then .ok ("", "")
    else
      match metas with
      | [] => noChain
      | newest :: _ =>
        if newest.checkpoint = "" then noChain
        else if newest.checkpoint ∈ dom.checkpoints.names then
          .ok (newest.id, newest.checkpoint)
        else if req = some .incremental then
          .error (.invalidState ("the checkpoint of backup " ++ newest.id ++
            " no longer exists in the domain — take a full backup first"))
        else .ok ("", "")
where
  /-- no point to continue from -/
  noChain : Except ProviderError (String × String) :=
    if req = some .incremental then
      .error (.invalidState ("no valid backup chain for \"" ++ id ++ "\" (the previous point " ++
        "has no dirty-bitmap checkpoint — take a full backup first)"))
    else .ok ("", "")

/-- Inversion: the anchor is empty, or it is the newest completed point, whose
checkpoint is still in the domain. -/
theorem backupChainParent_eq_ok {srt : SortDesc Metadata Metadata.createdAt} {lib : Library}
    {dom : Domain} {id : String} {req : Option CreateType} {p : String × String}
    (h : backupChainParent srt lib dom id req = .ok p) :
    p = ("", "") ∨ ∃ newest rest, lib.list srt id = .ok (newest :: rest) ∧
      p = (newest.id, newest.checkpoint) ∧ newest.checkpoint ≠ "" ∧
      newest.checkpoint ∈ dom.checkpoints.names := by
  have hno : ∀ {q}, backupChainParent.noChain id req = .ok q → q = ("", "") := by
    intro q hq
    rw [backupChainParent.noChain] at hq
    split at hq
    · cases hq
    · cases hq
      rfl
  rw [backupChainParent] at h
  split at h
  · cases h
  · rename_i metas hl
    split at h
    · cases h
      exact .inl rfl
    · split at h
      · exact .inl (hno h)
      · rename_i newest rest
        split at h
        · exact .inl (hno h)
        · rename_i hne
          split at h
          · rename_i hmem
            cases h
            exact .inr ⟨newest, rest, hl, rfl, hne, hmem⟩
          · split at h
            · cases h
            · cases h
              exact .inl rfl

/-- A forced full has no anchor. -/
theorem backupChainParent_forced_full {srt : SortDesc Metadata Metadata.createdAt}
    {lib : Library} {dom : Domain} {id : String} {ms : List Metadata}
    (hl : lib.list srt id = .ok ms) :
    backupChainParent srt lib dom id (some .full) = .ok ("", "") := by
  rw [backupChainParent, hl]
  rfl

/-! ## The chain of a restore -/

/-- What `Get` finds, without the error. -/
def Library.lookup (lib : Library) (id : String) : Option Metadata := (lib.get id).toOption

theorem Library.lookup_eq_some {lib : Library} {id : String} {m : Metadata} :
    lib.lookup id = some m ↔ lib.get id = .ok m := by
  rw [Library.lookup]
  rcases lib.get id with e | m'
  · simp [Except.toOption]
  · simp [Except.toOption]

theorem Library.lookup_eq_none {lib : Library} {id : String}
    (h : ∀ d ∈ lib, d.id = id → d.metadata = none) : lib.lookup id = none := by
  rcases hl : lib.lookup id with _ | m
  · rfl
  · obtain ⟨d, hd, hi, -, hm⟩ := mem_of_get (lookup_eq_some.mp hl)
    rw [PointDir.completed_eq_some, h d hd hi] at hm
    cases hm.1

/-- A new directory without metadata shows no point. -/
theorem Library.lookup_append_bare {lib : Library} {id : String} {d : PointDir}
    (hf : ∀ e ∈ lib, e.id ≠ id) (hm : d.metadata = none) :
    Library.lookup (lib ++ [d]) id = none := by
  refine lookup_eq_none fun e he hi => ?_
  rcases List.mem_append.mp he with he | he
  · exact absurd hi (hf e he)
  · rwa [List.mem_singleton.mp he]

/-- The ancestor chain of a point, oldest first. `fuel` bounds the rounds of the
loop; `none` means that it has not ended yet. -/
def restoreChain (fuel : ℕ) (lib : Library) (m : Metadata) :
    Option (Except ProviderError (List Metadata)) :=
  (Lineage.climb lib.lookup Metadata.parent fuel m [m]).map fun r =>
    match r with
    | .ok chain => .ok chain
    | .error parentID =>
      .error (.invalidState ("the chain of backup " ++ m.id ++ " is broken (parent " ++
        parentID ++ " is gone)"))

/-- The loop ends and finds a chain. -/
def Restorable (lib : Library) (m : Metadata) : Prop :=
  ∃ fuel chain, restoreChain fuel lib m = some (.ok chain)

/-- Inversion for `restoreChain`. -/
theorem restoreChain_eq_ok {fuel : ℕ} {lib : Library} {m : Metadata} {chain : List Metadata}
    (h : restoreChain fuel lib m = some (.ok chain)) :
    Lineage.Line lib.lookup Metadata.parent m chain := by
  rw [restoreChain, Option.map_eq_some_iff] at h
  obtain ⟨r, hr, hrc⟩ := h
  split at hrc
  · cases hrc
    obtain ⟨l, hl, rfl⟩ := Lineage.line_of_climb hr
    rwa [List.append_nil]
  · cases hrc

/-- A broken chain: the error names the first key on the way up that is gone. -/
theorem restoreChain_eq_error {fuel : ℕ} {lib : Library} {m : Metadata} {e : ProviderError}
    (h : restoreChain fuel lib m = some (.error e)) :
    ∃ parentID, Lineage.Cut lib.lookup Metadata.parent m parentID ∧
      e = .invalidState ("the chain of backup " ++ m.id ++ " is broken (parent " ++ parentID ++
        " is gone)") := by
  rw [restoreChain, Option.map_eq_some_iff] at h
  obtain ⟨r, hr, hrc⟩ := h
  split at hrc
  · cases hrc
  · rename_i parentID
    cases hrc
    exact ⟨parentID, Lineage.cut_of_climb hr, rfl⟩

/-- The chain of a stored point consists of stored points with distinct ids. -/
theorem restoreChain_nodup {fuel : ℕ} {lib : Library} {m : Metadata} {chain : List Metadata}
    (hm : lib.get m.id = .ok m) (h : restoreChain fuel lib m = some (.ok chain)) :
    chain ≠ [] ∧ (chain.map Metadata.id).Nodup := by
  have hline := restoreChain_eq_ok h
  exact ⟨hline.ne_nil, hline.nodup_keys
    (fun _ _ hk => Library.get_keyed (Library.lookup_eq_some.mp hk))
    (Library.lookup_eq_some.mpr hm)⟩

/-- A point is restorable when it has a line in the library. -/
theorem restorable_iff_line {lib : Library} {m : Metadata} :
    Restorable lib m ↔ ∃ chain, Lineage.Line lib.lookup Metadata.parent m chain := by
  constructor
  · rintro ⟨fuel, chain, h⟩
    exact ⟨chain, restoreChain_eq_ok h⟩
  · rintro ⟨chain, h⟩
    obtain ⟨n, hn⟩ := Lineage.climb_of_line h
    refine ⟨n, chain ++ [], ?_⟩
    rw [restoreChain, hn n (Nat.le_refl n) []]
    rfl

/-- A loop that ended ends the same way with more fuel. -/
theorem restoreChain_fuel_mono {fuel fuel' : ℕ} (hle : fuel ≤ fuel') {lib : Library}
    {m : Metadata} {r : Except ProviderError (List Metadata)}
    (h : restoreChain fuel lib m = some r) : restoreChain fuel' lib m = some r := by
  rw [restoreChain, Option.map_eq_some_iff] at h ⊢
  exact h.imp fun _ hr => ⟨Lineage.climb_fuel_mono hle hr.1, hr.2⟩

/-- One failed round is enough: more fuel does not mend a chain. -/
theorem not_restorable_of_error (fuel : ℕ) {lib : Library} {m : Metadata} {e : ProviderError}
    (h : restoreChain fuel lib m = some (.error e)) : ¬ Restorable lib m := by
  rintro ⟨fuel', chain, h'⟩
  have h₁ := restoreChain_fuel_mono (Nat.le_max_left fuel fuel') h
  have h₂ := restoreChain_fuel_mono (Nat.le_max_right fuel fuel') h'
  cases h₁.symm.trans h₂

/-- A full point is its own chain. -/
theorem restorable_of_full {lib : Library} {m : Metadata} (hm : m.parentID = "") :
    Restorable lib m :=
  restorable_iff_line.mpr ⟨[m], .root (Metadata.parent_eq_none.mpr hm)⟩

end Ultrav
