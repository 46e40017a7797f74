import Ultrav.DiskSteps
import Ultrav.Backup

/-!
# Restoring a backup

`RestoreBackup` of the libvirt provider, over a `Host`. It runs in three parts:

* `openRestore` — every check, and the chain of the point; nothing is written.
* `restoreDisks` — the disks of the point, one after the other.
* the tail — drop the stale checkpoints, redefine the domain from the saved XML, and
  read the virtual machine back.

`restoredDisks` says in advance which disks the loop completes, and
`restoreDisks_spec` that these and no others are replaced.
-/

namespace Ultrav

/-! ## The environment -/

/-- What a `RestoreBackup` call meets outside its own code. -/
structure RestoreEnv where
  /-- rounds given to the loop over the parent ids -/
  rounds : ℕ
  /-- the libvirt connection can be opened -/
  connected : Bool
  /-- the domain XML cannot be read or parsed -/
  xmlFails : Bool
  /-- the failing steps of the disk loop -/
  steps : StepEnv
  /-- `ListAllCheckpoints` fails -/
  listFails : Bool
  /-- the checkpoints that cannot be deleted -/
  dropFails : String → Bool
  /-- the saved domain XML cannot be read -/
  xmlReadFails : Bool
  /-- `Undefine` fails -/
  undefineFails : Bool
  /-- `DomainDefineXML` fails -/
  defineFails : Bool
  /-- the virtual machine cannot be read back -/
  getFails : Bool

/-- A restore that meets no trouble. -/
def RestoreEnv.smooth (rounds : ℕ) : RestoreEnv :=
  ⟨rounds, true, false, ⟨fun _ => false, fun _ => none⟩, false, fun _ => false, false, false,
    false, false⟩

/-- What a restore works with once its checks have passed. -/
structure RestorePlan where
  /-- the point to restore -/
  metadata : Metadata
  /-- its directory -/
  dir : PointDir
  /-- the stopped domain -/
  domain : Domain
  /-- the chain of the point, oldest first -/
  chain : List Metadata

/-! ## The checks -/

/-- The first part of `RestoreBackup`; `none` while the chain loop has not ended. -/
def openRestore (env : RestoreEnv) (h : Host) (id : String) :
    Option (Except ProviderError RestorePlan) :=
  if !env.connected then some (.error (.other "connect"))
  else
    match h.library.get id with
    | .error .notFound => some (.error .backupNotFound)
    | .error e => some (.error (.store e))
    | .ok m =>
      match h.library.readableDir id with
      | .error e => some (.error (.store e))
      | .ok dir =>
        match h.lookupDomain m.vmID with
        | none =>
          some (.error (.invalidState
            ("the VM \"" ++ m.vmID ++ "\" of this backup no longer exists")))
        | some dom =>
          if dom.state ≠ .shutoff then
            some (.error (.invalidState "restore requires the VM to be stopped"))
          else if env.xmlFails then some (.error (.other "read domain XML"))
          else
            (restoreChain env.rounds h.library m).map fun r =>
              match r with
              | .error e => .error e
              | .ok chain => .ok ⟨m, dir, dom, chain⟩

/-- Inversion for `openRestore`. -/
theorem openRestore_eq_ok {env : RestoreEnv} {h : Host} {id : String} {plan : RestorePlan}
    (ho : openRestore env h id = some (.ok plan)) :
    h.library.get id = .ok plan.metadata ∧ h.library.readableDir id = .ok plan.dir ∧
      plan.metadata.vmID = h.vm ∧ h.domain = some plan.domain ∧
      plan.domain.state = .shutoff ∧
      restoreChain env.rounds h.library plan.metadata = some (.ok plan.chain) := by
  rw [openRestore] at ho
  split at ho
  · cases ho
  · split at ho
    · cases ho
    · cases ho
    · rename_i m hm
      split at ho
      · cases ho
      · rename_i dir hdir
        split at ho
        · cases ho
        · rename_i dom hdom
          split at ho
          · cases ho
          · rename_i hstate
            split at ho
            · cases ho
            · obtain ⟨r, hr, hrp⟩ := Option.map_eq_some_iff.mp ho
              split at hrp
              · cases hrp
              · cases hrp
                rw [Host.lookupDomain] at hdom
                split at hdom
                · rename_i hvm
                  exact ⟨hm, hdir, hvm, hdom, by simpa using hstate, hr⟩
                · cases hdom

/-- The chain a restore works on has distinct ids. -/
theorem openRestore_chain {env : RestoreEnv} {h : Host} {id : String} {plan : RestorePlan}
    (ho : openRestore env h id = some (.ok plan)) :
    plan.chain ≠ [] ∧ (plan.chain.map Metadata.id).Nodup := by
  obtain ⟨hget, -, -, -, -, hchain⟩ := openRestore_eq_ok ho
  obtain rfl := Library.get_keyed hget
  exact restoreChain_nodup hget hchain

/-! ## The disk loop -/

/-- Restore the disks of a point in order, from step number `n` on. `srcs` maps disk
targets to the volumes of the domain. -/
def restoreDisks (env : StepEnv) (vm : String) (srcs : String → Option String)
    (chain : List Metadata) : ℕ → List DiskEntry → Files → Except ProviderError Unit × Files
  | _, [], fs => (.ok (), fs)
  | n, bd :: rest, fs =>
    match srcs bd.name with
    | none =>
      (.error (.other
        ("backup disk " ++ bd.name ++ " has no matching disk in domain \"" ++ vm ++ "\"")), fs)
    | some dst =>
      -- the disks done before an error keep their new content
      match runSteps env n (restoreDiskChain chain bd.name) ⟨dst, []⟩ fs with
      | (.error e, fs') => (.error (.other ("restore disk " ++ bd.name ++ ": " ++ e)), fs')
      | (.ok (), fs') =>
        restoreDisks env vm srcs chain (n + (restoreDiskChain chain bd.name).length) rest fs'

/-- The disks the loop gets through, with their volumes, read off its inputs: it stops at
the first disk without a target, with a failing step, or without a complete chain of
images. -/
def restoredDisks (env : StepEnv) (srcs : String → Option String) (chain : List Metadata)
    (fs : Files) : ℕ → List DiskEntry → List (String × String)
  | _, [] => []
  | n, bd :: rest =>
    match srcs bd.name with
    | none => []
    | some dst =>
      if quiet env n (restoreDiskChain chain bd.name) && (assemble fs chain bd.name).isSome then
        (bd.name, dst) ::
          restoredDisks env srcs chain fs (n + (restoreDiskChain chain bd.name).length) rest
      else []

/-- The last disk that was put onto a volume. -/
def lastOnto (v : String) : List (String × String) → Option String
  | [] => none
  | (disk, dst) :: rest => (lastOnto v rest).or (if dst = v then some disk else none)

theorem lastOnto_eq_none {v : String} {l : List (String × String)} :
    lastOnto v l = none ↔ ∀ p ∈ l, p.2 ≠ v := by
  induction l with
  | nil => simp [lastOnto]
  | cons p l ih => simp [lastOnto, ih, and_comm]

theorem mem_of_lastOnto {v disk : String} {l : List (String × String)}
    (h : lastOnto v l = some disk) : (disk, v) ∈ l := by
  induction l with
  | nil => cases h
  | cons p l ih =>
    obtain ⟨d, dst⟩ := p
    rw [lastOnto] at h
    rcases hl : lastOnto v l with _ | d'
    · rw [hl, Option.none_or] at h
      split at h
      · rename_i hv
        cases h
        rw [hv]
        exact List.mem_cons_self
      · cases h
    · rw [hl] at h
      cases h
      exact List.mem_cons_of_mem _ (ih hl)

/-- Each disk the loop gets through has a target and a complete chain of images. -/
theorem mem_restoredDisks {env : StepEnv} {srcs : String → Option String}
    {chain : List Metadata} {fs : Files} {disks : List DiskEntry} :
    ∀ {n : ℕ} {disk dst : String}, (disk, dst) ∈ restoredDisks env srcs chain fs n disks →
      srcs disk = some dst ∧ (assemble fs chain disk).isSome := by
  induction disks with
  | nil => intro n disk dst h; cases h
  | cons bd rest ih =>
    intro n disk dst h
    rw [restoredDisks] at h
    split at h
    · cases h
    · rename_i dst' hdst
      split at h
      · rename_i hgood
        rcases List.mem_cons.mp h with heq | h
        · cases heq
          rw [Bool.and_eq_true] at hgood
          exact ⟨hdst, hgood.2⟩
        · exact ih h
      · cases h

theorem restoredDisks_congr {env : StepEnv} {srcs : String → Option String}
    {chain : List Metadata} {fs fs' : Files}
    (hfs : ∀ id file, fs' (.point id file) = fs (.point id file)) :
    ∀ (n : ℕ) (disks : List DiskEntry),
      restoredDisks env srcs chain fs' n disks = restoredDisks env srcs chain fs n disks
  | _, [] => rfl
  | n, bd :: rest => by
      simp only [restoredDisks, assemble_congr hfs, restoredDisks_congr hfs]

/-- **The disk loop replaces the disks it gets through and no others**; it succeeds when
it gets through all of them. -/
theorem restoreDisks_spec {env : StepEnv} {vm : String} {srcs : String → Option String}
    {chain : List Metadata} (hne : chain ≠ []) (hnd : (chain.map Metadata.id).Nodup)
    {disks : List DiskEntry} :
    ∀ {n : ℕ} {fs fs' : Files} {r : Except ProviderError Unit},
      restoreDisks env vm srcs chain n disks fs = (r, fs') →
        (∀ id file, fs' (.point id file) = fs (.point id file)) ∧
        (∀ v, fs' (.volume v) =
          match lastOnto v (restoredDisks env srcs chain fs n disks) with
          | none => fs (.volume v)
          | some disk => assemble fs chain disk) ∧
        (r = .ok () ↔ (restoredDisks env srcs chain fs n disks).map Prod.fst =
          disks.map DiskEntry.name) := by
  induction disks with
  | nil =>
    intro n fs fs' r h
    cases h
    exact ⟨fun _ _ => rfl, fun _ => rfl, iff_of_true rfl rfl⟩
  | cons bd rest ih =>
    intro n fs fs' r h
    rw [restoreDisks] at h
    rcases hdst : srcs bd.name with _ | dst
    · simp only [hdst] at h
      cases h
      exact ⟨fun _ _ => rfl, fun _ => by simp [restoredDisks, hdst, lastOnto],
        by simp [restoredDisks, hdst]⟩
    · simp only [hdst] at h
      split at h
      · rename_i e fs₁ hrun
        cases h
        obtain ⟨hp, hbad, hv⟩ := restoreDiskChain_run hne hnd hrun
        have hnone : restoredDisks env srcs chain fs n (bd :: rest) = [] := by
          simp only [restoredDisks, hdst]
          exact if_neg (by simpa using hbad)
        rw [hnone]
        exact ⟨hp, hv, by simp⟩
      · rename_i fs₁ hrun
        obtain ⟨hp, hq, img, himg, hv⟩ := restoreDiskChain_run hne hnd hrun
        obtain ⟨hp', hv', hall⟩ := ih h
        have hcons : restoredDisks env srcs chain fs n (bd :: rest) = (bd.name, dst) ::
            restoredDisks env srcs chain fs (n + (restoreDiskChain chain bd.name).length)
              rest := by
          simp only [restoredDisks, hdst]
          exact if_pos (by simp [hq, himg])
        rw [restoredDisks_congr hp] at hv' hall
        rw [hcons]
        refine ⟨fun id file => (hp' id file).trans (hp id file), fun v => ?_, ?_⟩
        · rw [hv' v, lastOnto]
          rcases lastOnto v _ with _ | disk
          · by_cases hvd : dst = v
            · simp [hv v, hvd, himg]
            · simp [hv v, hvd, Ne.symm hvd]
          · exact assemble_congr hp chain disk
        · rw [hall, List.map_cons, List.map_cons, List.cons_inj_right]

/-! ## RestoreBackup -/

/-- `deleteUltravCheckpoints`, best effort. -/
def deleteUltravCheckpoints (env : RestoreEnv) (dom : Domain) : Domain :=
  if env.listFails then dom
  else
    { dom with
      checkpoints := dom.checkpoints.dropWhere fun k => isUltravCheckpoint k && !env.dropFails k }

/-- Redefine the domain from the saved XML, best effort. libvirt refuses to undefine a
domain that still has checkpoints; a domain that was undefined and could not be defined
again is gone. -/
def redefine (env : RestoreEnv) (m : Metadata) (dir : PointDir) (dom : Domain) :
    Option Domain :=
  if m.hasDomainXML then
    match if env.xmlReadFails then none else dir.domainXML with
    | none => some dom
    | some saved =>
      if env.undefineFails || !dom.checkpoints.isEmpty then some dom
      else if env.defineFails then none
      else some ⟨saved, .shutoff, []⟩
  else some dom

/-- Inversion for `redefine`: the domain it was given, or one with the saved definition
and no checkpoints. -/
theorem redefine_eq_some {env : RestoreEnv} {m : Metadata} {dir : PointDir} {dom dom' : Domain}
    (h : redefine env m dir dom = some dom') :
    dom' = dom ∨ ∃ saved, dir.domainXML = some saved ∧ dom' = ⟨saved, .shutoff, []⟩ := by
  rw [redefine] at h
  split at h
  · split at h
    · cases h
      exact .inl rfl
    · rename_i saved hsaved
      have hxml : dir.domainXML = some saved := by
        split at hsaved
        · cases hsaved
        · exact hsaved
      split at h
      · cases h
        exact .inl rfl
      · split at h
        · cases h
        · cases h
          exact .inr ⟨saved, hxml, rfl⟩
  · cases h
    exact .inl rfl

/-- `GetVirtualMachine` -/
def getVirtualMachine (env : RestoreEnv) (h : Host) (id : String) :
    Except ProviderError Domain :=
  if env.getFails then .error (.other "connect")
  else
    match h.lookupDomain id with
    | none => .error .vmNotFound
    | some dom => .ok dom

/-- `RestoreBackup` -/
def restoreBackup (env : RestoreEnv) (h : Host) (id : String) :
    Option (Except ProviderError Domain × Host) :=
  (openRestore env h id).map fun r =>
    match r with
    | .error e => (.error e, h)
    | .ok plan =>
      match restoreDisks env.steps plan.metadata.vmID plan.domain.definition.sources plan.chain
          0 plan.metadata.disks h.files with
      | (.error e, fs) => (.error e, { h with files := fs })
      | (.ok (), fs) =>
        let h := { h with
          files := fs
          domain := redefine env plan.metadata plan.dir
            (deleteUltravCheckpoints env plan.domain) }
        (getVirtualMachine env h plan.metadata.vmID, h)

/-- The disks a planned restore gets through. -/
def RestorePlan.restored (plan : RestorePlan) (env : RestoreEnv) (fs : Files) :
    List (String × String) :=
  restoredDisks env.steps plan.domain.definition.sources plan.chain fs 0 plan.metadata.disks

/-- What a restore can end in: a failed check, a failed disk, or all disks replaced and
the tail run. -/
inductive RestoreOutcome (env : RestoreEnv) (h : Host) (id : String) :
    Except ProviderError Domain → Host → Prop where
  /-- a check failed, nothing happened -/
  | refused {e : ProviderError} : openRestore env h id = some (.error e) →
      RestoreOutcome env h id (.error e) h
  /-- a disk failed -/
  | stopped {plan : RestorePlan} {e : ProviderError} {fs : Files} :
      openRestore env h id = some (.ok plan) →
      (plan.restored env h.files).map Prod.fst ≠ plan.metadata.disks.map DiskEntry.name →
      RestoreOutcome env h id (.error e) { h with files := fs }
  /-- every disk was replaced -/
  | restored {plan : RestorePlan} {fs : Files} {dom : Option Domain} :
      openRestore env h id = some (.ok plan) →
      (plan.restored env h.files).map Prod.fst = plan.metadata.disks.map DiskEntry.name →
      dom = redefine env plan.metadata plan.dir (deleteUltravCheckpoints env plan.domain) →
      RestoreOutcome env h id
        (getVirtualMachine env { h with files := fs, domain := dom } plan.metadata.vmID)
        { h with files := fs, domain := dom }

/-- Inversion for `restoreBackup`. -/
theorem restoreBackup_eq_some {env : RestoreEnv} {h h' : Host} {id : String}
    {r : Except ProviderError Domain} (hr : restoreBackup env h id = some (r, h')) :
    RestoreOutcome env h id r h' ∧
      (∀ i file, h'.files (.point i file) = h.files (.point i file)) ∧
      ∀ plan, openRestore env h id = some (.ok plan) → ∀ v, h'.files (.volume v) =
        match lastOnto v (plan.restored env h.files) with
        | none => h.files (.volume v)
        | some disk => assemble h.files plan.chain disk := by
  obtain ⟨o, ho, hr⟩ := Option.map_eq_some_iff.mp hr
  rcases o with e | plan
  · cases hr
    refine ⟨.refused ho, fun _ _ => rfl, fun plan hp => ?_⟩
    rw [ho] at hp
    cases hp
  · obtain ⟨hne, hnd⟩ := openRestore_chain ho
    have hplan : ∀ q, openRestore env h id = some (.ok q) → q = plan := by
      intro q hq
      rw [ho] at hq
      cases hq
      rfl
    dsimp only at hr
    split at hr
    · rename_i e fs hd
      cases hr
      obtain ⟨hp, hv, hall⟩ := restoreDisks_spec hne hnd hd
      have hpart : (plan.restored env h.files).map Prod.fst ≠
          plan.metadata.disks.map DiskEntry.name := by
        intro heq
        cases hall.mpr heq
      exact ⟨.stopped ho hpart, hp, fun q hq => by rw [hplan q hq]; exact hv⟩
    · rename_i fs hd
      cases hr
      obtain ⟨hp, hv, hall⟩ := restoreDisks_spec hne hnd hd
      exact ⟨.restored ho (hall.mp rfl) rfl, hp, fun q hq => by rw [hplan q hq]; exact hv⟩

/-- What a successful restore leaves on the volumes: for each disk of the point an image
assembled from its chain. -/
theorem restoreBackup_ok {env : RestoreEnv} {h h' : Host} {id : String} {dom : Domain}
    (hr : restoreBackup env h id = some (.ok dom, h')) :
    ∃ plan, openRestore env h id = some (.ok plan) ∧
      ∀ bd ∈ plan.metadata.disks, ∃ v disk img,
        plan.domain.definition.sources bd.name = some v ∧
        plan.domain.definition.sources disk = some v ∧
        assemble h.files plan.chain disk = some img ∧ h'.files (.volume v) = some img := by
  obtain ⟨hout, -, hvol⟩ := restoreBackup_eq_some hr
  generalize hres : (.ok dom : Except ProviderError Domain) = r at hout
  cases hout with
  | refused _ => cases hres
  | stopped _ _ => cases hres
  | @restored plan fs dom' ho hall hdom =>
    refine ⟨plan, ho, fun bd hbd => ?_⟩
    have hname : bd.name ∈ (plan.restored env h.files).map Prod.fst := by
      rw [hall]
      exact List.mem_map_of_mem hbd
    obtain ⟨⟨disk₀, v⟩, hmem, rfl⟩ := List.mem_map.mp hname
    obtain ⟨hsrc, -⟩ := mem_restoredDisks hmem
    rcases hlast : lastOnto v (plan.restored env h.files) with _ | disk
    · exact absurd rfl (lastOnto_eq_none.mp hlast _ hmem)
    · obtain ⟨hsrc', hsome⟩ := mem_restoredDisks (mem_of_lastOnto hlast)
      obtain ⟨img, himg⟩ := Option.isSome_iff_exists.mp hsome
      have hv := hvol plan ho v
      rw [hlast] at hv
      exact ⟨v, disk, img, hsrc, hsrc', himg, hv.trans himg⟩

/-- With no check passed, no volume changes. -/
theorem restoreBackup_refused {env : RestoreEnv} {h h' : Host} {id : String}
    {r : Except ProviderError Domain} (hr : restoreBackup env h id = some (r, h'))
    (hno : ∀ plan, openRestore env h id ≠ some (.ok plan)) : h' = h := by
  obtain ⟨hout, -, -⟩ := restoreBackup_eq_some hr
  cases hout with
  | refused _ => rfl
  | stopped ho _ => exact absurd ho (hno _)
  | restored ho _ _ => exact absurd ho (hno _)

end Ultrav
