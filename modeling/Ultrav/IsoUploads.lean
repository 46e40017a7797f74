import Mathlib.Tactic.IntervalCases
import Ultrav.IsoLibrary
import Ultrav.Machine

/-!
# Uploads side by side

Each upload runs `Store.Create` in a goroutine of its own. It looks for the name, writes a
temporary file and moves that onto the name; the directory of the library may be switched in
between.

* `UploadPhase` / `Uploads.step` — where an upload stands, and one step of one of them. A failure is
  an event.
* `NoOverlap` — the steps that do not run into one another.
* `UploadsKept` — what holds between them: a name belongs to one upload at most.
* `NeverOverwrites` — what is in the library stays, one upload for each name succeeds, and one that
  fails leaves the list as it is.
* `never_overwrites` — runs without an overlap.
-/

namespace Ultrav

open Url

/-! ## Uploads -/

/-- A name that `ValidID` matches. -/
@[ext]
structure IsoName where
  val : Bytes
  valid : isoValidID (nameText val) = true
  deriving DecidableEq

/-- The directory that was read, and the name in it. -/
@[ext]
structure UploadTarget (D : Type) where
  dir : D
  dst : IsoName
  deriving DecidableEq

/-- What is left to do with the temporary file. -/
inductive TempStage where
  | copy (rest : Bytes)
  | close
  | chmod
  | rename
  deriving DecidableEq

/-- Where a `Create` stands. -/
inductive UploadPhase (D : Type) where
  | begun
  /-- before `Stat` -/
  | located (t : UploadTarget D)
  /-- before `CreateTemp` -/
  | absent (t : UploadTarget D)
  | temp (t : UploadTarget D) (tmp : ℕ) (stage : TempStage)
  /-- before the second `Stat` -/
  | renamed (t : UploadTarget D) (tmp : ℕ)
  /-- before the deferred `Remove` -/
  | leaving (t : UploadTarget D) (tmp : ℕ) (result : Except IsoError Iso)
  | returned (t : Option (UploadTarget D)) (result : Except IsoError Iso)

/-- A running `Create`. -/
structure Upload (D : Type) where
  name : Bytes
  content : Bytes
  phase : UploadPhase D

/-- The store, the directories on the host and the uploads, in the order they have begun. -/
structure Uploads (D : Type) where
  dir : D
  fs : D → Directory
  calls : List (Upload D)

/-- A step. -/
inductive UploadEvent (D : Type) where
  | begin (name content : Bytes)
  | setDir (dir : D)
  /-- an upload takes its next step; `n` is the random number of `CreateTemp`, or how many bytes are
  copied -/
  | act (i n : ℕ)
  /-- its next step fails -/
  | fail (i : ℕ)

/-- The name of a temporary file, `.upload-*`. -/
def tmpName (n : ℕ) : Bytes := Utf8.encode (".upload-".toList ++ Nat.toDigits 10 n)

theorem digit_of_mem_toDigits {n : ℕ} {c : Char} (hc : c ∈ Nat.toDigits 10 n) :
    c.isDigit = true := Nat.isDigit_of_mem_toDigits (by decide) (by decide) hc

theorem no_slash_tmpName (n : ℕ) : slash ∉ tmpName n := by
  have hpre : ∀ c ∈ ".upload-".toList, c.toNat < 0x80 ∧ c ≠ '/' := by simp
  refine slash_notMem_encode fun c hc => ?_
  rcases List.mem_append.mp hc with hc | hc
  · exact hpre c hc
  · have hdigit : digit c = true := digit_of_mem_toDigits hc
    refine ascii_of_isoChar ?_
    simp [alnum, hdigit]

namespace UploadPhase

variable {D : Type}

/-- The directory and the name, once they are read. -/
def target : UploadPhase D → Option (UploadTarget D)
  | begun => none
  | located t | absent t | temp t _ _ | renamed t _ | leaving t _ _ => some t
  | returned t _ => t

/-- The upload has seen that the name is free and has not moved its file yet. -/
def pending : UploadPhase D → Option (UploadTarget D)
  | absent t | temp t _ _ => some t
  | begun | located _ | renamed _ _ | leaving _ _ _ | returned _ _ => none

/-- The upload has moved its file onto the name. -/
def committed : UploadPhase D → Option (UploadTarget D)
  | renamed t _ | leaving t _ (.ok _) => some t
  | returned t (.ok _) => t
  | begun | located _ | absent _ | temp _ _ _ | leaving _ _ (.error _) | returned _ (.error _) =>
    none

/-- The directory and the name of its temporary file. -/
def scratch : UploadPhase D → Option (D × Bytes)
  | temp t n _ | renamed t n | leaving t n _ => some (t.dir, tmpName n)
  | begun | located _ | absent _ | returned _ _ => none

/-- The next step of an upload, in its directory. The file is written by its name, which is its own:
`CreateTemp` draws one that is not `taken` and under which nothing stands. -/
def act (taken : Bytes → Bool) (n : ℕ) (content : Bytes) (d : Directory) :
    UploadPhase D → Option (Directory × UploadPhase D)
  | located t =>
    some (d, if d.stat t.dst.val then returned (some t) (.error .alreadyExists) else absent t)
  | absent t =>
    if (d.lookup (tmpName n)).isSome || taken (tmpName n) then none
    else some (d.put (tmpName n) (no_slash_tmpName n) (.file []), temp t n (.copy content))
  | temp t tmp (.copy rest) =>
    if rest = [] then some (d, temp t tmp .close)
    else
      let d' := match d.lookup (tmpName tmp) with
        | some (.file w) =>
          d.put (tmpName tmp) (no_slash_tmpName tmp) (.file (w ++ rest.take n))
        | _ => d
      some (d', temp t tmp (.copy (rest.drop n)))
  | temp t tmp .close => some (d, temp t tmp .chmod)
  | temp t tmp .chmod => some (d, temp t tmp .rename)
  | temp t tmp .rename =>
    match d.lookup (tmpName tmp), d.lookup t.dst.val with
    | none, _ | _, some (.dir _) => some (d, leaving t tmp (.error .other))
    | some e, _ =>
      some ((d.erase (tmpName tmp)).put t.dst.val (no_slash_of_isoValidID t.dst.valid) e,
        renamed t tmp)
  | renamed t tmp =>
    match d.lookup t.dst.val with
    | some e =>
      some (d, leaving t tmp
        (if e.stats then .ok (toIso t.dst.val e.size) else .error .other))
    | none => some (d, leaving t tmp (.error .other))
  | leaving t tmp result => some (d.erase (tmpName tmp), returned (some t) result)
  | begun | returned _ _ => none

/-- The next step of an upload fails. -/
def fail : UploadPhase D → Option (UploadPhase D)
  | absent t => some (returned (some t) (.error .other))
  | temp t tmp _ | renamed t tmp => some (leaving t tmp (.error .other))
  -- the temporary file stays
  | leaving t _ result => some (returned (some t) result)
  | begun | located _ | returned _ _ => none

end UploadPhase

namespace Uploads

variable {D : Type} [DecidableEq D] (s : Uploads D)

/-- An upload has moved on, and its directory has changed. -/
def settle (i : ℕ) (c : Upload D) (dir : D) (d : Directory) (p : UploadPhase D) : Uploads D :=
  { s with fs := Function.update s.fs dir d, calls := s.calls.set i { c with phase := p } }

theorem settle_fs (i : ℕ) (c : Upload D) (dir : D) (d : Directory) (p : UploadPhase D) :
    (s.settle i c dir d p).fs = Function.update s.fs dir d := rfl

/-- A temporary name in a directory is that of an upload. -/
def taken (dir : D) (name : Bytes) : Bool :=
  s.calls.any fun c => c.phase.scratch = some (dir, name)

/-- One step. -/
def step : UploadEvent D → Option (Uploads D)
  | .begin name content => some { s with calls := s.calls ++ [⟨name, content, .begun⟩] }
  | .setDir dir => some { s with dir := dir }
  | .act i n =>
    s.calls[i]?.bind fun c =>
      match c.phase with
      | .begun =>
        some { s with calls := s.calls.set i { c with
          phase := if h : isoValidID (nameText c.name) = true then .located ⟨s.dir, ⟨c.name, h⟩⟩
            else .returned none (.error .invalid) } }
      | p =>
        p.target.bind fun t =>
          (p.act (s.taken t.dir) n c.content (s.fs t.dir)).map fun (d, p') =>
            s.settle i c t.dir d p'
  | .fail i =>
    s.calls[i]?.bind fun c =>
      c.phase.fail.map fun p => { s with calls := s.calls.set i { c with phase := p } }

end Uploads

/-! ## What one step does -/

theorem lowerRune_digit {c : Char} (hc : c.isDigit = true) : lowerRune c ≠ 'o' := by
  simp only [Char.isDigit, Bool.and_eq_true, decide_eq_true_eq] at hc
  have hle : c.toNat ≤ 57 := UInt32.le_iff_toNat_le.mp hc.2
  have hge : 48 ≤ c.toNat := UInt32.le_iff_toNat_le.mp hc.1
  rw [← Char.ofNat_toNat c]
  generalize c.toNat = k at hle hge
  interval_cases k <;> decide

/-- A temporary file is not taken for an image. -/
theorem isoSuffix_tmpName (n : ℕ) : isoSuffix (tmpName n) = false := by
  rw [Bool.eq_false_iff, isoSuffix, tmpName, Utf8.decode_encode, Ne, List.isSuffixOf_iff_suffix]
  rintro ⟨pre, hpre⟩
  have hlast := congrArg List.getLast? hpre
  have hne : Nat.toDigits 10 n ≠ [] := Nat.toDigits_ne_nil
  rw [List.getLast?_append_of_ne_nil _ (by decide), List.map_append,
    List.getLast?_append_of_ne_nil _ (by simp), List.getLast?_map,
    List.getLast?_eq_some_getLast hne] at hlast
  exact lowerRune_digit (digit_of_mem_toDigits (List.getLast_mem hne))
    (Option.some.inj hlast).symm

theorem isoSuffix_dst (dst : IsoName) : isoSuffix dst.val = true := by
  have htext : (nameText dst.val).toList = Utf8.decode dst.val := String.toList_ofList
  exact isoSuffix_of_suffix (htext ▸ suffix_of_isoValidID dst.valid)

theorem dst_ne_tmpName (dst : IsoName) (n : ℕ) : dst.val ≠ tmpName n := by
  intro heq
  have hdst := isoSuffix_dst dst
  rw [heq, isoSuffix_tmpName] at hdst
  cases hdst

namespace UploadPhase

variable {D : Type} {taken : Bytes → Bool} {n : ℕ} {content : Bytes} {d d' : Directory}
  {p p' : UploadPhase D}

/-- The steps that go through, by the phase. -/
inductive Acts (taken : Bytes → Bool) (d : Directory) :
    UploadPhase D → Directory → UploadPhase D → Prop where
  | refuse {t} (hstat : d.stat t.dst.val = true) :
    Acts taken d (located t) d (returned (some t) (.error .alreadyExists))
  | check {t} (hstat : d.stat t.dst.val = false) : Acts taken d (located t) d (absent t)
  | create {t n stage} (hnew : d.lookup (tmpName n) = none) (hfree : taken (tmpName n) = false) :
    Acts taken d (absent t) (d.put (tmpName n) (no_slash_tmpName n) (.file [])) (temp t n stage)
  | write {t n stage stage' w} :
    Acts taken d (temp t n stage) (d.put (tmpName n) (no_slash_tmpName n) (.file w))
      (temp t n stage')
  | stage {t n stage stage'} : Acts taken d (temp t n stage) d (temp t n stage')
  | lose {t n stage} (hlost : d.lookup (tmpName n) = none ∨
      ∃ empty, d.lookup t.dst.val = some (.dir empty)) :
    Acts taken d (temp t n stage) d (leaving t n (.error .other))
  | move {t n stage e} (hfile : d.lookup (tmpName n) = some e) :
    Acts taken d (temp t n stage)
      ((d.erase (tmpName n)).put t.dst.val (no_slash_of_isoValidID t.dst.valid) e) (renamed t n)
  | report {t n img} : Acts taken d (renamed t n) d (leaving t n (.ok img))
  | vanish {t n} (hgone : d.stat t.dst.val = false) :
    Acts taken d (renamed t n) d (leaving t n (.error .other))
  | leave {t n result} :
    Acts taken d (leaving t n result) (d.erase (tmpName n)) (returned (some t) result)

/-- **Inversion for `act`**. -/
theorem acts_of_act (h : p.act taken n content d = some (d', p')) : Acts taken d p d' p' := by
  cases p with
  | begun => cases h
  | returned t result => cases h
  | located t =>
    rw [act] at h
    obtain ⟨rfl, rfl⟩ := Prod.mk.inj (Option.some.inj h)
    by_cases hstat : d.stat t.dst.val = true
    · rw [if_pos hstat]
      exact .refuse hstat
    · rw [if_neg hstat]
      exact .check (by simpa using hstat)
  | absent t =>
    rw [act] at h
    split at h
    · cases h
    · rename_i hfree
      obtain ⟨rfl, rfl⟩ := Prod.mk.inj (Option.some.inj h)
      simp only [Bool.or_eq_true, not_or, Bool.not_eq_true, Option.isSome_eq_false_iff,
        Option.isNone_iff_eq_none] at hfree
      exact .create hfree.1 hfree.2
  | temp t tmp stage =>
    cases stage with
    | copy rest =>
      rw [act] at h
      split at h
      · obtain ⟨rfl, rfl⟩ := Prod.mk.inj (Option.some.inj h)
        exact .stage
      · obtain ⟨rfl, rfl⟩ := Prod.mk.inj (Option.some.inj h)
        split
        · exact .write
        · exact .stage
    | close | chmod =>
      obtain ⟨rfl, rfl⟩ := Prod.mk.inj (Option.some.inj h)
      exact .stage
    | rename =>
      rw [act] at h
      split at h
      · rename_i hlost
        obtain ⟨rfl, rfl⟩ := Prod.mk.inj (Option.some.inj h)
        exact .lose (.inl hlost)
      · rename_i hdir _
        obtain ⟨rfl, rfl⟩ := Prod.mk.inj (Option.some.inj h)
        exact .lose (.inr ⟨_, hdir⟩)
      · rename_i e hfile _
        obtain ⟨rfl, rfl⟩ := Prod.mk.inj (Option.some.inj h)
        exact .move hfile
  | renamed t tmp =>
    rw [act] at h
    split at h
    · rename_i e he
      obtain ⟨rfl, rfl⟩ := Prod.mk.inj (Option.some.inj h)
      split
      · exact .report
      · rename_i hstats
        refine .vanish ?_
        rw [Directory.stat, he, Option.any_some]
        simpa using hstats
    · rename_i he
      obtain ⟨rfl, rfl⟩ := Prod.mk.inj (Option.some.inj h)
      refine .vanish ?_
      rw [Directory.stat, he, Option.any_none]
  | leaving t tmp result =>
    obtain ⟨rfl, rfl⟩ := Prod.mk.inj (Option.some.inj h)
    exact .leave

theorem target_of_pending {t : UploadTarget D} (h : p.pending = some t) : p.target = some t := by
  cases p <;> simp_all [pending, target]

theorem target_of_committed {t : UploadTarget D} (h : p.committed = some t) :
    p.target = some t := by
  cases p with
  | leaving t tmp result => cases result <;> simp_all [committed, target]
  | returned t result => cases result <;> simp_all [committed, target]
  | begun | located | absent | temp | renamed => simp_all [committed, target]

/-- The steps that fail, by the phase. -/
inductive Fails : UploadPhase D → UploadPhase D → Prop where
  | create {t} : Fails (absent t) (returned (some t) (.error .other))
  | work {t n stage} : Fails (temp t n stage) (leaving t n (.error .other))
  | report {t n} : Fails (renamed t n) (leaving t n (.error .other))
  | leave {t n result} : Fails (leaving t n result) (returned (some t) result)

theorem fails_of_fail (h : p.fail = some p') : Fails p p' := by
  cases p with
  | begun | located | returned => cases h
  | absent | temp | renamed | leaving =>
    obtain rfl := Option.some.inj h
    constructor

/-- A temporary file is in the directory of its upload. -/
theorem scratch_eq_some {k : D × Bytes} (h : p.scratch = some k) :
    ∃ t n, p.target = some t ∧ k = (t.dir, tmpName n) := by
  cases p with
  | temp t n | renamed t n | leaving t n => exact ⟨t, n, rfl, (Option.some.inj h).symm⟩
  | begun | located | absent | returned => cases h

/-- A step leaves the upload in its place. -/
theorem Acts.target_eq (h : Acts taken d p d' p') : p'.target = p.target := by
  cases h <;> rfl

/-- A temporary file is drawn anew or kept. -/
theorem Acts.scratch_cases (h : Acts taken d p d' p') {k : D × Bytes}
    (hk : p'.scratch = some k) : p.scratch = some k ∨ taken k.2 = false := by
  cases h with
  | refuse | check | leave => cases hk
  | create hnew hfree => exact .inr (by rw [← Option.some.inj hk]; exact hfree)
  | write | stage | lose | move | report | vanish => exact .inl hk

/-- The names of the library that a step leaves alone: all of them, but the one a file is moved
onto. -/
theorem Acts.lookup_eq (h : Acts taken d p d' p') {name : Bytes}
    (htmp : ∀ dir tmp, p.scratch = some (dir, tmp) ∨ p'.scratch = some (dir, tmp) → name ≠ tmp)
    (hdst : ∀ t, p.pending = some t → p'.committed = some t → name ≠ t.dst.val) :
    d'.lookup name = d.lookup name := by
  cases h with
  | refuse | check | stage | lose | report | vanish => rfl
  | create | write => rw [Directory.lookup_put, if_neg (htmp _ _ (.inr rfl))]
  | move => rw [Directory.lookup_put, if_neg (hdst _ rfl rfl), Directory.lookup_erase,
      if_neg (htmp _ _ (.inr rfl))]
  | leave => rw [Directory.lookup_erase, if_neg (htmp _ _ (.inl rfl))]

/-- The images that a step leaves alone. -/
theorem Acts.lookup_iso (h : Acts taken d p d' p') {name : Bytes} (hname : isoSuffix name = true)
    (hdst : ∀ t, p.pending = some t → p'.committed = some t → name ≠ t.dst.val) :
    d'.lookup name = d.lookup name := by
  refine h.lookup_eq (fun dir tmp htmp heq => ?_) hdst
  obtain ⟨n, hn⟩ : ∃ n, tmp = tmpName n := by
    rcases htmp with htmp | htmp
    · obtain ⟨t, n, -, hk⟩ := scratch_eq_some htmp
      exact ⟨n, (Prod.mk.inj hk).2⟩
    · obtain ⟨t, n, -, hk⟩ := scratch_eq_some htmp
      exact ⟨n, (Prod.mk.inj hk).2⟩
  rw [heq, hn, isoSuffix_tmpName] at hname
  cases hname

/-- An upload that has moved its file, and finds it. -/
theorem Acts.committed (h : Acts taken d p d' p') {t : UploadTarget D}
    (hp : p.committed = some t) (hstat : d.stat t.dst.val = true) :
    ∃ u, p'.committed = some u := by
  cases h with
  | refuse | check | create | write | stage | lose => cases hp
  | move | report => exact ⟨_, rfl⟩
  | vanish hgone =>
    obtain rfl := Option.some.inj hp
    rw [hstat] at hgone
    cases hgone
  | leave =>
    rename_i result
    cases result with
    | error e => cases hp
    | ok img => exact ⟨_, rfl⟩

theorem Fails.committed (h : Fails p p') {t : UploadTarget D} (hp : p.committed = some t)
    (hstat : ∀ t n, p ≠ renamed t n) : ∃ u, p'.committed = some u := by
  cases h with
  | create | work => cases hp
  | report => exact absurd rfl (hstat _ _)
  | leave =>
    rename_i result
    cases result with
    | error e => cases hp
    | ok img => exact ⟨_, rfl⟩

end UploadPhase

/-! ## Between the steps -/

/-- An upload in its directory: the name is free until it has moved its file onto it, and holds a
file from then on. -/
structure UploadPhase.Sound {D : Type} (fs : D → Directory) (p : UploadPhase D) : Prop where
  free : ∀ t, p.pending = some t → (fs t.dir).lookup t.dst.val = none
  filled : ∀ t, p.committed = some t → ∃ w, (fs t.dir).lookup t.dst.val = some (.file w)
  temp : ∀ t n stage, p = .temp t n stage →
    ∃ w, (fs t.dir).lookup (tmpName n) = some (.file w)

theorem UploadPhase.Sound.of_none {D : Type} {fs : D → Directory} {p : UploadPhase D}
    (hpending : p.pending = none) (hcommitted : p.committed = none)
    (htemp : ∀ t n stage, p ≠ .temp t n stage) : p.Sound fs :=
  ⟨fun t ht => by simp [hpending] at ht, fun t ht => by simp [hcommitted] at ht,
    fun t n stage hp => absurd hp (htemp t n stage)⟩

/-- The name is the upload's. -/
def UploadPhase.Owns {D : Type} (p : UploadPhase D) (t : UploadTarget D) : Prop :=
  p.pending = some t ∨ p.committed = some t

section Kept

variable {D : Type}

theorem getElem?_set_cases {α : Type} {l : List α} {i j : ℕ} {a b : α}
    (h : (l.set i a)[j]? = some b) : j = i ∧ b = a ∨ j ≠ i ∧ l[j]? = some b := by
  by_cases hji : j = i
  · have hi : i < l.length := by
      obtain ⟨hlen, -⟩ := List.getElem?_eq_some_iff.mp h
      rw [List.length_set] at hlen
      omega
    rw [hji, List.getElem?_set_self hi] at h
    exact .inl ⟨hji, (Option.some.inj h).symm⟩
  · rw [List.getElem?_set_ne (Ne.symm hji)] at h
    exact .inr ⟨hji, h⟩

theorem getElem?_concat_cases {α : Type} {l : List α} {a b : α} {j : ℕ}
    (h : (l ++ [a])[j]? = some b) : l[j]? = some b ∨ b = a := by
  rw [List.getElem?_append] at h
  split at h
  · exact .inl h
  · exact .inr (List.mem_singleton.mp (List.mem_of_getElem? h))

/-- What holds between the steps: a name is that of one upload at most, and so is a temporary
file. -/
structure UploadsKept (s : Uploads D) : Prop where
  sound : ∀ (i : ℕ) (c : Upload D), s.calls[i]? = some c → c.phase.Sound s.fs
  alone : ∀ (i j : ℕ) (c c' : Upload D) (t : UploadTarget D), s.calls[i]? = some c →
    s.calls[j]? = some c' → c.phase.Owns t → c'.phase.Owns t → i = j
  scratch : ∀ (i j : ℕ) (c c' : Upload D) (k : D × Bytes), s.calls[i]? = some c →
    s.calls[j]? = some c' → c.phase.scratch = some k → c'.phase.scratch = some k → i = j

/-- The steps that do not run into one another. When an upload finds nothing under a name, then
nothing stands there, not even a link that leads nowhere, and no other upload has found the same
and not moved its file yet. The `Stat` behind the move does not fail. -/
def NoOverlap (s : Uploads D) : UploadEvent D → Prop
  | .act i _ => ∀ c t, s.calls[i]? = some c → c.phase = .located t →
    (s.fs t.dir).stat t.dst.val = false →
      (s.fs t.dir).lookup t.dst.val = none ∧ ∀ c' ∈ s.calls, c'.phase.pending ≠ some t
  | .fail i => ∀ c t n, s.calls[i]? = some c → c.phase ≠ .renamed t n
  | .begin _ _ | .setDir _ => True

variable {s s' : Uploads D} {e : UploadEvent D} {i n : ℕ} {c : Upload D} {t : UploadTarget D}

/-- **An upload that moves on**: the others keep what they have. -/
theorem UploadsKept.replace (hs : UploadsKept s) (hc : s.calls[i]? = some c)
    {fs : D → Directory} {p : UploadPhase D} (hsound : p.Sound fs)
    (hothers : ∀ j c', j ≠ i → s.calls[j]? = some c' → c'.phase.Sound fs)
    (howns : ∀ t, p.Owns t → c.phase.Owns t ∨
      ∀ j c', j ≠ i → s.calls[j]? = some c' → ¬ c'.phase.Owns t)
    (hscratch : ∀ k, p.scratch = some k → c.phase.scratch = some k ∨
      ∀ j c', j ≠ i → s.calls[j]? = some c' → c'.phase.scratch ≠ some k) :
    UploadsKept { s with fs := fs, calls := s.calls.set i { c with phase := p } } := by
  -- a call after the step is the one that has moved on, or one that has not
  have hcases : ∀ j c', (s.calls.set i { c with phase := p })[j]? = some c' →
      j = i ∧ c'.phase = p ∨ j ≠ i ∧ s.calls[j]? = some c' :=
    fun j c' hj => (getElem?_set_cases hj).imp_left fun h => ⟨h.1, by rw [h.2]⟩
  refine ⟨fun j c' hj => ?_, fun j k c' c'' t hj hk ht ht' => ?_,
    fun j k c' c'' key hj hk hkey hkey' => ?_⟩
  · rcases hcases j c' hj with ⟨-, hp⟩ | ⟨hji, hj⟩
    · rwa [hp]
    · exact hothers j c' hji hj
  · rcases hcases j c' hj with ⟨rfl, hp⟩ | ⟨hji, hj₀⟩ <;>
      rcases hcases k c'' hk with ⟨rfl, hp'⟩ | ⟨hki, hk₀⟩
    · rfl
    · rw [hp] at ht
      rcases howns t ht with hown | hnone
      · exact hs.alone _ _ c c'' t hc hk₀ hown ht'
      · exact absurd ht' (hnone k c'' hki hk₀)
    · rw [hp'] at ht'
      rcases howns t ht' with hown | hnone
      · exact hs.alone _ _ c' c t hj₀ hc ht hown
      · exact absurd ht (hnone j c' hji hj₀)
    · exact hs.alone j k c' c'' t hj₀ hk₀ ht ht'
  · rcases hcases j c' hj with ⟨rfl, hp⟩ | ⟨hji, hj₀⟩ <;>
      rcases hcases k c'' hk with ⟨rfl, hp'⟩ | ⟨hki, hk₀⟩
    · rfl
    · rw [hp] at hkey
      rcases hscratch key hkey with hown | hnone
      · exact hs.scratch _ _ c c'' key hc hk₀ hown hkey'
      · exact absurd hkey' (hnone k c'' hki hk₀)
    · rw [hp'] at hkey'
      rcases hscratch key hkey' with hown | hnone
      · exact hs.scratch _ _ c' c key hj₀ hc hkey hown
      · exact absurd hkey (hnone j c' hji hj₀)
    · exact hs.scratch j k c' c'' key hj₀ hk₀ hkey hkey'

theorem UploadsKept.nil (h : s.calls = []) : UploadsKept s := by
  refine ⟨fun i c hc => ?_, fun i j c c' t hc => ?_, fun i j c c' k hc => ?_⟩ <;>
    simp [h] at hc

/-- An upload that begins has nothing yet. -/
theorem UploadsKept.begin (hs : UploadsKept s) (name content : Bytes) :
    UploadsKept { s with calls := s.calls ++ [⟨name, content, .begun⟩] } := by
  have hcases : ∀ (j : ℕ) (c' : Upload D), (s.calls ++ [⟨name, content, .begun⟩])[j]? = some c' →
      s.calls[j]? = some c' ∨ c'.phase = .begun :=
    fun j c' hj => (getElem?_concat_cases hj).imp_right fun h => by rw [h]
  refine ⟨fun j c' hj => ?_, fun j k c' c'' t hj hk ht ht' => ?_,
    fun j k c' c'' key hj hk hkey hkey' => ?_⟩
  · rcases hcases j c' hj with hj | hbegun
    · exact hs.sound j c' hj
    · rw [hbegun]
      exact .of_none rfl rfl (by simp)
  · rcases hcases j c' hj with hj | hbegun
    · rcases hcases k c'' hk with hk | hbegun
      · exact hs.alone j k c' c'' t hj hk ht ht'
      · rw [hbegun] at ht'
        rcases ht' with ht' | ht' <;> cases ht'
    · rw [hbegun] at ht
      rcases ht with ht | ht <;> cases ht
  · rcases hcases j c' hj with hj | hbegun
    · rcases hcases k c'' hk with hk | hbegun
      · exact hs.scratch j k c' c'' key hj hk hkey hkey'
      · rw [hbegun] at hkey'
        cases hkey'
    · rw [hbegun] at hkey
      cases hkey

/-- An upload whose step fails keeps what it has, or gives it up. -/
theorem UploadsKept.fail (hs : UploadsKept s) (hc : s.calls[i]? = some c)
    (hover : NoOverlap s (.fail i)) {p : UploadPhase D} (hfails : c.phase.Fails p) :
    UploadsKept { s with calls := s.calls.set i { c with phase := p } } := by
  have hsound := hs.sound i c hc
  have hover := hover c
  refine hs.replace hc ?_ (fun j c' _ hj => hs.sound j c' hj) (fun u hu => .inl ?_)
    fun k hk => .inl ?_
  all_goals generalize c.phase = q at hfails hsound hover
  · cases hfails with
    | create | work => exact .of_none rfl rfl (by simp)
    | report => exact absurd rfl (hover _ _ hc)
    | leave =>
      rename_i result
      cases result with
      | error e => exact .of_none rfl rfl (by simp)
      | ok img => exact ⟨fun u hu => (by cases hu), hsound.filled, by simp⟩
  · cases hfails with
    | create | work => rcases hu with hu | hu <;> cases hu
    | report => exact absurd rfl (hover _ _ hc)
    | leave =>
      rename_i result
      have hcommitted := hu.resolve_left (by simp [UploadPhase.pending])
      cases result with
      | error e => cases hcommitted
      | ok img => exact .inr hcommitted
  · cases hfails with
    | create | leave => cases hk
    | work => exact hk
    | report => exact absurd rfl (hover _ _ hc)

variable [DecidableEq D]

/-- **The others** of an upload that takes a step find what they had. -/
theorem UploadsKept.sound_of_acts (hs : UploadsKept s) (hc : s.calls[i]? = some c)
    (htarget : c.phase.target = some t) {d : Directory} {p : UploadPhase D}
    (hacts : c.phase.Acts (s.taken t.dir) (s.fs t.dir) d p) {j : ℕ} {c' : Upload D} (hji : j ≠ i)
    (hj : s.calls[j]? = some c') : c'.phase.Sound (Function.update s.fs t.dir d) := by
  -- a name in a directory is untouched when it is neither a temporary file of the upload nor the
  -- name that it moves its file onto
  have hframe : ∀ (dir : D) (name : Bytes),
      (dir = t.dir → ∀ k, c.phase.scratch = some k ∨ p.scratch = some k → name ≠ k.2) →
      (dir = t.dir → ∀ u, c.phase.pending = some u → name ≠ u.dst.val) →
      (Function.update s.fs t.dir d dir).lookup name = (s.fs dir).lookup name := by
    intro dir name htmp hdst
    by_cases hdir : dir = t.dir
    · rw [hdir, Function.update_self]
      exact hacts.lookup_eq (fun dir tmp => htmp hdir (dir, tmp)) fun u hu _ => hdst hdir u hu
    · rw [Function.update_of_ne hdir]
  have howned : ∀ u, c'.phase.Owns u →
      (Function.update s.fs t.dir d u.dir).lookup u.dst.val = (s.fs u.dir).lookup u.dst.val := by
    intro u hu
    refine hframe u.dir u.dst.val (fun _ k hk => ?_) fun hdir v hv hname => ?_
    · obtain ⟨n, hn⟩ : ∃ n, k.2 = tmpName n := by
        rcases hk with hk | hk
        · obtain ⟨-, n, -, rfl⟩ := UploadPhase.scratch_eq_some hk
          exact ⟨n, rfl⟩
        · obtain ⟨-, n, -, rfl⟩ := UploadPhase.scratch_eq_some hk
          exact ⟨n, rfl⟩
      rw [hn]
      exact dst_ne_tmpName u.dst n
    · obtain rfl : v = t :=
        Option.some.inj ((UploadPhase.target_of_pending hv).symm.trans htarget)
      obtain rfl : u = v := UploadTarget.ext hdir (IsoName.ext hname)
      exact hji (hs.alone j i c' c u hj hc hu (.inl hv))
  have hsound := hs.sound j c' hj
  refine ⟨fun u hu => ?_, fun u hu => ?_, fun u n stage hu => ?_⟩
  · rw [howned u (.inl hu)]
    exact hsound.free u hu
  · rw [howned u (.inr hu)]
    exact hsound.filled u hu
  · have hown : c'.phase.scratch = some (u.dir, tmpName n) := by rw [hu]; rfl
    rw [hframe u.dir (tmpName n) (fun hdir k hk hname => ?_)
      fun _ v _ hname => dst_ne_tmpName v.dst n hname.symm]
    · exact hsound.temp u n stage hu
    · -- the temporary file would be that of two uploads
      have hpresent : s.taken t.dir (tmpName n) = true :=
        List.any_eq_true.mpr ⟨c', List.mem_of_getElem? hj, by rw [hown, hdir]; simp⟩
      have hold : c.phase.scratch = some k := by
        rcases hk with hk | hk
        · exact hk
        · refine (hacts.scratch_cases hk).resolve_right fun hfree => ?_
          rw [← hname, hpresent] at hfree
          cases hfree
      obtain ⟨v, m, hv, rfl⟩ := UploadPhase.scratch_eq_some hold
      obtain rfl : v = t := Option.some.inj (hv.symm.trans htarget)
      refine hji (hs.scratch j i c' c _ hj hc hown ?_)
      rw [hold, ← hdir]
      exact congrArg (fun name => some (u.dir, name)) hname.symm

/-- **An upload that takes a step** finds what it has. -/
theorem UploadsKept.self_of_acts (hs : UploadsKept s) (hc : s.calls[i]? = some c)
    (htarget : c.phase.target = some t) (hover : NoOverlap s (.act i n)) {d : Directory}
    {p : UploadPhase D} (hacts : c.phase.Acts (s.taken t.dir) (s.fs t.dir) d p) :
    p.Sound (Function.update s.fs t.dir d) := by
  have hsound := hs.sound i c hc
  have hover := hover c t hc
  generalize c.phase = q at hacts htarget hsound hover
  have hself : ∀ d' : Directory, (Function.update s.fs t.dir d' t.dir) = d' :=
    fun d' => Function.update_self ..
  cases hacts with
  | refuse | lose | vanish => exact .of_none rfl rfl (by simp)
  | check hstat =>
    obtain rfl := Option.some.inj htarget
    rw [Function.update_eq_self]
    refine ⟨fun u hu => ?_, fun u hu => (by cases hu), fun u m stage hu => (by cases hu)⟩
    obtain rfl := Option.some.inj hu
    exact (hover rfl hstat).1
  | create | write =>
    obtain rfl := Option.some.inj htarget
    refine ⟨fun u hu => ?_, fun u hu => (by cases hu), fun u m stage hu => ?_⟩
    · obtain rfl := Option.some.inj hu
      rw [hself, Directory.lookup_put, if_neg (dst_ne_tmpName _ _)]
      exact hsound.free _ rfl
    · cases hu
      rw [hself, Directory.lookup_put, if_pos rfl]
      exact ⟨_, rfl⟩
  | stage =>
    rw [Function.update_eq_self]
    refine ⟨fun u hu => hsound.free u hu, fun u hu => (by cases hu), fun u m stage hu => ?_⟩
    cases hu
    exact hsound.temp _ _ _ rfl
  | move hfile =>
    obtain rfl := Option.some.inj htarget
    refine ⟨fun u hu => (by cases hu), fun u hu => ?_, fun u m stage hu => (by cases hu)⟩
    obtain rfl := Option.some.inj hu
    obtain ⟨w, hw⟩ := hsound.temp _ _ _ rfl
    rw [hself, Directory.lookup_put, if_pos rfl]
    exact ⟨w, hfile.symm.trans hw⟩
  | report =>
    rw [Function.update_eq_self]
    exact ⟨fun u hu => (by cases hu), hsound.filled, fun u m stage hu => (by cases hu)⟩
  | leave =>
    rename_i result
    cases result with
    | error e => exact .of_none rfl rfl (by simp)
    | ok img =>
      obtain rfl := Option.some.inj htarget
      refine ⟨fun u hu => (by cases hu), fun u hu => ?_, fun u m stage hu => (by cases hu)⟩
      obtain rfl := Option.some.inj hu
      rw [hself, Directory.lookup_erase, if_neg (dst_ne_tmpName _ _)]
      exact hsound.filled _ rfl

/-- A name becomes that of an upload when it is free. -/
theorem UploadsKept.owns_of_acts (hs : UploadsKept s) (hc : s.calls[i]? = some c)
    (htarget : c.phase.target = some t) (hover : NoOverlap s (.act i n)) {d : Directory}
    {p : UploadPhase D} (hacts : c.phase.Acts (s.taken t.dir) (s.fs t.dir) d p)
    {u : UploadTarget D} (hu : p.Owns u) : c.phase.Owns u ∨
      ∀ j c', j ≠ i → s.calls[j]? = some c' → ¬ c'.phase.Owns u := by
  have hover := hover c t hc
  generalize c.phase = q at hacts htarget hover
  cases hacts with
  | refuse | lose | vanish => rcases hu with hu | hu <;> cases hu
  | check hstat =>
    obtain rfl := Option.some.inj htarget
    obtain rfl := Option.some.inj (hu.resolve_right (by simp [UploadPhase.committed]))
    refine .inr fun j c' hji hj hown => ?_
    rcases hown with hpending | hcommitted
    · exact (hover rfl hstat).2 c' (List.mem_of_getElem? hj) hpending
    · -- the file of the other one would have been found
      obtain ⟨w, hw⟩ := (hs.sound j c' hj).filled _ hcommitted
      rw [Directory.stat, hw] at hstat
      cases hstat
  | create | write | stage =>
    exact .inl (.inl (hu.resolve_right (by simp [UploadPhase.committed])))
  | move => exact .inl (.inl (hu.resolve_left (by simp [UploadPhase.pending])))
  | report => exact .inl (.inr (hu.resolve_left (by simp [UploadPhase.pending])))
  | leave =>
    rename_i result
    have hcommitted := hu.resolve_left (by simp [UploadPhase.pending])
    cases result with
    | error e => cases hcommitted
    | ok img => exact .inl (.inr hcommitted)

/-- The steps of the uploads. -/
inductive Uploads.Steps (s : Uploads D) : UploadEvent D → Uploads D → Prop where
  | begin {name content} :
    Steps s (.begin name content) { s with calls := s.calls ++ [⟨name, content, .begun⟩] }
  | setDir {dir} : Steps s (.setDir dir) { s with dir := dir }
  | locate {i n c p} (hc : s.calls[i]? = some c) (hbegun : c.phase = .begun)
      (hp : (∃ t, p = .located t) ∨ p = .returned none (.error .invalid)) :
    Steps s (.act i n) { s with calls := s.calls.set i { c with phase := p } }
  | act {i n c t d p} (hc : s.calls[i]? = some c) (htarget : c.phase.target = some t)
      (hacts : c.phase.Acts (s.taken t.dir) (s.fs t.dir) d p) :
    Steps s (.act i n) (s.settle i c t.dir d p)
  | fail {i c p} (hc : s.calls[i]? = some c) (hfails : c.phase.Fails p) :
    Steps s (.fail i) { s with calls := s.calls.set i { c with phase := p } }

/-- **Inversion for `step`**. -/
theorem steps_of_step (h : s.step e = some s') : s.Steps e s' := by
  cases e with
  | begin name content =>
    obtain rfl := Option.some.inj h
    exact .begin
  | setDir dir =>
    obtain rfl := Option.some.inj h
    exact .setDir
  | act i n =>
    rw [Uploads.step] at h
    obtain ⟨c, hc, h⟩ := Option.bind_eq_some_iff.mp h
    split at h
    · rename_i hbegun
      obtain rfl := Option.some.inj h
      refine .locate hc hbegun ?_
      split
      · exact .inl ⟨_, rfl⟩
      · exact .inr rfl
    · obtain ⟨t, htarget, h⟩ := Option.bind_eq_some_iff.mp h
      obtain ⟨⟨d, p⟩, hact, rfl⟩ := Option.map_eq_some_iff.mp h
      exact .act hc htarget (UploadPhase.acts_of_act hact)
  | fail i =>
    rw [Uploads.step] at h
    obtain ⟨c, hc, h⟩ := Option.bind_eq_some_iff.mp h
    obtain ⟨p, hfail, rfl⟩ := Option.map_eq_some_iff.mp h
    exact .fail hc (UploadPhase.fails_of_fail hfail)

/-- **Every step** that runs into no other keeps the names apart. -/
theorem UploadsKept.step (hs : UploadsKept s) (hover : NoOverlap s e) (hsteps : s.Steps e s') :
    UploadsKept s' := by
  cases hsteps with
  | begin => exact hs.begin _ _
  | setDir => exact ⟨hs.sound, hs.alone, hs.scratch⟩
  | locate hc hbegun hp =>
    refine hs.replace hc ?_ (fun j c' _ hj => hs.sound j c' hj) (fun u hu => ?_) fun k hk => ?_
    · rcases hp with ⟨t, rfl⟩ | rfl <;> exact .of_none rfl rfl (by simp)
    · rcases hp with ⟨t, rfl⟩ | rfl <;> rcases hu with hu | hu <;> cases hu
    · rcases hp with ⟨t, rfl⟩ | rfl <;> cases hk
  | act hc htarget hacts =>
    refine hs.replace hc (hs.self_of_acts hc htarget hover hacts)
      (fun j c' hji hj => hs.sound_of_acts hc htarget hacts hji hj)
      (fun u hu => hs.owns_of_acts hc htarget hover hacts hu) fun k hk => ?_
    refine (hacts.scratch_cases hk).imp_right fun hfree j c' _ hj hk' => ?_
    obtain ⟨v, m, hv, rfl⟩ := UploadPhase.scratch_eq_some hk
    obtain rfl := Option.some.inj ((hacts.target_eq.symm.trans hv).symm.trans htarget)
    have hpresent := List.any_eq_false.mp hfree c' (List.mem_of_getElem? hj)
    exact hpresent (decide_eq_true hk')
  | fail hc hfails => exact hs.fail hc hover hfails

/-- **A step** leaves what is in the library. -/
theorem UploadsKept.keeps_step (hs : UploadsKept s) (hsteps : s.Steps e s') {dir : D}
    {name : Bytes} {entry : DirEntry} (hname : isoSuffix name = true)
    (hentry : (s.fs dir).lookup name = some entry) :
    (s'.fs dir).lookup name = some entry := by
  cases hsteps with
  | begin | setDir | locate | fail => exact hentry
  | act hc htarget hacts =>
    rename_i i n c t d p
    by_cases hdir : dir = t.dir
    · subst hdir
      rw [Uploads.settle_fs, Function.update_self, hacts.lookup_iso hname fun u hu _ heq => ?_]
      · exact hentry
      · obtain rfl : u = t :=
          Option.some.inj ((UploadPhase.target_of_pending hu).symm.trans htarget)
        have hfree := (hs.sound i c hc).free u hu
        rw [← heq, hentry] at hfree
        cases hfree
    · rw [Uploads.settle_fs, Function.update_of_ne hdir]
      exact hentry

/-- The upload that takes a step. -/
def UploadEvent.call : UploadEvent D → Option ℕ
  | .act i _ | .fail i => some i
  | .begin _ _ | .setDir _ => none

/-- An upload has moved its file. -/
def Uploads.Committed (s : Uploads D) (i : ℕ) : Prop :=
  ∃ c t, s.calls[i]? = some c ∧ c.phase.committed = some t

/-- A step that changes the library is that of an upload that moves its file. -/
theorem Uploads.Steps.lookup_or_committed (hsteps : s.Steps e s') (hi : e.call = some i) :
    s'.Committed i ∨ ∀ dir name, isoSuffix name = true →
      (s'.fs dir).lookup name = (s.fs dir).lookup name := by
  cases hsteps with
  | begin | setDir => cases hi
  | locate | fail => exact .inr fun _ _ _ => rfl
  | act hc htarget hacts =>
    rename_i j n c t d p
    obtain rfl := Option.some.inj hi
    cases hcommitted : p.committed with
    | some u =>
      refine .inl ⟨{ c with phase := p }, u, ?_, hcommitted⟩
      exact List.getElem?_set_self (List.getElem?_eq_some_iff.mp hc).1
    | none =>
      refine .inr fun dir name hname => ?_
      by_cases hdir : dir = t.dir
      · subst hdir
        rw [Uploads.settle_fs, Function.update_self,
          hacts.lookup_iso hname fun u _ hu => by simp [hcommitted] at hu]
      · rw [Uploads.settle_fs, Function.update_of_ne hdir]

/-- An upload that has moved its file succeeds. -/
theorem UploadsKept.committed_step (hs : UploadsKept s) (hover : NoOverlap s e)
    (hsteps : s.Steps e s') (hi : s.Committed i) : s'.Committed i := by
  obtain ⟨c, t, hc, hcommitted⟩ := hi
  have hlen : i < s.calls.length := (List.getElem?_eq_some_iff.mp hc).1
  obtain ⟨w, hw⟩ := (hs.sound i c hc).filled t hcommitted
  -- the call itself may take a step, or another one does
  have hset : ∀ (j : ℕ) (c' : Upload D) (p : UploadPhase D), s.calls[j]? = some c' →
      (j = i → ∃ u, p.committed = some u) →
      ∃ c'' u, (s.calls.set j { c' with phase := p })[i]? = some c'' ∧
        c''.phase.committed = some u := by
    intro j c' p hj hp
    by_cases hji : j = i
    · obtain ⟨u, hu⟩ := hp hji
      rw [hji]
      exact ⟨_, u, List.getElem?_set_self hlen, hu⟩
    · exact ⟨c, t, by rw [List.getElem?_set_ne hji, hc], hcommitted⟩
  cases hsteps with
  | begin => exact ⟨c, t, by rw [List.getElem?_append_left hlen, hc], hcommitted⟩
  | setDir => exact ⟨c, t, hc, hcommitted⟩
  | locate hj hbegun =>
    refine hset _ _ _ hj fun hji => ?_
    subst hji
    rw [Option.some.inj (hc.symm.trans hj), hbegun] at hcommitted
    cases hcommitted
  | act hj htarget hacts =>
    refine hset _ _ _ hj fun hji => ?_
    subst hji
    obtain rfl := Option.some.inj (hc.symm.trans hj)
    obtain rfl := Option.some.inj
      ((UploadPhase.target_of_committed hcommitted).symm.trans htarget)
    refine hacts.committed hcommitted ?_
    rw [Directory.stat, hw]
    rfl
  | fail hj hfails =>
    refine hset _ _ _ hj fun hji => ?_
    subst hji
    obtain rfl := Option.some.inj (hc.symm.trans hj)
    exact hfails.committed hcommitted fun t n => hover c t n hc

/-- An upload reports nothing but a name that is there. -/
def UploadPhase.Honest (p : UploadPhase D) : Prop :=
  ∀ t err, (∃ n, p = .leaving t n (.error err)) ∨ p = .returned (some t) (.error err) →
    err = .alreadyExists

omit [DecidableEq D] in
theorem UploadPhase.Acts.honest {taken : Bytes → Bool} {fs : D → Directory} {d' : Directory}
    {p p' : UploadPhase D} (h : p.Acts taken (fs t.dir) d' p') (htarget : p.target = some t)
    (hsound : p.Sound fs) (hhonest : p.Honest) : p'.Honest := by
  cases h with
  | refuse =>
    rintro u err (⟨n, hu⟩ | hu) <;> cases hu
    rfl
  | check | create | write | stage | move | report =>
    rintro u err (⟨n, hu⟩ | hu) <;> cases hu
  | lose hlost =>
    -- the temporary file is there, and nothing stands under the name
    obtain rfl := Option.some.inj htarget
    obtain ⟨w, hw⟩ := hsound.temp _ _ _ rfl
    have hfree := hsound.free _ rfl
    rcases hlost with hlost | ⟨empty, hlost⟩
    · rw [hw] at hlost
      cases hlost
    · rw [hfree] at hlost
      cases hlost
  | vanish hgone =>
    obtain rfl := Option.some.inj htarget
    obtain ⟨w, hw⟩ := hsound.filled _ rfl
    rw [Directory.stat, hw] at hgone
    cases hgone
  | leave =>
    rintro u err (⟨n, hu⟩ | hu) <;> cases hu
    exact hhonest _ _ (.inl ⟨_, rfl⟩)

/-- **An upload whose steps go through** reports nothing but a name that is there. -/
theorem UploadsKept.honest_step (hs : UploadsKept s) (hsteps : s.Steps e s') (hi : e ≠ .fail i)
    (hhonest : ∀ c, s.calls[i]? = some c → c.phase.Honest) :
    ∀ c, s'.calls[i]? = some c → c.phase.Honest := by
  intro c hc
  cases hsteps with
  | begin =>
    rcases getElem?_concat_cases hc with hc | rfl
    · exact hhonest c hc
    · simp [UploadPhase.Honest]
  | setDir => exact hhonest c hc
  | locate hj hbegun hp =>
    rcases getElem?_set_cases hc with ⟨rfl, rfl⟩ | ⟨-, hc⟩
    · rcases hp with ⟨t, rfl⟩ | rfl <;> simp [UploadPhase.Honest]
    · exact hhonest c hc
  | act hj htarget hacts =>
    rcases getElem?_set_cases hc with ⟨rfl, rfl⟩ | ⟨-, hc⟩
    · exact hacts.honest htarget (hs.sound _ _ hj) (hhonest _ hj)
    · exact hhonest c hc
  | fail hj =>
    rcases getElem?_set_cases hc with ⟨rfl, -⟩ | ⟨-, hc⟩
    · exact absurd rfl hi
    · exact hhonest c hc

end Kept

/-! ## Runs -/

section Runs

variable {D : Type} [DecidableEq D]

/-- A `Create` has returned, with the directory and the name it was for. -/
def Uploads.Returned (s : Uploads D) (i : ℕ) (t : Option (UploadTarget D))
    (result : Except IsoError Iso) : Prop :=
  ∃ c, s.calls[i]? = some c ∧ c.phase = .returned t result

/-- **Uploads never overwrite** in a run: an image that is in the library keeps its content, one
`Create` for each name and directory succeeds at most, the others report that the name is there
unless a call of theirs has failed, and no step of one that returns an error changes what is
listed. -/
structure NeverOverwrites (s₀ : Uploads D) (es : List (UploadEvent D)) : Prop where
  keeps : ∀ as bs s₁ s₂, es = as ++ bs → Machine.run Uploads.step s₀ as = some s₁ →
    Machine.run Uploads.step s₁ bs = some s₂ → ∀ dir name entry, isoSuffix name = true →
      (s₁.fs dir).lookup name = some entry → (s₂.fs dir).lookup name = some entry
  once : ∀ s, Machine.run Uploads.step s₀ es = some s → ∀ i j t img img',
    s.Returned i (some t) (.ok img) → s.Returned j (some t) (.ok img') → i = j
  others : ∀ s, Machine.run Uploads.step s₀ es = some s → ∀ i j t img result,
    s.Returned i (some t) (.ok img) → s.Returned j (some t) result → i ≠ j → .fail j ∉ es →
      result = .error .alreadyExists
  failed : ∀ as e bs s₁ s₂ s₃, es = as ++ e :: bs → Machine.run Uploads.step s₀ as = some s₁ →
    s₁.step e = some s₂ → Machine.run Uploads.step s₂ bs = some s₃ → ∀ i t err,
      e.call = some i → s₃.Returned i t (.error err) → ∀ dir img,
        img ∈ (s₂.fs dir).listIsos ↔ img ∈ (s₁.fs dir).listIsos

variable {s₀ s : Uploads D} {es : List (UploadEvent D)} {i j : ℕ}

theorem UploadsKept.of_run {s₁ : Uploads D} (hs : UploadsKept s₁)
    (hover : Machine.Along Uploads.step NoOverlap s₁ es)
    (hrun : Machine.run Uploads.step s₁ es = some s) : UploadsKept s :=
  Machine.run_inv (fun _ _ _ hs hover hstep => hs.step hover (steps_of_step hstep)) hs hover hrun

/-- Images stay over a run. -/
theorem UploadsKept.keeps_run {s₁ : Uploads D} (hs : UploadsKept s₁)
    (hover : Machine.Along Uploads.step NoOverlap s₁ es)
    (hrun : Machine.run Uploads.step s₁ es = some s) {dir : D} {name : Bytes} {entry : DirEntry}
    (hname : isoSuffix name = true) (hentry : (s₁.fs dir).lookup name = some entry) :
    (s.fs dir).lookup name = some entry := by
  have hinv := Machine.run_inv
    (I := fun s => UploadsKept s ∧ (s.fs dir).lookup name = some entry)
    (fun _ _ _ hs hover hstep => ⟨hs.1.step hover (steps_of_step hstep),
      hs.1.keeps_step (steps_of_step hstep) hname hs.2⟩) ⟨hs, hentry⟩ hover hrun
  exact hinv.2

/-- An upload that has moved its file has done so at the end. -/
theorem UploadsKept.committed_run {s₁ : Uploads D} (hs : UploadsKept s₁)
    (hover : Machine.Along Uploads.step NoOverlap s₁ es)
    (hrun : Machine.run Uploads.step s₁ es = some s) (hi : s₁.Committed i) : s.Committed i := by
  have hinv := Machine.run_inv (I := fun s => UploadsKept s ∧ s.Committed i)
    (fun _ _ _ hs hover hstep => ⟨hs.1.step hover (steps_of_step hstep),
      hs.1.committed_step hover (steps_of_step hstep) hs.2⟩) ⟨hs, hi⟩ hover hrun
  exact hinv.2

theorem UploadsKept.honest_run (hs : UploadsKept s₀) (hcalls : s₀.calls = [])
    (hover : Machine.Along Uploads.step NoOverlap s₀ es)
    (hrun : Machine.run Uploads.step s₀ es = some s) (hi : .fail i ∉ es) :
    ∀ c, s.calls[i]? = some c → c.phase.Honest := by
  have hguard := hover.and_forall (P := fun e => e ≠ .fail i)
    fun e he heq => hi (heq ▸ he)
  have hinv := Machine.run_inv
    (I := fun s => UploadsKept s ∧ ∀ c, s.calls[i]? = some c → c.phase.Honest)
    (fun _ _ _ hs hover hstep => ⟨hs.1.step hover.1 (steps_of_step hstep),
      hs.1.honest_step (steps_of_step hstep) hover.2 hs.2⟩)
    ⟨hs, fun c hc => by simp [hcalls] at hc⟩ hguard hrun
  exact hinv.2

theorem listIsos_congr {d d' : Directory}
    (h : ∀ name, isoSuffix name = true → d'.lookup name = d.lookup name) (img : Iso) :
    img ∈ d'.listIsos ↔ img ∈ d.listIsos := by
  rw [mem_listIsos, mem_listIsos]
  constructor
  · rintro ⟨name, e, hlookup, hdir, hname, himg⟩
    exact ⟨name, e, (h name hname).symm.trans hlookup, hdir, hname, himg⟩
  · rintro ⟨name, e, hlookup, hdir, hname, himg⟩
    exact ⟨name, e, (h name hname).trans hlookup, hdir, hname, himg⟩

end Runs

/-- A library without images. -/
def quietStore : Uploads Unit :=
  ⟨(), fun _ => ⟨∅, Directory.no_slash_empty⟩, []⟩

/-- An upload up to its temporary file. -/
def oneUpload : List (UploadEvent Unit) :=
  [.begin (bytesOf "a.iso") [1], .act 0 0, .act 0 0, .act 0 1]

/-- What is left of an upload of one byte from its temporary file on. -/
def finishUpload (i : ℕ) : List (UploadEvent Unit) :=
  [.act i 1, .act i 0, .act i 0, .act i 0, .act i 0, .act i 0, .act i 0]

/-- Two uploads of one name, both of which look for it before one has moved its file. -/
def twoUploads : List (UploadEvent Unit) :=
  [.begin (bytesOf "a.iso") [1], .begin (bytesOf "a.iso") [2], .act 0 0, .act 1 0, .act 0 0,
    .act 1 0, .act 0 1, .act 1 2] ++ finishUpload 0 ++ finishUpload 1

theorem isoValidID_a : isoValidID (nameText (bytesOf "a.iso")) = true := by decide

/-- The name that both are for. -/
def uploadA : UploadTarget Unit := ⟨(), ⟨bytesOf "a.iso", isoValidID_a⟩⟩

end Ultrav
