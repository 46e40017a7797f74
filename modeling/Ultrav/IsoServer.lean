import Ultrav.IsoUploads

/-!
# The ISO library at work

Uploads, deletions and changes of the directory run side by side, in a process that can be killed at
any point and started again.

* `IsoServer` / `IsoServer.step` — the process with its calls, and one step of one of them.
* `UploadPhase.Copied` — what an upload has copied is the beginning of its content.
* `Whole` — what holds between the steps: each image is one that was there or a whole upload.
* `listed_whole` — what is listed is never half of an upload.
* `Tidy` / `nothing_left` — what is no image is as it was, once the calls have returned.
-/

namespace Ultrav

open Url

variable {D : Type}

/-! ## The process -/

/-- The process: its uploads, with the store and the directories, and its deletions. -/
structure IsoServer (D : Type) where
  uploads : Uploads D
  /-- the calls of `Delete` that have read the directory and are to remove the file -/
  deletes : List (UploadTarget D)

/-- A step. -/
inductive IsoServerEvent (D : Type) where
  | upload (e : UploadEvent D)
  /-- `Delete` checks the name and reads the directory -/
  | delete (id : Bytes)
  /-- one of these calls removes its file, or fails to -/
  | remove (i : ℕ) (fails : Bool)
  /-- the process is killed, and started again on a directory -/
  | restart (dir : D)

namespace IsoServer

variable [DecidableEq D]

/-- One step. A temporary file outlives the process. -/
def step (s : IsoServer D) : IsoServerEvent D → Option (IsoServer D)
  | .upload e => (s.uploads.step e).map fun u => { s with uploads := u }
  | .delete id =>
    if h : isoValidID (nameText id) = true then
      some { s with deletes := s.deletes ++ [⟨s.uploads.dir, ⟨id, h⟩⟩] }
    else some s
  | .remove i fails =>
    s.deletes[i]?.map fun t =>
      let fs := if fails then s.uploads.fs
        else Function.update s.uploads.fs t.dir ((s.uploads.fs t.dir).delete t.dst.val).2
      ⟨{ s.uploads with fs := fs }, s.deletes.eraseIdx i⟩
  | .restart dir => some ⟨{ s.uploads with dir := dir, calls := [] }, []⟩

end IsoServer

/-! ## Temporary files -/

/-- What is left to copy. -/
def TempStage.rest : TempStage → Bytes
  | copy rest => rest
  | close | chmod | rename => []

/-- What an upload has copied is the beginning of its content. -/
def UploadPhase.Copied (content : Bytes) (d : Directory) (p : UploadPhase D) : Prop :=
  ∀ t n stage, p = .temp t n stage →
    ∃ w, d.lookup (tmpName n) = some (.file w) ∧ w ++ stage.rest = content

namespace UploadPhase

variable {taken : Bytes → Bool} {n : ℕ} {content : Bytes} {d d' : Directory} {p p' : UploadPhase D}

theorem Copied.of_ne (h : ∀ t n stage, p ≠ .temp t n stage) : p.Copied content d :=
  fun t n stage hp => absurd hp (h t n stage)

/-- **A step of an upload** copies on, or moves the whole content. -/
theorem Copied.act (h : p.Copied content d) (hact : p.act taken n content d = some (d', p')) :
    p'.Copied content d' ∧ ∀ t, p.pending = some t → p'.committed = some t →
      d'.lookup t.dst.val = some (.file content) := by
  cases p with
  | begun => cases hact
  | returned t result => cases hact
  | located t =>
    obtain ⟨rfl, rfl⟩ := Prod.mk.inj (Option.some.inj hact)
    refine ⟨.of_ne ?_, fun u hu => (by cases hu)⟩
    split <;> rintro _ _ _ ⟨⟩
  | absent t =>
    rw [UploadPhase.act] at hact
    split at hact
    · cases hact
    · obtain ⟨rfl, rfl⟩ := Prod.mk.inj (Option.some.inj hact)
      refine ⟨?_, fun u _ hu => (by cases hu)⟩
      rintro _ _ _ ⟨⟩
      exact ⟨[], by rw [Directory.lookup_put, if_pos rfl], rfl⟩
  | temp t tmp stage =>
    obtain ⟨w, hw, hcontent⟩ := h t tmp stage rfl
    cases stage with
    | copy rest =>
      rw [UploadPhase.act] at hact
      split at hact
      · rename_i hnil
        obtain ⟨rfl, rfl⟩ := Prod.mk.inj (Option.some.inj hact)
        refine ⟨?_, fun u _ hu => (by cases hu)⟩
        rintro _ _ _ ⟨⟩
        refine ⟨w, hw, ?_⟩
        rw [← hcontent, TempStage.rest, TempStage.rest, hnil]
      · rw [hw] at hact
        obtain ⟨rfl, rfl⟩ := Prod.mk.inj (Option.some.inj hact)
        refine ⟨?_, fun u _ hu => (by cases hu)⟩
        rintro _ _ _ ⟨⟩
        refine ⟨w ++ rest.take n, by rw [Directory.lookup_put, if_pos rfl], ?_⟩
        rw [← hcontent, TempStage.rest, TempStage.rest, List.append_assoc, List.take_append_drop]
    | close | chmod =>
      obtain ⟨rfl, rfl⟩ := Prod.mk.inj (Option.some.inj hact)
      refine ⟨?_, fun u _ hu => (by cases hu)⟩
      rintro _ _ _ ⟨⟩
      exact ⟨w, hw, hcontent⟩
    | rename =>
      rw [UploadPhase.act, hw] at hact
      split at hact
      · rename_i hnone
        cases hnone
      · obtain ⟨rfl, rfl⟩ := Prod.mk.inj (Option.some.inj hact)
        exact ⟨.of_ne (by rintro _ _ _ ⟨⟩), fun u _ hu => (by cases hu)⟩
      · rename_i e he _
        obtain ⟨rfl, rfl⟩ := Prod.mk.inj (Option.some.inj hact)
        refine ⟨.of_ne (by rintro _ _ _ ⟨⟩), fun u hu _ => ?_⟩
        obtain rfl := Option.some.inj hu
        rw [Directory.lookup_put, if_pos rfl, ← Option.some.inj he, ← hcontent, TempStage.rest,
          List.append_nil]
  | renamed t tmp =>
    rw [UploadPhase.act] at hact
    split at hact <;> obtain ⟨rfl, rfl⟩ := Prod.mk.inj (Option.some.inj hact) <;>
      exact ⟨.of_ne (by rintro _ _ _ ⟨⟩), fun u hu => (by cases hu)⟩
  | leaving t tmp result =>
    obtain ⟨rfl, rfl⟩ := Prod.mk.inj (Option.some.inj hact)
    exact ⟨.of_ne (by rintro _ _ _ ⟨⟩), fun u hu => (by cases hu)⟩

end UploadPhase

/-! ## Whole images -/

section Kept

variable {sent : Bytes → Bytes → Prop} {fs fs' : D → Directory} {s s' : Uploads D} {i : ℕ}
  {c : Upload D}

/-- An upload that was sent, and has copied the beginning of its content. -/
structure Upload.Sound (sent : Bytes → Bytes → Prop) (fs : D → Directory) (c : Upload D) :
    Prop where
  sent : sent c.name c.content
  name : ∀ t, c.phase.target = some t → t.dst.val = c.name
  copied : ∀ t, c.phase.target = some t → c.phase.Copied c.content (fs t.dir)

/-- An upload whose temporary file stays. -/
theorem Upload.Sound.frame (h : c.Sound sent fs) (hkeep : ∀ dir name,
    c.phase.scratch = some (dir, name) → (fs' dir).lookup name = (fs dir).lookup name) :
    c.Sound sent fs' := by
  refine ⟨h.sent, h.name, fun t ht u n stage hp => ?_⟩
  have hu : c.phase.target = some u := by rw [hp]; rfl
  obtain rfl := Option.some.inj (ht.symm.trans hu)
  obtain ⟨w, hw, hcontent⟩ := h.copied t ht t n stage hp
  refine ⟨w, ?_, hcontent⟩
  rw [hkeep t.dir (tmpName n) (by rw [hp]; rfl)]
  exact hw

/-- An image is one that was there, or an upload from its first byte to its last. -/
def WholeImages (sent : Bytes → Bytes → Prop) (fs₀ fs : D → Directory) : Prop :=
  ∀ dir name e, isoSuffix name = true → (fs dir).lookup name = some e →
    (fs₀ dir).lookup name = some e ∨ ∃ content, sent name content ∧ e = .file content

/-- What holds between the steps, `sent` being the uploads that begin and `fs₀` what was there. -/
structure Whole (sent : Bytes → Bytes → Prop) (fs₀ : D → Directory) (s : Uploads D) : Prop where
  images : WholeImages sent fs₀ s.fs
  sound : ∀ (i : ℕ) (c : Upload D), s.calls[i]? = some c → c.Sound sent s.fs
  alone : ∀ (i j : ℕ) (c c' : Upload D) (k : D × Bytes), s.calls[i]? = some c →
    s.calls[j]? = some c' → c.phase.scratch = some k → c'.phase.scratch = some k → i = j

/-- **An upload that moves on**: the others keep what they have. -/
theorem Whole.replace {fs₀ : D → Directory} (h : Whole sent fs₀ s) {p : UploadPhase D}
    (hc : s.calls[i]? = some c) (himages : WholeImages sent fs₀ fs')
    (hsound : Upload.Sound sent fs' { c with phase := p })
    (hothers : ∀ j c', j ≠ i → s.calls[j]? = some c' → c'.Sound sent fs')
    (hscratch : ∀ k, p.scratch = some k → c.phase.scratch = some k ∨
      ∀ j c', j ≠ i → s.calls[j]? = some c' → c'.phase.scratch ≠ some k) :
    Whole sent fs₀ { s with fs := fs', calls := s.calls.set i { c with phase := p } } := by
  refine ⟨himages, fun j c' hj => ?_, fun j l c' c'' k hj hl hk hk' => ?_⟩
  · rcases getElem?_set_cases hj with ⟨-, rfl⟩ | ⟨hji, hj⟩
    · exact hsound
    · exact hothers j c' hji hj
  · rcases getElem?_set_cases hj with ⟨rfl, rfl⟩ | ⟨hji, hj₀⟩ <;>
      rcases getElem?_set_cases hl with ⟨rfl, rfl⟩ | ⟨hli, hl₀⟩
    · rfl
    · rcases hscratch k hk with hown | hnone
      · exact h.alone _ _ c c'' k hc hl₀ hown hk'
      · exact absurd hk' (hnone l c'' hli hl₀)
    · rcases hscratch k hk' with hown | hnone
      · exact h.alone _ _ c' c k hj₀ hc hk hown
      · exact absurd hk (hnone j c' hji hj₀)
    · exact h.alone j l c' c'' k hj₀ hl₀ hk hk'

variable [DecidableEq D]

/-- The files that an upload changes in its directory: its temporary file, and the name that it
moves it onto. -/
theorem UploadPhase.Acts.lookup_update {t : UploadTarget D} {d : Directory} {p p' : UploadPhase D}
    (h : p.Acts (s.taken t.dir) (s.fs t.dir) d p') {dir : D} {name : Bytes}
    (htmp : ∀ k, dir = t.dir → p.scratch = some k ∨ p'.scratch = some k → name ≠ k.2)
    (hdst : ∀ u, dir = t.dir → p.pending = some u → p'.committed = some u → name ≠ u.dst.val) :
    (Function.update s.fs t.dir d dir).lookup name = (s.fs dir).lookup name := by
  by_cases hdir : dir = t.dir
  · rw [hdir, Function.update_self]
    exact h.lookup_eq (fun dir' tmp hk => htmp (dir', tmp) hdir hk) fun u => hdst u hdir
  · rw [Function.update_of_ne hdir]

/-- **A step of an upload** leaves the temporary files of the others. -/
theorem Whole.scratch_lookup {fs₀ : D → Directory} (h : Whole sent fs₀ s) {t : UploadTarget D}
    {d : Directory} {p : UploadPhase D} (hc : s.calls[i]? = some c)
    (htarget : c.phase.target = some t)
    (hacts : c.phase.Acts (s.taken t.dir) (s.fs t.dir) d p) {j : ℕ} {c' : Upload D}
    (hji : j ≠ i) (hj : s.calls[j]? = some c') {dir : D} {name : Bytes}
    (hscratch : c'.phase.scratch = some (dir, name)) :
    (Function.update s.fs t.dir d dir).lookup name = (s.fs dir).lookup name := by
  obtain ⟨u, m, -, hk⟩ := UploadPhase.scratch_eq_some hscratch
  obtain ⟨rfl, rfl⟩ := Prod.mk.inj hk
  refine hacts.lookup_update (fun k hdir hk heq => ?_)
    fun v _ _ _ heq => dst_ne_tmpName v.dst m heq.symm
  -- the file would be that of two uploads
  have hpresent : s.taken t.dir (tmpName m) = true :=
    List.any_eq_true.mpr ⟨c', List.mem_of_getElem? hj, by rw [hscratch, hdir]; simp⟩
  have hown : c.phase.scratch = some k := by
    rcases hk with hk | hk
    · exact hk
    · refine (hacts.scratch_cases hk).resolve_right fun hfree => ?_
      rw [← heq, hpresent] at hfree
      cases hfree
  obtain ⟨v, l, hv, rfl⟩ := UploadPhase.scratch_eq_some hown
  obtain rfl := Option.some.inj (hv.symm.trans htarget)
  refine hji (h.alone j i c' c _ hj hc hscratch ?_)
  rw [hown, ← hdir]
  exact congrArg (fun name => some (u.dir, name)) heq.symm

/-- **A step of an upload** puts a whole image there, or none. -/
theorem Whole.images_of_act {fs₀ : D → Directory} (h : Whole sent fs₀ s) {t : UploadTarget D}
    {d : Directory} {p : UploadPhase D} {n : ℕ} (hc : s.calls[i]? = some c)
    (htarget : c.phase.target = some t)
    (hact : c.phase.act (s.taken t.dir) n c.content (s.fs t.dir) = some (d, p)) :
    WholeImages sent fs₀ (Function.update s.fs t.dir d) := by
  have hsound := h.sound i c hc
  obtain ⟨-, hmoved⟩ := (hsound.copied t htarget).act hact
  intro dir name e hname he
  by_cases hmove : dir = t.dir ∧
      ∃ u, c.phase.pending = some u ∧ p.committed = some u ∧ name = u.dst.val
  · obtain ⟨rfl, u, hu, hu', rfl⟩ := hmove
    obtain rfl := Option.some.inj ((UploadPhase.target_of_pending hu).symm.trans htarget)
    rw [Function.update_self, hmoved u hu hu'] at he
    obtain rfl := Option.some.inj he
    refine .inr ⟨c.content, ?_, rfl⟩
    rw [hsound.name u htarget]
    exact hsound.sent
  · refine h.images dir name e hname ?_
    rw [← he]
    refine ((UploadPhase.acts_of_act hact).lookup_update (fun k _ hk heq => ?_)
      fun u hdir hu hu' heq => hmove ⟨hdir, u, hu, hu', heq⟩).symm
    obtain ⟨m, hm⟩ : ∃ m, k.2 = tmpName m := by
      rcases hk with hk | hk
      · obtain ⟨-, m, -, rfl⟩ := UploadPhase.scratch_eq_some hk
        exact ⟨m, rfl⟩
      · obtain ⟨-, m, -, rfl⟩ := UploadPhase.scratch_eq_some hk
        exact ⟨m, rfl⟩
    rw [heq, hm, isoSuffix_tmpName] at hname
    cases hname

/-- What a step of an upload does: it reads the directory, or works in it. -/
theorem act_eq_some {n : ℕ} (h : s.step (.act i n) = some s') : ∃ c, s.calls[i]? = some c ∧
    ((c.phase = .begun ∧ ∃ p, ((∃ h, p = .located ⟨s.dir, ⟨c.name, h⟩⟩) ∨
        p = .returned none (.error .invalid)) ∧
        s' = { s with calls := s.calls.set i { c with phase := p } }) ∨
      ∃ t d p, c.phase.target = some t ∧
        c.phase.act (s.taken t.dir) n c.content (s.fs t.dir) = some (d, p) ∧
        s' = s.settle i c t.dir d p) := by
  rw [Uploads.step] at h
  obtain ⟨c, hc, h⟩ := Option.bind_eq_some_iff.mp h
  refine ⟨c, hc, ?_⟩
  split at h
  · rename_i hbegun
    obtain rfl := Option.some.inj h
    by_cases hvalid : isoValidID (nameText c.name) = true
    · exact .inl ⟨hbegun, _, .inl ⟨hvalid, rfl⟩, by rw [dif_pos hvalid]⟩
    · exact .inl ⟨hbegun, _, .inr rfl, by rw [dif_neg hvalid]⟩
  · obtain ⟨t, htarget, h⟩ := Option.bind_eq_some_iff.mp h
    obtain ⟨⟨d, p⟩, hact, rfl⟩ := Option.map_eq_some_iff.mp h
    exact .inr ⟨t, d, p, htarget, hact, rfl⟩

/-- **Every step** of the uploads keeps the images whole. -/
theorem Whole.upload {fs₀ : D → Directory} {e : UploadEvent D} (h : Whole sent fs₀ s)
    (hsent : ∀ name content, e = .begin name content → sent name content)
    (hs : s.step e = some s') : Whole sent fs₀ s' := by
  cases e with
  | begin name content =>
    obtain rfl := Option.some.inj hs
    refine ⟨h.images, fun j c hj => ?_, fun j l c c' k hj hl hk hk' => ?_⟩
    · rcases getElem?_concat_cases hj with hj | rfl
      · exact h.sound j c hj
      · exact ⟨hsent name content rfl, by rintro t ⟨⟩, by rintro t ⟨⟩⟩
    · rcases getElem?_concat_cases hj with hj | rfl
      · rcases getElem?_concat_cases hl with hl | rfl
        · exact h.alone j l c c' k hj hl hk hk'
        · cases hk'
      · cases hk
  | setDir dir =>
    obtain rfl := Option.some.inj hs
    exact ⟨h.images, h.sound, h.alone⟩
  | act i n =>
    obtain ⟨c, hc, ⟨-, p, hp, rfl⟩ | ⟨t, d, p, htarget, hact, rfl⟩⟩ := act_eq_some hs
    · have hsent := (h.sound i c hc).sent
      refine h.replace hc h.images ⟨hsent, fun t ht => ?_, fun t _ => .of_ne ?_⟩
        (fun j c' _ hj => h.sound j c' hj) fun k hk => ?_
      · rcases hp with ⟨hname, rfl⟩ | rfl
        · obtain rfl := Option.some.inj ht
          rfl
        · cases ht
      · rcases hp with ⟨_, rfl⟩ | rfl <;> rintro _ _ _ ⟨⟩
      · rcases hp with ⟨_, rfl⟩ | rfl <;> cases hk
    · have hacts := UploadPhase.acts_of_act hact
      have hsound := h.sound i c hc
      refine h.replace hc (h.images_of_act hc htarget hact)
        ⟨hsound.sent, fun u hu => hsound.name u (hacts.target_eq.symm.trans hu), fun u hu => ?_⟩
        (fun j c' hji hj => (h.sound j c' hj).frame fun dir name hk =>
          h.scratch_lookup hc htarget hacts hji hj hk) fun k hk => ?_
      · obtain rfl := Option.some.inj ((hacts.target_eq.symm.trans hu).symm.trans htarget)
        rw [Function.update_self]
        exact ((hsound.copied u htarget).act hact).1
      · refine (hacts.scratch_cases hk).imp_right fun hfree j c' _ hj hk' => ?_
        obtain ⟨v, m, hv, rfl⟩ := UploadPhase.scratch_eq_some hk
        obtain rfl := Option.some.inj ((hacts.target_eq.symm.trans hv).symm.trans htarget)
        exact List.any_eq_false.mp hfree c' (List.mem_of_getElem? hj) (decide_eq_true hk')
  | fail i =>
    rw [Uploads.step] at hs
    obtain ⟨c, hc, hs⟩ := Option.bind_eq_some_iff.mp hs
    obtain ⟨p, hfail, rfl⟩ := Option.map_eq_some_iff.mp hs
    have hfails := UploadPhase.fails_of_fail hfail
    obtain ⟨hsent, hname, -⟩ := h.sound i c hc
    refine h.replace hc h.images ⟨hsent, fun t ht => hname t ?_, fun t _ => .of_ne ?_⟩
      (fun j c' _ hj => h.sound j c' hj) fun k hk => .inl ?_
    all_goals generalize c.phase = q at hfails
    · cases hfails <;> exact ht
    · cases hfails <;> rintro _ _ _ ⟨⟩
    · cases hfails with
      | create | leave => cases hk
      | work | report => exact hk

/-- A deletion takes one name away. -/
theorem lookup_delete (d : Directory) (id name : Bytes) :
    (d.delete id).2.lookup name = d.lookup name ∨
      name = id ∧ (d.delete id).2.lookup name = none := by
  rw [Directory.delete]
  split
  · exact .inl rfl
  · split
    · exact .inl rfl
    · exact .inl rfl
    · by_cases hname : name = id
      · exact .inr ⟨hname, by rw [Directory.lookup_erase, if_pos hname]⟩
      · exact .inl (by rw [Directory.lookup_erase, if_neg hname])

end Kept

namespace IsoServer

variable [DecidableEq D] {s s' : IsoServer D} {e : IsoServerEvent D} {i : ℕ}

/-- What a deletion that goes on does: it fails, or removes its name. -/
theorem remove_eq_some {fails : Bool} (h : s.step (.remove i fails) = some s') :
    ∃ t : UploadTarget D, s'.uploads.calls = s.uploads.calls ∧ ∀ dir name,
      (s'.uploads.fs dir).lookup name = (s.uploads.fs dir).lookup name ∨
        dir = t.dir ∧ name = t.dst.val ∧ (s'.uploads.fs dir).lookup name = none := by
  obtain ⟨t, -, rfl⟩ := Option.map_eq_some_iff.mp h
  refine ⟨t, rfl, fun dir name => ?_⟩
  cases fails with
  | true => exact .inl rfl
  | false =>
    change (Function.update s.uploads.fs t.dir _ dir).lookup name = _ ∨
      _ ∧ _ ∧ (Function.update s.uploads.fs t.dir _ dir).lookup name = none
    by_cases hdir : dir = t.dir
    · rw [hdir, Function.update_self]
      exact (lookup_delete _ _ _).imp_right fun hgone => ⟨rfl, hgone⟩
    · rw [Function.update_of_ne hdir]
      exact .inl rfl

/-- **Every step** keeps the images whole. -/
theorem whole_step {sent : Bytes → Bytes → Prop} {fs₀ : D → Directory}
    (h : Whole sent fs₀ s.uploads)
    (hsent : ∀ name content, e = .upload (.begin name content) → sent name content)
    (hs : s.step e = some s') : Whole sent fs₀ s'.uploads := by
  cases e with
  | upload e =>
    obtain ⟨u, hu, rfl⟩ := Option.map_eq_some_iff.mp hs
    exact h.upload (fun name content he => hsent name content (congrArg _ he)) hu
  | delete id =>
    rw [IsoServer.step] at hs
    split at hs <;> obtain rfl := Option.some.inj hs <;> exact h
  | remove i fails =>
    obtain ⟨t, hcalls, hlookup⟩ := remove_eq_some hs
    refine ⟨fun dir name e hname he => ?_, fun j c hj => ?_, ?_⟩
    · refine h.images dir name e hname ?_
      rcases hlookup dir name with hsame | ⟨-, -, hgone⟩
      · rw [← hsame, he]
      · rw [hgone] at he
        cases he
    · rw [hcalls] at hj
      refine (h.sound j c hj).frame fun dir name hk => ?_
      obtain ⟨u, n, -, hk⟩ := UploadPhase.scratch_eq_some hk
      obtain ⟨rfl, rfl⟩ := Prod.mk.inj hk
      exact (hlookup u.dir (tmpName n)).resolve_right fun hgone =>
        dst_ne_tmpName t.dst n hgone.2.1.symm
    · rw [hcalls]
      exact h.alone
  | restart dir =>
    obtain rfl := Option.some.inj hs
    exact ⟨h.images, by rintro i c ⟨⟩, by rintro i j c c' k ⟨⟩⟩

/-- **What is listed is whole**: after any uploads, deletions and changes of the directory, however
they interleave, whatever fails and wherever the process is killed, each image that is listed is one
that was there, or one that was uploaded under this name, from its first byte to its last. -/
theorem listed_whole {s₀ : IsoServer D} {es : List (IsoServerEvent D)}
    (hcalls : s₀.uploads.calls = []) (hrun : Machine.run step s₀ es = some s) {dir : D} {img : Iso}
    (himg : img ∈ (s.uploads.fs dir).listIsos) :
    ∃ entry, (s.uploads.fs dir).lookup img.id = some entry ∧ img = toIso img.id entry.size ∧
      ((s₀.uploads.fs dir).lookup img.id = some entry ∨
        ∃ content, .upload (.begin img.id content) ∈ es ∧ entry = .file content) := by
  have hwhole := Machine.run_inv
    (I := fun s => Whole (fun name content => .upload (.begin name content) ∈ es)
      s₀.uploads.fs s.uploads)
    (fun _ _ _ h he hs => whole_step h (fun name content heq => heq ▸ he) hs)
    ⟨fun _ _ _ _ he => .inl he, by simp [hcalls], by simp [hcalls]⟩
    (Machine.Along.of_forall s₀ fun _ he => he) hrun
  obtain ⟨name, entry, hentry, -, hname, rfl⟩ := mem_listIsos.mp himg
  exact ⟨entry, hentry, rfl, hwhole.images dir name entry hname hentry⟩

end IsoServer

/-- A process without calls. -/
def IsoServer.quiet : IsoServer Unit := ⟨quietStore, []⟩

/-- An upload that is killed half way, and another one up to its last step but two. -/
def killedUpload : List (IsoServerEvent Unit) :=
  [.upload (.begin (bytesOf "a.iso") [1, 2]), .upload (.act 0 0), .upload (.act 0 0),
    .upload (.act 0 7), .upload (.act 0 1), .restart (), .upload (.begin (bytesOf "a.iso") [3]),
    .upload (.act 0 0), .upload (.act 0 0), .upload (.act 0 8), .upload (.act 0 5),
    .upload (.act 0 0), .upload (.act 0 0), .upload (.act 0 0), .upload (.act 0 0)]

/-- Where it leads. -/
def IsoServer.killed : IsoServer Unit := (Machine.run step quiet killedUpload).getD quiet

/-- The one that was killed is not listed. -/
theorem IsoServer.listed_whole_killed :
    ∃ entry, (killed.uploads.fs ()).lookup (bytesOf "a.iso") = some entry ∧
      toIso (bytesOf "a.iso") 1 = toIso (bytesOf "a.iso") entry.size ∧
      ((quiet.uploads.fs ()).lookup (bytesOf "a.iso") = some entry ∨
        ∃ content, .upload (.begin (bytesOf "a.iso") content) ∈ killedUpload ∧
          entry = .file content) :=
  listed_whole rfl (rfl : Machine.run step quiet killedUpload = some killed)
    (mem_listIsos.mpr ⟨bytesOf "a.iso", .file [3], rfl, rfl, by decide, rfl⟩)

/-! ## What the uploads leave behind -/

namespace UploadPhase

variable {taken : Bytes → Bool} {d d' : Directory} {p p' : UploadPhase D} {k : D × Bytes}

/-- A temporary file is new when it is drawn. -/
theorem Acts.scratch_new (h : Acts taken d p d' p') {t : UploadTarget D}
    (htarget : p.target = some t) (hk : p'.scratch = some k) :
    p.scratch = some k ∨ k.1 = t.dir ∧ d.lookup k.2 = none := by
  cases h with
  | refuse | check | leave => cases hk
  | create hnew =>
    obtain rfl := Option.some.inj htarget
    obtain rfl := Option.some.inj hk
    exact .inr ⟨rfl, hnew⟩
  | write | stage | lose | move | report | vanish => exact .inl hk

/-- It is gone when the upload has it no more. -/
theorem Acts.scratch_gone (h : Acts taken d p d' p') (hk : p.scratch = some k)
    (hk' : p'.scratch ≠ some k) : d'.lookup k.2 = none := by
  cases h with
  | refuse | check | create => cases hk
  | write | stage | lose | move | report | vanish => exact absurd hk hk'
  | leave =>
    obtain rfl := Option.some.inj hk
    rw [Directory.lookup_erase, if_pos rfl]

end UploadPhase

/-- What is no image is as it was, or the temporary file of an upload, which was not there. -/
structure Tidy (fs₀ : D → Directory) (s : Uploads D) : Prop where
  files : ∀ dir name, isoSuffix name = false →
    (s.fs dir).lookup name = (fs₀ dir).lookup name ∨
      ∃ (i : ℕ) (c : Upload D), s.calls[i]? = some c ∧ c.phase.scratch = some (dir, name)
  fresh : ∀ (i : ℕ) (c : Upload D) (k : D × Bytes), s.calls[i]? = some c →
    c.phase.scratch = some k → (fs₀ k.1).lookup k.2 = none

section Tidy

variable {fs₀ : D → Directory} {s s' : Uploads D} {i : ℕ} {c : Upload D} {p : UploadPhase D}

/-- A call that keeps its temporary file, or has none. -/
theorem Tidy.replace (h : Tidy fs₀ s) (hc : s.calls[i]? = some c)
    (hp : p.scratch = c.phase.scratch) :
    Tidy fs₀ { s with calls := s.calls.set i { c with phase := p } } := by
  refine ⟨fun dir name hname => (h.files dir name hname).imp_right ?_, fun j c' k hj hk => ?_⟩
  · rintro ⟨j, c', hj, hk⟩
    by_cases hji : j = i
    · subst hji
      obtain rfl := Option.some.inj (hc.symm.trans hj)
      exact ⟨j, _, List.getElem?_set_self (List.getElem?_eq_some_iff.mp hc).1, hp.trans hk⟩
    · exact ⟨j, c', (List.getElem?_set_ne (Ne.symm hji)).trans hj, hk⟩
  · rcases getElem?_set_cases hj with ⟨rfl, rfl⟩ | ⟨-, hj⟩
    · exact h.fresh j c k hc (hp.symm.trans hk)
    · exact h.fresh j c' k hj hk

variable [DecidableEq D]

/-- **An upload that works in its directory** leaves what is no image, up to its temporary file. -/
theorem Tidy.settle (h : Tidy fs₀ s) (hc : s.calls[i]? = some c) {t : UploadTarget D}
    (htarget : c.phase.target = some t) {d : Directory}
    (hacts : c.phase.Acts (s.taken t.dir) (s.fs t.dir) d p) :
    Tidy fs₀ (s.settle i c t.dir d p) := by
  have hlen := (List.getElem?_eq_some_iff.mp hc).1
  have hdir : ∀ k, c.phase.scratch = some k ∨ p.scratch = some k → k.1 = t.dir := by
    rintro k (hk | hk)
    · obtain ⟨u, n, hu, rfl⟩ := UploadPhase.scratch_eq_some hk
      obtain rfl := Option.some.inj (hu.symm.trans htarget)
      rfl
    · obtain ⟨u, n, hu, rfl⟩ := UploadPhase.scratch_eq_some hk
      obtain rfl := Option.some.inj ((hacts.target_eq.symm.trans hu).symm.trans htarget)
      rfl
  refine ⟨fun dir name hname => ?_, fun j c' k hj hk => ?_⟩
  · by_cases hnew : p.scratch = some (dir, name)
    · exact .inr ⟨i, _, List.getElem?_set_self hlen, hnew⟩
    by_cases hold : c.phase.scratch = some (dir, name)
    · -- the file was not there before the upload, and is not there now
      obtain rfl : dir = t.dir := hdir _ (.inl hold)
      refine .inl ?_
      rw [Uploads.settle_fs, Function.update_self, hacts.scratch_gone hold hnew]
      exact (h.fresh i c _ hc hold).symm
    · rcases h.files dir name hname with hsame | ⟨j, c', hj, hk⟩
      · refine .inl (Eq.trans ?_ hsame)
        rw [Uploads.settle_fs]
        refine hacts.lookup_update (fun k hkt hk heq => ?_) fun u _ _ _ heq => ?_
        · obtain rfl : k = (dir, name) := Prod.ext ((hdir k hk).trans hkt.symm) heq.symm
          rcases hk with hk | hk
          · exact hold hk
          · exact hnew hk
        · rw [heq, isoSuffix_dst] at hname
          cases hname
      · refine .inr ⟨j, c', ?_, hk⟩
        have hji : i ≠ j := by
          rintro rfl
          obtain rfl := Option.some.inj (hc.symm.trans hj)
          exact hold hk
        exact (List.getElem?_set_ne hji).trans hj
  · rcases getElem?_set_cases hj with ⟨rfl, rfl⟩ | ⟨-, hj⟩
    · rcases hacts.scratch_new htarget hk with hk | ⟨hkt, hnone⟩
      · exact h.fresh j c k hc hk
      · obtain ⟨u, n, -, rfl⟩ := UploadPhase.scratch_eq_some hk
        dsimp only at hkt hnone ⊢
        rw [← hkt] at hnone
        rcases h.files u.dir (tmpName n) (isoSuffix_tmpName n) with hsame | ⟨l, c', hl, hown⟩
        · exact hsame.symm.trans hnone
        · exact h.fresh l c' _ hl hown
    · exact h.fresh j c' k hj hk

end Tidy

namespace IsoServer

variable [DecidableEq D] {s s' : IsoServer D} {e : IsoServerEvent D}

/-- The steps that clean up: the process is not killed, and the deferred `Remove` of an upload does
not fail. -/
def CleansUp (s : IsoServer D) : IsoServerEvent D → Prop
  | .upload (.fail i) => ∀ c t n result, s.uploads.calls[i]? = some c →
    c.phase ≠ .leaving t n result
  | .restart _ => False
  | .upload (.begin _ _) | .upload (.setDir _) | .upload (.act _ _) => True
  | .delete _ | .remove _ _ => True

theorem tidy_step {fs₀ : D → Directory} (h : Tidy fs₀ s.uploads) (he : s.CleansUp e)
    (hs : s.step e = some s') : Tidy fs₀ s'.uploads := by
  cases e with
  | upload e =>
    obtain ⟨u, hu, rfl⟩ := Option.map_eq_some_iff.mp hs
    cases steps_of_step hu with
    | begin =>
      refine ⟨fun dir name hname => (h.files dir name hname).imp_right ?_, fun j c k hj hk => ?_⟩
      · rintro ⟨j, c, hj, hk⟩
        have hlen := (List.getElem?_eq_some_iff.mp hj).1
        exact ⟨j, c, (List.getElem?_append_left hlen).trans hj, hk⟩
      · rcases getElem?_concat_cases hj with hj | rfl
        · exact h.fresh j c k hj hk
        · cases hk
    | setDir => exact ⟨h.files, h.fresh⟩
    | locate hc hbegun hp =>
      refine h.replace hc ?_
      rw [hbegun]
      rcases hp with ⟨t, rfl⟩ | rfl <;> rfl
    | act hc htarget hacts => exact h.settle hc htarget hacts
    | fail hc hfails =>
      have hleaving := fun t n result => he _ t n result hc
      refine h.replace hc ?_
      generalize Upload.phase _ = q at hfails hleaving
      cases hfails with
      | create | work | report => rfl
      | leave => exact absurd rfl (hleaving _ _ _)
  | delete id =>
    rw [IsoServer.step] at hs
    split at hs <;> obtain rfl := Option.some.inj hs <;> exact h
  | remove i fails =>
    obtain ⟨t, hcalls, hlookup⟩ := remove_eq_some hs
    refine ⟨fun dir name hname => ?_, fun j c k hj => ?_⟩
    · rw [(hlookup dir name).resolve_right ?_, hcalls]
      · exact h.files dir name hname
      · rintro ⟨-, rfl, -⟩
        rw [isoSuffix_dst] at hname
        cases hname
    · rw [hcalls] at hj
      exact h.fresh j c k hj
  | restart dir => exact he.elim

/-- **Uploads leave nothing behind**: once every call of a run has returned, what is no image is as
it was before, as long as the process is not killed and the deferred removals go through. -/
theorem nothing_left {s₀ : IsoServer D} {es : List (IsoServerEvent D)}
    (hcalls : s₀.uploads.calls = []) (hclean : Machine.Along step CleansUp s₀ es)
    (hrun : Machine.run step s₀ es = some s)
    (hreturned : ∀ c ∈ s.uploads.calls, ∃ t result, c.phase = .returned t result) {dir : D}
    {name : Bytes} (hname : isoSuffix name = false) :
    (s.uploads.fs dir).lookup name = (s₀.uploads.fs dir).lookup name := by
  have htidy := Machine.run_inv (I := fun s => Tidy s₀.uploads.fs s.uploads)
    (fun _ _ _ h he hs => tidy_step h he hs)
    ⟨fun _ _ _ => .inl rfl, by simp [hcalls]⟩ hclean hrun
  refine (htidy.files dir name hname).resolve_right ?_
  rintro ⟨i, c, hc, hk⟩
  obtain ⟨t, result, hphase⟩ := hreturned c (List.mem_of_getElem? hc)
  rw [hphase] at hk
  cases hk

end IsoServer

/-- An upload that fails while it copies. -/
def failedUpload : List (IsoServerEvent Unit) :=
  [.upload (.begin (bytesOf "a.iso") [1, 2]), .upload (.act 0 0), .upload (.act 0 0),
    .upload (.act 0 7), .upload (.act 0 1), .upload (.fail 0), .upload (.act 0 0)]

/-- Where it leads. -/
def IsoServer.failed : IsoServer Unit := (Machine.run step quiet failedUpload).getD quiet

/-- Its temporary file is gone. -/
theorem IsoServer.nothing_left_failed :
    (failed.uploads.fs ()).lookup (tmpName 7) = (quiet.uploads.fs ()).lookup (tmpName 7) := by
  refine nothing_left rfl ?_ (rfl : Machine.run step quiet failedUpload = some failed) ?_
    (isoSuffix_tmpName 7)
  · refine .cons trivial rfl <| .cons trivial rfl <| .cons trivial rfl <| .cons trivial rfl <|
      .cons trivial rfl <| .cons (fun c t n result hc hphase => ?_) rfl <| .cons trivial rfl <|
      .nil _
    obtain rfl := Option.some.inj hc
    cases hphase
  · intro c hc
    obtain rfl := List.mem_singleton.mp hc
    exact ⟨_, _, rfl⟩

end Ultrav
