import Mathlib.Data.List.Induction
import Mathlib.Logic.Function.Iterate
import Ultrav.DirTree

/-!
# Paths as text

* `DirPath.text` — the text of a path, `DirPath.Rooted` — the paths that begin with a slash.
* `clean_text` / `rooted_clean` — paths and their texts, there and back.
* `within_iff` / `prefix_text_iff` — a path is in a directory when the text of the directory and a
  slash are in front of it.
* `walk` — a text read element by element, below any path: how far it climbs, and where it goes from
  there.
-/

namespace Ultrav

theorem not_mem_of_mem_splitOn {α : Type} [DecidableEq α] {sep : α} {l part : List α}
    (h : part ∈ splitOn sep l) : sep ∉ part := by
  induction l generalizing part with
  | nil =>
    rw [List.mem_singleton.mp h]
    exact List.not_mem_nil
  | cons a l ih =>
    rw [splitOn] at h
    split at h
    · rcases List.mem_cons.mp h with rfl | h
      · exact List.not_mem_nil
      · exact ih h
    · rename_i ha
      split at h
      · exact absurd ‹_› (splitOn_ne_nil sep l)
      · rename_i first parts hparts
        rw [hparts] at ih
        rcases List.mem_cons.mp h with rfl | h
        · exact List.not_mem_cons_of_ne_of_not_mem (Ne.symm ha) (ih (List.mem_cons_self ..))
        · exact ih (List.mem_cons_of_mem _ h)

theorem splitOn_eq_singleton {α : Type} [DecidableEq α] {sep : α} {l : List α} (h : sep ∉ l) :
    splitOn sep l = [l] := by
  induction l with
  | nil => rfl
  | cons a l ih =>
    rw [List.mem_cons, not_or] at h
    rw [splitOn, if_neg (Ne.symm h.1), ih h.2]

namespace DirPath

/-- The names of a path, one after the other, below another path. -/
def descend (p : DirPath) (names : List String) : DirPath := names.foldl child p

/-- The text of a path. -/
def text : DirPath → List Char
  | dot => ['.']
  | slash => ['/']
  | child dot name => name.toList
  | child slash name => '/' :: name.toList
  | child (child d n) name => text (child d n) ++ '/' :: name.toList

/-- The paths in canonical form that begin with a slash. -/
def Rooted : DirPath → Prop
  | dot => False
  | slash => True
  | child d name => d.Rooted ∧ Plain name

/-- The text of names below a path. -/
def namesText (names : List String) : List Char := names.flatMap fun name => '/' :: name.toList

section Text

variable {p q : DirPath} {names : List String}

theorem descend_append (p : DirPath) (as bs : List String) :
    p.descend (as ++ bs) = (p.descend as).descend bs := List.foldl_append ..

theorem depth_descend (p : DirPath) (names : List String) :
    (p.descend names).depth = p.depth + names.length := by
  induction names generalizing p with
  | nil => rfl
  | cons name names ih =>
    rw [descend, List.foldl_cons, ← descend, ih, depth, List.length_cons]
    omega

/-- **In a directory**: below it. -/
theorem within_iff : p.within q = true ↔ ∃ names, q = p.descend names := by
  constructor
  · intro h
    induction q with
    | dot | slash => exact ⟨[], of_decide_eq_true h⟩
    | child d name ih =>
      rw [within, Bool.or_eq_true, decide_eq_true_eq] at h
      rcases h with h | h
      · exact ⟨[], h⟩
      · obtain ⟨names, rfl⟩ := ih h
        exact ⟨names ++ [name], by rw [descend_append]; rfl⟩
  · rintro ⟨names, rfl⟩
    induction names using List.reverseRecOn with
    | nil => exact within_refl p
    | append_singleton names name ih =>
      rw [descend_append]
      change within p (child (p.descend names) name) = true
      rw [within, ih, Bool.or_true]

/-- What stands in front of the slash behind a path. -/
def stem (p : DirPath) : List Char := if p = slash then [] else p.text

@[simp] theorem stem_slash : slash.stem = [] := rfl

theorem stem_of_ne (h : p ≠ slash) : p.stem = p.text := if_neg h

theorem text_child (h : p.Rooted) (name : String) :
    (child p name).text = p.stem ++ '/' :: name.toList := by
  cases p with
  | dot => exact h.elim
  | slash => rfl
  | child d n => rfl

theorem rooted_descend (h : p.Rooted) :
    (p.descend names).Rooted ↔ ∀ name ∈ names, Plain name := by
  induction names using List.reverseRecOn with
  | nil => simp [descend, h]
  | append_singleton names name ih =>
    rw [descend_append]
    change (child (p.descend names) name).Rooted ↔ _
    rw [Rooted, ih]
    simp [or_imp, forall_and]

theorem rooted_of_descend (h : (p.descend names).Rooted) : p.Rooted := by
  induction names using List.reverseRecOn with
  | nil => exact h
  | append_singleton names name ih =>
    rw [descend_append] at h
    exact ih h.1

theorem stem_descend (h : (p.descend names).Rooted) :
    (p.descend names).stem = p.stem ++ namesText names := by
  induction names using List.reverseRecOn with
  | nil => simp [descend, namesText]
  | append_singleton names name ih =>
    rw [descend_append] at h ⊢
    change (child (p.descend names) name).stem = _
    rw [stem_of_ne (by simp), text_child h.1, ih h.1]
    simp [namesText]

/-- **There and back**: a text in canonical form. -/
theorem clean_text (h : p.Rooted) : clean p.text = p := by
  induction p with
  | dot => exact h.elim
  | slash => rfl
  | child d name ih =>
    rw [text_child h.1]
    by_cases hd : d = slash
    · subst hd
      rw [stem_slash, List.nil_append, clean, splitOn, if_pos rfl]
      exact push_plain h.2 slash
    · have hne : d.text ≠ [] := by
        cases d with
        | dot => exact h.1.elim
        | slash => exact absurd rfl hd
        | child d' n =>
          rw [text_child h.1.1]
          simp
      rw [stem_of_ne hd, clean_append hne, ih h.1, push_plain h.2]

/-- An element that is pushed is a name, or leads up. -/
theorem rooted_push {e : List Char} (h : p.Rooted) (he : '/' ∉ e) : (p.push e).Rooted := by
  rw [push]
  split_ifs with hdot hup
  · exact h
  · cases p with
    | dot => exact h.elim
    | slash => trivial
    | child d name =>
      rw [up, if_neg h.2.ne_dotdot]
      exact h.1
  · obtain ⟨hnil, hone⟩ := not_or.mp hdot
    have hname : ∀ l : List Char, e ≠ l → String.ofList e ≠ String.ofList l :=
      fun l hl heq => hl (String.ofList_inj.mp heq)
    exact ⟨h, by rwa [String.toList_ofList], hname [] hnil, hname ['.'] hone,
      hname ['.', '.'] hup⟩

theorem rooted_foldl_push {es : List (List Char)} (h : p.Rooted) (hes : ∀ e ∈ es, '/' ∉ e) :
    (es.foldl push p).Rooted := by
  induction es generalizing p with
  | nil => exact h
  | cons e es ih =>
    obtain ⟨he, hes⟩ := List.forall_mem_cons.mp hes
    exact ih (rooted_push h he) hes

/-- **A text that begins with a slash** is that of a path in canonical form. -/
theorem rooted_clean {s : List Char} (h : s.head? = some '/') : (clean s).Rooted := by
  rw [clean, if_pos h]
  exact rooted_foldl_push trivial fun e he => not_mem_of_mem_splitOn he

/-- The names between the slashes. -/
def nameList : DirPath → List String
  | child d name => d.nameList ++ [name]
  | dot | slash => []

theorem descend_nameList (h : p.Rooted) : slash.descend p.nameList = p := by
  induction p with
  | dot => exact h.elim
  | slash => rfl
  | child d name ih =>
    rw [nameList, descend_append, ih h.1]
    rfl

theorem length_nameList (p : DirPath) : p.nameList.length = p.depth := by
  induction p with
  | dot | slash => rfl
  | child d name ih => rw [nameList, List.length_append, ih, List.length_singleton, depth]

theorem nameList_descend (p : DirPath) (names : List String) :
    (p.descend names).nameList = p.nameList ++ names := by
  induction names using List.reverseRecOn with
  | nil => exact (List.append_nil _).symm
  | append_singleton names name ih =>
    rw [descend_append]
    change (child (p.descend names) name).nameList = _
    rw [nameList, ih, List.append_assoc]

theorem plain_of_mem_nameList (h : p.Rooted) {name : String} (hname : name ∈ p.nameList) :
    Plain name := by
  induction p with
  | dot => exact h.elim
  | slash => exact absurd hname List.not_mem_nil
  | child d n ih =>
    rcases List.mem_append.mp hname with hname | hname
    · exact ih h.1 hname
    · exact List.mem_singleton.mp hname ▸ h.2

theorem splitOn_stem (h : p.Rooted) :
    splitOn '/' p.stem = [] :: p.nameList.map String.toList := by
  induction p with
  | dot => exact h.elim
  | slash => rfl
  | child d name ih =>
    rw [stem_of_ne (by simp), text_child h.1, splitOn_append_sep, ih h.1,
      splitOn_eq_singleton h.2.no_slash]
    simp [nameList]

theorem text_ne_nil (h : p.Rooted) : p.text ≠ [] := by
  cases p with
  | dot => exact h.elim
  | slash => simp [text]
  | child d name =>
    rw [text_child h.1]
    simp

theorem head?_text (h : p.Rooted) : p.text.head? = some '/' := by
  induction p with
  | dot => exact h.elim
  | slash => rfl
  | child d name ih =>
    rw [text_child h.1]
    by_cases hd : d = slash
    · subst hd
      rfl
    · rw [stem_of_ne hd, List.head?_append_of_ne_nil _ (text_ne_nil h.1), ih h.1]

/-- **A path is in a directory** when the directory is the root, or the path itself, or its text
and a slash are in front of the path. -/
theorem prefix_text_iff (hp : p.Rooted) (hq : q.Rooted) :
    p = slash ∨ p.text = q.text ∨ p.text ++ ['/'] <+: q.text ↔ p.within q = true := by
  rw [within_iff]
  constructor
  · rintro (rfl | htext | ⟨rest, hrest⟩)
    · exact ⟨q.nameList, (descend_nameList hq).symm⟩
    · refine ⟨[], ?_⟩
      rw [← clean_text hq, ← htext, clean_text hp]
      rfl
    · by_cases hslash : p = slash
      · subst hslash
        exact ⟨q.nameList, (descend_nameList hq).symm⟩
      have hq' : q ≠ slash := by
        rintro rfl
        have hlen := congrArg List.length hrest
        have hpos := List.length_pos_iff.mpr (text_ne_nil hp)
        simp [text] at hlen
        omega
      have hsplit := congrArg (splitOn '/') hrest
      rw [← stem_of_ne hslash, ← stem_of_ne hq', List.append_assoc, List.singleton_append,
        splitOn_append_sep, splitOn_stem hp, splitOn_stem hq, List.cons_append] at hsplit
      obtain ⟨as, bs, hnames, has, -⟩ := List.map_eq_append_iff.mp (List.cons.inj hsplit).2.symm
      have hmap : as = p.nameList :=
        List.map_injective_iff.mpr (fun _ _ => String.toList_inj.mp) has
      exact ⟨bs, by rw [← descend_nameList hq, hnames, hmap, descend_append, descend_nameList hp]⟩
  · rintro ⟨names, rfl⟩
    by_cases hslash : p = slash
    · exact .inl hslash
    right
    cases names with
    | nil => exact .inl rfl
    | cons name names =>
      right
      have hne : p.descend (name :: names) ≠ slash := by
        intro heq
        have hdepth := congrArg depth heq
        rw [depth_descend, List.length_cons] at hdepth
        change _ = 0 at hdepth
        omega
      refine ⟨name.toList ++ namesText names, ?_⟩
      rw [← stem_of_ne hne, stem_descend hq, stem_of_ne hslash]
      simp [namesText]

theorem rooted_of_within (hq : q.Rooted) (h : p.within q = true) : p.Rooted := by
  obtain ⟨names, rfl⟩ := within_iff.mp h
  exact rooted_of_descend hq

/-- The text of a directory is in front of what is in it. -/
theorem text_prefix (hq : q.Rooted) (h : p.within q = true) : p.text <+: q.text := by
  have hp := rooted_of_within hq h
  rcases (prefix_text_iff hp hq).mpr h with rfl | htext | hprefix
  · cases q with
    | dot => exact hq.elim
    | slash => exact List.prefix_refl _
    | child d name =>
      obtain ⟨names, hnames⟩ := within_iff.mp h
      cases names with
      | nil => cases hnames
      | cons n names =>
        have hne : child d name ≠ slash := by simp
        rw [← stem_of_ne hne, hnames, stem_descend (hnames ▸ hq)]
        exact ⟨n.toList ++ namesText names, by simp [text, namesText]⟩
  · exact htext ▸ List.prefix_refl _
  · exact (List.prefix_append _ _).trans hprefix

/-- In a directory is nothing that is as high, but the directory. -/
theorem eq_of_within (h : p.within q = true) (hle : q.depth ≤ p.depth) : q = p := by
  obtain ⟨names, rfl⟩ := within_iff.mp h
  rw [depth_descend] at hle
  obtain rfl := List.length_eq_zero_iff.mp (Nat.le_zero.mp (Nat.le_of_add_le_add_left hle))
  rfl

/-- Two directories of one path are one in the other. -/
theorem within_of_depth_le {r : DirPath} (hp : p.within r = true) (hq : q.within r = true)
    (hle : p.depth ≤ q.depth) : p.within q = true := by
  induction r with
  | dot | slash =>
    obtain rfl := of_decide_eq_true hp
    obtain rfl := of_decide_eq_true hq
    exact within_refl _
  | child d name ih =>
    rw [within, Bool.or_eq_true, decide_eq_true_eq] at hq
    rcases hq with rfl | hq
    · exact hp
    · rw [within, Bool.or_eq_true, decide_eq_true_eq] at hp
      rcases hp with rfl | hp
      · have hdepth := depth_le_of_within hq
        rw [depth] at hle
        omega
      · exact ih hp hq

/-! ## Below any path -/

/-- One more element: the levels that are climbed, and the names behind them. -/
def walkStep (w : ℕ × List String) (e : List Char) : ℕ × List String :=
  if e = [] ∨ e = ['.'] then w
  else if e = ['.', '.'] then if w.2 = [] then (w.1 + 1, []) else (w.1, w.2.dropLast)
  else (w.1, w.2 ++ [String.ofList e])

/-- How far a text climbs, and where it goes from there. -/
def walk (s : List Char) : ℕ × List String := (splitOn '/' s).foldl walkStep (0, [])

theorem foldl_walkStep {es : List (List Char)} {w : ℕ × List String} {r : DirPath}
    (hw : ∀ name ∈ w.2, name ≠ "..") :
    es.foldl push ((up^[w.1] r).descend w.2) =
        (up^[(es.foldl walkStep w).1] r).descend (es.foldl walkStep w).2 ∧
      ∀ name ∈ (es.foldl walkStep w).2, name ≠ ".." := by
  induction es generalizing w with
  | nil => exact ⟨rfl, hw⟩
  | cons e es ih =>
    rw [List.foldl_cons, List.foldl_cons]
    have hstep : ((up^[w.1] r).descend w.2).push e =
        (up^[(walkStep w e).1] r).descend (walkStep w e).2 ∧
          ∀ name ∈ (walkStep w e).2, name ≠ ".." := by
      rw [push, walkStep]
      split_ifs with hdot hup hnil
      · exact ⟨rfl, hw⟩
      · refine ⟨?_, by simp⟩
        rw [hnil, Function.iterate_succ_apply']
        rfl
      · obtain ⟨names, name, hlast⟩ := (List.eq_nil_or_concat' w.2).resolve_left hnil
        have hname : name ≠ ".." := hw name (by simp [hlast])
        refine ⟨?_, fun n hn => hw n (List.dropLast_subset _ hn)⟩
        rw [hlast, descend_append, List.dropLast_concat]
        exact if_neg hname
      · refine ⟨by rw [descend_append]; rfl, fun name hname => ?_⟩
        rcases List.mem_append.mp hname with hname | hname
        · exact hw name hname
        · rw [List.mem_singleton.mp hname]
          intro heq
          exact hup (String.ofList_inj.mp (heq.trans (String.ofList_toList (s := "..")).symm))
    rw [hstep.1]
    exact ih hstep.2

/-- **A text below a path** leads where its walk leads. -/
theorem foldl_push_eq (s : List Char) (r : DirPath) :
    (splitOn '/' s).foldl push r = (up^[(walk s).1] r).descend (walk s).2 := by
  exact (foldl_walkStep (w := (0, [])) (by simp)).1

theorem walk_slash_cons (s : List Char) : walk ('/' :: s) = walk s := by
  rw [walk, splitOn, if_pos rfl, List.foldl_cons, walkStep, if_pos (.inl rfl), walk]

theorem foldl_walkStep_plain {names : List String} (h : ∀ name ∈ names, Plain name)
    (w : ℕ × List String) :
    (names.map String.toList).foldl walkStep w = (w.1, w.2 ++ names) := by
  induction names generalizing w with
  | nil => simp
  | cons name names ih =>
    obtain ⟨hname, hnames⟩ := List.forall_mem_cons.mp h
    have hne : ∀ l : List Char, name ≠ String.ofList l → name.toList ≠ l :=
      fun l hl heq => hl (by rw [← heq, String.ofList_toList])
    have hdot : ¬ (name.toList = [] ∨ name.toList = ['.']) :=
      not_or.mpr ⟨hne [] hname.ne_empty, hne ['.'] hname.ne_dot⟩
    rw [List.map_cons, List.foldl_cons, walkStep, if_neg hdot,
      if_neg (hne ['.', '.'] hname.ne_dotdot), ih hnames, String.ofList_toList]
    simp

theorem walk_namesText (h : ∀ name ∈ names, Plain name) : walk (namesText names) = (0, names) := by
  have hroot : (slash.descend names).Rooted := (rooted_descend (p := slash) trivial).mpr h
  have hstem := stem_descend hroot
  rw [stem_slash, List.nil_append] at hstem
  have hnames : (slash.descend names).nameList = names := by
    rw [nameList_descend]
    rfl
  rw [← hstem, walk, splitOn_stem hroot, hnames, List.foldl_cons, walkStep, if_pos (.inl rfl),
    foldl_walkStep_plain h]
  rfl

/-- **Behind the text of a directory** is the text of the names below it. -/
theorem text_behind (hq : q.Rooted) (h : p.within q = true) :
    ∃ rest, q.text = p.text ++ rest ∧ walk rest = (0, q.nameList.drop p.depth) := by
  have hp := rooted_of_within hq h
  obtain ⟨names, rfl⟩ := within_iff.mp h
  have hnames := (rooted_descend hp).mp hq
  rw [nameList_descend, ← length_nameList, List.drop_left]
  by_cases hnil : names = []
  · subst hnil
    exact ⟨[], (List.append_nil _).symm, rfl⟩
  have htext : (p.descend names).text = p.stem ++ namesText names := by
    rw [← stem_descend hq, stem_of_ne]
    intro heq
    have hdepth := congrArg depth heq
    rw [depth_descend] at hdepth
    exact hnil (List.length_eq_zero_iff.mp (Nat.add_eq_zero_iff.mp hdepth).2)
  by_cases hslash : p = slash
  · -- the slash of the root is the one in front of the first name
    subst hslash
    obtain ⟨name, names, rfl⟩ := List.exists_cons_of_ne_nil hnil
    refine ⟨name.toList ++ namesText names, htext, ?_⟩
    rw [← walk_slash_cons]
    exact walk_namesText hnames
  · exact ⟨namesText names, by rw [htext, stem_of_ne hslash], walk_namesText hnames⟩

theorem descend_inj {as bs : List String} (hlen : as.length = bs.length)
    (h : p.descend as = q.descend bs) : p = q ∧ as = bs := by
  induction as using List.reverseRecOn generalizing bs with
  | nil =>
    obtain rfl := List.length_eq_zero_iff.mp hlen.symm
    exact ⟨h, rfl⟩
  | append_singleton as a ih =>
    rcases List.eq_nil_or_concat' bs with rfl | ⟨bs, b, rfl⟩
    · simp at hlen
    · rw [descend_append, descend_append] at h
      obtain ⟨htail, rfl⟩ := child.inj h
      obtain ⟨hp, rfl⟩ := ih (by simpa using hlen) htail
      exact ⟨hp, rfl⟩

/-- Above a path is nothing deeper, unless it ends in `..`. -/
theorem depth_up_iterate (k : ℕ) (r : DirPath) :
    (up^[k] r).depth ≤ r.depth ∨ ∃ d, up^[k] r = child d ".." := by
  induction k with
  | zero => exact .inl (Nat.le_refl _)
  | succ k ih =>
    rw [Function.iterate_succ_apply']
    rcases ih with hle | ⟨d, hd⟩
    · generalize up^[k] r = q at hle
      cases q with
      | dot => exact .inr ⟨dot, rfl⟩
      | slash => exact .inl hle
      | child d name =>
        rw [up]
        split
        · exact .inr ⟨_, rfl⟩
        · rw [depth] at hle
          exact .inl (by omega)
    · rw [hd, up, if_pos rfl]
      exact .inr ⟨_, rfl⟩

/-- **Two ways below a path** lead to the same place when the one that climbs comes back through the
path. -/
theorem descend_eq_iff {k : ℕ} {as bs : List String} {r : DirPath}
    (hbs : ∀ name ∈ bs, name ≠ "..") :
    (up^[k] r).descend as = r.descend bs ↔ ∃ cs, as = cs ++ bs ∧ (up^[k] r).descend cs = r := by
  constructor
  · intro h
    have hdepth := congrArg depth h
    rw [depth_descend, depth_descend] at hdepth
    rcases Nat.lt_or_ge as.length bs.length with hlt | hge
    · -- what is above the path cannot be below it
      exfalso
      rw [← List.take_append_drop (bs.length - as.length) bs, descend_append] at h
      have hlen : as.length = (bs.drop (bs.length - as.length)).length := by simp; omega
      obtain ⟨habove, -⟩ := descend_inj hlen h
      rcases List.eq_nil_or_concat' (bs.take (bs.length - as.length)) with hnil | ⟨cs, c, hcs⟩
      · have hzero := congrArg List.length hnil
        rw [List.length_take, List.length_nil] at hzero
        omega
      · rw [hcs, descend_append] at habove
        rcases depth_up_iterate k r with hle | ⟨d, hd⟩
        · omega
        · rw [hd] at habove
          refine hbs c (List.mem_of_mem_take (hcs ▸ List.mem_concat_self)) ?_
          exact (child.inj habove).2.symm
    · rw [← List.take_append_drop (as.length - bs.length) as, descend_append] at h
      have hlen : (as.drop (as.length - bs.length)).length = bs.length := by simp; omega
      obtain ⟨hback, hsame⟩ := descend_inj hlen h
      refine ⟨as.take (as.length - bs.length), ?_, hback⟩
      conv_lhs => rw [← List.take_append_drop (as.length - bs.length) as, hsame]
  · rintro ⟨cs, rfl, hback⟩
    rw [descend_append, hback]

end Text

end DirPath

end Ultrav
