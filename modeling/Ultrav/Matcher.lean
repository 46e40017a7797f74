import Mathlib.Data.List.Basic
import Mathlib.Data.Nat.Notation

/-!
# Finding and replacing matches

The matches of a pattern in a text, from the left and none inside another.

* `Matcher` — how much of a text matches at its start.
* `Matcher.findAll` / `Matcher.replaceAll` — all matches.
* `Matcher.Closed` — what follows a text does not matter for its matches
  (`replaceAll_append`).
* `Matcher.Silent` — there are no matches, whatever follows.
* `Matcher.stable_of_prefix` — replaced matches that match again cannot make up for each other.
* `Matcher.literal` / `Matcher.upTo` — searching for a fixed text.
-/

namespace Ultrav

/-- How much of a text matches at its start; zero if it does not match. -/
structure Matcher (α : Type) where
  len : List α → ℕ
  len_le : ∀ s, len s ≤ s.length

namespace Matcher

variable {α : Type} (p : Matcher α) (f : List α → List α)

/-! ## All matches -/

/-- The matches, after so many elements. -/
def findFrom : ℕ → List α → List (List α)
  | _, [] => []
  | n + 1, _ :: s => findFrom n s
  | 0, c :: s =>
    match p.len (c :: s) with
    | 0 => findFrom 0 s
    | n + 1 => (c :: s).take (n + 1) :: findFrom n s

/-- Other texts in place of the matches; so many elements belong to the last match. -/
def replaceFrom : ℕ → List α → List α
  | _, [] => []
  | n + 1, _ :: s => replaceFrom n s
  | 0, c :: s =>
    match p.len (c :: s) with
    | 0 => c :: replaceFrom 0 s
    | n + 1 => f ((c :: s).take (n + 1)) ++ replaceFrom n s

/-- The matches in a text. -/
def findAll (s : List α) : List (List α) := p.findFrom 0 s

/-- The text with its matches replaced. -/
def replaceAll (s : List α) : List α := p.replaceFrom f 0 s

theorem findFrom_eq_drop (n : ℕ) (s : List α) : p.findFrom n s = p.findAll (s.drop n) := by
  induction s generalizing n with
  | nil => cases n <;> rfl
  | cons c s ih =>
    cases n with
    | zero => rfl
    | succ n => rw [findFrom, ih, List.drop_succ_cons]

theorem replaceFrom_eq_drop (n : ℕ) (s : List α) :
    p.replaceFrom f n s = p.replaceAll f (s.drop n) := by
  induction s generalizing n with
  | nil => cases n <;> rfl
  | cons c s ih =>
    cases n with
    | zero => rfl
    | succ n => rw [replaceFrom, ih, List.drop_succ_cons]

section Steps

variable {p} {c : α} {m s : List α}

theorem findAll_cons (h : p.len (c :: s) = 0) : p.findAll (c :: s) = p.findAll s := by
  rw [findAll, findFrom, h]
  rfl

theorem replaceAll_cons (h : p.len (c :: s) = 0) :
    p.replaceAll f (c :: s) = c :: p.replaceAll f s := by
  rw [replaceAll, replaceFrom, h]
  rfl

/-- A match at the start. -/
theorem findAll_match (hm : m ≠ []) (h : p.len (m ++ s) = m.length) :
    p.findAll (m ++ s) = m :: p.findAll s := by
  obtain ⟨c, m, rfl⟩ := List.exists_cons_of_ne_nil hm
  rw [List.length_cons, List.cons_append] at h
  rw [List.cons_append, findAll, findFrom, h]
  simp only [findFrom_eq_drop, List.take_succ_cons, List.take_left, List.drop_left]

theorem replaceAll_match (hm : m ≠ []) (h : p.len (m ++ s) = m.length) :
    p.replaceAll f (m ++ s) = f m ++ p.replaceAll f s := by
  obtain ⟨c, m, rfl⟩ := List.exists_cons_of_ne_nil hm
  rw [List.length_cons, List.cons_append] at h
  rw [List.cons_append, replaceAll, replaceFrom, h]
  simp only [replaceFrom_eq_drop, List.take_succ_cons, List.take_left, List.drop_left]

end Steps

/-- **Induction** along the matches of a text. -/
@[elab_as_elim]
theorem scan_induct {motive : List α → Prop} (nil : motive [])
    (cons : ∀ c s, p.len (c :: s) = 0 → motive s → motive (c :: s))
    (append : ∀ m s, m ≠ [] → p.len (m ++ s) = m.length → motive s → motive (m ++ s))
    (s : List α) : motive s := by
  induction hn : s.length using Nat.strongRecOn generalizing s with
  | ind n ih =>
    subst hn
    cases s with
    | nil => exact nil
    | cons c s =>
      by_cases h : p.len (c :: s) = 0
      · exact cons c s h (ih s.length (Nat.lt_succ_self _) s rfl)
      · have htake : ((c :: s).take (p.len (c :: s))).length = p.len (c :: s) :=
          List.length_take_of_le (p.len_le _)
        have hdrop : ((c :: s).drop (p.len (c :: s))).length < (c :: s).length := by
          rw [List.length_drop, List.length_cons]
          omega
        have hmotive := append ((c :: s).take (p.len (c :: s))) ((c :: s).drop (p.len (c :: s)))
          (fun hnil => h (htake ▸ congrArg List.length hnil))
          (by rw [List.take_append_drop, htake]) (ih _ hdrop _ rfl)
        rwa [List.take_append_drop] at hmotive

/-- Matches that are replaced by themselves. -/
theorem replaceAll_eq_self {s : List α} (h : ∀ m ∈ p.findAll s, f m = m) :
    p.replaceAll f s = s := by
  induction s using p.scan_induct with
  | nil => rfl
  | cons c s hlen ih =>
    rw [findAll_cons hlen] at h
    rw [replaceAll_cons f hlen, ih h]
  | append m s hm hlen ih =>
    rw [findAll_match hm hlen] at h
    rw [replaceAll_match f hm hlen, h m List.mem_cons_self,
      ih fun n hn => h n (List.mem_cons_of_mem _ hn)]

/-- Every match is in the text, and matches there. -/
theorem exists_of_mem_findAll {m s : List α} (h : m ∈ p.findAll s) :
    ∃ u v, s = u ++ (m ++ v) ∧ m ≠ [] ∧ p.len (m ++ v) = m.length := by
  induction s using p.scan_induct with
  | nil => cases h
  | cons c s hlen ih =>
    rw [findAll_cons hlen] at h
    obtain ⟨u, v, rfl, hm⟩ := ih h
    exact ⟨c :: u, v, rfl, hm⟩
  | append n s hn hlen ih =>
    rw [findAll_match hn hlen] at h
    rcases List.mem_cons.mp h with rfl | h
    · exact ⟨[], s, rfl, hn, hlen⟩
    · obtain ⟨u, v, rfl, hm⟩ := ih h
      exact ⟨n ++ u, v, (List.append_assoc ..).symm, hm⟩

/-! ## Erasing matches -/

/-- The text without its matches. -/
def eraseAll (s : List α) : List α := p.replaceAll (fun _ => []) s

theorem length_eraseAll (s : List α) :
    (p.eraseAll s).length + (p.findAll s).flatten.length = s.length := by
  induction s using p.scan_induct with
  | nil => rfl
  | cons c s hlen ih =>
    rw [findAll_cons hlen, eraseAll, replaceAll_cons _ hlen, List.length_cons, List.length_cons,
      ← ih, eraseAll]
    omega
  | append m s hm hlen ih =>
    rw [findAll_match hm hlen, eraseAll, replaceAll_match _ hm hlen, List.nil_append,
      List.flatten_cons, List.length_append, List.length_append, ← ih, eraseAll]
    omega

/-- Only texts without matches stay as they are. -/
theorem eraseAll_eq_self {s : List α} : p.eraseAll s = s ↔ p.findAll s = [] := by
  refine ⟨fun h => ?_, fun h => p.replaceAll_eq_self _ fun m hm => by rw [h] at hm; cases hm⟩
  have hlen := p.length_eraseAll s
  rw [h] at hlen
  cases hfind : p.findAll s with
  | nil => rfl
  | cons m ms =>
    obtain ⟨-, -, -, hm, -⟩ := p.exists_of_mem_findAll (hfind ▸ List.mem_cons_self : m ∈ _)
    have hpos : 0 < m.length := List.length_pos_of_ne_nil hm
    rw [hfind, List.flatten_cons, List.length_append] at hlen
    omega

/-- Another text in place of the first match. -/
def replaceFirst (t : List α) : List α → List α
  | [] => []
  | c :: s =>
    if p.len (c :: s) = 0 then c :: replaceFirst t s else t ++ (c :: s).drop (p.len (c :: s))

theorem replaceFirst_match {m s t : List α} (hm : m ≠ []) (h : p.len (m ++ s) = m.length) :
    p.replaceFirst t (m ++ s) = t ++ s := by
  obtain ⟨c, m, rfl⟩ := List.exists_cons_of_ne_nil hm
  rw [List.length_cons, List.cons_append] at h
  rw [List.cons_append, replaceFirst, if_neg (by omega), h, List.drop_succ_cons, List.drop_left]

/-! ## What follows a text -/

section Context

variable {s t : List α}

/-- Nothing that follows matters for a match that starts in the text. -/
def Closed (s : List α) : Prop :=
  ∀ t, t <:+ s → t ≠ [] → ∀ z, p.len (t ++ z) = p.len t

/-- No match starts in the text, whatever follows. -/
def Silent (s : List α) : Prop :=
  ∀ t, t <:+ s → t ≠ [] → ∀ z, p.len (t ++ z) = 0

variable {p}

theorem Silent.nil : p.Silent [] := fun _ ht hne => absurd (List.suffix_nil.mp ht) hne

theorem Closed.nil : p.Closed [] := fun _ ht hne => absurd (List.suffix_nil.mp ht) hne

theorem Silent.cons {c : α} (hc : ∀ z, p.len (c :: s ++ z) = 0) (h : p.Silent s) :
    p.Silent (c :: s) := by
  intro t ht hne
  rcases List.suffix_cons_iff.mp ht with rfl | ht
  · exact hc
  · exact h t ht hne

theorem Closed.cons {c : α} (hc : ∀ z, p.len (c :: s ++ z) = p.len (c :: s)) (h : p.Closed s) :
    p.Closed (c :: s) := by
  intro t ht hne
  rcases List.suffix_cons_iff.mp ht with rfl | ht
  · exact hc
  · exact h t ht hne

theorem Silent.closed (h : p.Silent s) : p.Closed s := by
  intro t ht hne z
  have hlen := h t ht hne []
  rw [List.append_nil] at hlen
  rw [h t ht hne, hlen]

theorem Silent.suffix (h : p.Silent s) (ht : t <:+ s) : p.Silent t :=
  fun u hu => h u (hu.trans ht)

theorem Closed.suffix (h : p.Closed s) (ht : t <:+ s) : p.Closed t :=
  fun u hu => h u (hu.trans ht)

/-- It is enough to look at what follows. -/
theorem Silent.append_of (hs : ∀ u, u <:+ s → u ≠ [] → ∀ z, p.len (u ++ (t ++ z)) = 0)
    (ht : p.Silent t) : p.Silent (s ++ t) := by
  induction s with
  | nil => exact ht
  | cons c s ih =>
    refine Silent.cons (fun z => ?_) (ih fun u hu => hs u (hu.trans (List.suffix_cons _ _)))
    have hlen := hs _ List.suffix_rfl (List.cons_ne_nil c s) z
    rwa [← List.append_assoc] at hlen

theorem Silent.append (hs : p.Silent s) (ht : p.Silent t) : p.Silent (s ++ t) :=
  .append_of (fun u hu hne z => hs u hu hne (t ++ z)) ht

/-- Every match starts with other elements. -/
theorem Silent.of_head {P : α → Prop} (hp : ∀ c s, P c → p.len (c :: s) = 0)
    (hs : ∀ c ∈ s, P c) : p.Silent s := by
  induction s with
  | nil => exact .nil
  | cons c s ih =>
    exact .cons (fun z => hp c (s ++ z) (hs c List.mem_cons_self))
      (ih fun d hd => hs d (List.mem_cons_of_mem _ hd))

theorem Closed.append (hs : p.Closed s) (ht : p.Closed t) : p.Closed (s ++ t) := by
  induction s with
  | nil => exact ht
  | cons c s ih =>
    refine Closed.cons (fun z => ?_) (ih (hs.suffix (List.suffix_cons _ _)))
    have hlen := hs _ List.suffix_rfl (List.cons_ne_nil c s) (t ++ z)
    rw [← List.append_assoc] at hlen
    exact hlen.trans (hs _ List.suffix_rfl (List.cons_ne_nil c s) t).symm

theorem replaceAll_append (h : p.Closed s) (z : List α) :
    p.replaceAll f (s ++ z) = p.replaceAll f s ++ p.replaceAll f z := by
  induction s using p.scan_induct with
  | nil => rfl
  | cons c s hlen ih =>
    have hlen' : p.len (c :: (s ++ z)) = 0 :=
      (h _ List.suffix_rfl (List.cons_ne_nil c s) z).trans hlen
    rw [List.cons_append, replaceAll_cons f hlen', replaceAll_cons f hlen,
      ih (h.suffix (List.suffix_cons _ _)), List.cons_append]
  | append m s hm hlen ih =>
    have hlen' : p.len (m ++ (s ++ z)) = m.length := by
      rw [← List.append_assoc, h _ List.suffix_rfl (List.append_ne_nil_of_left_ne_nil hm s), hlen]
    rw [List.append_assoc, replaceAll_match f hm hlen', replaceAll_match f hm hlen,
      ih (h.suffix (List.suffix_append _ _)), List.append_assoc]

theorem findAll_append (h : p.Closed s) (z : List α) :
    p.findAll (s ++ z) = p.findAll s ++ p.findAll z := by
  induction s using p.scan_induct with
  | nil => rfl
  | cons c s hlen ih =>
    have hlen' : p.len (c :: (s ++ z)) = 0 :=
      (h _ List.suffix_rfl (List.cons_ne_nil c s) z).trans hlen
    rw [List.cons_append, findAll_cons hlen', findAll_cons hlen,
      ih (h.suffix (List.suffix_cons _ _))]
  | append m s hm hlen ih =>
    have hlen' : p.len (m ++ (s ++ z)) = m.length := by
      rw [← List.append_assoc, h _ List.suffix_rfl (List.append_ne_nil_of_left_ne_nil hm s), hlen]
    rw [List.append_assoc, findAll_match hm hlen', findAll_match hm hlen,
      ih (h.suffix (List.suffix_append _ _)), List.cons_append]

theorem Silent.findAll (h : p.Silent s) : p.findAll s = [] := by
  induction s with
  | nil => rfl
  | cons c s ih =>
    have hlen := h _ List.suffix_rfl (List.cons_ne_nil c s) []
    rw [List.append_nil] at hlen
    rw [findAll_cons hlen, ih (h.suffix (List.suffix_cons _ _))]

theorem Silent.findAll_append (h : p.Silent s) (z : List α) :
    p.findAll (s ++ z) = p.findAll z := by
  rw [Matcher.findAll_append h.closed, h.findAll, List.nil_append]

theorem Silent.replaceAll_append (h : p.Silent s) (z : List α) :
    p.replaceAll f (s ++ z) = s ++ p.replaceAll f z := by
  rw [Matcher.replaceAll_append f h.closed, p.replaceAll_eq_self f]
  intro m hm
  rw [h.findAll] at hm
  cases hm

/-- **No compensation**: where what replaces a match matches again, whatever follows, a text
that starts as it did before has all its matches replaced by themselves. -/
theorem stable_of_prefix (hs : p.Closed s)
    (hf : ∀ m ∈ p.findAll s, ∀ z, p.len (f m ++ z) = (f m).length) {y z : List α}
    (h : p.replaceAll f s ++ y = s ++ z) : ∀ m ∈ p.findAll s, f m = m := by
  induction s using p.scan_induct with
  | nil => exact fun m hm => by cases hm
  | cons c s hlen ih =>
    rw [findAll_cons hlen] at hf ⊢
    rw [replaceAll_cons f hlen] at h
    exact ih (hs.suffix (List.suffix_cons _ _)) hf (List.cons.inj h).2
  | append m s hm hlen ih =>
    rw [findAll_match hm hlen] at hf ⊢
    rw [replaceAll_match f hm hlen, List.append_assoc, List.append_assoc] at h
    have hlength : (f m).length = m.length := by
      have hlen' := hs _ List.suffix_rfl (List.append_ne_nil_of_left_ne_nil hm s) z
      rw [hlen, List.append_assoc, ← h, hf m List.mem_cons_self] at hlen'
      exact hlen'
    obtain ⟨hfm, hrest⟩ := List.append_inj h hlength
    intro n hn
    rcases List.mem_cons.mp hn with rfl | hn
    · exact hfm
    · exact ih (hs.suffix (List.suffix_append _ _))
        (fun n hn => hf n (List.mem_cons_of_mem _ hn)) hrest n hn

end Context

/-! ## Searching -/

/-- So many elements up to the end of the first match; zero if there is none. -/
def upTo : List α → ℕ
  | [] => 0
  | c :: s => if p.len (c :: s) = 0 then if upTo s = 0 then 0 else upTo s + 1 else p.len (c :: s)

section Search

variable {p} {s z : List α}

theorem upTo_of_len (h : p.len s ≠ 0) : p.upTo s = p.len s := by
  cases s with
  | nil => exact absurd (Nat.le_zero.mp (p.len_le [])) h
  | cons c s => rw [upTo, if_neg h]

theorem upTo_ne_zero (s : List α) (h : p.len z ≠ 0) : p.upTo (s ++ z) ≠ 0 := by
  induction s with
  | nil =>
    rw [List.nil_append, upTo_of_len h]
    exact h
  | cons c s ih =>
    rw [List.cons_append, upTo, if_neg ih]
    split
    · exact Nat.succ_ne_zero _
    · assumption

/-- The first match, behind a text without any. -/
theorem Silent.upTo_append (hs : p.Silent s) (h : p.len z ≠ 0) :
    p.upTo (s ++ z) = s.length + p.len z := by
  induction s with
  | nil => rw [List.nil_append, upTo_of_len h, List.length_nil, Nat.zero_add]
  | cons c s ih =>
    have hlen : p.len (c :: (s ++ z)) = 0 := hs _ List.suffix_rfl (List.cons_ne_nil c s) z
    rw [List.cons_append, upTo, if_pos hlen, if_neg (upTo_ne_zero s h),
      ih (hs.suffix (List.suffix_cons _ _)), List.length_cons]
    omega

theorem Silent.upTo (hs : p.Silent s) : p.upTo s = 0 := by
  induction s with
  | nil => rfl
  | cons c s ih =>
    have hlen := hs _ List.suffix_rfl (List.cons_ne_nil c s) []
    rw [List.append_nil] at hlen
    rw [Matcher.upTo, if_pos hlen, if_pos (ih (hs.suffix (List.suffix_cons _ _)))]

theorem upTo_le (s : List α) : p.upTo s ≤ s.length := by
  induction s with
  | nil => exact Nat.le_refl _
  | cons c s ih =>
    rw [upTo]
    split
    · split
      · exact Nat.zero_le _
      · exact Nat.succ_le_succ ih
    · exact p.len_le _

end Search

/-! ## Fixed texts -/

section Literal

variable [DecidableEq α]

def literalLen (l s : List α) : ℕ := if l <+: s then l.length else 0

theorem literalLen_le (l s : List α) : literalLen l s ≤ s.length := by
  rw [literalLen]
  split
  · exact List.IsPrefix.length_le ‹_›
  · exact Nat.zero_le _

/-- A fixed text. -/
def literal (l : List α) : Matcher α := ⟨literalLen l, literalLen_le l⟩

variable {l s z : List α}

theorem literal_len (l z : List α) : (literal l).len (l ++ z) = l.length :=
  if_pos (List.prefix_append _ _)

theorem literal_len_of_not (h : ¬ l <+: s) : (literal l).len s = 0 := if_neg h

theorem length_le_of_upTo (h : (literal l).upTo s ≠ 0) : l.length ≤ s.length := by
  induction s with
  | nil => exact absurd rfl h
  | cons c s ih =>
    rw [upTo] at h
    split at h
    · split at h
      · exact absurd rfl h
      · exact Nat.le_succ_of_le (ih ‹_›)
    · rename_i hlen
      by_cases hl : l <+: c :: s
      · exact hl.length_le
      · exact absurd (literal_len_of_not hl) hlen

/-- What follows does not matter once it is found. -/
theorem literal_upTo_append (h : (literal l).upTo s ≠ 0) (z : List α) :
    (literal l).upTo (s ++ z) = (literal l).upTo s := by
  induction s with
  | nil => exact absurd rfl h
  | cons c s ih =>
    have hle := length_le_of_upTo h
    have hlen : (literal l).len (c :: (s ++ z)) = (literal l).len (c :: s) := by
      have hiff : l <+: c :: (s ++ z) ↔ l <+: c :: s :=
        ⟨fun hpre => List.prefix_of_prefix_length_le hpre (List.prefix_append (c :: s) z) hle,
          fun hpre => hpre.trans (List.prefix_append (c :: s) z)⟩
      simp only [literal, literalLen, hiff]
    rw [upTo] at h
    rw [List.cons_append, upTo, upTo, hlen]
    split at h
    · rename_i hzero
      rw [if_pos hzero, if_pos hzero]
      by_cases hs : (literal l).upTo s = 0
      · rw [if_pos hs] at h
        exact absurd rfl h
      · rw [ih hs]
    · rename_i hzero
      rw [if_neg hzero, if_neg hzero]

end Literal

end Matcher

end Ultrav
