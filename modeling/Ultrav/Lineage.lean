import Mathlib.Logic.Relation
import Mathlib.Data.List.Chain
import Mathlib.Data.List.Nodup

/-!
# Lineages: following parent keys

Records that name their parent by key, and a partial `lookup` of the records that
exist at the moment. Three layers:

* `Link` / `Ancestor` — one parent step, and its transitive closure.
* `climb` — the **loop** that walks from a record to its root, prepending what it
  finds. Fuel-indexed: on a cyclic store the loop never ends.
* `Line` / `Cut` — what the loop computes: the records from the root down to the
  record itself, or the first key that no longer resolves.

A `Pedigree` is a complete store: every parent key resolves in it, to a record of
smaller rank. `Founded.pedigree` makes one of a store that only ever grew. Any store
contained in one is acyclic, so there the loop ends (`Pedigree.climb_isSome`), and a
record has a line exactly when no ancestor is missing (`Pedigree.line_iff`,
`Pedigree.climb_cases`).
-/

namespace Ultrav

universe u v

namespace Lineage

variable {κ : Type u} {α : Type v}

/-- `p` is what `lookup` finds under the parent key of `a`. -/
def Link (lookup : κ → Option α) (parent : α → Option κ) (a p : α) : Prop :=
  ∃ k, parent a = some k ∧ lookup k = some p

/-- `p` is a proper ancestor of `a`. -/
def Ancestor (lookup : κ → Option α) (parent : α → Option κ) : α → α → Prop :=
  Relation.TransGen (Link lookup parent)

/-- Walk up from `cur`, prepending each parent to `acc`; an unresolved key is the
error. -/
def climb (lookup : κ → Option α) (parent : α → Option κ) :
    ℕ → α → List α → Option (Except κ (List α))
  | 0, _, _ => none
  | n + 1, cur, acc =>
    match parent cur with
    | none => some (.ok acc)
    | some k =>
      match lookup k with
      | none => some (.error k)
      | some p => climb lookup parent n p (p :: acc)

variable {lookup : κ → Option α} {parent : α → Option κ}

/-! ## What the loop computes -/

/-- The records from the root down to `a`, oldest first. -/
inductive Line (lookup : κ → Option α) (parent : α → Option κ) : α → List α → Prop where
  /-- a record without parent -/
  | root {a : α} : parent a = none → Line lookup parent a [a]
  /-- a record whose parent has a line -/
  | child {a p : α} {k : κ} {l : List α} : parent a = some k → lookup k = some p →
      Line lookup parent p l → Line lookup parent a (l ++ [a])

/-- Walking up from `a` meets the key `k`, which does not resolve. -/
inductive Cut (lookup : κ → Option α) (parent : α → Option κ) : α → κ → Prop where
  /-- the parent itself is gone -/
  | here {a : α} {k : κ} : parent a = some k → lookup k = none → Cut lookup parent a k
  /-- some older record is gone -/
  | above {a p : α} {k j : κ} : parent a = some k → lookup k = some p →
      Cut lookup parent p j → Cut lookup parent a j

theorem climb_of_root {n : ℕ} {a : α} {acc : List α} (ha : parent a = none) :
    climb lookup parent (n + 1) a acc = some (.ok acc) := by
  simp only [climb, ha]

theorem climb_of_missing {n : ℕ} {a : α} {k : κ} {acc : List α} (ha : parent a = some k)
    (hk : lookup k = none) : climb lookup parent (n + 1) a acc = some (.error k) := by
  simp only [climb, ha, hk]

theorem climb_of_link {n : ℕ} {a p : α} {k : κ} {acc : List α} (ha : parent a = some k)
    (hk : lookup k = some p) :
    climb lookup parent (n + 1) a acc = climb lookup parent n p (p :: acc) := by
  simp only [climb, ha, hk]

/-- Inversion: a successful walk built the line on top of the accumulator. -/
theorem line_of_climb :
    ∀ {n : ℕ} {a : α} {acc l : List α},
      climb lookup parent n a (a :: acc) = some (.ok l) →
        ∃ l₀, Line lookup parent a l₀ ∧ l = l₀ ++ acc := by
  intro n
  induction n with
  | zero =>
    intro a acc l h
    cases h
  | succ n ih =>
    intro a acc l h
    rcases ha : parent a with _ | k
    · rw [climb_of_root ha] at h
      cases h
      exact ⟨[a], .root ha, rfl⟩
    · rcases hk : lookup k with _ | p
      · rw [climb_of_missing ha hk] at h
        cases h
      · rw [climb_of_link ha hk] at h
        obtain ⟨l₀, hl₀, rfl⟩ := ih h
        exact ⟨l₀ ++ [a], .child ha hk hl₀, by rw [List.append_assoc]; rfl⟩

/-- Inversion: a failed walk met a key that does not resolve. -/
theorem cut_of_climb :
    ∀ {n : ℕ} {a : α} {acc : List α} {k : κ},
      climb lookup parent n a acc = some (.error k) → Cut lookup parent a k := by
  intro n
  induction n with
  | zero =>
    intro a acc k h
    cases h
  | succ n ih =>
    intro a acc k h
    rcases ha : parent a with _ | j
    · rw [climb_of_root ha] at h
      cases h
    · rcases hj : lookup j with _ | p
      · rw [climb_of_missing ha hj] at h
        cases h
        exact .here ha hj
      · rw [climb_of_link ha hj] at h
        exact .above ha hj (ih h)

/-- A line is what the walk returns, from some fuel on. -/
theorem climb_of_line {a : α} {l : List α} (h : Line lookup parent a l) :
    ∃ n, ∀ m, n ≤ m → ∀ acc, climb lookup parent m a (a :: acc) = some (.ok (l ++ acc)) := by
  induction h with
  | root ha =>
    refine ⟨1, fun m hm acc => ?_⟩
    obtain ⟨m', rfl⟩ : ∃ m', m = m' + 1 := ⟨m - 1, by omega⟩
    exact climb_of_root ha
  | @child a p k l ha hk _ ih =>
    obtain ⟨n, hn⟩ := ih
    refine ⟨n + 1, fun m hm acc => ?_⟩
    obtain ⟨m', rfl⟩ : ∃ m', m = m' + 1 := ⟨m - 1, by omega⟩
    rw [climb_of_link ha hk, hn m' (by omega), List.append_assoc]
    rfl

/-- **Fuel monotonicity**: a walk that ended ends the same way with more fuel. -/
theorem climb_fuel_mono :
    ∀ {n m : ℕ}, n ≤ m → ∀ {a : α} {acc : List α} {r : Except κ (List α)},
      climb lookup parent n a acc = some r → climb lookup parent m a acc = some r := by
  intro n
  induction n with
  | zero =>
    intro m _ a acc r h
    cases h
  | succ n ih =>
    intro m hm a acc r h
    obtain ⟨m', rfl⟩ : ∃ m', m = m' + 1 := ⟨m - 1, by omega⟩
    rcases ha : parent a with _ | k
    · rw [climb_of_root ha] at h ⊢
      exact h
    · rcases hk : lookup k with _ | p
      · rw [climb_of_missing ha hk] at h ⊢
        exact h
      · rw [climb_of_link ha hk] at h ⊢
        exact ih (by omega) h

/-- A line ends in its own record. -/
theorem Line.getLast?_eq {a : α} {l : List α} (h : Line lookup parent a l) :
    l.getLast? = some a := by
  cases h with
  | root _ => rfl
  | child _ _ _ => exact List.getLast?_concat ..

theorem Line.ne_nil {a : α} {l : List α} (h : Line lookup parent a l) : l ≠ [] := by
  rintro rfl
  cases h.getLast?_eq

/-- The first record of a line has no parent. -/
theorem Line.head?_eq {a : α} {l : List α} (h : Line lookup parent a l) :
    ∃ r, l.head? = some r ∧ parent r = none := by
  induction h with
  | @root a ha => exact ⟨a, rfl, ha⟩
  | @child a p k l _ _ _ ih =>
    obtain ⟨r, hr, hroot⟩ := ih
    exact ⟨r, by simp [hr], hroot⟩

/-- Along a line each record names the one before it. -/
theorem Line.isChain {key : α → κ} (hkey : ∀ k p, lookup k = some p → key p = k) {a : α}
    {l : List α} (h : Line lookup parent a l) :
    l.IsChain fun p c => parent c = some (key p) := by
  induction h with
  | root _ => exact .singleton _
  | @child a p k l ha hk hl ih =>
    refine List.isChain_append.mpr ⟨ih, .singleton a, fun q hq b hb => ?_⟩
    obtain rfl : a = b := Option.some.inj hb
    obtain rfl : p = q := Option.some.inj (hl.getLast?_eq.symm.trans hq)
    rw [ha, hkey k p hk]

/-- A record has at most one line. -/
theorem Line.unique {a : α} {l : List α} (h : Line lookup parent a l) :
    ∀ {l' : List α}, Line lookup parent a l' → l = l' := by
  induction h with
  | root ha =>
    intro l' h'
    cases h' with
    | root _ => rfl
    | child hk _ _ =>
      rw [ha] at hk
      cases hk
  | @child a p k l ha hk _ ih =>
    intro l' h'
    cases h' with
    | root ha' =>
      rw [ha] at ha'
      cases ha'
    | @child _ q j l' hj hq hl' =>
      obtain rfl : k = j := Option.some.inj (ha.symm.trans hj)
      obtain rfl : p = q := Option.some.inj (hk.symm.trans hq)
      rw [ih hl']

/-- A record has a line when its parent has one. -/
theorem line_child_iff {a p : α} {k : κ} (ha : parent a = some k) (hk : lookup k = some p) :
    (∃ l, Line lookup parent a l) ↔ ∃ l, Line lookup parent p l := by
  constructor
  · rintro ⟨l, hl⟩
    cases hl with
    | root ha' =>
      rw [ha] at ha'
      cases ha'
    | @child _ q j l hj hq hl =>
      obtain rfl : k = j := Option.some.inj (ha.symm.trans hj)
      obtain rfl : p = q := Option.some.inj (hk.symm.trans hq)
      exact ⟨l, hl⟩
  · rintro ⟨l, hl⟩
    exact ⟨l ++ [a], .child ha hk hl⟩

/-- A record that lost an ancestor has no line. -/
theorem Cut.not_line {a : α} {k : κ} (h : Cut lookup parent a k) :
    ¬ ∃ l, Line lookup parent a l := by
  induction h with
  | @here a k ha hk =>
    rintro ⟨l, hl⟩
    cases hl with
    | root ha' =>
      rw [ha] at ha'
      cases ha'
    | child ha' hk' _ =>
      obtain rfl := Option.some.inj (ha.symm.trans ha')
      rw [hk] at hk'
      cases hk'
  | above ha hk _ ih => exact fun hl => ih ((line_child_iff ha hk).mp hl)

/-- Each record of a line has its own, no longer line. -/
theorem Line.line_of_mem {a : α} {l : List α} (h : Line lookup parent a l) :
    ∀ b ∈ l, ∃ l', Line lookup parent b l' ∧ l'.length ≤ l.length := by
  induction h with
  | @root a ha =>
    intro b hb
    obtain rfl := List.mem_singleton.mp hb
    exact ⟨[b], .root ha, Nat.le_refl _⟩
  | @child a p k l ha hk hl ih =>
    intro b hb
    rcases List.mem_append.mp hb with hb | hb
    · obtain ⟨l', hl', hlen⟩ := ih b hb
      exact ⟨l', hl', by rw [List.length_append]; omega⟩
    · obtain rfl := List.mem_singleton.mp hb
      exact ⟨l ++ [b], .child ha hk hl, Nat.le_refl _⟩

/-- No record occurs twice in a line. -/
theorem Line.nodup {a : α} {l : List α} (h : Line lookup parent a l) : l.Nodup := by
  induction h with
  | root _ => exact List.nodup_singleton _
  | @child a p k l ha hk hl ih =>
    refine List.nodup_append.mpr ⟨ih, List.nodup_singleton a, ?_⟩
    intro b hb c hc
    obtain rfl := List.mem_singleton.mp hc
    rintro rfl
    obtain ⟨l', hl', hlen⟩ := hl.line_of_mem b hb
    obtain rfl := hl'.unique (.child ha hk hl)
    rw [List.length_append, List.length_singleton] at hlen
    omega

/-- Records stored under their own key are found under it, all along a line. -/
theorem Line.stored {key : α → κ} (hkey : ∀ k p, lookup k = some p → key p = k) {a : α}
    (ha : lookup (key a) = some a) {l : List α} (h : Line lookup parent a l) :
    ∀ b ∈ l, lookup (key b) = some b := by
  induction h with
  | root _ =>
    intro b hb
    rwa [List.mem_singleton.mp hb]
  | @child a p k l _ hk _ ih =>
    intro b hb
    rcases List.mem_append.mp hb with hb | hb
    · exact ih (by rwa [hkey k p hk]) b hb
    · rwa [List.mem_singleton.mp hb]

/-- Records stored under their own key have distinct keys along a line. -/
theorem Line.nodup_keys {key : α → κ} (hkey : ∀ k p, lookup k = some p → key p = k) {a : α}
    (ha : lookup (key a) = some a) {l : List α} (h : Line lookup parent a l) :
    (l.map key).Nodup := by
  have hstored := h.stored hkey ha
  refine h.nodup.map_on fun b hb c hc hbc => ?_
  have hb' := hstored b hb
  rw [hbc, hstored c hc] at hb'
  exact (Option.some.inj hb').symm

/-! ## Closed sets -/

/-- A set keeps the ancestors of its members as soon as it keeps their parents. -/
theorem ancestors_kept_iff {K : α → Prop} :
    (∀ a, K a → ∀ p, Ancestor lookup parent a p → K p) ↔
      ∀ a, K a → ∀ p, Link lookup parent a p → K p := by
  constructor
  · intro h a ha p hp
    exact h a ha p (.single hp)
  · intro h a ha p hp
    induction hp with
    | single hl => exact h a ha _ hl
    | tail _ hl ih => exact h _ ih _ hl

/-! ## Pedigrees -/

/-- A complete store: each parent key of a stored record resolves, to a record of
smaller rank. -/
structure Pedigree (all : κ → Option α) (key : α → κ) (parent : α → Option κ) where
  /-- generation count: parents come first -/
  rank : α → ℕ
  /-- records are stored under their own key -/
  keyed : ∀ {k : κ} {a : α}, all k = some a → key a = k
  /-- parent keys resolve, downwards in rank -/
  founded : ∀ {k j : κ} {a : α}, all k = some a → parent a = some j →
    ∃ p, all j = some p ∧ rank p < rank a

namespace Pedigree

variable {all : κ → Option α} {key : α → κ}

/-- A store contained in a pedigree is acyclic: the walk ends. -/
theorem climb_isSome (P : Pedigree all key parent)
    (hsub : ∀ k p, lookup k = some p → all k = some p) :
    ∀ {n : ℕ} {k : κ} {a : α} {acc : List α}, P.rank a < n → all k = some a →
      (climb lookup parent n a acc).isSome := by
  intro n
  induction n with
  | zero =>
    intro k a acc hr _
    omega
  | succ n ih =>
    intro k a acc hr hak
    rcases ha : parent a with _ | j
    · rw [climb_of_root ha]
      rfl
    · rcases hj : lookup j with _ | p
      · rw [climb_of_missing ha hj]
        rfl
      · obtain ⟨q, hq, hlt⟩ := P.founded hak ha
        obtain rfl : p = q := Option.some.inj ((hsub j p hj).symm.trans hq)
        rw [climb_of_link ha hj]
        exact ih (by omega) hq

/-- A record has a line exactly when none of its ancestors is missing. -/
theorem line_iff (P : Pedigree all key parent)
    (hsub : ∀ k p, lookup k = some p → all k = some p) {k : κ} {a : α}
    (hak : all k = some a) :
    (∃ l, Line lookup parent a l) ↔
      ∀ p, Ancestor all parent a p → lookup (key p) = some p := by
  constructor
  · rintro ⟨l, hl⟩
    clear hak
    induction hl with
    | root ha =>
      intro p hp
      obtain ⟨b, ⟨j, hj, -⟩, -⟩ := Relation.TransGen.head'_iff.mp hp
      rw [ha] at hj
      cases hj
    | @child a q j l ha hj _ ih =>
      intro p hp
      obtain ⟨b, ⟨i, hi, hb⟩, hbp⟩ := Relation.TransGen.head'_iff.mp hp
      obtain rfl : j = i := Option.some.inj (ha.symm.trans hi)
      obtain rfl : q = b := Option.some.inj ((hsub j q hj).symm.trans hb)
      rcases Relation.reflTransGen_iff_eq_or_transGen.mp hbp with rfl | hbp
      · rw [P.keyed hb]
        exact hj
      · exact ih p hbp
  · -- upwards along the rank
    generalize hr : P.rank a = r
    induction r using Nat.strongRecOn generalizing a k with
    | ind r ih =>
      intro h
      rcases ha : parent a with _ | j
      · exact ⟨[a], .root ha⟩
      · obtain ⟨p, hp, hlt⟩ := P.founded hak ha
        have hlink : Link all parent a p := ⟨j, ha, hp⟩
        have hlook : lookup j = some p := by
          rw [← P.keyed hp]
          exact h p (.single hlink)
        obtain ⟨l, hl⟩ := ih (P.rank p) (by omega) hp rfl
          fun q hq => h q (.head hlink hq)
        exact ⟨l ++ [a], .child ha hlook hl⟩

/-- Ancestors are stored under their own key. -/
theorem ancestor_stored (P : Pedigree all key parent) {a p : α}
    (h : Ancestor all parent a p) : all (key p) = some p := by
  obtain ⟨b, -, k, -, hp⟩ := Relation.TransGen.tail'_iff.mp h
  rwa [P.keyed hp]

/-- **What the walk returns**: the line of the record, unless an ancestor is missing. -/
theorem climb_cases (P : Pedigree all key parent)
    (hsub : ∀ k p, lookup k = some p → all k = some p) {n : ℕ} {k : κ} {a : α}
    (hak : all k = some a) (hn : P.rank a < n) :
    (∃ l, climb lookup parent n a [a] = some (.ok l) ∧ Line lookup parent a l ∧
        ∀ p, Ancestor all parent a p → lookup (key p) ≠ none) ∨
      ∃ j, climb lookup parent n a [a] = some (.error j) ∧
        ∃ p, Ancestor all parent a p ∧ lookup (key p) = none := by
  have hends : (climb lookup parent n a [a]).isSome := P.climb_isSome hsub hn hak
  obtain ⟨r, hr⟩ := Option.isSome_iff_exists.mp hends
  cases r with
  | ok l =>
    obtain ⟨l, hl, rfl⟩ := line_of_climb hr
    refine .inl ⟨l, by rw [hr, List.append_nil], hl, fun p hp => ?_⟩
    rw [(P.line_iff hsub hak).mp ⟨l, hl⟩ p hp]
    exact Option.some_ne_none p
  | error j =>
    have hmissing := mt (P.line_iff hsub hak).mpr (cut_of_climb hr).not_line
    push Not at hmissing
    obtain ⟨p, hp, hne⟩ := hmissing
    refine .inr ⟨j, hr, p, hp, ?_⟩
    rcases hlook : lookup (key p) with _ | q
    · rfl
    · -- what is found under the key of `p` is `p`
      refine absurd ?_ hne
      rw [hlook, ← hsub _ _ hlook, P.ancestor_stored hp]

end Pedigree

/-! ## Growing stores -/

section Founded

variable {key : α → κ}

/-- Records in order of creation, newest first: keys are never reused, and a parent is
created before its children. -/
inductive Founded (key : α → κ) (parent : α → Option κ) : List α → Prop where
  /-- nothing created yet -/
  | nil : Founded key parent []
  /-- one more record -/
  | cons {a : α} {l : List α} : Founded key parent l → (∀ b ∈ l, key b ≠ key a) →
      (∀ j, parent a = some j → ∃ p ∈ l, key p = j) → Founded key parent (a :: l)

theorem Founded.nodup_keys {l : List α} (h : Founded key parent l) : (l.map key).Nodup := by
  induction h with
  | nil => exact List.nodup_nil
  | @cons a l _ hnew _ ih =>
    refine List.nodup_cons.mpr ⟨fun hmem => ?_, ih⟩
    obtain ⟨b, hb, heq⟩ := List.mem_map.mp hmem
    exact hnew b hb heq

/-- Parents are stored. -/
theorem Founded.parent_mem {l : List α} (h : Founded key parent l) {b : α} (hb : b ∈ l) {j : κ}
    (hj : parent b = some j) : ∃ p ∈ l, key p = j := by
  induction h with
  | nil => cases hb
  | @cons a l _ _ hpar ih =>
    rcases List.mem_cons.mp hb with rfl | hb
    · obtain ⟨p, hp, hkey⟩ := hpar j hj
      exact ⟨p, List.mem_cons_of_mem _ hp, hkey⟩
    · obtain ⟨p, hp, hkey⟩ := ih hb
      exact ⟨p, List.mem_cons_of_mem _ hp, hkey⟩

variable [DecidableEq κ]

/-- The record of a key among all records. -/
def lookupIn (key : α → κ) (l : List α) (k : κ) : Option α := l.find? fun a => key a = k

/-- How many records were created up to the one of key `k`. -/
def height (key : α → κ) : List α → κ → ℕ
  | [], _ => 0
  | b :: l, k => if key b = k then l.length + 1 else height key l k

theorem height_le (key : α → κ) (k : κ) : ∀ l : List α, height key l k ≤ l.length
  | [] => Nat.le_refl 0
  | b :: l => by
      by_cases hb : key b = k
      · simp [height, hb]
      · have := height_le key k l
        simp only [height, if_neg hb, List.length_cons]
        omega

theorem lookupIn_eq_some {l : List α} {k : κ} {a : α} (h : lookupIn key l k = some a) :
    a ∈ l ∧ key a = k :=
  ⟨List.mem_of_find?_eq_some h, by simpa using List.find?_some h⟩

theorem ancestor_mem_lookupIn {l : List α} {a p : α}
    (h : Ancestor (lookupIn key l) parent a p) : p ∈ l := by
  obtain ⟨b, -, k, -, hp⟩ := Relation.TransGen.tail'_iff.mp h
  exact (lookupIn_eq_some hp).1

/-- Keys are unique, so each record is found under its key. -/
theorem Founded.lookupIn_of_mem {l : List α} (h : Founded key parent l) {a : α} (ha : a ∈ l) :
    lookupIn key l (key a) = some a := by
  induction h with
  | nil => cases ha
  | @cons b l _ hnew _ ih =>
    rcases List.mem_cons.mp ha with rfl | ha
    · exact List.find?_cons_of_pos (by simp)
    · rw [lookupIn, List.find?_cons_of_neg (by simpa using Ne.symm (hnew a ha))]
      exact ih ha

/-- A growing store is a pedigree. -/
def Founded.pedigree {l : List α} (h : Founded key parent l) :
    Pedigree (lookupIn key l) key parent where
  rank a := height key l (key a)
  keyed ha := (lookupIn_eq_some ha).2
  founded := by
    induction h with
    | nil =>
      intro k j a ha
      cases ha
    | @cons b l hl hnew hpar ih =>
      intro k j a ha hj
      by_cases hb : key b = k
      · -- the newest record: its parent is among the older ones
        rw [lookupIn, List.find?_cons_of_pos (by simpa using hb)] at ha
        cases ha
        obtain ⟨p, hp, rfl⟩ := hpar j hj
        have hne := Ne.symm (hnew p hp)
        refine ⟨p, ?_, ?_⟩
        · rw [lookupIn, List.find?_cons_of_neg (by simpa using hne)]
          exact hl.lookupIn_of_mem hp
        · have := height_le key (key p) l
          simp only [height, if_neg hne]
          rw [if_pos trivial]
          omega
      · rw [lookupIn, List.find?_cons_of_neg (by simpa using hb)] at ha
        obtain ⟨p, hp, hlt⟩ := ih ha hj
        obtain ⟨hpl, hpj⟩ := lookupIn_eq_some hp
        obtain ⟨hal, hak⟩ := lookupIn_eq_some ha
        have hne := Ne.symm (hnew p hpl)
        refine ⟨p, ?_, ?_⟩
        · rw [lookupIn, List.find?_cons_of_neg (by rw [← hpj]; simpa using hne)]
          exact hp
        · simpa only [height, if_neg hne, if_neg (Ne.symm (hnew a hal))] using hlt

/-- A new record changes no link of an older one. -/
theorem Founded.link_cons {a b p : α} {l : List α} (h : Founded key parent (a :: l))
    (hb : b ∈ l) :
    Link (lookupIn key (a :: l)) parent b p ↔ Link (lookupIn key l) parent b p := by
  cases h with
  | cons hl hnew hpar =>
    have hlook : ∀ k, parent b = some k → lookupIn key (a :: l) k = lookupIn key l k := by
      intro k hk
      obtain ⟨q, hq, rfl⟩ := hl.parent_mem hb hk
      exact List.find?_cons_of_neg (by simpa using Ne.symm (hnew q hq))
    constructor
    · rintro ⟨k, hk, hp⟩
      exact ⟨k, hk, by rwa [hlook k hk] at hp⟩
    · rintro ⟨k, hk, hp⟩
      exact ⟨k, hk, by rwa [hlook k hk]⟩

/-- A new record changes no ancestor of an older one. -/
theorem Founded.ancestor_cons {a b p : α} {l : List α} (h : Founded key parent (a :: l))
    (hb : b ∈ l) :
    Ancestor (lookupIn key (a :: l)) parent b p ↔ Ancestor (lookupIn key l) parent b p := by
  constructor
  · intro hp
    induction hp with
    | single hl => exact .single ((h.link_cons hb).mp hl)
    | tail _ hl ih => exact ih.tail ((h.link_cons (ancestor_mem_lookupIn ih)).mp hl)
  · intro hp
    induction hp with
    | single hl => exact .single ((h.link_cons hb).mpr hl)
    | tail hc hl ih => exact ih.tail ((h.link_cons (ancestor_mem_lookupIn hc)).mpr hl)

end Founded

end Lineage

end Ultrav
