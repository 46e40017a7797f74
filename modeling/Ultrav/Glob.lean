import Ultrav.DirTree

/-!
# File name patterns

`filepath.Match` and `filepath.Glob`.

* `Glob.terms` — a pattern is read, or malformed; `Glob.fits` — the names it stands for.
* `fits_literal` / `fits_star` — the two patterns everybody uses.
* `FileTree.glob` — the directories a pattern finds; `mem_expand_child` — one more name.
* `expand_congr` — a pattern looks no deeper than its own names.
-/

namespace Ultrav

namespace Glob

/-! ## Patterns of one name -/

/-- A term of a pattern. -/
inductive Term where
  /-- `*`: any characters but slashes -/
  | star
  /-- `?`: any character but a slash -/
  | any
  | one (c : Char)
  /-- `[lo-hi…]` and `[^lo-hi…]` -/
  | oneOf (negated : Bool) (ranges : List (Char × Char))
  deriving DecidableEq, Repr

/-- `getEsc`: a character of a class, and what follows it. -/
def getEsc : List Char → Option (Char × List Char)
  | '-' :: _ => none
  | ']' :: _ => none
  | '\\' :: c :: d :: s => some (c, d :: s)
  | '\\' :: _ => none
  | c :: d :: s => some (c, d :: s)
  | _ => none

/-- The ranges of a class, up to its end. There is at least one. -/
def classRanges : ℕ → List (Char × Char) → List Char → Option (List (Char × Char) × List Char)
  | 0, _, _ => none
  | fuel + 1, ranges, s =>
    if s.head? = some ']' ∧ ranges ≠ [] then some (ranges, s.tail)
    else
      match getEsc s with
      | none => none
      | some (lo, '-' :: s) =>
        match getEsc s with
        | none => none
        | some (hi, s) => classRanges fuel (ranges ++ [(lo, hi)]) s
      | some (lo, s) => classRanges fuel (ranges ++ [(lo, lo)]) s

/-- The terms of a pattern; `fuel` bounds their number. -/
def parse : ℕ → List Char → Option (List Term)
  | _, [] => some []
  | 0, _ => none
  | fuel + 1, c :: s =>
    if c = '*' then (parse fuel s).map (.star :: ·)
    else if c = '?' then (parse fuel s).map (.any :: ·)
    else if c = '\\' then
      match s with
      | [] => none
      | c :: s => (parse fuel s).map (.one c :: ·)
    else if c = '[' then
      let negated := decide (s.head? = some '^')
      match classRanges s.length [] (if negated then s.tail else s) with
      | none => none
      | some (ranges, s) => (parse fuel s).map (.oneOf negated ranges :: ·)
    else (parse fuel s).map (.one c :: ·)

/-- The terms of a pattern, none when it is malformed. -/
def terms (pattern : List Char) : Option (List Term) := parse pattern.length pattern

/-- A term that stands for one character. -/
def Term.accepts : Term → Char → Bool
  | star, _ => false
  | any, c => c ≠ '/'
  | one d, c => c = d
  | oneOf negated ranges, c => (ranges.any fun r => r.1 ≤ c && c ≤ r.2) != negated

/-- What may be left of a text behind a star. -/
def tails : List Char → List (List Char)
  | [] => [[]]
  | c :: s => (c :: s) :: if c = '/' then [] else tails s

/-- The whole text is what the terms stand for. -/
def fits : List Term → List Char → Bool
  | [], s => s.isEmpty
  | .star :: ts, s => (tails s).any (fits ts)
  | t :: ts, s =>
    match s with
    | [] => false
    | c :: s => t.accepts c && fits ts s

/-- `filepath.Match`, where it is not malformed. -/
def matchName (pattern name : String) : Bool :=
  match terms pattern.toList with
  | none => false
  | some ts => fits ts name.toList

/-- The characters a pattern is made of. -/
def metaChar (c : Char) : Bool := c = '*' || c = '?' || c = '[' || c = '\\'

/-- `hasMeta` -/
def hasMeta (s : String) : Bool := s.toList.any metaChar

/-- A text without such characters stands for itself. -/
theorem parse_literal {s : List Char} (h : s.any metaChar = false) :
    ∀ fuel, s.length ≤ fuel → parse fuel s = some (s.map .one) := by
  induction s with
  | nil => exact fun fuel _ => by cases fuel <;> rfl
  | cons c s ih =>
    rw [List.any_cons, Bool.or_eq_false_iff] at h
    have hc : c ≠ '*' ∧ c ≠ '?' ∧ c ≠ '[' ∧ c ≠ '\\' := by simpa [metaChar, and_assoc] using h.1
    intro fuel hfuel
    cases fuel with
    | zero => cases hfuel
    | succ fuel =>
      rw [parse.eq_def]
      dsimp only
      rw [if_neg hc.1, if_neg hc.2.1, if_neg hc.2.2.2, if_neg hc.2.2.1,
        ih h.2 fuel (Nat.le_of_succ_le_succ hfuel)]
      rfl

theorem fits_map_one (s name : List Char) : fits (s.map .one) name = decide (name = s) := by
  induction s generalizing name with
  | nil => cases name <;> simp [fits]
  | cons c s ih =>
    cases name with
    | nil => simp [fits]
    | cons d name =>
      rw [List.map_cons, fits, ih, Term.accepts]
      · simp
      · simp

/-- **A literal** matches itself. -/
theorem matchName_literal {s : String} (h : hasMeta s = false) (name : String) :
    matchName s name = decide (name = s) := by
  rw [matchName, terms, parse_literal h _ le_rfl]
  dsimp only
  rw [fits_map_one, decide_eq_decide, String.toList_inj]

theorem nil_mem_tails {s : List Char} (h : '/' ∉ s) : [] ∈ tails s := by
  induction s with
  | nil => exact List.mem_cons_self
  | cons c s ih =>
    rw [List.mem_cons, not_or] at h
    rw [tails, if_neg (Ne.symm h.1)]
    exact List.mem_cons_of_mem _ (ih h.2)

/-- **The star** matches every name. -/
theorem matchName_star {name : String} (h : '/' ∉ name.toList) : matchName "*" name = true := by
  have hterms : terms "*".toList = some [.star] := by decide
  rw [matchName, hterms]
  exact List.any_eq_true.mpr ⟨[], nil_mem_tails h, rfl⟩

theorem terms_literal {s : String} (h : hasMeta s = false) : (terms s.toList).isSome := by
  rw [terms, parse_literal h _ le_rfl]
  rfl

end Glob

/-! ## Patterns of paths -/

namespace DirPath

/-- `hasMeta` -/
def hasMeta : DirPath → Bool
  | child d name => d.hasMeta || Glob.hasMeta name
  | _ => false

/-- No name of the pattern is malformed. -/
def wellFormed : DirPath → Bool
  | child d name => d.wellFormed && (Glob.terms name.toList).isSome
  | _ => true

theorem wellFormed_of_not_hasMeta {p : DirPath} (h : p.hasMeta = false) : p.wellFormed = true := by
  induction p with
  | dot => rfl
  | slash => rfl
  | child d name ih =>
    rw [hasMeta, Bool.or_eq_false_iff] at h
    rw [wellFormed, ih h.1, Glob.terms_literal h.2]
    rfl

end DirPath

namespace FileTree

open DirPath

variable {α : Type} (t : FileTree α)

/-- The directories a pattern finds. -/
def expand : DirPath → List DirPath
  | .child d name =>
    if (child d name).hasMeta then
      (expand d).flatMap fun d => ((t.names d).filter (Glob.matchName name)).map (child d)
    else if t.has (.child d name) then [.child d name] else []
  | p => if t.has p then [p] else []

/-- `filepath.Glob`; none when the pattern is malformed. -/
def glob (p : DirPath) : Option (List DirPath) := if p.wellFormed then some (t.expand p) else none

variable {t}

/-- A path without special characters finds itself. -/
theorem expand_plain {p : DirPath} (h : p.hasMeta = false) :
    t.expand p = if t.has p then [p] else [] := by
  cases p with
  | dot => rfl
  | slash => rfl
  | child d name => rw [expand, if_neg (by simp [h])]

theorem mem_expand_child {d q : DirPath} {name : String} (h : (child d name).hasMeta = true) :
    q ∈ t.expand (child d name) ↔ ∃ d' ∈ t.expand d, ∃ n ∈ t.names d',
      Glob.matchName name n = true ∧ q = child d' n := by
  rw [expand, if_pos h, List.mem_flatMap]
  refine exists_congr fun d' => and_congr_right fun _ => ?_
  rw [List.mem_map]
  constructor
  · rintro ⟨n, hn, rfl⟩
    exact ⟨n, (List.mem_filter.mp hn).1, (List.mem_filter.mp hn).2, rfl⟩
  · rintro ⟨n, hn, hmatch, rfl⟩
    exact ⟨n, List.mem_filter.mpr ⟨hn, hmatch⟩, rfl⟩

/-- What a pattern finds is as deep as the pattern. -/
theorem depth_of_mem_expand {p q : DirPath} (h : q ∈ t.expand p) : q.depth = p.depth := by
  induction p generalizing q with
  | dot =>
    rw [expand_plain rfl] at h
    split at h
    · rw [List.mem_singleton.mp h]
    · cases h
  | slash =>
    rw [expand_plain rfl] at h
    split at h
    · rw [List.mem_singleton.mp h]
    · cases h
  | child d name ih =>
    cases hmeta : (child d name).hasMeta with
    | false =>
      rw [expand_plain hmeta] at h
      split at h
      · rw [List.mem_singleton.mp h]
      · cases h
    | true =>
      obtain ⟨d', hd', n, -, -, rfl⟩ := (mem_expand_child hmeta).mp h
      rw [depth, depth, ih hd']

/-- **A pattern looks no deeper** than its own names. -/
theorem expand_congr {n : ℕ} {t' : FileTree α} (h : t.shallow n = t'.shallow n) {p : DirPath}
    (hp : p.depth ≤ n) : t.expand p = t'.expand p := by
  induction p with
  | dot => rw [expand_plain rfl, expand_plain rfl, has_congr h hp]
  | slash => rw [expand_plain rfl, expand_plain rfl, has_congr h hp]
  | child d name ih =>
    cases hmeta : (child d name).hasMeta with
    | false => rw [expand_plain hmeta, expand_plain hmeta, has_congr h hp]
    | true =>
      have hd : d.depth < n := hp
      rw [expand, if_pos hmeta, expand, if_pos hmeta, ih hd.le]
      refine List.flatMap_congr fun d' hd' => ?_
      rw [names_congr h (by rwa [depth_of_mem_expand hd'])]

end FileTree

end Ultrav
