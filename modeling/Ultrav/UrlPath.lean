import Mathlib.Data.List.Basic
import Mathlib.Data.Nat.Notation

/-!
# Paths of URLs

A path is a text of bytes in which a byte may be written by its number, and which slashes divide
into segments.

* `Url.unescape`, `Url.escape` — reading and writing; `unescape_escape` is the round trip.
* `splitOn` / `joined` — the parts of a text between separators.
* `unescape_joined` — reading a path reads its segments one by one.
* `cleanPath` — the canonical form of a path.
-/

namespace Ultrav

abbrev Bytes := List UInt8

/-- The bytes of a text. -/
def bytesOf (s : String) : Bytes := s.toByteArray.data.toList

/-! ## Parts -/

section Split

variable {α : Type}

/-- The parts between separators; there is always one. -/
def splitOn [DecidableEq α] (sep : α) : List α → List (List α)
  | [] => [[]]
  | a :: l =>
    if a = sep then [] :: splitOn sep l
    else match splitOn sep l with
      | [] => [[a]]
      | part :: parts => (a :: part) :: parts

/-- The parts with a separator in front of each. -/
def joined (sep : α) (parts : List (List α)) : List α := parts.flatMap (sep :: ·)

theorem joined_cons (sep : α) (part : List α) (parts : List (List α)) :
    joined sep (part :: parts) = sep :: (part ++ joined sep parts) := rfl

variable [DecidableEq α]

theorem splitOn_ne_nil (sep : α) (l : List α) : splitOn sep l ≠ [] := by
  cases l with
  | nil => exact List.cons_ne_nil _ _
  | cons a l =>
    rw [splitOn]
    split
    · exact List.cons_ne_nil _ _
    · split <;> exact List.cons_ne_nil _ _

/-- What is split is put together again. -/
theorem joined_splitOn (sep : α) (l : List α) : joined sep (splitOn sep l) = sep :: l := by
  induction l with
  | nil => rfl
  | cons a l ih =>
    rw [splitOn]
    split
    · rename_i ha
      rw [joined_cons, ih, ha]
      rfl
    · split
      · rename_i hnil
        exact absurd hnil (splitOn_ne_nil sep l)
      · rename_i part parts hparts
        rw [hparts, joined_cons] at ih
        rw [joined_cons, List.cons_append, (List.cons.inj ih).2]

/-- An element of a path is dropped, takes the one before it along, or is kept. -/
def cleanStep (dot : α) (stack : List (List α)) (e : List α) : List (List α) :=
  if e = [] ∨ e = [dot] then stack else if e = [dot, dot] then stack.dropLast else stack ++ [e]

/-- `path.Clean` of a path that begins with a slash. -/
def cleanRooted (slash dot : α) (p : List α) : List α :=
  match (splitOn slash p).foldl (cleanStep dot) [] with
  | [] => [slash]
  | es => joined slash es

end Split

namespace Url

def slash : UInt8 := 0x2F
def percent : UInt8 := 0x25

/-! ## Reading and writing -/

/-- `unhex` -/
def unhex (c : UInt8) : Option UInt8 :=
  if 0x30 ≤ c ∧ c ≤ 0x39 then some (c - 0x30)
  else if 0x61 ≤ c ∧ c ≤ 0x66 then some (c - 0x61 + 10)
  else if 0x41 ≤ c ∧ c ≤ 0x46 then some (c - 0x41 + 10)
  else none

/-- The byte of two digits. -/
def unhexPair (h l : UInt8) : Option UInt8 :=
  (unhex h).bind fun h => (unhex l).map fun l => h <<< 4 ||| l

/-- `unescape`; in a query a plus stands for a blank. -/
def unescape (query : Bool) : Bytes → Option Bytes
  | [] => some []
  | b :: bs =>
    if b = percent then
      match bs with
      | h :: l :: bs => (unhexPair h l).bind fun b => (unescape query bs).map (b :: ·)
      | _ => none
    else if query = true ∧ b = 0x2B then (unescape query bs).map (0x20 :: ·)
    else (unescape query bs).map (b :: ·)

/-- `pathUnescape` -/
def pathUnescape (bs : Bytes) : Bytes := (unescape false bs).getD bs

/-- Letters, digits and the marks that never need an escape. -/
def unreserved (c : UInt8) : Bool :=
  (0x61 ≤ c && c ≤ 0x7A) || (0x41 ≤ c && c ≤ 0x5A) || (0x30 ≤ c && c ≤ 0x39) ||
    (bytesOf "-_.~").contains c

/-- `shouldEscape`, in a path. -/
def shouldEscape (c : UInt8) : Bool := !(unreserved c || (bytesOf "$&+,/:;=@").contains c)

/-- `"0123456789ABCDEF"[n]` -/
def upperhex (n : UInt8) : UInt8 := if n < 10 then 0x30 + n else 0x41 + (n - 10)

/-- `escape` -/
def escape : Bytes → Bytes
  | [] => []
  | b :: bs =>
    if shouldEscape b then percent :: upperhex (b >>> 4) :: upperhex (b &&& 15) :: escape bs
    else b :: escape bs

/-- `validEncoded` -/
def validEncoded (s : Bytes) : Bool :=
  s.all fun c => (bytesOf "!$&'()*+,;=:@[]%").contains c || !shouldEscape c

theorem unhexPair_upperhex (b : UInt8) :
    unhexPair (upperhex (b >>> 4)) (upperhex (b &&& 15)) = some b := by
  have h : ∀ n : Fin 256, unhexPair (upperhex (UInt8.ofFin n >>> 4))
      (upperhex (UInt8.ofFin n &&& 15)) = some (UInt8.ofFin n) := by decide +kernel
  exact h b.toFin

theorem unescape_percent (query : Bool) (h l : UInt8) (bs : Bytes) :
    unescape query (percent :: h :: l :: bs) =
      (unhexPair h l).bind fun b => (unescape query bs).map (b :: ·) := by
  rw [unescape, if_pos rfl]

theorem unescape_cons_of_ne {b : UInt8} (hb : b ≠ percent) (bs : Bytes) :
    unescape false (b :: bs) = (unescape false bs).map (b :: ·) := by
  rcases bs with _ | ⟨h, _ | ⟨l, bs⟩⟩ <;> simp [unescape, hb]

/-- **Round trip**. -/
theorem unescape_escape (bs : Bytes) : unescape false (escape bs) = some bs := by
  induction bs with
  | nil => rfl
  | cons b bs ih =>
    rw [escape]
    split
    · rw [unescape_percent, unhexPair_upperhex, ih]
      rfl
    · rename_i hb
      have hpercent : b ≠ percent := by
        rintro rfl
        exact hb (by decide)
      rw [unescape_cons_of_ne hpercent, ih]
      rfl

/-- A slash is no digit, so no escape goes across it. -/
theorem unhexPair_slash (h : UInt8) : unhexPair slash h = none ∧ unhexPair h slash = none := by
  have hnone : unhex slash = none := rfl
  refine ⟨by rw [unhexPair, hnone]; rfl, ?_⟩
  rw [unhexPair, hnone]
  cases unhex h <;> rfl

theorem bind_map_cons (c : UInt8) (x y : Option Bytes) :
    ((x.map (c :: ·)).bind fun a => y.map fun b => a ++ slash :: b) =
      (x.bind fun a => y.map fun b => a ++ slash :: b).map (c :: ·) := by
  cases x <;> cases y <;> rfl

/-- Reading goes on behind a slash as if it began there. -/
theorem unescape_append_slash (s t : Bytes) :
    unescape false (s ++ slash :: t) =
      (unescape false s).bind fun a => (unescape false t).map fun b => a ++ slash :: b := by
  generalize hq : false = q
  fun_induction unescape q s with
  | case1 =>
    subst hq
    exact unescape_cons_of_ne (by decide) t
  | case2 h l bs ih =>
    rw [List.cons_append, List.cons_append, List.cons_append, unescape_percent, ih]
    cases unhexPair h l with
    | none => rfl
    | some b => exact (bind_map_cons b _ _).symm
  | case3 bs hshort =>
    -- the escape would have to end behind the slash
    rcases bs with _ | ⟨h, _ | ⟨l, bs⟩⟩
    · cases t with
      | nil => rfl
      | cons l t =>
        rw [List.singleton_append, unescape_percent, (unhexPair_slash l).1]
        rfl
    · rw [List.cons_append, List.singleton_append, unescape_percent, (unhexPair_slash h).2]
      rfl
    · exact absurd rfl (hshort h l bs)
  | case4 b bs hb hplus ih => cases hq.trans hplus.1
  | case5 b bs hb hplus ih =>
    subst hq
    rw [List.cons_append, unescape_cons_of_ne hb, ih]
    exact (bind_map_cons b _ _).symm

/-! ## Segments -/

/-- `firstSegment`: the first segment of a path, read, and the rest; a path that is only a slash
is a segment itself. -/
def firstSegment (path : Bytes) : Bytes × Bytes :=
  if path = [slash] then ([slash], [])
  else
    let path := path.drop 1
    (pathUnescape (path.takeWhile (· ≠ slash)), path.dropWhile (· ≠ slash))

/-- The segments between the slashes, as `firstSegment` gives them one after the other. -/
def readSegments : List Bytes → List Bytes
  | [] => []
  | [part] => [if part = [] then [slash] else pathUnescape part]
  | part :: parts => pathUnescape part :: readSegments parts

/-- The segments of a path. -/
def segments : Bytes → List Bytes
  | [] => []
  | _ :: path => readSegments (splitOn slash path)

/-- What is read of a path is what is read of its segments. -/
theorem unescape_joined (parts : List Bytes) {p : Bytes}
    (h : unescape false (joined slash parts) = some p) :
    ∃ ps, parts.map (unescape false) = ps.map some ∧ p = joined slash ps := by
  induction parts generalizing p with
  | nil =>
    cases h
    exact ⟨[], rfl, rfl⟩
  | cons part parts ih =>
    rw [joined_cons, unescape_cons_of_ne (by decide)] at h
    obtain ⟨q, hq, rfl⟩ := Option.map_eq_some_iff.mp h
    cases parts with
    | nil =>
      rw [joined, List.flatMap_nil, List.append_nil] at hq
      exact ⟨[q], by rw [List.map_singleton, List.map_singleton, hq], by simp [joined]⟩
    | cons part' parts =>
      rw [joined_cons, unescape_append_slash] at hq
      obtain ⟨a, ha, hb⟩ := Option.bind_eq_some_iff.mp hq
      obtain ⟨b, hb', rfl⟩ := Option.map_eq_some_iff.mp hb
      have hrest : unescape false (joined slash (part' :: parts)) = some (slash :: b) := by
        rw [joined_cons, unescape_cons_of_ne (by decide), hb']
        rfl
      obtain ⟨ps, hps, hjoined⟩ := ih hrest
      refine ⟨a :: ps, ?_, by rw [joined_cons, ← hjoined]⟩
      rw [List.map_cons, ha, hps]
      rfl

theorem splitOn_of_not_mem {sep : UInt8} {l : Bytes} (h : sep ∉ l) : splitOn sep l = [l] := by
  induction l with
  | nil => rfl
  | cons a l ih =>
    rw [List.mem_cons, not_or] at h
    rw [splitOn, if_neg (Ne.symm h.1), ih h.2]

theorem splitOn_append {sep : UInt8} {l : Bytes} (h : sep ∉ l) (r : Bytes) :
    splitOn sep (l ++ sep :: r) = l :: splitOn sep r := by
  induction l with
  | nil => rw [List.nil_append, splitOn, if_pos rfl]
  | cons a l ih =>
    rw [List.mem_cons, not_or] at h
    rw [List.cons_append, splitOn, if_neg (Ne.symm h.1), ih h.2]

/-- The segments are found one after the other. -/
theorem segments_slash (path : Bytes) :
    segments (slash :: path) =
      (firstSegment (slash :: path)).1 :: segments (firstSegment (slash :: path)).2 := by
  by_cases hpath : path = []
  · rw [hpath]
    rfl
  have hne : ¬ slash :: path = [slash] := fun h => hpath (List.cons.inj h).2
  have hnot : slash ∉ path.takeWhile (· ≠ slash) := fun h => by
    simpa using List.all_eq_true.mp List.all_takeWhile _ h
  have hdrop : (slash :: path).drop 1 = path := rfl
  have hsplit := List.takeWhile_append_dropWhile (p := (· ≠ slash)) (l := path)
  rw [firstSegment, if_neg hne, segments]
  dsimp only
  rw [hdrop]
  cases hrest : path.dropWhile (· ≠ slash) with
  | nil =>
    rw [hrest, List.append_nil] at hsplit
    rw [hsplit] at hnot ⊢
    rw [splitOn_of_not_mem hnot, readSegments, if_neg hpath]
    rfl
  | cons c rest =>
    have hc : c = slash := by
      have h := List.head?_dropWhile_not (· ≠ slash) path
      rw [hrest] at h
      simpa using h
    subst hc
    conv_lhs => rw [← hsplit, hrest, splitOn_append hnot]
    obtain ⟨part, parts, hparts⟩ := List.exists_cons_of_ne_nil (splitOn_ne_nil slash rest)
    have hsegments : segments (slash :: rest) = readSegments (splitOn slash rest) := rfl
    rw [hsegments, hparts, readSegments]
    exact List.cons_ne_nil _ _

/-! ## Canonical paths -/

/-- `cleanPath` -/
def cleanPath (p : Bytes) : Bytes :=
  let p := if p.head? = some slash then p else slash :: p
  let np := cleanRooted slash 0x2E p
  -- a slash at the end stays
  if p.getLast? = some slash ∧ np ≠ [slash] then np ++ [slash] else np

theorem head?_cleanPath (p : Bytes) : (cleanPath p).head? = some slash := by
  have hrooted (q : Bytes) : (cleanRooted slash 0x2E q).head? = some slash := by
    rw [cleanRooted]
    split
    · rfl
    · rename_i hes
      obtain ⟨e, es, hes'⟩ := List.exists_cons_of_ne_nil hes
      rw [hes', joined_cons]
      rfl
  rw [cleanPath]
  generalize (if p.head? = some slash then p else slash :: p) = q
  split
  · rw [List.head?_append, hrooted]
    rfl
  · exact hrooted _

/-- `url.URL`, as far as its path goes. -/
structure URL where
  path : Bytes
  rawPath : Bytes
  deriving DecidableEq, Repr

/-- `setPath` -/
def setPath (raw : Bytes) : Option URL :=
  (unescape false raw).map fun path =>
    -- the default encoding needs no hint
    if escape path = raw then ⟨path, []⟩ else ⟨path, raw⟩

/-- `EscapedPath` -/
def URL.escapedPath (u : URL) : Bytes :=
  if u.rawPath ≠ [] ∧ validEncoded u.rawPath ∧ unescape false u.rawPath = some u.path then u.rawPath
  else if u.path = bytesOf "*" then bytesOf "*"
  else escape u.path

/-- The path is what the path that is routed stands for. -/
theorem unescape_escapedPath (u : URL) : unescape false u.escapedPath = some u.path := by
  rw [URL.escapedPath]
  split
  · rename_i h
    exact h.2.2
  · split
    · rename_i hstar
      rw [hstar]
      rfl
    · exact unescape_escape u.path

end Url

end Ultrav
