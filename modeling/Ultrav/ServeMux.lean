import Ultrav.UrlPath

/-!
# A router of requests

Handlers are registered for a method and a pattern of segments. Among the patterns that fit a path,
the one with a literal at the first segment in which they differ is taken.

* `Mux.Segment`, `Pattern.parse` — patterns and their texts.
* `Mux.matchPath` — the search in the tree of patterns, where a node is the list of what is left of
  the patterns below it.
* `Mux.findHandler` — what becomes of a request.
* `findHandler_fits` — a handler is only found through a pattern that fits the path.
* `Fits.covers` — then the path that was asked for begins with the literals of the pattern.
-/

namespace Ultrav.Mux

open Url

/-! ## Patterns -/

/-- A segment of a pattern. -/
inductive Segment where
  | lit (s : Bytes)
  /-- `{name}` -/
  | wild (name : Bytes)
  /-- the rest of the path -/
  | multi
  deriving DecidableEq, Repr

/-- A method, or none, and the segments. -/
structure Pattern where
  method : Bytes
  segs : List Segment
  deriving DecidableEq, Repr

/-- The segments between the slashes; a slash at the end takes any rest. -/
def parseSegments : List Bytes → List Segment
  | [] => []
  | [[]] => [.multi]
  | part :: parts =>
    (if part.head? = some 0x7B then .wild (part.drop 1).dropLast else .lit part) ::
      parseSegments parts

/-- A pattern of the form `METHOD /path`. -/
def Pattern.parse (s : String) : Pattern where
  method := (bytesOf s).takeWhile (· ≠ 0x20)
  segs := parseSegments ((splitOn slash ((bytesOf s).dropWhile (· ≠ 0x20))).drop 1)

/-- A registered handler. -/
structure Entry (α : Type) where
  pattern : Pattern
  handler : α

/-! ## The tree -/

section Tree

variable {α : Type}

/-- A node: what is left of the patterns below it, and where they lead. -/
abbrev Node (α : Type) := List (List Segment × α)

namespace Node

variable (n : Node α)

/-- The node itself as the end of a pattern. -/
def leaf : Option α := n.findSome? fun p => if p.1 = [] then some p.2 else none

/-- `emptyChild` -/
def emptyChild : Node α := n.filterMap fun p =>
  match p.1 with
  | .wild _ :: segs => some (segs, p.2)
  | _ => none

/-- `findChild` -/
def findChild (key : Bytes) : Node α :=
  if key = [] then n.emptyChild
  else n.filterMap fun p =>
    match p.1 with
    | .lit s :: segs => if s = key then some (segs, p.2) else none
    | _ => none

/-- `multiChild` -/
def multiChild : Option α := n.findSome? fun p => if p.1 = [.multi] then some p.2 else none

end Node

/-- `matchPath`, with what the wildcards stand for. -/
def matchPath (n : Node α) (matches' : List Bytes) : List Bytes → Option (α × List Bytes)
  | [] => n.leaf.map (·, matches')
  | seg :: rest =>
    match matchPath (n.findChild seg) matches' rest with
    | some found => some found
    | none =>
      match if seg = [slash] then none else matchPath n.emptyChild (matches' ++ [seg]) rest with
      | some found => some found
      | none => n.multiChild.map (·, matches')

/-- The patterns for a method. -/
def methodNode (entries : List (Entry α)) (method : Bytes) : Node (Entry α) :=
  entries.filterMap fun e => if e.pattern.method = method then some (e.pattern.segs, e) else none

/-- `matchMethodAndPath`; patterns here name no host. -/
def matchMethodAndPath (entries : List (Entry α)) (method : Bytes) (path : Bytes) :
    Option (Entry α × List Bytes) :=
  match matchPath (methodNode entries method) [] (segments path) with
  | some found => some found
  | none =>
    match if method = bytesOf "HEAD" then
        matchPath (methodNode entries (bytesOf "GET")) [] (segments path) else none with
    | some found => some found
    | none => matchPath (methodNode entries []) [] (segments path)

/-- `exactMatch` -/
def exactMatch (e : Entry α) (path : Bytes) : Bool :=
  if e.pattern.segs.getLast? ≠ some .multi then true
  else path.getLast? = some slash && e.pattern.segs.length = path.count slash

/-- What becomes of a request. -/
inductive Found (α : Type) where
  | redirect
  | handler (e : Entry α) (matches' : List Bytes)
  | methodNotAllowed
  | notFound

/-- `matchOrRedirect`: none is a redirect to the path with a slash at its end. -/
def matchOrRedirect (entries : List (Entry α)) (method : Bytes) (path : Bytes) :
    Option (Option (Entry α × List Bytes)) :=
  let found := matchMethodAndPath entries method path
  if found.any (fun e => exactMatch e.1 path) ∨ path.getLast? = some slash then some found
  else if (matchMethodAndPath entries method (path ++ [slash])).any
      (fun e => exactMatch e.1 (path ++ [slash])) then none
  else some found

/-- Without a handler: whether another method has one. -/
def noHandler (entries : List (Entry α)) (path : Bytes) : Found α :=
  let allowed path := entries.any fun e => (matchMethodAndPath entries e.pattern.method path).isSome
  if allowed path || (path.getLast? ≠ some slash && allowed (path ++ [slash])) then
    .methodNotAllowed
  else .notFound

/-- `findHandler` -/
def findHandler (entries : List (Entry α)) (method : Bytes) (u : URL) : Found α :=
  if method = bytesOf "CONNECT" then
    match matchOrRedirect entries method u.escapedPath with
    | none => .redirect
    | some _ =>
      match matchMethodAndPath entries method u.escapedPath with
      | some (e, matches') => .handler e matches'
      | none => noHandler entries u.escapedPath
  else
    match matchOrRedirect entries method (cleanPath u.escapedPath) with
    | none => .redirect
    | some found =>
      if cleanPath u.escapedPath ≠ u.escapedPath then .redirect
      else
        match found with
        | some (e, matches') => .handler e matches'
        | none => noHandler entries u.escapedPath

/-! ## Patterns that fit -/

/-- A pattern fits the segments of a path. -/
inductive Fits : List Segment → List Bytes → Prop
  | nil : Fits [] []
  | lit (s : Bytes) {segs : List Segment} {ps : List Bytes} (h : Fits segs ps) :
    Fits (.lit s :: segs) (s :: ps)
  | wild (name : Bytes) (p : Bytes) {segs : List Segment} {ps : List Bytes} (h : Fits segs ps) :
    Fits (.wild name :: segs) (p :: ps)
  | multi (p : Bytes) (ps : List Bytes) : Fits [.multi] (p :: ps)

namespace Node

variable {n : Node α} {segs : List Segment} {a : α}

theorem leaf_eq_some (h : n.leaf = some a) : ([], a) ∈ n := by
  obtain ⟨⟨segs, b⟩, hmem, hp⟩ := List.exists_of_findSome?_eq_some h
  split at hp <;> cases hp
  rename_i hsegs
  cases hsegs
  exact hmem

theorem multiChild_eq_some (h : n.multiChild = some a) : ([.multi], a) ∈ n := by
  obtain ⟨⟨segs, b⟩, hmem, hp⟩ := List.exists_of_findSome?_eq_some h
  split at hp <;> cases hp
  rename_i hsegs
  cases hsegs
  exact hmem

theorem mem_emptyChild (h : (segs, a) ∈ n.emptyChild) : ∃ name, (.wild name :: segs, a) ∈ n := by
  obtain ⟨⟨segs', b⟩, hmem, hp⟩ := List.mem_filterMap.mp h
  rcases segs' with _ | ⟨s | name | _, segs'⟩ <;> cases hp
  exact ⟨name, hmem⟩

/-- What is found below a key fits it. -/
theorem mem_findChild {key : Bytes} (h : (segs, a) ∈ n.findChild key) :
    ∃ s, (s :: segs, a) ∈ n ∧ ∀ ps, Fits segs ps → Fits (s :: segs) (key :: ps) := by
  rw [findChild] at h
  split at h
  · obtain ⟨name, hmem⟩ := mem_emptyChild h
    exact ⟨_, hmem, fun ps => .wild name key⟩
  · obtain ⟨⟨segs', b⟩, hmem, hp⟩ := List.mem_filterMap.mp h
    rcases segs' with _ | ⟨s | name | _, segs'⟩ <;> dsimp only at hp
    · cases hp
    · split at hp <;> cases hp
      rename_i hs
      subst hs
      exact ⟨_, hmem, fun ps => .lit s⟩
    · cases hp
    · cases hp

end Node

/-- A match of the tree is a pattern that fits. -/
theorem matchPath_fits {ps : List Bytes} :
    ∀ {n : Node α} {ms ms' : List Bytes} {a : α}, matchPath n ms ps = some (a, ms') →
      ∃ segs, (segs, a) ∈ n ∧ Fits segs ps := by
  induction ps with
  | nil =>
    intro n ms ms' a h
    obtain ⟨b, hleaf, hb⟩ := Option.map_eq_some_iff.mp h
    cases hb
    exact ⟨[], Node.leaf_eq_some hleaf, .nil⟩
  | cons seg rest ih =>
    intro n ms ms' a h
    rw [matchPath] at h
    split at h
    · rename_i found hfound
      cases h
      obtain ⟨segs, hmem, hfits⟩ := ih hfound
      obtain ⟨s, hmem', hcons⟩ := Node.mem_findChild hmem
      exact ⟨_, hmem', hcons rest hfits⟩
    · split at h
      · rename_i found hfound
        cases h
        split at hfound
        · cases hfound
        · obtain ⟨segs, hmem, hfits⟩ := ih hfound
          obtain ⟨name, hmem'⟩ := Node.mem_emptyChild hmem
          exact ⟨_, hmem', .wild name seg hfits⟩
      · obtain ⟨b, hmulti, hb⟩ := Option.map_eq_some_iff.mp h
        cases hb
        exact ⟨_, Node.multiChild_eq_some hmulti, .multi seg rest⟩

variable {entries : List (Entry α)} {method : Bytes} {e : Entry α} {ms ms' : List Bytes}

theorem methodNode_fits {ps : List Bytes}
    (h : matchPath (methodNode entries method) ms ps = some (e, ms')) :
    e ∈ entries ∧ e.pattern.method = method ∧ Fits e.pattern.segs ps := by
  obtain ⟨segs, hmem, hfits⟩ := matchPath_fits h
  obtain ⟨e', hmem', he⟩ := List.mem_filterMap.mp hmem
  split at he <;> cases he
  rename_i hmethod
  exact ⟨hmem', hmethod, hfits⟩

theorem matchMethodAndPath_fits {path : Bytes}
    (h : matchMethodAndPath entries method path = some (e, ms)) :
    e ∈ entries ∧ (e.pattern.method = method ∨ method = bytesOf "HEAD" ∨ e.pattern.method = []) ∧
      Fits e.pattern.segs (segments path) := by
  rw [matchMethodAndPath] at h
  split at h
  · rename_i found hfound
    cases h
    obtain ⟨hmem, hmethod, hfits⟩ := methodNode_fits hfound
    exact ⟨hmem, .inl hmethod, hfits⟩
  · split at h
    · rename_i found hfound
      cases h
      split at hfound
      · rename_i hhead
        obtain ⟨hmem, -, hfits⟩ := methodNode_fits hfound
        exact ⟨hmem, .inr (.inl hhead), hfits⟩
      · cases hfound
    · obtain ⟨hmem, hmethod, hfits⟩ := methodNode_fits h
      exact ⟨hmem, .inr (.inr hmethod), hfits⟩

theorem matchOrRedirect_eq_some {path : Bytes} {found : Option (Entry α × List Bytes)}
    (h : matchOrRedirect entries method path = some found) :
    found = matchMethodAndPath entries method path := by
  rw [matchOrRedirect] at h
  split at h
  · exact (Option.some.inj h).symm
  · split at h
    · cases h
    · exact (Option.some.inj h).symm

theorem noHandler_ne_handler {path : Bytes} : noHandler entries path ≠ .handler e ms := by
  rw [noHandler]
  intro h
  split at h <;> cases h

/-- **A handler is found** only through a pattern that fits the path that is routed. -/
theorem findHandler_fits {u : URL} (h : findHandler entries method u = .handler e ms) :
    e ∈ entries ∧ Fits e.pattern.segs (segments u.escapedPath) ∧
      (e.pattern.method = bytesOf "CONNECT" ∨ e.pattern.method = [] ∨
        u.escapedPath.head? = some slash) := by
  rw [findHandler] at h
  split at h
  · rename_i hconnect
    split at h
    · cases h
    · split at h
      · rename_i hfound
        cases h
        obtain ⟨hmem, hmethod, hfits⟩ := matchMethodAndPath_fits hfound
        rcases hmethod with hmethod | hhead | hany
        · exact ⟨hmem, hfits, .inl (hmethod.trans hconnect)⟩
        · exact absurd (hconnect.symm.trans hhead) (by decide)
        · exact ⟨hmem, hfits, .inr (.inl hany)⟩
      · exact absurd h noHandler_ne_handler
  · split at h
    · cases h
    · rename_i found hredirect
      split at h
      · cases h
      · rename_i hclean
        rw [not_not] at hclean
        rw [hclean] at hredirect
        split at h
        · cases h
          obtain ⟨hmem, -, hfits⟩ :=
            matchMethodAndPath_fits (matchOrRedirect_eq_some hredirect).symm
          exact ⟨hmem, hfits, .inr (.inr (hclean ▸ head?_cleanPath _))⟩
        · exact absurd h noHandler_ne_handler

/-! ## The path that was asked for -/

/-- The path begins with the literals of the pattern, up to its first wildcard. -/
def covers : List Segment → Bytes → Bool
  | [], p => p = []
  | .lit s :: segs, p => (slash :: s).isPrefixOf p && covers segs (p.drop (s.length + 1))
  | _, p => p.head? = some slash

@[simp] theorem covers_lit (s : Bytes) (segs : List Segment) (ps : List Bytes) :
    covers (.lit s :: segs) (joined slash (s :: ps)) = covers segs (joined slash ps) := by
  have hpre : (slash :: s).isPrefixOf (slash :: s ++ joined slash ps) = true :=
    List.isPrefixOf_iff_prefix.mpr (List.prefix_append _ _)
  rw [joined_cons, ← List.cons_append, covers, hpre, Bool.true_and, ← List.length_cons,
    List.drop_left]

theorem covers_readSegments {segs : List Segment} (hlit : .lit [slash] ∉ segs) :
    ∀ {parts ps : List Bytes}, Fits segs (readSegments parts) →
      parts.map (unescape false) = ps.map some → covers segs (joined slash ps) = true := by
  intro parts
  induction parts generalizing segs with
  | nil =>
    intro ps hfits hps
    rw [List.map_nil, eq_comm, List.map_eq_nil_iff] at hps
    cases hfits
    rw [hps]
    rfl
  | cons part parts ih =>
    intro ps hfits hps
    cases ps with
    | nil => cases hps
    | cons q ps =>
      rw [List.map_cons, List.map_cons, List.cons.injEq] at hps
      have hq : pathUnescape part = q := by rw [pathUnescape, hps.1, Option.getD_some]
      obtain ⟨x, hx, hsegments⟩ : ∃ x, (x = q ∨ x = [slash]) ∧
          readSegments (part :: parts) = x :: readSegments parts := by
        cases parts with
        | nil =>
          by_cases hnil : part = []
          · exact ⟨_, .inr rfl, congrArg (· :: []) (if_pos hnil)⟩
          · exact ⟨_, .inl rfl, congrArg (· :: []) ((if_neg hnil).trans hq)⟩
        | cons part' parts => exact ⟨_, .inl hq, rfl⟩
      rw [hsegments] at hfits
      cases hfits with
      | lit _ hrest =>
        rw [List.mem_cons, not_or] at hlit
        rcases hx with rfl | rfl
        · rw [covers_lit]
          exact ih hlit.2 hrest hps.2
        · exact absurd rfl hlit.1
      | wild name _ hrest => rfl
      | multi _ _ => rfl

/-- **A pattern that fits** the path that is routed covers the path that was asked for. -/
theorem Fits.covers {u : URL} {segs : List Segment} (h : Fits segs (segments u.escapedPath))
    (hlit : .lit [slash] ∉ segs) (hslash : u.escapedPath.head? = some slash) :
    Mux.covers segs u.path = true := by
  have hpath := unescape_escapedPath u
  rcases hescaped : u.escapedPath with _ | ⟨c, path⟩
  · rw [hescaped] at hslash
    cases hslash
  · rw [hescaped] at h hslash hpath
    cases hslash
    rw [← joined_splitOn] at hpath
    obtain ⟨ps, hps, hjoined⟩ := unescape_joined _ hpath
    rw [hjoined]
    exact covers_readSegments hlit h hps

end Tree

end Ultrav.Mux
