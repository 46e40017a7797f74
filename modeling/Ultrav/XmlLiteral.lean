import Mathlib.Data.List.Basic
import Ultrav.Xml

/-!
# Literal documents

A document never says more than is written in it, and one that says as much is written
without references, comments, instructions and CDATA sections.

* `Event.weight` / `Mode.pending` — the least ink that what was read takes, white space apart.
* `State.Frugal` — what a character adds to it (`frugal_step`), to the log, and to literal text.
* `State.run_text` / `State.run_value` — reading literal text and literal values.
* `clean_of_weight` — for whole documents.
-/

namespace Ultrav.Xml

/-! ## Ink -/

/-- White space takes no ink. -/
def ink (c : Char) : ℕ := if space c || c = '\r' then 0 else 1

def inkOf : List Char → ℕ
  | [] => 0
  | c :: cs => ink c + inkOf cs

theorem ink_le_one (c : Char) : ink c ≤ 1 := by
  rw [ink]
  split
  · exact Nat.zero_le _
  · exact Nat.le_refl _

@[simp] theorem inkOf_nil : inkOf [] = 0 := rfl

@[simp] theorem inkOf_cons (c : Char) (cs : List Char) : inkOf (c :: cs) = ink c + inkOf cs := rfl

@[simp] theorem inkOf_append (as bs : List Char) : inkOf (as ++ bs) = inkOf as + inkOf bs := by
  induction as with
  | nil => exact (Nat.zero_add _).symm
  | cons c as ih => rw [List.cons_append, inkOf_cons, inkOf_cons, ih, Nat.add_assoc]

theorem ink_of_space {c : Char} (h : space c = true) : ink c = 0 := by simp [ink, h]

/-- Normalised line ends are white space as well. -/
theorem inkOf_normalize (cs : List Char) : inkOf (normalize cs) = inkOf cs := by
  induction cs using normalize.induct with
  | case1 => rfl
  | case2 cs ih =>
    have hcr : ink '\r' = 0 := rfl
    rw [normalize, inkOf_cons, inkOf_cons, inkOf_cons, ih, hcr, Nat.zero_add]
  | case3 cs _ ih =>
    rw [normalize, inkOf_cons, inkOf_cons, ih]
    · rfl
    · assumption
  | case4 c cs _ _ ih => rw [normalize, inkOf_cons, inkOf_cons, ih] <;> assumption

/-! ## What was read, and what it takes -/

/-- The least ink an event takes. -/
def Event.weight : Event → ℕ
  | .start name => inkOf name.toList + 2
  | .attr name value => inkOf name.toList + 3 + inkOf value.toList
  | .char c => ink c
  | .finish name content => if content then inkOf name.toList + 3 else 1

/-- The least ink of some events. -/
def weight : List Event → ℕ
  | [] => 0
  | e :: es => e.weight + weight es

@[simp] theorem weight_nil : weight [] = 0 := rfl

@[simp] theorem weight_cons (e : Event) (es : List Event) :
    weight (e :: es) = e.weight + weight es := rfl

@[simp] theorem weight_append (as bs : List Event) : weight (as ++ bs) = weight as + weight bs := by
  induction as with
  | nil => exact (Nat.zero_add _).symm
  | cons e as ih => rw [List.cons_append, weight_cons, weight_cons, ih, Nat.add_assoc]

@[simp] theorem weight_reverse (es : List Event) : weight es.reverse = weight es := by
  induction es with
  | nil => rfl
  | cons e es ih =>
    rw [List.reverse_cons, weight_append, ih, weight_cons, weight_cons, weight_nil, Nat.add_zero,
      Nat.add_comm]

/-- The ink of what is being read. One is for the bracket that ends the tag it is in, which its
event has counted already. -/
def Mode.pending : Mode → ℕ
  | .begin => 1
  | .text _ => 1
  | .textRef _ => 1
  | .markup _ => 2
  | .bang _ => 1
  | .comment _ => 1
  | .cdata k => 1 + k
  | .target _ _ => 1
  | .instruction _ => 1
  | .startName buf => 2 + inkOf buf
  | .tag _ _ => 0
  | .attrName _ buf => inkOf buf
  | .attrEq _ name eq => inkOf name.toList + if eq then 1 else 0
  | .value _ name _ buf => inkOf name.toList + 2 + inkOf buf
  | .valueRef _ name _ v _ => inkOf name.toList + 2 + inkOf v
  | .emptyTag => 1
  | .endName buf => 3 + inkOf buf
  | .endTag name => 3 + inkOf name.toList

/-- Literal character data. -/
def plain (c : Char) : Bool := legal c && c ≠ '<' && c ≠ '&' && c ≠ '\r'

/-- Literal characters of a value. -/
def plainValue (c : Char) : Bool := plain c && c ≠ '\t' && c ≠ '\n'

theorem plain_of_plainValue {c : Char} (h : plainValue c = true) : plain c = true := by
  simp only [plainValue, Bool.and_eq_true] at h
  exact h.1.1

/-- The event can be written literally. -/
def Event.clean : Event → Bool
  | .char c => plain c
  | .attr _ value => value.toList.all plainValue
  | _ => true

/-- What is being read is written literally. -/
def Mode.clean : Mode → Bool
  | .value _ _ _ buf => buf.all plainValue
  | .textRef _ | .bang _ | .comment _ | .cdata _ | .target _ _ | .instruction _
  | .valueRef _ _ _ _ _ => false
  | _ => true

namespace State

/-- The ink of what was read so far. -/
def cost (s : State) : ℕ := weight s.log + s.mode.pending

/-- All of it is written literally. -/
def Clean (s : State) : Prop := s.log.all Event.clean = true ∧ s.mode.clean = true

/-- Reading adds to the log, adds no more than the ink it takes, and adds that much only when it
reads literally. -/
structure Frugal (s : State) (n : ℕ) (s' : State) : Prop where
  log : s.log <:+ s'.log
  cost : s'.cost ≤ s.cost + n
  clean : s'.cost = s.cost + n → s.Clean → s'.Clean

variable {s s' : State} {c : Char}

/-- Nothing is logged. -/
theorem Frugal.goto {m : Mode} {p q : ℕ} (hp : s.mode.pending = p) (hq : m.pending = q)
    (hle : q ≤ p + ink c) (hclean : q = p + ink c → s.mode.clean = true → m.clean = true) :
    s.Frugal (ink c) (s.goto m) where
  log := List.suffix_refl _
  cost := by
    simp only [State.cost, State.goto]
    omega
  clean h hs := by
    simp only [State.cost, State.goto] at h
    exact ⟨hs.1, hclean (by omega) hs.2⟩

/-- One event is logged. -/
theorem Frugal.log_cons {e : Event} {p q : ℕ} (hlog : s'.log = e :: s.log)
    (hp : s.mode.pending = p) (hq : s'.mode.pending = q) (hle : e.weight + q ≤ p + ink c)
    (hclean : e.weight + q = p + ink c → s.mode.clean = true →
      e.clean = true ∧ s'.mode.clean = true) : s.Frugal (ink c) s' where
  log := by
    rw [hlog]
    exact List.suffix_cons _ _
  cost := by
    simp only [State.cost, hlog, weight_cons]
    omega
  clean h hs := by
    simp only [State.cost, hlog, weight_cons] at h
    obtain ⟨he, hm⟩ := hclean (by omega) hs.2
    refine ⟨?_, hm⟩
    rw [hlog, List.all_cons, he, hs.1]
    rfl

/-- Out of a mode that is not literal, only the cost counts. -/
theorem Frugal.of_dirty (hm : s.mode.clean = false) (hlog : s.log <:+ s'.log)
    (hcost : s'.cost ≤ s.cost + ink c) : s.Frugal (ink c) s' :=
  ⟨hlog, hcost, fun _ hs => by cases hm.symm.trans hs.2⟩

theorem Frugal.goto_dirty {m : Mode} {p q : ℕ} (hm : s.mode.clean = false)
    (hp : s.mode.pending = p) (hq : m.pending = q) (hle : q ≤ p + ink c) :
    s.Frugal (ink c) (s.goto m) :=
  .goto hp hq hle fun _ hclean => by cases hm.symm.trans hclean

/-! ## Every character is frugal -/

theorem frugal_stepText {k : ℕ} {first : Bool} (hlegal : legal c = true) (hcr : c ≠ '\r')
    (hp : s.mode.pending = 1) (h : s.stepText k first c = some s') : s.Frugal (ink c) s' := by
  rw [stepText] at h
  split at h
  · rename_i hc
    cases h
    subst hc
    exact .goto hp (rfl : _ = 2) (by decide) fun _ _ => rfl
  rename_i hlt
  split at h
  · split at h
    · cases h
      exact .goto hp (rfl : _ = 1) (Nat.le_add_right _ _) fun _ _ => rfl
    · cases h
  split at h
  · rename_i hc
    cases h
    subst hc
    exact .goto hp (rfl : _ = 1) (by decide) fun h => absurd h (by decide)
  rename_i hamp
  split at h
  · cases h
  · cases h
    -- the character is the event, of its own weight
    refine .log_cons rfl hp (rfl : _ = 1) (Nat.le_of_eq (Nat.add_comm _ _)) fun _ _ => ⟨?_, rfl⟩
    simp [Event.clean, plain, hlegal, hlt, hamp, hcr]

theorem frugal_stepMarkup {first : Bool} (hp : s.mode.pending = 2)
    (h : s.stepMarkup first c = some s') : s.Frugal (ink c) s' := by
  rw [stepMarkup] at h
  split at h
  · rename_i hc
    cases h
    subst hc
    exact .goto hp (rfl : _ = 3) (by decide) fun _ _ => rfl
  split at h
  · rename_i hc
    cases h
    subst hc
    exact .goto hp (rfl : _ = 1) (by decide) fun h => absurd h (by decide)
  split at h
  · rename_i hc
    cases h
    subst hc
    exact .goto hp (rfl : _ = 1) (by decide) fun h => absurd h (by decide)
  split at h
  · cases h
    exact .goto hp (rfl : _ = 2 + ink c) (Nat.le_refl _) fun _ _ => rfl
  · cases h

theorem frugal_stepBang {buf : List Char} (hm : s.mode.clean = false) (hp : s.mode.pending = 1)
    (h : s.stepBang buf = some s') : s.Frugal (ink c) s' := by
  have hgoto : ∀ m : Mode, m.pending = 1 → s.Frugal (ink c) (s.goto m) := fun m hq =>
    .goto_dirty hm hp hq (Nat.le_add_right _ _)
  rw [stepBang] at h
  split at h
  · cases h
    exact hgoto _ rfl
  split at h
  · split at h <;> cases h
    exact hgoto _ rfl
  split at h <;> cases h
  exact hgoto _ rfl

theorem frugal_stepComment {k : ℕ} (hm : s.mode.clean = false) (hp : s.mode.pending = 1)
    (h : s.stepComment k c = some s') : s.Frugal (ink c) s' := by
  rw [stepComment] at h
  split at h
  · split at h <;> cases h
    exact .goto_dirty hm hp (rfl : _ = 1) (Nat.le_add_right _ _)
  · cases h
    exact .goto_dirty hm hp (rfl : _ = 1) (Nat.le_add_right _ _)

/-- The brackets that did not end a CDATA section are all logged. -/
theorem brackets_log (s : State) (k : ℕ) :
    s.log <:+ (s.brackets k).log ∧ weight (s.brackets k).log = weight s.log + k := by
  induction k with
  | zero => exact ⟨List.suffix_refl _, rfl⟩
  | succ k ih =>
    refine ⟨ih.1.trans (List.suffix_cons _ _), ?_⟩
    change ink ']' + weight (s.brackets k).log = _
    have hink : ink ']' = 1 := rfl
    omega

theorem frugal_stepCdata {k : ℕ} (hm : s.mode.clean = false) (hp : s.mode.pending = 1 + k)
    (h : s.stepCdata k c = some s') : s.Frugal (ink c) s' := by
  rw [stepCdata] at h
  split at h
  · rename_i hc
    subst hc
    split at h
    · rename_i hk
      cases h
      subst hk
      exact .log_cons rfl hp (rfl : _ = 3) (by decide) fun _ hclean => by
        cases hm.symm.trans hclean
    · cases h
      exact .goto_dirty hm hp (rfl : _ = 1 + (k + 1)) (Nat.le_of_eq (Nat.add_assoc _ _ _).symm)
  split at h
  · cases h
    exact .goto_dirty hm hp (rfl : _ = 1) (by omega)
  · cases h
    obtain ⟨hlog, hweight⟩ := brackets_log s k
    refine .of_dirty hm (hlog.trans (List.suffix_cons _ _)) ?_
    change ink c + weight (s.brackets k).log + 1 ≤ weight s.log + s.mode.pending + ink c
    omega

theorem frugal_stepTarget {first : Bool} {buf : List Char} (hm : s.mode.clean = false)
    (hp : s.mode.pending = 1) (h : s.stepTarget first buf c = some s') : s.Frugal (ink c) s' := by
  have hgoto : ∀ m : Mode, m.pending = 1 → s.Frugal (ink c) (s.goto m) := fun m hq =>
    .goto_dirty hm hp hq (Nat.le_add_right _ _)
  rw [stepTarget] at h
  split at h
  · split at h <;> cases h
    exact hgoto _ rfl
  split at h
  · cases h
    exact hgoto _ rfl
  split at h
  · cases h
  split at h
  · cases h
    exact hgoto _ rfl
  split at h <;> cases h
  exact hgoto _ rfl

theorem frugal_stepStartName {buf : List Char} (hp : s.mode.pending = 2 + inkOf buf)
    (h : s.stepStartName buf c = some s') : s.Frugal (ink c) s' := by
  have hopen : ∀ m : Mode, m.pending ≤ ink c → m.clean = true →
      s.Frugal (ink c) ((s.opened (.ofList buf)).goto m) := by
    intro m hq hclean
    refine .log_cons rfl hp (rfl : _ = m.pending) ?_ fun _ _ => ⟨rfl, hclean⟩
    rw [Event.weight, String.toList_ofList]
    omega
  rw [stepStartName] at h
  split at h
  · cases h
    refine .goto hp (rfl : _ = 2 + inkOf (buf ++ [c])) ?_ fun _ _ => rfl
    simp only [inkOf_append, inkOf_cons, inkOf_nil]
    omega
  split at h
  · cases h
    exact hopen _ (Nat.zero_le _) rfl
  split at h
  · rename_i hc
    cases h
    subst hc
    exact hopen _ (Nat.le_refl 1) rfl
  split at h <;> cases h
  rename_i hc
  subst hc
  exact hopen _ (Nat.le_refl 1) rfl

theorem frugal_stepTag {attrs : List String} {gap : Bool} (hp : s.mode.pending = 0)
    (h : s.stepTag attrs gap c = some s') : s.Frugal (ink c) s' := by
  rw [stepTag] at h
  split at h
  · cases h
    exact .goto hp (rfl : _ = 0) (Nat.zero_le _) fun _ _ => rfl
  split at h
  · rename_i hc
    cases h
    subst hc
    exact .goto hp (rfl : _ = 1) (by decide) fun _ _ => rfl
  split at h
  · rename_i hc
    cases h
    subst hc
    exact .goto hp (rfl : _ = 1) (by decide) fun _ _ => rfl
  split at h <;> cases h
  exact .goto hp (rfl : _ = ink c + 0) (by omega) fun _ _ => rfl

theorem frugal_stepAttrName {attrs : List String} {buf : List Char}
    (hp : s.mode.pending = inkOf buf) (h : s.stepAttrName attrs buf c = some s') :
    s.Frugal (ink c) s' := by
  rw [stepAttrName] at h
  split at h
  · cases h
    exact .goto hp (inkOf_append buf [c]) (Nat.le_refl _) fun _ _ => rfl
  split at h
  · cases h
  split at h
  · cases h
    refine .goto hp (rfl : _ = inkOf (String.ofList buf).toList + 0) ?_ fun _ _ => rfl
    rw [String.toList_ofList]
    omega
  split at h <;> cases h
  rename_i hc
  subst hc
  refine .goto hp (rfl : _ = inkOf (String.ofList buf).toList + 1) ?_ fun _ _ => rfl
  rw [String.toList_ofList]
  exact Nat.le_refl _

theorem frugal_stepAttrEq {attrs : List String} {name : String} {eq : Bool}
    (hp : s.mode.pending = inkOf name.toList + if eq then 1 else 0)
    (h : s.stepAttrEq attrs name eq c = some s') : s.Frugal (ink c) s' := by
  have hquote : ∀ double : Bool, eq = true → ink c = 1 →
      s.Frugal (ink c) (s.goto (.value attrs name double [])) := by
    intro double heq hink
    refine .goto hp (rfl : _ = inkOf name.toList + 2 + 0) ?_ fun _ _ => rfl
    exact Nat.le_of_eq (by rw [heq, if_pos rfl, hink])
  rw [stepAttrEq] at h
  split at h
  · cases h
    exact .goto hp rfl (Nat.le_add_right _ _) fun _ _ => rfl
  split at h
  · rename_i hc
    cases h
    simp only [Bool.and_eq_true, decide_eq_true_eq, Bool.not_eq_true'] at hc
    obtain ⟨rfl, rfl⟩ := hc
    exact .goto hp (rfl : _ = inkOf name.toList + 1) (Nat.le_refl _) fun _ _ => rfl
  split at h
  · rename_i hc
    cases h
    simp only [Bool.and_eq_true, decide_eq_true_eq] at hc
    exact hquote false hc.2 (by rw [hc.1]; rfl)
  split at h <;> cases h
  rename_i hc
  simp only [Bool.and_eq_true, decide_eq_true_eq] at hc
  exact hquote true hc.2 (by rw [hc.1]; rfl)

theorem frugal_stepValue {attrs : List String} {name : String} {double : Bool} {buf : List Char}
    (hlegal : legal c = true) (hcr : c ≠ '\r') (hm : s.mode = .value attrs name double buf)
    (h : s.stepValue attrs name double buf c = some s') : s.Frugal (ink c) s' := by
  have hp : s.mode.pending = inkOf name.toList + 2 + inkOf buf := by rw [hm]; rfl
  rw [stepValue] at h
  by_cases hc : c = if double then '"' else '\''
  · rw [if_pos hc] at h
    cases h
    have hink : ink c = 1 := by
      rw [hc]
      cases double <;> rfl
    refine .log_cons rfl hp (rfl : _ = 0) ?_ fun _ hclean => ⟨?_, rfl⟩
    · rw [Event.weight, String.toList_ofList]
      omega
    · rw [hm] at hclean
      rw [Event.clean, String.toList_ofList]
      exact hclean
  rw [if_neg hc] at h
  split at h
  · cases h
  rename_i hlt
  split at h
  · rename_i hc
    cases h
    subst hc
    refine .goto hp (rfl : _ = inkOf name.toList + 2 + inkOf buf) (Nat.le_add_right _ _)
      fun h => ?_
    -- a reference loses weight: its first character is no part of the value
    have hink : ink '&' = 1 := rfl
    omega
  rename_i hamp
  cases h
  -- the normalization of a space weighs nothing
  have hink : ink (if space c then ' ' else c) = ink c := by
    by_cases hs : space c = true
    · rw [if_pos hs, ink_of_space hs]
      rfl
    · rw [if_neg hs]
  refine .goto hp (rfl : _ = inkOf name.toList + 2 + inkOf (buf ++ [if space c then ' ' else c]))
    ?_ fun _ hclean => ?_
  · simp only [inkOf_append, inkOf_cons, inkOf_nil, hink]
    omega
  · rw [hm] at hclean
    have hplain : plainValue (if space c then ' ' else c) = true := by
      by_cases hs : space c = true
      · rw [if_pos hs]
        rfl
      · rw [if_neg hs]
        simp only [space, Bool.or_eq_true, decide_eq_true_eq, not_or] at hs
        simp [plainValue, plain, hlegal, hlt, hamp, hcr, hs.1.2, hs.2]
    simp only [Mode.clean, List.all_append, List.all_cons, List.all_nil, hplain, Bool.and_true]
    exact hclean

theorem frugal_closed {name : String} {p : ℕ} (hp : s.mode.pending = p)
    (hle : 3 + inkOf name.toList ≤ p) (hc : ink c = 1) (h : s.closed name = some s') :
    s.Frugal (ink c) s' := by
  rw [closed] at h
  split at h
  · cases h
  split at h <;> cases h
  rename_i m content rest _ hm
  subst hm
  refine .log_cons rfl hp (rfl : _ = 1) ?_ fun _ _ => ⟨rfl, rfl⟩
  rw [Event.weight]
  split <;> omega

theorem frugal_closedEmpty (hp : s.mode.pending = 1) (hc : ink c = 1)
    (h : s.closedEmpty = some s') : s.Frugal (ink c) s' := by
  rw [closedEmpty] at h
  split at h <;> cases h
  refine .log_cons rfl hp (rfl : _ = 1) ?_ fun _ _ => ⟨rfl, rfl⟩
  rw [hc]
  exact Nat.le_refl _

theorem frugal_stepEndName {buf : List Char} (hp : s.mode.pending = 3 + inkOf buf)
    (h : s.stepEndName buf c = some s') : s.Frugal (ink c) s' := by
  rw [stepEndName] at h
  split at h
  · cases h
    refine .goto hp (rfl : _ = 3 + inkOf (buf ++ [c])) ?_ fun _ _ => rfl
    simp only [inkOf_append, inkOf_cons, inkOf_nil]
    omega
  split at h
  · cases h
    refine .goto hp (rfl : _ = 3 + inkOf (String.ofList buf).toList) ?_ fun _ _ => rfl
    rw [String.toList_ofList]
    exact Nat.le_add_right _ _
  split at h
  · rename_i hc
    subst hc
    exact frugal_closed hp (Nat.le_of_eq (by rw [String.toList_ofList])) rfl h
  · cases h

/-- **One character** is frugal, wherever the reader is. -/
theorem frugal_step (h : s.step c = some s') : s.Frugal (ink c) s' := by
  rw [step] at h
  split at h
  · cases h
  rename_i hc
  simp only [Bool.or_eq_true, Bool.not_eq_true', decide_eq_true_eq, not_or, Bool.not_eq_false]
    at hc
  obtain ⟨hlegal, hcr⟩ := hc
  split at h
  case h_1 hm => exact frugal_stepText hlegal hcr (by rw [hm]; rfl) h
  case h_2 hm => exact frugal_stepText hlegal hcr (by rw [hm]; rfl) h
  case h_3 buf hm =>
    have hp : s.mode.pending = 1 := by rw [hm]; rfl
    have hdirty : s.mode.clean = false := by rw [hm]; rfl
    split at h
    · rename_i hsemi
      obtain ⟨d, -, rfl⟩ := Option.map_eq_some_iff.mp h
      subst hsemi
      refine .log_cons rfl hp (rfl : _ = 1) (Nat.add_le_add_right (ink_le_one d) 1)
        fun _ hclean => by cases hdirty.symm.trans hclean
    · cases h
      exact .goto_dirty hdirty hp (rfl : _ = 1) (Nat.le_add_right _ _)
  case h_4 hm => exact frugal_stepMarkup (by rw [hm]; rfl) h
  case h_5 hm => exact frugal_stepBang (by rw [hm]; rfl) (by rw [hm]; rfl) h
  case h_6 hm => exact frugal_stepComment (by rw [hm]; rfl) (by rw [hm]; rfl) h
  case h_7 hm => exact frugal_stepCdata (by rw [hm]; rfl) (by rw [hm]; rfl) h
  case h_8 hm => exact frugal_stepTarget (by rw [hm]; rfl) (by rw [hm]; rfl) h
  case h_9 mark hm =>
    cases h
    refine .goto_dirty (q := 1) (by rw [hm]; rfl) (by rw [hm]; rfl) ?_ (Nat.le_add_right 1 _)
    split <;> rfl
  case h_10 hm => exact frugal_stepStartName (by rw [hm]; rfl) h
  case h_11 hm => exact frugal_stepTag (by rw [hm]; rfl) h
  case h_12 hm => exact frugal_stepAttrName (by rw [hm]; rfl) h
  case h_13 hm => exact frugal_stepAttrEq (by rw [hm]; rfl) h
  case h_14 hm => exact frugal_stepValue hlegal hcr hm h
  case h_15 attrs name double v buf hm =>
    have hp : s.mode.pending = inkOf name.toList + 2 + inkOf v := by rw [hm]; rfl
    have hdirty : s.mode.clean = false := by rw [hm]; rfl
    split at h
    · rename_i hsemi
      obtain ⟨d, -, rfl⟩ := Option.map_eq_some_iff.mp h
      subst hsemi
      refine .goto_dirty hdirty hp (rfl : _ = inkOf name.toList + 2 + inkOf (v ++ [d])) ?_
      have hd := ink_le_one d
      have hsemi : ink ';' = 1 := rfl
      simp only [inkOf_append, inkOf_cons, inkOf_nil]
      omega
    · cases h
      exact .goto_dirty hdirty hp rfl (Nat.le_add_right _ _)
  case h_16 hm =>
    split at h
    · rename_i hgt
      subst hgt
      exact frugal_closedEmpty (by rw [hm]; rfl) rfl h
    · cases h
  case h_17 hm => exact frugal_stepEndName (by rw [hm]; rfl) h
  case h_18 name hm =>
    split at h
    · cases h
      exact ⟨List.suffix_refl _, Nat.le_add_right _ _, fun _ hs => hs⟩
    split at h
    · rename_i hgt
      subst hgt
      exact frugal_closed (by rw [hm]; rfl) (Nat.le_refl _) rfl h
    · cases h

theorem Frugal.refl (s : State) : s.Frugal 0 s :=
  ⟨List.suffix_refl _, Nat.le_refl _, fun _ hs => hs⟩

theorem Frugal.trans {s'' : State} {m n : ℕ} (h : s.Frugal m s') (h' : s'.Frugal n s'') :
    s.Frugal (m + n) s'' where
  log := h.log.trans h'.log
  cost := by
    have := h.cost
    have := h'.cost
    omega
  clean heq hs := by
    have hle := h.cost
    have hle' := h'.cost
    exact h'.clean (by omega) (h.clean (by omega) hs)

/-- **Any text** is read frugally. -/
theorem frugal_run {cs : List Char} (h : s.run cs = some s') : s.Frugal (inkOf cs) s' := by
  induction cs generalizing s with
  | nil =>
    cases h
    exact .refl _
  | cons c cs ih =>
    obtain ⟨t, ht, hrun⟩ := Option.bind_eq_some_iff.mp h
    exact (frugal_step ht).trans (ih hrun)

theorem run_append (s : State) (as bs : List Char) :
    s.run (as ++ bs) = (s.run as).bind fun s' => s'.run bs := by
  induction as generalizing s with
  | nil => rfl
  | cons c as ih =>
    rw [List.cons_append, run, run, Option.bind_assoc]
    congr 1
    funext s'
    exact ih s'

/-! ## Reading literally -/

/-- Character data. -/
def chars (s : State) (cs : List Char) : State := cs.foldl char s

@[simp] theorem chars_nil (s : State) : s.chars [] = s := rfl

@[simp] theorem chars_cons (s : State) (c : Char) (cs : List Char) :
    s.chars (c :: cs) = (s.char c).chars cs := rfl

theorem fill_fill (stack : List (String × Bool)) : fill (fill stack) = fill stack := by
  cases stack <;> rfl

theorem chars_goto (s : State) (m : Mode) (cs : List Char) :
    (s.goto m).chars cs = (s.chars cs).goto m := by
  induction cs generalizing s with
  | nil => rfl
  | cons c cs ih => exact ih (s.char c)

theorem chars_eq {cs : List Char} (hcs : cs ≠ []) (s : State) :
    s.chars cs =
      { s with stack := fill s.stack, log := (cs.map Event.char).reverse ++ s.log } := by
  induction cs generalizing s with
  | nil => exact absurd rfl hcs
  | cons c cs ih =>
    rw [chars_cons]
    by_cases hnil : cs = []
    · subst hnil
      rfl
    · rw [ih hnil, List.map_cons, List.reverse_cons, List.append_assoc]
      simp only [char, fill_fill]
      rfl

/-- The closing brackets at the end of text after some, unless they end a CDATA section. -/
def textEnd : ℕ → List Char → Option ℕ
  | k, [] => some k
  | k, c :: cs =>
    if c = '>' && k = 2 then none else textEnd (if c = ']' then min 2 (k + 1) else 0) cs

/-- Literal text in an element is character data, as long as it does not end a CDATA section. -/
theorem run_text {cs : List Char} {k : ℕ} (hplain : ∀ c ∈ cs, plain c = true)
    (hmode : s.mode = .text k) (hstack : s.stack ≠ []) :
    s.run cs = (textEnd k cs).map fun k' => (s.chars cs).goto (.text k') := by
  induction cs generalizing s k with
  | nil =>
    rw [textEnd, Option.map_some, chars_nil, ← hmode]
    rfl
  | cons c cs ih =>
    have hc := hplain c List.mem_cons_self
    simp only [plain, Bool.and_eq_true, decide_eq_true_eq] at hc
    obtain ⟨⟨⟨hlegal, hlt⟩, hamp⟩, hcr⟩ := hc
    have hempty : s.stack.isEmpty = false := by
      cases hs : s.stack with
      | nil => exact absurd hs hstack
      | cons _ _ => rfl
    have hstep : s.step c = if c = '>' && k = 2 then none else
        some ((s.char c).goto (.text (if c = ']' then min 2 (k + 1) else 0))) := by
      simp [step, hmode, stepText, hlegal, hlt, hamp, hcr, hempty]
    rw [run, hstep, textEnd]
    split
    · rfl
    · have hfill : (s.char c).stack ≠ [] := by
        intro h
        cases hs : s.stack with
        | nil => exact hstack hs
        | cons p rest => simp [char, fill, hs] at h
      have hrest : ∀ d ∈ cs, plain d = true := fun d hd => hplain d (List.mem_cons_of_mem c hd)
      rw [Option.bind_some, ih (s := (s.char c).goto _) hrest rfl hfill]
      simp only [chars_goto]
      rfl

/-- Text fails to be character data exactly when it ends a CDATA section. -/
theorem textEnd_eq_none_iff {k : ℕ} (hk : k ≤ 2) (cs : List Char) :
    textEnd k cs = none ↔ "]]>".toList <:+: List.replicate k ']' ++ cs := by
  induction cs generalizing k with
  | nil =>
    refine ⟨fun h => (by cases h), fun h => ?_⟩
    have hlen := h.length_le
    rw [List.append_nil, List.length_replicate] at hlen
    exact absurd (Nat.le_trans hlen hk) (by decide)
  | cons c cs ih =>
    rw [textEnd]
    split
    · rename_i hc
      simp only [Bool.and_eq_true, decide_eq_true_eq] at hc
      obtain ⟨rfl, rfl⟩ := hc
      exact iff_of_true rfl ⟨[], cs, rfl⟩
    rename_i hend
    simp only [Bool.and_eq_true, decide_eq_true_eq, not_and] at hend
    by_cases hc : c = ']'
    · subst hc
      rw [if_pos rfl, ih (Nat.min_le_left _ _)]
      obtain rfl | rfl | rfl : k = 0 ∨ k = 1 ∨ k = 2 := by omega
      · rfl
      · rfl
      · simp [List.replicate, List.infix_cons_iff, List.cons_prefix_cons]
    · rw [if_neg hc, ih (Nat.zero_le 2)]
      have hc' : ']' ≠ c := fun h => hc h.symm
      obtain rfl | rfl | rfl : k = 0 ∨ k = 1 ∨ k = 2 := by omega
      · simp [List.infix_cons_iff, List.cons_prefix_cons, hc']
      · simp [List.replicate, List.infix_cons_iff, List.cons_prefix_cons, hc']
      · have hgt : '>' ≠ c := fun h => hend h.symm rfl
        simp [List.replicate, List.infix_cons_iff, List.cons_prefix_cons, hc', hgt]

theorem textEnd_append (k : ℕ) (as bs : List Char) :
    textEnd k (as ++ bs) = (textEnd k as).bind fun k' => textEnd k' bs := by
  induction as generalizing k with
  | nil => rfl
  | cons c as ih =>
    rw [List.cons_append, textEnd, textEnd]
    split
    · rfl
    · exact ih _

theorem textEnd_of_not_mem {cs : List Char} (h : ']' ∉ cs) : textEnd 0 cs = some 0 := by
  induction cs with
  | nil => rfl
  | cons c cs ih =>
    rw [List.mem_cons, not_or] at h
    rw [textEnd, if_neg (by simp), if_neg fun hc => h.1 hc.symm]
    exact ih h.2

/-- A literal value is read as it is. -/
theorem run_value {attrs : List String} {name : String} {double : Bool} {buf cs : List Char}
    (hplain : ∀ c ∈ cs, plainValue c = true ∧ c ≠ if double then '"' else '\'')
    (hmode : s.mode = .value attrs name double buf) :
    s.run cs = some (s.goto (.value attrs name double (buf ++ cs))) := by
  induction cs generalizing s buf with
  | nil =>
    rw [List.append_nil, ← hmode]
    rfl
  | cons c cs ih =>
    obtain ⟨hc, hquote⟩ := hplain c List.mem_cons_self
    simp only [plainValue, plain, Bool.and_eq_true, decide_eq_true_eq] at hc
    obtain ⟨⟨⟨⟨⟨hlegal, hlt⟩, hamp⟩, hcr⟩, htab⟩, hlf⟩ := hc
    have hspace : (if space c then ' ' else c) = c := by
      split
      · rename_i hs
        simp only [space, htab, hlf, decide_false, Bool.or_false, decide_eq_true_eq] at hs
        exact hs.symm
      · rfl
    have hstep : s.step c = some (s.goto (.value attrs name double (buf ++ [c]))) := by
      rw [step, if_neg (by simp [hlegal, hcr]), hmode]
      simp only [stepValue]
      rw [if_neg hquote, if_neg hlt, if_neg hamp, hspace]
    rw [run, hstep, Option.bind_some,
      ih (fun d hd => hplain d (List.mem_cons_of_mem c hd)) rfl, List.append_assoc]
    rfl

end State

/-! ## Whole documents -/

@[simp] theorem weight_map_char (cs : List Char) : weight (cs.map Event.char) = inkOf cs := by
  induction cs with
  | nil => rfl
  | cons c cs ih => rw [List.map_cons, weight_cons, inkOf_cons, ih, Event.weight]

theorem inkOf_of_space {cs : List Char} (h : cs.all space = true) : inkOf cs = 0 := by
  induction cs with
  | nil => rfl
  | cons c cs ih =>
    rw [List.all_cons, Bool.and_eq_true] at h
    rw [inkOf_cons, ink_of_space h.1, ih h.2]

/-- Without carriage returns there is nothing to normalise. -/
theorem normalize_eq_self {cs : List Char} (h : '\r' ∉ cs) : normalize cs = cs := by
  induction cs with
  | nil => rfl
  | cons c cs ih =>
    rw [List.mem_cons, not_or] at h
    rw [normalize, ih h.2]
    · intro _ hc
      exact absurd hc.symm h.1
    · intro hc
      exact absurd hc.symm h.1

variable {doc : String} {es : List Event}

/-- What `scan` ran. -/
theorem scan_eq_some (h : scan doc = some es) :
    ∃ s, State.start.run (normalize doc.toList) = some s ∧ s.mode.pending = 1 ∧
      s.log.reverse = es := by
  obtain ⟨s, hs, hacc⟩ := Option.bind_eq_some_iff.mp h
  refine ⟨s, hs, ?_⟩
  rw [State.accept] at hacc
  split at hacc
  · rename_i hm
    split at hacc <;> cases hacc
    exact ⟨by rw [hm]; rfl, rfl⟩
  · cases hacc

/-- A document that says as much as is written in it is written literally. -/
theorem clean_of_weight (h : scan doc = some es) (hw : weight es = inkOf doc.toList) :
    ∀ e ∈ es, e.clean = true := by
  obtain ⟨s, hs, hp, rfl⟩ := scan_eq_some h
  have hclean := (State.frugal_run hs).clean
  rw [inkOf_normalize, ← hw, weight_reverse] at hclean
  have hlog := hclean (by
    simp only [State.cost, hp]
    change _ = 0 + 1 + _
    omega) ⟨rfl, rfl⟩
  intro e he
  exact List.all_eq_true.mp hlog.1 e (List.mem_reverse.mp he)

end Ultrav.Xml
