import Ultrav.XmlElement

/-!
# Writing documents

An element is written with its values escaped and every child element on a line of its own. What
is written reads back as the element that was written.

* `escape` / `legalText` — how a character is written, and what is read back.
* `Element.write` — the document of an element.
* `Element.indented` — the element with the white space of the document.
* `parse_write` — writing and reading back.
-/

namespace Ultrav.Xml

/-! ## Escaping -/

/-- A document cannot hold every character: others are replaced. -/
def legalize (c : Char) : Char := if legal c then c else '\uFFFD'

/-- What is read back of a text. -/
def legalText (s : String) : String := .ofList (s.toList.map legalize)

/-- How a character is written. -/
def escape (c : Char) : List Char :=
  if c = '"' then "&#34;".toList
  else if c = '\'' then "&#39;".toList
  else if c = '&' then "&amp;".toList
  else if c = '<' then "&lt;".toList
  else if c = '>' then "&gt;".toList
  else if c = '\t' then "&#x9;".toList
  else if c = '\n' then "&#xA;".toList
  else if c = '\r' then "&#xD;".toList
  else [legalize c]

/-- The ways a character is written. -/
inductive Escaped (c : Char) : List Char → Prop where
  /-- as it is -/
  | raw : plainValue (legalize c) = true → legalize c ≠ '"' → legalize c ≠ '>' →
      Escaped c [legalize c]
  /-- as a reference -/
  | ref (buf : List Char) : reference buf = some (legalize c) →
      (∀ b ∈ buf, legal b = true ∧ b ≠ '\r' ∧ b ≠ ';') → Escaped c ('&' :: (buf ++ [';']))

theorem Escaped.of_ref {c : Char} (buf : List Char) (href : reference buf = some (legalize c))
    (hbuf : (buf.all fun b => legal b && b != '\r' && b != ';') = true) :
    Escaped c ('&' :: (buf ++ [';'])) := by
  refine .ref buf href fun b hb => ?_
  have h := List.all_eq_true.mp hbuf b hb
  rw [Bool.and_eq_true, Bool.and_eq_true, bne_iff_ne, bne_iff_ne] at h
  exact ⟨h.1.1, h.1.2, h.2⟩

theorem escaped (c : Char) : Escaped c (escape c) := by
  rw [escape]
  split
  · rename_i h
    subst h
    exact .of_ref "#34".toList (by decide) (by decide)
  split
  · rename_i h
    subst h
    exact .of_ref "#39".toList (by decide) (by decide)
  split
  · rename_i h
    subst h
    exact .of_ref "amp".toList (by decide) (by decide)
  split
  · rename_i h
    subst h
    exact .of_ref "lt".toList (by decide) (by decide)
  split
  · rename_i h
    subst h
    exact .of_ref "gt".toList (by decide) (by decide)
  split
  · rename_i h
    subst h
    exact .of_ref "#x9".toList (by decide) (by decide)
  split
  · rename_i h
    subst h
    exact .of_ref "#xA".toList (by decide) (by decide)
  split
  · rename_i h
    subst h
    exact .of_ref "#xD".toList (by decide) (by decide)
  rename_i hquot _ hamp hlt hgt htab hlf hcr
  rw [legalize]
  by_cases hlegal : legal c = true
  · rw [if_pos hlegal]
    have hraw : Escaped c [legalize c] := by
      refine .raw ?_ ?_ ?_ <;> rw [legalize, if_pos hlegal]
      · simp [plainValue, plain, hlegal, hlt, hamp, hcr, htab, hlf]
      · exact hquot
      · exact hgt
    rwa [legalize, if_pos hlegal] at hraw
  · rw [if_neg hlegal]
    have hraw : Escaped c [legalize c] := by
      refine .raw ?_ ?_ ?_ <;> rw [legalize, if_neg hlegal] <;> decide
    rwa [legalize, if_neg hlegal] at hraw

/-- Legal characters come back as they are. -/
theorem legalize_eq_self {c : Char} (h : legal c = true) : legalize c = c := if_pos h

theorem legalText_eq_self {s : String} (h : s.toList.all legal = true) : legalText s = s := by
  have hmap : s.toList.map legalize = s.toList := by
    refine (List.map_congr_left fun c hc => ?_).trans (List.map_id _)
    exact legalize_eq_self (List.all_eq_true.mp h c hc)
  rw [legalText, hmap, String.ofList_toList]

/-- Other characters do not. -/
theorem legalText_eq_self_iff {s : String} : legalText s = s ↔ s.toList.all legal = true := by
  refine ⟨fun h => List.all_eq_true.mpr fun c hc => ?_, legalText_eq_self⟩
  have hlist : s.toList.map legalize = s.toList := by
    have hlist := congrArg String.toList h
    rwa [legalText, String.toList_ofList] at hlist
  have hsame : legalize c = id c :=
    List.map_inj_left.mp (hlist.trans (List.map_id _).symm) c hc
  by_contra hlegal
  rw [legalize, if_neg hlegal, id] at hsame
  exact hlegal (hsame ▸ by decide)

/-- No character is left out. -/
theorem legalText_eq_empty {s : String} : legalText s = "" ↔ s = "" := by
  refine ⟨fun hempty => ?_, by rintro rfl; rfl⟩
  have hlist := congrArg String.toList hempty
  rw [legalText, String.toList_ofList, String.toList_empty, List.map_eq_nil_iff] at hlist
  exact String.toList_eq_nil_iff.mp hlist

/-! ## Reading what is written -/

namespace State

variable {s : State}

/-- Characters that go to a buffer. -/
theorem run_buffer {M : List Char → Mode} {P : Char → Prop}
    (hstep : ∀ (s : State) (buf : List Char) (c : Char), s.mode = M buf → P c →
      s.step c = some (s.goto (M (buf ++ [c])))) {cs : List Char} (hcs : ∀ c ∈ cs, P c) :
    ∀ {s : State} {buf : List Char}, s.mode = M buf → s.run cs = some (s.goto (M (buf ++ cs))) := by
  induction cs with
  | nil =>
    intro s buf hmode
    rw [List.append_nil, ← hmode]
    rfl
  | cons c cs ih =>
    intro s buf hmode
    rw [run, hstep s buf c hmode (hcs c List.mem_cons_self), Option.bind_some,
      ih (fun d hd => hcs d (List.mem_cons_of_mem c hd)) rfl, List.append_assoc]
    rfl

/-- A reference in character data. -/
theorem step_textRef (s : State) (buf : List Char) (c : Char) (hmode : s.mode = .textRef buf)
    (hc : legal c = true ∧ c ≠ '\r' ∧ c ≠ ';') :
    s.step c = some (s.goto (.textRef (buf ++ [c]))) := by
  simp [step, hmode, hc]

/-- A reference in a value. -/
theorem step_valueRef {as : List String} {n : String} {double : Bool} {v : List Char} (s : State)
    (buf : List Char) (c : Char) (hmode : s.mode = .valueRef as n double v buf)
    (hc : legal c = true ∧ c ≠ '\r' ∧ c ≠ ';') :
    s.step c = some (s.goto (.valueRef as n double v (buf ++ [c]))) := by
  simp [step, hmode, hc]

theorem isEmpty_stack (hstack : s.stack ≠ []) : s.stack.isEmpty = false := by
  cases hs : s.stack with
  | nil => exact absurd hs hstack
  | cons _ _ => rfl

/-- A character of text. -/
theorem run_escape_text {k : ℕ} (hmode : s.mode = .text k) (hstack : s.stack ≠ []) (c : Char) :
    ∃ k', s.run (escape c) = some ((s.char (legalize c)).goto (.text k')) := by
  have hw := escaped c
  generalize escape c = w at hw
  cases hw with
  | raw hplain _ hgt =>
    refine ⟨if legalize c = ']' then min 2 (k + 1) else 0, ?_⟩
    have hlegal : ∀ d ∈ [legalize c], plain d = true :=
      fun d hd => List.mem_singleton.mp hd ▸ plain_of_plainValue hplain
    rw [run_text hlegal hmode hstack, textEnd, if_neg (by simp [hgt])]
    rfl
  | ref buf href hbuf =>
    have hamp : s.step '&' = some (s.goto (.textRef [])) := by
      rw [step, if_neg (by decide), hmode]
      simp only [stepText, isEmpty_stack hstack]
      rfl
    have hend : (s.goto (.textRef buf)).step ';' =
        some ((s.char (legalize c)).goto (.text 0)) := by
      have hmap : (s.goto (.textRef buf)).step ';' =
        (reference buf).map fun d => ((s.goto (.textRef buf)).char d).goto (.text 0) := rfl
      rw [hmap, href]
      rfl
    refine ⟨0, ?_⟩
    rw [run, hamp, Option.bind_some, run_append, run_buffer step_textRef hbuf rfl,
      Option.bind_some, List.nil_append, run]
    exact (congrArg (Option.bind · _) hend).trans rfl

/-- **Text**: what is written is read back. -/
theorem run_escape_texts (cs : List Char) : ∀ {s : State} {k : ℕ}, s.mode = .text k →
    s.stack ≠ [] →
      ∃ k', s.run (cs.flatMap escape) = some ((s.chars (cs.map legalize)).goto (.text k')) := by
  induction cs with
  | nil =>
    intro s k hmode _
    refine ⟨k, ?_⟩
    rw [List.flatMap_nil, List.map_nil, chars_nil, ← hmode]
    rfl
  | cons c cs ih =>
    intro s k hmode hstack
    obtain ⟨k₁, hc⟩ := run_escape_text hmode hstack c
    have hfill : (s.char (legalize c)).stack ≠ [] := by
      cases hs : s.stack with
      | nil => exact absurd hs hstack
      | cons p rest => simp [char, fill, hs]
    obtain ⟨k', hcs⟩ := ih (s := (s.char (legalize c)).goto (.text k₁)) rfl hfill
    refine ⟨k', ?_⟩
    rw [List.flatMap_cons, run_append, hc, Option.bind_some, hcs, chars_goto]
    rfl

/-- A character of a value. -/
theorem run_escape_value {as : List String} {n : String} {buf : List Char}
    (hmode : s.mode = .value as n true buf) (c : Char) :
    s.run (escape c) = some (s.goto (.value as n true (buf ++ [legalize c]))) := by
  have hw := escaped c
  generalize escape c = w at hw
  cases hw with
  | raw hplain hquot _ =>
    refine run_value (fun d hd => ?_) hmode
    rw [List.mem_singleton.mp hd]
    exact ⟨hplain, hquot⟩
  | ref r href hr =>
    have hamp : s.step '&' = some (s.goto (.valueRef as n true buf [])) := by
      rw [step, if_neg (by decide), hmode]
      rfl
    have hend : (s.goto (.valueRef as n true buf r)).step ';' =
        some (s.goto (.value as n true (buf ++ [legalize c]))) := by
      have hmap : (s.goto (.valueRef as n true buf r)).step ';' = (reference r).map fun d =>
        (s.goto (.valueRef as n true buf r)).goto (.value as n true (buf ++ [d])) := rfl
      rw [hmap, href]
      rfl
    rw [run, hamp, Option.bind_some, run_append, run_buffer step_valueRef hr rfl,
      Option.bind_some, List.nil_append, run]
    exact (congrArg (Option.bind · _) hend).trans rfl

/-- **Values**: what is written is read back. -/
theorem run_escape_values {as : List String} {n : String} (cs : List Char) :
    ∀ {s : State} {buf : List Char}, s.mode = .value as n true buf →
      s.run (cs.flatMap escape) =
        some (s.goto (.value as n true (buf ++ cs.map legalize))) := by
  induction cs with
  | nil =>
    intro s buf hmode
    rw [List.map_nil, List.append_nil, ← hmode]
    rfl
  | cons c cs ih =>
    intro s buf hmode
    rw [List.flatMap_cons, run_append, run_escape_value hmode, Option.bind_some, ih rfl,
      List.map_cons, List.append_assoc]
    rfl

end State

/-! ## Tags -/

/-- A name of the grammar. -/
def validName (n : String) : Bool :=
  match n.toList with
  | [] => false
  | c :: cs => nameStart c && cs.all nameChar

/-- Characters of names are in their ranges. -/
theorem legal_of_nameChar {c : Char} (h : nameChar c = true) : legal c = true ∧ c ≠ '\r' := by
  refine ⟨?_, fun hcr => absurd (hcr ▸ h) (by decide)⟩
  simp only [nameChar, nameStart, within, nameStartRanges, nameRanges, List.any_cons, List.any_nil,
    Bool.or_eq_true, Bool.and_eq_true, decide_eq_true_eq, Bool.or_false] at h
  simp only [legal, Bool.or_eq_true, Bool.and_eq_true, decide_eq_true_eq]
  omega

theorem nameChar_of_nameStart {c : Char} (h : nameStart c = true) : nameChar c = true := by
  rw [nameChar, h, Bool.true_or]

theorem validName_toList {n : String} (h : validName n = true) :
    ∃ c cs, n.toList = c :: cs ∧ nameStart c = true ∧ ∀ d ∈ cs, nameChar d = true := by
  rw [validName] at h
  split at h
  · cases h
  · rename_i c cs hn
    rw [Bool.and_eq_true, List.all_eq_true] at h
    exact ⟨c, cs, hn, h⟩

/-- An attribute. -/
def writeAttr (a : String × String) : List Char :=
  ' ' :: (a.1.toList ++ '=' :: '"' :: (a.2.toList.flatMap escape ++ ['"']))

/-- What an attribute says. -/
def attrEvent (a : String × String) : Event := .attr a.1 (legalText a.2)

namespace State

variable {s : State}

theorem step_startName (s : State) (buf : List Char) (c : Char) (hmode : s.mode = .startName buf)
    (hc : nameChar c = true) : s.step c = some (s.goto (.startName (buf ++ [c]))) := by
  simp [step, hmode, legal_of_nameChar hc, stepStartName, hc]

theorem step_attrName {as : List String} (s : State) (buf : List Char) (c : Char)
    (hmode : s.mode = .attrName as buf) (hc : nameChar c = true) :
    s.step c = some (s.goto (.attrName as (buf ++ [c]))) := by
  simp [step, hmode, legal_of_nameChar hc, stepAttrName, hc]

theorem step_endName (s : State) (buf : List Char) (c : Char) (hmode : s.mode = .endName buf)
    (hc : nameChar c = true) : s.step c = some (s.goto (.endName (buf ++ [c]))) := by
  simp [step, hmode, legal_of_nameChar hc, stepEndName, hc]

/-- **An attribute** is read back. -/
theorem run_writeAttr {as : List String} {gap : Bool} {a : String × String}
    (hmode : s.mode = .tag as gap) (hvalid : validName a.1 = true) (hnew : a.1 ∉ as) :
    s.run (writeAttr a) =
      some ({ s with log := attrEvent a :: s.log }.goto (.tag (a.1 :: as) false)) := by
  obtain ⟨c, cs, hn, hc, hcs⟩ := validName_toList hvalid
  have hlegal := legal_of_nameChar (nameChar_of_nameStart hc)
  have hspace : s.step ' ' = some (s.goto (.tag as true)) := by
    rw [step, if_neg (by decide), hmode]
    rfl
  have hfirst : (s.goto (.tag as true)).step c = some (s.goto (.attrName as [c])) := by
    have hne : ∀ d : Char, nameStart d = false → c ≠ d := by
      rintro d hd rfl
      rw [hc] at hd
      cases hd
    have hnospace : space c = false := by
      simp only [space, Bool.or_eq_false_iff, decide_eq_false_iff_not]
      exact ⟨⟨hne _ (by decide), hne _ (by decide)⟩, hne _ (by decide)⟩
    rw [step, if_neg (by simp [hlegal])]
    change stepTag _ as true c = _
    rw [stepTag, if_neg (by simp [hnospace]), if_neg (hne _ (by decide)),
      if_neg (hne _ (by decide)), hc]
    rfl
  have hname : String.ofList (c :: cs) = a.1 := by rw [← hn, String.ofList_toList]
  have heq : (s.goto (.attrName as (c :: cs))).step '=' = some (s.goto (.attrEq as a.1 true)) := by
    rw [step, if_neg (by decide)]
    change stepAttrName _ as (c :: cs) '=' = _
    rw [stepAttrName, if_neg (by decide), hname, if_neg (by simpa using hnew),
      if_neg (by decide), if_pos rfl]
    rfl
  have hopen : (s.goto (.attrEq as a.1 true)).step '"' =
      some (s.goto (.value as a.1 true [])) := by
    rw [step, if_neg (by decide)]
    rfl
  have hclose : ∀ v, (s.goto (.value as a.1 true v)).step '"' =
      some ({ s with log := .attr a.1 (.ofList v) :: s.log }.goto (.tag (a.1 :: as) false)) := by
    intro v
    rw [step, if_neg (by decide)]
    rfl
  rw [writeAttr, hn, run, hspace, Option.bind_some, List.cons_append, run, hfirst,
    Option.bind_some, run_append, run_buffer step_attrName hcs rfl, Option.bind_some,
    List.singleton_append, run]
  refine (congrArg (Option.bind · _) heq).trans ?_
  rw [Option.bind_some, run, hopen, Option.bind_some, run_append, run_escape_values _ rfl,
    Option.bind_some, List.nil_append, run]
  refine (congrArg (Option.bind · _) (hclose _)).trans ?_
  rfl

/-- Attributes of different names. -/
theorem run_writeAttrs (attrs : List (String × String)) :
    ∀ {s : State} {as : List String} {gap : Bool}, s.mode = .tag as gap →
      (∀ a ∈ attrs, validName a.1 = true) → (attrs.map Prod.fst).Nodup →
        (∀ a ∈ attrs, a.1 ∉ as) →
          ∃ as' gap', s.run (attrs.flatMap writeAttr) =
            some ({ s with log := (attrs.map attrEvent).reverse ++ s.log }.goto
              (.tag as' gap')) := by
  induction attrs with
  | nil =>
    intro s as gap hmode _ _ _
    refine ⟨as, gap, ?_⟩
    rw [List.map_nil, List.reverse_nil, List.nil_append, ← hmode]
    rfl
  | cons a attrs ih =>
    intro s as gap hmode hvalid hnd hnew
    rw [List.map_cons, List.nodup_cons] at hnd
    have hrest : ∀ b ∈ attrs, b.1 ∉ a.1 :: as := by
      intro b hb
      rw [List.mem_cons, not_or]
      refine ⟨fun heq => hnd.1 (heq ▸ List.mem_map_of_mem hb), ?_⟩
      exact hnew b (List.mem_cons_of_mem a hb)
    obtain ⟨as', gap', hrun⟩ := ih
      (s := { s with log := attrEvent a :: s.log }.goto (.tag (a.1 :: as) false)) rfl
      (fun b hb => hvalid b (List.mem_cons_of_mem a hb)) hnd.2 hrest
    refine ⟨as', gap', ?_⟩
    rw [List.flatMap_cons, run_append, run_writeAttr hmode (hvalid a List.mem_cons_self)
      (hnew a List.mem_cons_self), Option.bind_some, hrun, List.map_cons, List.reverse_cons,
      List.append_assoc]
    rfl

theorem step_lt {k : ℕ} (hmode : s.mode = .text k) :
    s.step '<' = some (s.goto (.markup false)) := by
  rw [step, if_neg (by decide), hmode]
  rfl

/-- The name of a start tag ends with white space or with the tag. -/
theorem step_startName_end {n : String} {buf : List Char} (hn : String.ofList buf = n) {c : Char}
    (hc : c = ' ' ∨ c = '>' ∨ c = '/') : (s.goto (.startName buf)).step c =
      ((s.opened n).goto (.tag [] false)).step c := by
  subst hn
  rcases hc with rfl | rfl | rfl <;> rfl

/-- A tag is read up to what ends it. -/
theorem run_tagHead {k : ℕ} {n : String} {attrs : List (String × String)} {c : Char}
    (hmode : s.mode = .text k) (hdone : s.done = false) (hn : validName n = true)
    (hvalid : ∀ a ∈ attrs, validName a.1 = true) (hnd : (attrs.map Prod.fst).Nodup)
    (hc : c = '>' ∨ c = '/') (rest : List Char) :
    ∃ as gap, s.run ('<' :: (n.toList ++ (attrs.flatMap writeAttr ++ c :: rest))) =
      (State.mk (.tag as gap) ((n, false) :: fill s.stack) false
        ((attrs.map attrEvent).reverse ++ .start n :: s.log)).run (c :: rest) := by
  obtain ⟨d, cs, hlist, hd, hcs⟩ := validName_toList hn
  have hlegal := legal_of_nameChar (nameChar_of_nameStart hd)
  have hfirst : (s.goto (.markup false)).step d = some (s.goto (.startName [d])) := by
    have hne : ∀ e : Char, nameStart e = false → d ≠ e := by
      rintro e he rfl
      rw [hd] at he
      cases he
    rw [step, if_neg (by simp [hlegal])]
    change stepMarkup _ false d = _
    rw [stepMarkup, if_neg (hne _ (by decide)), if_neg (hne _ (by decide)),
      if_neg (hne _ (by decide)), if_pos]
    · rfl
    · rw [hd, Bool.true_and]
      exact (congrArg not hdone).trans rfl
  have hname : String.ofList (d :: cs) = n := by rw [← hlist, String.ofList_toList]
  -- what follows the name is read as after an attribute
  have hrest : (s.goto (.startName (d :: cs))).run (attrs.flatMap writeAttr ++ c :: rest) =
      ((s.opened n).goto (.tag [] false)).run (attrs.flatMap writeAttr ++ c :: rest) := by
    cases attrs with
    | nil => exact congrArg (Option.bind · _) (step_startName_end hname (.inr hc))
    | cons a attrs => exact congrArg (Option.bind · _) (step_startName_end hname (.inl rfl))
  obtain ⟨as', gap', hattrs⟩ := run_writeAttrs attrs
    (s := (s.opened n).goto (.tag [] false)) rfl hvalid hnd fun _ _ => List.not_mem_nil
  refine ⟨as', gap', ?_⟩
  rw [run, step_lt hmode, Option.bind_some, hlist, List.cons_append, run, hfirst,
    Option.bind_some, run_append, run_buffer step_startName hcs rfl, Option.bind_some]
  refine hrest.trans ?_
  rw [run_append, hattrs, Option.bind_some]
  change (State.mk (.tag as' gap') _ s.done _).run _ = _
  rw [hdone]
  rfl

/-- **A start tag** is read back. -/
theorem run_startTag {k : ℕ} {n : String} {attrs : List (String × String)}
    (hmode : s.mode = .text k) (hdone : s.done = false) (hn : validName n = true)
    (hvalid : ∀ a ∈ attrs, validName a.1 = true) (hnd : (attrs.map Prod.fst).Nodup) :
    s.run ('<' :: (n.toList ++ (attrs.flatMap writeAttr ++ ['>']))) =
      some ⟨.text 0, (n, false) :: fill s.stack, false,
        (attrs.map attrEvent).reverse ++ .start n :: s.log⟩ := by
  obtain ⟨as, gap, hhead⟩ := run_tagHead hmode hdone hn hvalid hnd (.inl rfl) []
  rw [hhead, run, step, if_neg (by decide)]
  rfl

/-- **An empty element** is read back. -/
theorem run_emptyTag {k : ℕ} {n : String} {attrs : List (String × String)}
    (hmode : s.mode = .text k) (hdone : s.done = false) (hn : validName n = true)
    (hvalid : ∀ a ∈ attrs, validName a.1 = true) (hnd : (attrs.map Prod.fst).Nodup) :
    s.run ('<' :: (n.toList ++ (attrs.flatMap writeAttr ++ ['/', '>']))) =
      some ⟨.text 0, fill s.stack, (fill s.stack).isEmpty,
        .finish n false :: ((attrs.map attrEvent).reverse ++ .start n :: s.log)⟩ := by
  obtain ⟨as, gap, hhead⟩ := run_tagHead hmode hdone hn hvalid hnd (.inr rfl) ['>']
  rw [hhead, run, step, if_neg (by decide)]
  rfl

/-- **An end tag** is read back. -/
theorem run_endTag {k : ℕ} {n : String} {content : Bool} {rest : List (String × Bool)}
    (hmode : s.mode = .text k) (hstack : s.stack = (n, content) :: rest)
    (hn : validName n = true) :
    s.run ('<' :: '/' :: (n.toList ++ ['>'])) =
      some ⟨.text 0, rest, rest.isEmpty, .finish n content :: s.log⟩ := by
  have hchars : ∀ c ∈ n.toList, nameChar c = true := by
    obtain ⟨c, cs, hlist, hc, hcs⟩ := validName_toList hn
    rw [hlist]
    intro d hd
    rcases List.mem_cons.mp hd with rfl | hd
    · exact nameChar_of_nameStart hc
    · exact hcs d hd
  have hslash : (s.goto (.markup false)).step '/' = some (s.goto (.endName [])) := by
    rw [step, if_neg (by decide)]
    rfl
  have hend : (s.goto (.endName n.toList)).step '>' =
      some ⟨.text 0, rest, rest.isEmpty, .finish n content :: s.log⟩ := by
    rw [step, if_neg (by decide)]
    change stepEndName _ n.toList '>' = _
    have hopen : (s.goto (.endName n.toList)).stack = (n, content) :: rest := hstack
    rw [stepEndName, if_neg (by decide), if_neg (by decide), if_pos rfl, closed,
      String.ofList_toList, hopen]
    exact if_pos rfl
  rw [run, step_lt hmode, Option.bind_some, run, hslash, Option.bind_some, run_append,
    run_buffer step_endName hchars rfl, Option.bind_some, List.nil_append, run]
  exact (congrArg (Option.bind · _) hend).trans rfl

end State

/-! ## Elements -/

/-- A new line. -/
def newline (depth : ℕ) : List Char := '\n' :: List.replicate (2 * depth) ' '

/-- The end tag is on a line of its own when there are child elements. -/
def closing {V : Type} (depth : ℕ) (cs : List (Element V)) : List Char :=
  if cs.isEmpty then [] else newline depth

namespace Element

variable {V W : Type}

mutual

/-- Names of the grammar, and no attribute twice. -/
def valid : Element V → Bool
  | mk n as _ cs => validName n && (as.all fun a => validName a.1) &&
      decide (as.map Prod.fst).Nodup && validAll cs

def validAll : List (Element V) → Bool
  | [] => true
  | c :: cs => c.valid && validAll cs

end

mutual

/-- The document of an element. -/
def write (depth : ℕ) : Element String → List Char
  | mk n as t cs =>
    '<' :: (n.toList ++ (as.flatMap writeAttr ++ ['>'])) ++ (t.toList.flatMap escape ++
      (writeAll (depth + 1) cs ++ (closing depth cs ++ '<' :: '/' :: (n.toList ++ ['>']))))

def writeAll (depth : ℕ) : List (Element String) → List Char
  | [] => []
  | c :: cs => newline depth ++ (c.write depth ++ writeAll depth cs)

end

mutual

/-- What the document of an element says. -/
def written (depth : ℕ) : Element String → List Event
  | mk n as t cs =>
    let content := (t.toList.map legalize).map Event.char ++ (writtenAll (depth + 1) cs ++
      (closing depth cs).map Event.char)
    .start n :: (as.map attrEvent ++ (content ++ [.finish n !content.isEmpty]))

def writtenAll (depth : ℕ) : List (Element String) → List Event
  | [] => []
  | c :: cs => (newline depth).map Event.char ++ (c.written depth ++ writtenAll depth cs)

end

mutual

/-- The element with the white space of its document. -/
def indented (depth : ℕ) : Element String → Element String
  | mk n as t cs => mk n as
      (t ++ .ofList ((cs.flatMap fun _ => newline (depth + 1)) ++ closing depth cs))
      (indentedAll (depth + 1) cs)

def indentedAll (depth : ℕ) : List (Element String) → List (Element String)
  | [] => []
  | c :: cs => c.indented depth :: indentedAll depth cs

end

@[simp] theorem validAll_eq (cs : List (Element V)) : validAll cs = cs.all valid := by
  induction cs with
  | nil => rfl
  | cons c cs ih => rw [validAll, ih, List.all_cons]

@[simp] theorem indentedAll_eq (depth : ℕ) (cs : List (Element String)) :
    indentedAll depth cs = cs.map (indented depth) := by
  induction cs with
  | nil => rfl
  | cons c cs ih => rw [indentedAll, ih, List.map_cons]

@[simp] theorem indented_mk (depth : ℕ) (n : String) (as : List (String × String)) (t : String)
    (cs : List (Element String)) : (mk n as t cs).indented depth = mk n as
      (t ++ .ofList ((cs.flatMap fun _ => newline (depth + 1)) ++ closing depth cs))
      (cs.map (indented (depth + 1))) := by
  rw [indented, indentedAll_eq]

/-- Names do not depend on the values. -/
theorem valid_map (f : V → W) (e : Element V) : (e.map f).valid = e.valid := by
  induction e with
  | mk n as t cs ih =>
    rw [map_mk, valid, valid, validAll_eq, validAll_eq, List.all_map, List.all_map, List.map_map]
    congr 1
    rw [Bool.eq_iff_iff, List.all_eq_true, List.all_eq_true]
    refine forall₂_congr fun c hc => ?_
    rw [Function.comp_apply, ih c hc]

end Element

namespace State

variable {s s' s'' : State}

/-- What is read in an element without leaving it. -/
structure Within (s s' : State) (es : List Event) : Prop where
  mode : ∃ k, s'.mode = .text k
  stack : s'.stack = if es.isEmpty then s.stack else fill s.stack
  done : s'.done = s.done
  log : s'.log = es.reverse ++ s.log

theorem Within.trans {es es' : List Event} (h : Within s s' es) (h' : Within s' s'' es') :
    Within s s'' (es ++ es') := by
  refine ⟨h'.mode, ?_, h'.done.trans h.done, ?_⟩
  · rw [h'.stack, h.stack]
    cases es with
    | nil => rfl
    | cons e es =>
      cases es' with
      | nil => rfl
      | cons e' es' => exact fill_fill s.stack
  · rw [h'.log, h.log, List.reverse_append, List.append_assoc]

theorem Within.stack_ne_nil {es : List Event} (h : Within s s' es) (hs : s.stack ≠ []) :
    s'.stack ≠ [] := by
  rw [h.stack]
  split
  · exact hs
  · cases hstack : s.stack with
    | nil => exact absurd hstack hs
    | cons p rest => simp [fill]

theorem within_chars (s : State) (k : ℕ) (cs : List Char) :
    Within s ((s.chars cs).goto (.text k)) (cs.map Event.char) := by
  by_cases hcs : cs = []
  · subst hcs
    exact ⟨⟨k, rfl⟩, rfl, rfl, rfl⟩
  · rw [chars_eq hcs]
    refine ⟨⟨k, rfl⟩, ?_, rfl, rfl⟩
    cases cs with
    | nil => exact absurd rfl hcs
    | cons c cs => rfl

/-- A new line in an element. -/
theorem run_newline {k : ℕ} (hmode : s.mode = .text k) (hstack : s.stack ≠ []) (depth : ℕ) :
    ∃ s', s.run (newline depth) = some s' ∧ Within s s' ((newline depth).map Event.char) := by
  have hplain : ∀ c ∈ newline depth, plain c = true := by
    intro c hc
    rw [newline, List.mem_cons, List.mem_replicate] at hc
    rcases hc with rfl | ⟨-, rfl⟩ <;> decide
  have hend : textEnd k (newline depth) = some 0 := by
    rw [newline, textEnd, if_neg (by simp), if_neg (by decide)]
    exact textEnd_of_not_mem fun hmem => absurd (List.mem_replicate.mp hmem).2 (by decide)
  refine ⟨_, ?_, within_chars s 0 (newline depth)⟩
  rw [run_text hplain hmode hstack, hend]
  rfl

/-- The end of the content of an element. -/
theorem run_closing {V : Type} {k : ℕ} (hmode : s.mode = .text k) (hstack : s.stack ≠ [])
    (depth : ℕ) (cs : List (Element V)) :
    ∃ s', s.run (closing depth cs) = some s' ∧
      Within s s' ((closing depth cs).map Event.char) := by
  rw [closing]
  split
  · exact ⟨s, rfl, ⟨k, hmode⟩, rfl, rfl, rfl⟩
  · exact run_newline hmode hstack depth

/-- What is read of an element. -/
def ReadsBack (e : Element String) : Prop :=
  ∀ (depth k : ℕ) (s : State), s.mode = .text k → s.done = false →
    s.run (e.write depth) =
      some ⟨.text 0, fill s.stack, s.stack.isEmpty, (e.written depth).reverse ++ s.log⟩

/-- The child elements, one after the other. -/
theorem run_writeAll {cs : List (Element String)} (hcs : ∀ c ∈ cs, ReadsBack c) (depth : ℕ) :
    ∀ {s : State} {k : ℕ}, s.mode = .text k → s.done = false → s.stack ≠ [] →
      ∃ s', s.run (Element.writeAll depth cs) = some s' ∧
        Within s s' (Element.writtenAll depth cs) := by
  induction cs with
  | nil =>
    intro s k hmode _ _
    exact ⟨s, rfl, ⟨k, hmode⟩, rfl, rfl, rfl⟩
  | cons c cs ih =>
    intro s k hmode hdone hstack
    obtain ⟨s₁, hrun₁, hin₁⟩ := run_newline hmode hstack depth
    obtain ⟨k₁, hmode₁⟩ := hin₁.mode
    have hdone₁ := hin₁.done.trans hdone
    have hstack₁ := hin₁.stack_ne_nil hstack
    have hrun₂ := hcs c List.mem_cons_self depth k₁ s₁ hmode₁ hdone₁
    have hin₂ : Within s₁ ⟨.text 0, fill s₁.stack, s₁.stack.isEmpty,
        (c.written depth).reverse ++ s₁.log⟩ (c.written depth) := by
      refine ⟨⟨0, rfl⟩, ?_, (isEmpty_stack hstack₁).trans hdone₁.symm, rfl⟩
      obtain ⟨n, as, t, ds⟩ := c
      rfl
    have hin₁₂ := hin₁.trans hin₂
    obtain ⟨s₃, hrun₃, hin₃⟩ := ih (fun d hd => hcs d (List.mem_cons_of_mem c hd)) rfl
      (hin₁₂.done.trans hdone) (hin₁₂.stack_ne_nil hstack)
    refine ⟨s₃, ?_, ?_⟩
    · rw [Element.writeAll, run_append, hrun₁, Option.bind_some, run_append, hrun₂,
        Option.bind_some, hrun₃]
    · rw [Element.writtenAll, ← List.append_assoc]
      exact hin₁₂.trans hin₃

/-- **An element** is read back. -/
theorem readsBack (e : Element String) (hvalid : e.valid = true) : ReadsBack e := by
  induction e with
  | mk n as t cs ih =>
    intro depth k s hmode hdone
    rw [Element.valid, Element.validAll_eq] at hvalid
    simp only [Bool.and_eq_true, decide_eq_true_eq, List.all_eq_true] at hvalid
    obtain ⟨⟨⟨hn, has⟩, hnd⟩, hcs⟩ := hvalid
    have hstart := run_startTag hmode hdone hn has hnd
    obtain ⟨k₁, hrun₁⟩ := run_escape_texts t.toList
      (s := ⟨.text 0, (n, false) :: fill s.stack, false,
        (as.map attrEvent).reverse ++ .start n :: s.log⟩) rfl (List.cons_ne_nil _ _)
    have hin₁ := within_chars ⟨.text 0, (n, false) :: fill s.stack, false,
        (as.map attrEvent).reverse ++ .start n :: s.log⟩ k₁ (t.toList.map legalize)
    obtain ⟨s₂, hrun₂, hin₂⟩ := run_writeAll (fun c hc => ih c hc (hcs c hc)) (depth + 1) rfl
      hin₁.done (hin₁.stack_ne_nil (List.cons_ne_nil _ _))
    have hin₁₂ := hin₁.trans hin₂
    obtain ⟨k₂, hmode₂⟩ := hin₂.mode
    obtain ⟨s₃, hrun₃, hin₃⟩ := run_closing hmode₂
      (hin₁₂.stack_ne_nil (List.cons_ne_nil _ _)) depth cs
    have hin := hin₁.trans (hin₂.trans hin₃)
    obtain ⟨k₃, hmode₃⟩ := hin.mode
    have hstack : s₃.stack = (n, !((t.toList.map legalize).map Event.char ++
        (Element.writtenAll (depth + 1) cs ++ (closing depth cs).map Event.char)).isEmpty) ::
          fill s.stack := by
      rw [hin.stack]
      split
      · rename_i hempty
        rw [hempty]
        rfl
      · rename_i hempty
        rw [Bool.not_eq_true] at hempty
        rw [hempty]
        rfl
    have hend := run_endTag hmode₃ hstack hn
    rw [Element.write, run_append, hstart, Option.bind_some, run_append, hrun₁, Option.bind_some,
      run_append, hrun₂, Option.bind_some, run_append, hrun₃, Option.bind_some, hend, hin.log]
    have hempty : (fill s.stack).isEmpty = s.stack.isEmpty := by
      cases s.stack <;> rfl
    rw [hempty, Element.written]
    simp only [List.reverse_cons, List.reverse_append, List.append_assoc, List.reverse_nil,
      List.nil_append, List.cons_append]

/-- A carriage return is not read as it is. -/
theorem not_mem_of_run {cs : List Char} : ∀ {s s' : State}, s.run cs = some s' → '\r' ∉ cs := by
  induction cs with
  | nil => exact fun _ => List.not_mem_nil
  | cons c cs ih =>
    intro s s' h
    obtain ⟨s₁, hstep, hrun⟩ := Option.bind_eq_some_iff.mp h
    rw [List.mem_cons, not_or]
    refine ⟨?_, ih hrun⟩
    rintro rfl
    rw [step, if_pos (by decide)] at hstep
    cases hstep

end State

/-! ## Building -/

namespace Builder

/-- An element ended. -/
def ended (b : Builder) (e : Element String) : Builder :=
  match b.stack with
  | .mk n as t cs :: rest => { b with stack := .mk n as t (cs ++ [e]) :: rest }
  | [] => ⟨some e, []⟩

theorem step_finish (root : Option (Element String)) (e : Element String)
    (stack : List (Element String)) (n : String) (content : Bool) :
    step ⟨root, e :: stack⟩ (.finish n content) = ended ⟨root, stack⟩ e := by
  cases stack with
  | nil => rfl
  | cons p rest =>
    obtain ⟨m, as, t, cs⟩ := p
    rfl

variable {root : Option (Element String)} {n t : String} {as : List (String × String)}
  {cs rest : List (Element String)}

theorem foldl_attrs (bs : List (String × String)) : ∀ as : List (String × String),
    (bs.map attrEvent).foldl step ⟨root, .mk n as t cs :: rest⟩ =
      ⟨root, .mk n (as ++ bs.map fun a => (a.1, legalText a.2)) t cs :: rest⟩ := by
  induction bs with
  | nil =>
    intro as
    rw [List.map_nil, List.map_nil, List.append_nil]
    rfl
  | cons b bs ih =>
    intro as
    have hstep : step ⟨root, .mk n as t cs :: rest⟩ (attrEvent b) =
      ⟨root, .mk n (as ++ [(b.1, legalText b.2)]) t cs :: rest⟩ := rfl
    rw [List.map_cons, List.foldl_cons, hstep, ih, List.map_cons, List.append_assoc,
      List.singleton_append]

theorem foldl_chars (l : List Char) : ∀ t : String,
    (l.map Event.char).foldl step ⟨root, .mk n as t cs :: rest⟩ =
      ⟨root, .mk n as (t ++ .ofList l) cs :: rest⟩ := by
  induction l with
  | nil =>
    intro t
    have hnil : t ++ String.ofList [] = t := String.append_empty
    rw [hnil]
    rfl
  | cons c l ih =>
    intro t
    have hstep : step ⟨root, .mk n as t cs :: rest⟩ (.char c) =
      ⟨root, .mk n as (t.push c) cs :: rest⟩ := rfl
    have hpush : t.push c ++ String.ofList l = t ++ String.ofList (c :: l) := by
      rw [← String.toList_inj]
      simp
    rw [List.map_cons, List.foldl_cons, hstep, ih, hpush]

/-- The child elements, with the new lines in front of them. -/
theorem foldl_writtenAll {depth : ℕ} {ds : List (Element String)}
    (hds : ∀ d ∈ ds, ∀ b : Builder, (d.written depth).foldl step b =
      b.ended ((d.map legalText).indented depth)) : ∀ (t : String) (cs : List (Element String)),
    (Element.writtenAll depth ds).foldl step ⟨root, .mk n as t cs :: rest⟩ =
      ⟨root, .mk n as (t ++ .ofList (ds.flatMap fun _ => newline depth))
        (cs ++ ds.map fun d => (d.map legalText).indented depth) :: rest⟩ := by
  induction ds with
  | nil =>
    intro t cs
    have hnil : t ++ String.ofList [] = t := String.append_empty
    rw [List.flatMap_nil, hnil, List.map_nil, List.append_nil]
    rfl
  | cons d ds ih =>
    intro t cs
    have hended : ∀ t', ended ⟨root, .mk n as t' cs :: rest⟩ ((d.map legalText).indented depth) =
      ⟨root, .mk n as t' (cs ++ [(d.map legalText).indented depth]) :: rest⟩ := fun _ => rfl
    rw [Element.writtenAll, List.foldl_append, foldl_chars, List.foldl_append,
      hds d List.mem_cons_self, hended, ih fun e he => hds e (List.mem_cons_of_mem d he),
      List.map_cons, List.append_assoc, List.singleton_append, List.flatMap_cons,
      String.append_assoc, ← String.ofList_append]

/-- **Building** what the document of an element says. -/
theorem foldl_written (e : Element String) (depth : ℕ) (b : Builder) :
    (e.written depth).foldl step b = b.ended ((e.map legalText).indented depth) := by
  induction e generalizing depth b with
  | mk n as t cs ih =>
    have hstart : step b (.start n) = ⟨b.root, .mk n [] "" [] :: b.stack⟩ := rfl
    have htext : ("" : String) ++ String.ofList (t.toList.map legalize) = legalText t :=
      String.empty_append
    rw [Element.written, List.foldl_cons, hstart, List.foldl_append, foldl_attrs,
      List.foldl_append, List.foldl_append, foldl_chars, htext, List.foldl_append,
      foldl_writtenAll fun c hc b => ih c hc (depth + 1) b, foldl_chars, List.foldl_cons,
      List.foldl_nil, step_finish, Element.map_mk, Element.indented_mk, List.map_map,
      List.nil_append, List.nil_append, String.append_assoc, ← String.ofList_append,
      List.flatMap_map]
    congr 4
    rw [closing, closing, List.isEmpty_map]

end Builder

/-! ## Documents -/

/-- The declaration in front of a document. -/
def declaration : List Char := "<?xml version=\"1.0\" encoding=\"UTF-8\"?>\n".toList

/-- **Writing and reading back**: the document of an element is the element, with the white space
of the document, and with the characters replaced that a document cannot hold. -/
theorem parse_write {e : Element String} (hvalid : e.valid = true) :
    parse (.ofList (declaration ++ e.write 0)) = some ((e.map legalText).indented 0) := by
  have hdecl : State.start.run declaration = some ⟨.text 0, [], false, []⟩ := by
    decide
  have hrun : State.start.run (declaration ++ e.write 0) =
      some ⟨.text 0, [], true, (e.written 0).reverse ++ []⟩ := by
    rw [State.run_append, hdecl, Option.bind_some, State.readsBack e hvalid 0 0 _ rfl rfl]
    rfl
  rw [parse, scan, String.toList_ofList, normalize_eq_self (State.not_mem_of_run hrun), hrun,
    Option.bind_some]
  change Option.bind (some (List.reverse _)) _ = _
  rw [List.append_nil, List.reverse_reverse, Option.bind_some, Builder.foldl_written]
  rfl

/-! ## Looking things up behind the white space -/

namespace Element

@[simp] theorem name_indented (depth : ℕ) (e : Element String) :
    (e.indented depth).name = e.name := by
  obtain ⟨n, as, t, cs⟩ := e
  rw [indented_mk]
  rfl

@[simp] theorem attr_indented (depth : ℕ) (key : String) (e : Element String) :
    (e.indented depth).attr key = e.attr key := by
  obtain ⟨n, as, t, cs⟩ := e
  rw [indented_mk]
  rfl

@[simp] theorem children_indented (depth : ℕ) (e : Element String) :
    (e.indented depth).children = e.children.map (indented (depth + 1)) := by
  obtain ⟨n, as, t, cs⟩ := e
  rw [indented_mk]
  rfl

/-- Character data without elements is as it was written. -/
theorem text_indented {depth : ℕ} {e : Element String} (h : e.children = []) :
    (e.indented depth).text = e.text := by
  obtain ⟨n, as, t, cs⟩ := e
  obtain rfl : cs = [] := h
  rw [indented_mk]
  exact String.append_empty

theorem follow_indented (path : List String) : ∀ (depth : ℕ) (e : Element String),
    (e.indented depth).follow path = (e.follow path).map (indented (depth + path.length)) := by
  induction path with
  | nil => exact fun _ _ => rfl
  | cons n ns ih =>
    intro depth e
    have hname : ((fun c : Element String => decide (c.name = n)) ∘ indented (depth + 1)) =
        fun c : Element String => decide (c.name = n) := by
      funext c
      rw [Function.comp_apply, name_indented]
    rw [follow, follow, children_indented, List.filter_map, hname, List.flatMap_map,
      List.map_flatMap]
    refine List.flatMap_congr fun c _ => (ih (depth + 1) c).trans ?_
    rw [List.length_cons, Nat.add_assoc, Nat.add_comm 1]

theorem attrsAt_indented (path : List String) (key : String) (depth : ℕ) (e : Element String) :
    (e.indented depth).attrsAt path key = e.attrsAt path key := by
  rw [attrsAt, follow_indented, List.filterMap_map]
  exact List.filterMap_congr fun c _ => attr_indented _ key c

/-- Where no element is inside of another. -/
theorem textsAt_indented {path : List String} {depth : ℕ} {e : Element String}
    (h : ∀ c ∈ e.follow path, c.children = []) :
    (e.indented depth).textsAt path = e.textsAt path := by
  rw [textsAt, follow_indented, List.map_map]
  exact List.map_congr_left fun c hc => text_indented (h c hc)

end Element

end Ultrav.Xml
