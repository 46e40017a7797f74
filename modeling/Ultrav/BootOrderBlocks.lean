import Ultrav.BootOrderText

/-!
# The blocks of a definition

What `osBlockRe` matches among printed elements, and what becomes of it.

* `osBlockRe_len_block` — a block ends at its first end tag.
* `rewriteBlock_blockOf` — what a block becomes; `Settled` — the blocks that stay.
* `osBlockRe_closed` / `block_of_mem` — every block of printed elements ends among them.
* `settled_of_prefix` — blocks that are changed cannot make up for each other.
-/

namespace Ultrav

open Markup

/-! ## Blocks -/

def osName : Name := ⟨"os".toList, rfl⟩

/-- The end tag that `osBlockRe` looks for. -/
abbrev endOs : Matcher Char := .literal "</os>".toList

section Blocks

variable {i : Item} {is : List Item} {s : List Char}

/-- A text that begins every match begins with a bracket. -/
theorem silent_of_bracket {p : Matcher Char} (hp : ∀ c s, c ≠ '<' → p.len (c :: s) = 0)
    (htag : ∀ z, p.len ('<' :: (i.tag.chars ++ '>' :: z)) = 0) : p.Silent i.text := by
  have hlt : ∀ c ∈ i.tag.chars ++ ['>'], c ≠ '<' := by
    intro c hc
    rcases List.mem_append.mp hc with hc | hc
    · exact ne_of_mem_of_not_mem hc i.tag.lt_notMem
    · rw [List.mem_singleton.mp hc]
      decide
  refine .append (.of_head hp fun c hc => ne_of_mem_of_not_mem hc i.gap.lt_notMem) ?_
  refine .cons (fun z => ?_) (.of_head hp hlt)
  have hz := htag z
  simpa using hz

theorem not_prefix_of_head {l s : List Char} {c : Char} (hc : c ≠ '<') :
    ¬ '<' :: l <+: c :: s := fun h => hc (List.cons_prefix_cons.mp h).1.symm

/-- Another tag. -/
theorem not_prefix_of_tag {t : Plain} {l z : List Char} (hl : '>' ∉ l) (h : t.chars ≠ l) :
    ¬ '<' :: (l ++ ['>']) <+: '<' :: (t.chars ++ '>' :: z) := by
  intro hpre
  obtain ⟨u, hu⟩ := (List.cons_prefix_cons.mp hpre).2
  rw [List.append_assoc, List.singleton_append] at hu
  exact h ((split_inj hl t.gt_notMem).mp hu).1.symm

theorem osBlockRe_len_of_not (h : ¬ "<os>".toList <+: s) : osBlockRe.len s = 0 := if_neg h

theorem osBlockRe_head (c : Char) (s : List Char) (hc : c ≠ '<') : osBlockRe.len (c :: s) = 0 :=
  osBlockRe_len_of_not (not_prefix_of_head hc)

theorem osBlockRe_silent (h : i.tag.chars ≠ "os".toList) : osBlockRe.Silent i.text :=
  silent_of_bracket osBlockRe_head
    fun _ => osBlockRe_len_of_not (not_prefix_of_tag (by decide) h)

theorem endOs_head (c : Char) (s : List Char) (hc : c ≠ '<') : endOs.len (c :: s) = 0 :=
  Matcher.literal_len_of_not (not_prefix_of_head hc)

theorem endOs_silent (h : i.tag.chars ≠ "/os".toList) : endOs.Silent i.text :=
  silent_of_bracket endOs_head
    fun _ => Matcher.literal_len_of_not (not_prefix_of_tag (by decide) h)

theorem endOs_silent_plain (t : Plain) : endOs.Silent t.chars :=
  .of_head endOs_head fun _ hc => ne_of_mem_of_not_mem hc t.lt_notMem

theorem osBlockRe_silent_plain (t : Plain) : osBlockRe.Silent t.chars :=
  .of_head osBlockRe_head fun _ hc => ne_of_mem_of_not_mem hc t.lt_notMem

theorem osBlockRe_silent_tail : osBlockRe.Silent "os>".toList :=
  .of_head osBlockRe_head fun _ hc => ne_of_mem_of_not_mem hc (by decide)

theorem silent_textOf {p : Matcher Char} (h : ∀ i ∈ is, p.Silent i.text) :
    p.Silent (textOf is) := by
  induction is with
  | nil => exact .nil
  | cons i is ih =>
    rw [textOf_cons]
    exact (h i List.mem_cons_self).append (ih fun j hj => h j (List.mem_cons_of_mem _ hj))

theorem endOs_silent_textOf (h : ∀ i ∈ is, i.tag.chars ≠ "/os".toList) :
    endOs.Silent (textOf is) := silent_textOf fun i hi => endOs_silent (h i hi)

theorem endTag_ne_os (n : Name) : (endTag n).chars ≠ "os".toList := fun h => by cases h

theorem endOs_silent_keep (h : ∀ i ∈ is, i.tag.chars ≠ "/os".toList) :
    endOs.Silent (is.flatMap keep) := by
  induction is with
  | nil => exact .nil
  | cons i is ih =>
    rw [List.flatMap_cons]
    refine .append ?_ (ih fun j hj => h j (List.mem_cons_of_mem _ hj))
    rw [keep]
    split
    · refine .of_head endOs_head fun c hc => ne_of_mem_of_not_mem ?_ i.gap.lt_notMem
      exact (List.rdropWhile_prefix regexpSpace i.gap.chars).subset hc
    · exact endOs_silent (h i List.mem_cons_self)

/-- The end of a block. -/
def endText (t : Plain) : List Char := Item.text ⟨t, endTag osName⟩

theorem startText_eq (g : Plain) :
    Item.text ⟨g, startTag osName .nil⟩ = g.chars ++ "<os>".toList := rfl

theorem endText_eq (t : Plain) : endText t = t.chars ++ "</os>".toList := rfl

/-- A block ends at its first end tag. -/
theorem osBlockRe_len_block (hs : endOs.Silent s) (t : Plain) (z : List Char) :
    osBlockRe.len ("<os>".toList ++ (s ++ endText t) ++ z) =
      ("<os>".toList ++ (s ++ endText t)).length := by
  have hshape : "<os>".toList ++ (s ++ endText t) ++ z =
      "<os>".toList ++ (s ++ t.chars ++ ("</os>".toList ++ z)) := by
    simp only [endText_eq, List.append_assoc]
  have hlen : endOs.len ("</os>".toList ++ z) = 5 := Matcher.literal_len _ _
  have hfound : endOs.upTo (s ++ t.chars ++ ("</os>".toList ++ z)) = (s ++ t.chars).length + 5 := by
    rw [(hs.append (endOs_silent_plain t)).upTo_append (by rw [hlen]; decide), hlen]
  have hblock : ∀ x, osBlockRe.len x = osBlockLen x := fun _ => rfl
  rw [hshape, hblock, osBlockLen, if_pos (List.prefix_append _ _)]
  have hdrop : ("<os>".toList ++ (s ++ t.chars ++ ("</os>".toList ++ z))).drop 4 =
      s ++ t.chars ++ ("</os>".toList ++ z) := rfl
  dsimp only
  rw [hdrop, hfound, if_neg (Nat.succ_ne_zero _), endText_eq, List.length_append,
    List.length_append, List.length_append, List.length_append]
  change _ = 4 + (s.length + (t.chars.length + 5))
  omega

theorem eraseAll_os (x : List Char) :
    osBootElRe.eraseAll ("<os>".toList ++ x) = "<os>".toList ++ osBootElRe.eraseAll x :=
  (silent_item (i := ⟨.nil, startTag osName .nil⟩) rfl).replaceAll_append _ x

theorem rewriteBlock_os (b : Bool) (x : List Char) : rewriteBlock b ("<os>".toList ++ x) =
    "<os>".toList ++ (bootXML b ++ osBootElRe.eraseAll x) := by
  rw [rewriteBlock, eraseAll_os, Matcher.replaceFirst_match _ (by decide)
    (Matcher.literal_len _ _), List.append_assoc]

/-- The block of some tags. -/
def blockOf (is : List Item) (t : Plain) : List Char :=
  "<os>".toList ++ (textOf is ++ endText t)

theorem rewriteBlock_blockOf (b : Bool) (is : List Item) (t : Plain) :
    rewriteBlock b (blockOf is t) =
      "<os>".toList ++ (bootXML b ++ is.flatMap keep ++ endText t) := by
  have hend : osBootElRe.eraseAll (endText t) = endText t := by
    have hsilent := silent_item (i := ⟨t, endTag osName⟩) rfl
    exact osBootElRe.eraseAll_eq_self.mpr hsilent.findAll
  rw [blockOf, rewriteBlock_os, eraseAll_textOf, hend, List.append_assoc]

/-- **Blocks that stay**: the boot elements come first, and `osBootElRe` matches nothing else. -/
def Settled (cdromFirst : Bool) (block : List Char) : Prop :=
  ∃ rest, block = "<os>".toList ++ (bootXML cdromFirst ++ rest) ∧ osBootElRe.findAll rest = []

def bootName : Name := ⟨"boot".toList, rfl⟩

theorem isAttrs_cdrom : isAttrs " dev='cdrom'".toList = true := rfl

theorem isAttrs_hd : isAttrs " dev='hd'".toList = true := rfl

/-- The attributes of the boot elements that are put in. -/
def bootAttrs (cdromFirst : Bool) : List Attrs :=
  if cdromFirst then [⟨" dev='cdrom'".toList, isAttrs_cdrom⟩, ⟨" dev='hd'".toList, isAttrs_hd⟩]
  else [⟨" dev='hd'".toList, isAttrs_hd⟩]

/-- The boot elements that are put in. -/
def bootElems (cdromFirst : Bool) : List Elem :=
  (bootAttrs cdromFirst).map fun a => .empty .nil bootName a

theorem bootXML_eq (b : Bool) : bootXML b = textOf ((bootElems b).flatMap Elem.items) := by
  cases b <;> rfl

theorem keep_boot (a : Attrs) : keep ⟨.nil, emptyTag bootName a⟩ = [] := by
  have hlike : bootLike (emptyTag bootName a).chars = true := by
    refine bootLike_iff.mpr ⟨a.chars ++ ['/'], rfl, ?_⟩
    rw [List.getLast?_append, List.getLast?_singleton]
    rfl
  rw [keep, if_pos hlike]
  rfl

theorem eraseAll_bootXML (b : Bool) (x : List Char) :
    osBootElRe.eraseAll (bootXML b ++ x) = osBootElRe.eraseAll x := by
  rw [bootXML_eq, eraseAll_textOf, bootElems, List.flatMap_map, List.flatMap_assoc]
  have hnil : ((bootAttrs b).flatMap fun a =>
      (Elem.empty .nil bootName a).items.flatMap keep) = [] := by
    refine List.flatMap_eq_nil_iff.mpr fun a _ => ?_
    rw [Elem.items_empty, List.flatMap_singleton, keep_boot]
  rw [hnil, List.nil_append]

theorem rewriteBlock_eq_self {b : Bool} {x : List Char} :
    rewriteBlock b ("<os>".toList ++ x) = "<os>".toList ++ x ↔
      Settled b ("<os>".toList ++ x) := by
  rw [rewriteBlock_os, List.append_cancel_left_eq]
  constructor
  · intro h
    refine ⟨osBootElRe.eraseAll x, by rw [h], osBootElRe.eraseAll_eq_self.mp ?_⟩
    have herase := congrArg osBootElRe.eraseAll h
    rwa [eraseAll_bootXML] at herase
  · rintro ⟨rest, hx, hrest⟩
    rw [List.append_cancel_left hx, eraseAll_bootXML, osBootElRe.eraseAll_eq_self.mpr hrest]

end Blocks

/-! ## Printed elements -/

section Elements

theorem osBlockRe_closed_os {x : List Char} (hx : osBlockRe.Closed x)
    (hfound : endOs.upTo x ≠ 0) : osBlockRe.Closed ("<os>".toList ++ x) := by
  refine .cons (fun z => ?_) (osBlockRe_silent_tail.closed.append hx)
  have hblock : ∀ y, osBlockRe.len ("<os>".toList ++ y) = osBlockLen ("<os>".toList ++ y) :=
    fun _ => rfl
  have hlen : ∀ y, osBlockLen ("<os>".toList ++ y) =
      if endOs.upTo y = 0 then 0 else endOs.upTo y + 4 :=
    fun y => if_pos (List.prefix_append _ _)
  change osBlockRe.len ("<os>".toList ++ x ++ z) = osBlockRe.len ("<os>".toList ++ x)
  rw [List.append_assoc, hblock, hblock, hlen, hlen, Matcher.literal_upTo_append hfound]

theorem osBlockRe_closed (e : Elem) : osBlockRe.Closed (textOf e.items) := by
  induction e with
  | empty g n a =>
    rw [Elem.items_empty, textOf_cons, textOf_nil, List.append_nil]
    refine (osBlockRe_silent ?_).closed
    intro h
    have hlast := emptyTag_getLast n a
    rw [h] at hlast
    cases hlast
  | full g n a cs t ih =>
    have hcs : osBlockRe.Closed (textOf (cs.flatMap Elem.items)) := by
      induction cs with
      | nil => exact .nil
      | cons c cs ihcs =>
        rw [List.flatMap_cons, textOf_append]
        exact (ih c List.mem_cons_self).append
          (ihcs fun d hd => ih d (List.mem_cons_of_mem _ hd))
    have hend : osBlockRe.Closed (Item.text ⟨t, endTag n⟩) :=
      (osBlockRe_silent (endTag_ne_os n)).closed
    rw [Elem.items_full, textOf_cons, textOf_append, textOf_cons, textOf_nil, List.append_nil]
    by_cases htag : (startTag n a).chars = "os".toList
    · obtain ⟨rfl, rfl⟩ := startTag_inj (n := osName) (b := .nil) htag
      have hfound : endOs.upTo (textOf (cs.flatMap Elem.items) ++ endText t) ≠ 0 := by
        rw [endText_eq, ← List.append_assoc]
        exact Matcher.upTo_ne_zero _ (by decide)
      rw [startText_eq, List.append_assoc]
      exact (osBlockRe_silent_plain g).closed.append
        (osBlockRe_closed_os (hcs.append hend) hfound)
    · exact (osBlockRe_silent htag).closed.append (hcs.append hend)

theorem osBlockRe_closed_all (es : List Elem) :
    osBlockRe.Closed (textOf (es.flatMap Elem.items)) := by
  induction es with
  | nil => exact .nil
  | cons e es ih =>
    rw [List.flatMap_cons, textOf_append]
    exact (osBlockRe_closed e).append ih

theorem os_cons (x : List Char) : "<os>".toList ++ x = '<' :: ("os>".toList ++ x) := rfl

/-- An element without an os element in it. -/
theorem tag_ne_of_names {e : Elem} (h : osName ∉ e.names) {i : Item} (hi : i ∈ e.items) :
    i.tag.chars ≠ "os".toList ∧ i.tag.chars ≠ "/os".toList := by
  have hslash : ∀ n : Name, ∀ s, n.chars ++ s ≠ "/os".toList :=
    fun n s heq => head_ne_slash n s (heq ▸ rfl)
  rcases Elem.tag_of_mem hi with ⟨n, hn, ⟨a, htag⟩ | htag⟩ | ⟨n, -, a, htag⟩
  · rw [htag]
    refine ⟨fun heq => h ?_, hslash n _⟩
    rwa [← (startTag_inj (n := osName) (b := .nil) heq).1]
  · rw [htag]
    refine ⟨endTag_ne_os n, fun heq => h ?_⟩
    have hchars : (endTag n).chars = '/' :: n.chars := rfl
    have hslash : "/os".toList = '/' :: "os".toList := rfl
    rw [hchars, hslash] at heq
    rwa [← Name.ext (n := osName) (List.cons.inj heq).2]
  · rw [htag]
    refine ⟨fun heq => ?_, hslash n _⟩
    have hlast := emptyTag_getLast n a
    rw [heq] at hlast
    cases hlast

theorem endOs_silent_bootXML (b : Bool) : endOs.Silent (bootXML b) := by
  rw [bootXML_eq]
  refine endOs_silent_textOf fun j hj => ?_
  obtain ⟨e, he, hj⟩ := List.mem_flatMap.mp hj
  obtain ⟨a, -, rfl⟩ := List.mem_map.mp he
  exact (tag_ne_of_names (by simp) hj).2

/-- A text that is printed: tags, and some text behind them. -/
def Printed (s : List Char) : Prop := ∃ is, ∃ g : Plain, s = textOf is ++ g.chars

/-- **Shape of a block**: tags up to the first end tag. -/
theorem block_of_mem {s m : List Char} (hs : Printed s) (h : m ∈ osBlockRe.findAll s) :
    ∃ js t, m = blockOf js t ∧ ∀ j ∈ js, j.tag.chars ≠ "/os".toList := by
  obtain ⟨is, g, rfl⟩ := hs
  induction hn : is.length using Nat.strongRecOn generalizing is with
  | ind n ih =>
    subst hn
    cases is with
    | nil =>
      rw [textOf_nil, List.nil_append, (osBlockRe_silent_plain g).findAll] at h
      cases h
    | cons i is =>
      rw [textOf_cons, List.append_assoc] at h
      by_cases htag : i.tag.chars = "os".toList
      · have hi : i.text = i.gap.chars ++ "<os>".toList := by rw [Item.text, htag]; rfl
        rw [hi, List.append_assoc, (osBlockRe_silent_plain i.gap).findAll_append] at h
        cases hfind : is.find? fun j => j.tag.chars = "/os".toList with
        | none =>
          -- no end tag, no block
          have hend : ∀ j ∈ is, j.tag.chars ≠ "/os".toList := by simpa using hfind
          have hsilent := (endOs_silent_textOf hend).append (endOs_silent_plain g)
          have hzero : osBlockRe.len ("<os>".toList ++ (textOf is ++ g.chars)) = 0 := by
            change osBlockLen ("<os>".toList ++ (textOf is ++ g.chars)) = 0
            rw [osBlockLen, if_pos (List.prefix_append _ _)]
            exact if_pos hsilent.upTo
          rw [os_cons] at hzero h
          rw [Matcher.findAll_cons hzero, osBlockRe_silent_tail.findAll_append] at h
          exact ih _ (Nat.lt_succ_self _) _ h rfl
        | some e =>
          obtain ⟨he, js, rest, rfl, hjs⟩ := List.find?_eq_some_iff_append.mp hfind
          have hjs : ∀ j ∈ js, j.tag.chars ≠ "/os".toList := by simpa using hjs
          have he : e.text = endText e.gap := by rw [Item.text, of_decide_eq_true he]; rfl
          have hshape : "<os>".toList ++ (textOf (js ++ e :: rest) ++ g.chars) =
              blockOf js e.gap ++ (textOf rest ++ g.chars) := by
            rw [textOf_append, textOf_cons, he, blockOf]
            simp only [List.append_assoc]
          have hlen : osBlockRe.len (blockOf js e.gap ++ (textOf rest ++ g.chars)) =
              (blockOf js e.gap).length :=
            osBlockRe_len_block (endOs_silent_textOf hjs) e.gap _
          have hne : blockOf js e.gap ≠ [] := List.append_ne_nil_of_left_ne_nil (by decide) _
          rw [hshape, Matcher.findAll_match hne hlen] at h
          rcases List.mem_cons.mp h with rfl | h
          · exact ⟨js, e.gap, rfl, hjs⟩
          · refine ih rest.length ?_ rest h rfl
            rw [List.length_cons, List.length_append, List.length_cons]
            omega
      · rw [(osBlockRe_silent htag).findAll_append] at h
        exact ih _ (Nat.lt_succ_self _) _ h rfl

section Printed

variable {s m : List Char} (b : Bool) (hs : Printed s)
include hs

/-- What replaces a block is a block again. -/
theorem osBlockRe_len_rewriteBlock (h : m ∈ osBlockRe.findAll s) (z : List Char) :
    osBlockRe.len (rewriteBlock b m ++ z) = (rewriteBlock b m).length := by
  obtain ⟨js, t, rfl, hjs⟩ := block_of_mem hs h
  rw [rewriteBlock_blockOf]
  exact osBlockRe_len_block ((endOs_silent_bootXML b).append (endOs_silent_keep hjs)) t z

theorem rewriteBlock_eq_self_iff (h : m ∈ osBlockRe.findAll s) :
    rewriteBlock b m = m ↔ Settled b m := by
  obtain ⟨js, t, rfl, -⟩ := block_of_mem hs h
  exact rewriteBlock_eq_self

/-- **Blocks that are changed** cannot make up for each other. -/
theorem settled_of_prefix (hclosed : osBlockRe.Closed s) {y z : List Char}
    (h : osBlockRe.replaceAll (rewriteBlock b) s ++ y = s ++ z) :
    ∀ m ∈ osBlockRe.findAll s, Settled b m := by
  intro m hm
  refine (rewriteBlock_eq_self_iff b hs hm).mp ?_
  exact Matcher.stable_of_prefix _ hclosed (fun n hn => osBlockRe_len_rewriteBlock b hs hn) h m hm

theorem replaceAll_of_settled (h : ∀ m ∈ osBlockRe.findAll s, Settled b m) :
    osBlockRe.replaceAll (rewriteBlock b) s = s :=
  osBlockRe.replaceAll_eq_self _ fun m hm => (rewriteBlock_eq_self_iff b hs hm).mpr (h m hm)

end Printed

end Elements

end Ultrav
