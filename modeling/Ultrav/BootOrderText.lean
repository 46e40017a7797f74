import Mathlib.Data.List.Infix
import Mathlib.Data.List.DropRight
import Ultrav.Markup
import Ultrav.Matcher

/-!
# Rewriting the boot order

`setOSBootOrder` rewrites the definition of a domain as a text, with two regular expressions.

* `osBlockRe` / `osBootElRe` — the regular expressions.
* `rewriteBlock` — what a block becomes.
* `setOSBootOrderXML` — the definition that is sent to libvirt.
* `inv_osBootElRe` / `osBootElRe_len` — what `osBootElRe` matches.
* `eraseAll_textOf` — what is left of printed elements without those that it matches.
-/

namespace Ultrav

open Markup

/-! ## The rewrite -/

/-- `\s` of a regular expression. -/
def regexpSpace (c : Char) : Bool := blank c || c = '\x0c'

def osBlockLen (s : List Char) : ℕ :=
  if "<os>".toList <+: s then
    let n := (Matcher.literal "</os>".toList).upTo (s.drop 4)
    if n = 0 then 0 else n + 4
  else 0

/-- The text behind `<boot`, up to a closing bracket. -/
def bootTag (s : List Char) : List Char := s.takeWhile fun c => c != '>'

def osBootElLen (s : List Char) : ℕ :=
  let gap := s.takeWhile regexpSpace
  let rest := s.dropWhile regexpSpace
  if "<boot".toList <+: rest then
    let tag := bootTag (rest.drop 5)
    if tag.getLast? = some '/' && tag.length < (rest.drop 5).length then
      gap.length + (tag.length + 6)
    else 0
  else 0

theorem osBlockLen_le (s : List Char) : osBlockLen s ≤ s.length := by
  rw [osBlockLen]
  split
  · rename_i hpre
    have hlen := hpre.length_le
    have hle := Matcher.upTo_le (p := .literal "</os>".toList) (s.drop 4)
    rw [List.length_drop] at hle
    change 4 ≤ s.length at hlen
    dsimp only
    split <;> omega
  · exact Nat.zero_le _

theorem osBootElLen_le (s : List Char) : osBootElLen s ≤ s.length := by
  rw [osBootElLen]
  dsimp only
  split
  · rename_i hpre
    split
    · rename_i htag
      rw [Bool.and_eq_true, decide_eq_true_eq, decide_eq_true_eq, List.length_drop] at htag
      have hsplit := congrArg List.length (List.takeWhile_append_dropWhile (p := regexpSpace)
        (l := s))
      rw [List.length_append] at hsplit
      omega
    · exact Nat.zero_le _
  · exact Nat.zero_le _

/-- `osBlockRe`: `(?s)<os>.*?</os>` -/
def osBlockRe : Matcher Char := ⟨osBlockLen, osBlockLen_le⟩

/-- `osBootElRe`: `\s*<boot[^>]*/>` -/
def osBootElRe : Matcher Char := ⟨osBootElLen, osBootElLen_le⟩

/-- The boot elements that are put in. -/
def bootXML (cdromFirst : Bool) : List Char :=
  if cdromFirst then "<boot dev='cdrom'/><boot dev='hd'/>".toList else "<boot dev='hd'/>".toList

/-- What a block is replaced by. -/
def rewriteBlock (cdromFirst : Bool) (block : List Char) : List Char :=
  (Matcher.literal "<os>".toList).replaceFirst ("<os>".toList ++ bootXML cdromFirst)
    (osBootElRe.eraseAll block)

/-- The definition after `setOSBootOrder`. -/
def setOSBootOrderXML (cdromFirst : Bool) (xml : List Char) : List Char :=
  if "<boot dev=".toList <:+: xml then osBlockRe.replaceAll (rewriteBlock cdromFirst) xml else xml

/-! ## Boot elements -/

section BootElements

variable {s t w b z : List Char} {c : Char}

theorem plain_of_regexpSpace (h : regexpSpace c = true) : plain c = true := by
  simp only [regexpSpace, blank, Bool.or_eq_true, decide_eq_true_eq] at h
  rcases h with (((rfl | rfl) | rfl) | rfl) | rfl <;> rfl

/-- A text without angle brackets ends at the first one. -/
theorem plain_inj {c d : Char} (hs : s.all plain = true) (ht : t.all plain = true)
    (hc : plain c = false) (hd : plain d = false) {y z : List Char}
    (h : s ++ c :: y = t ++ d :: z) : s = t ∧ c = d ∧ y = z := by
  have htake : ∀ {s : List Char} {c : Char} {y : List Char}, s.all plain = true →
      plain c = false → (s ++ c :: y).takeWhile plain = s := by
    intro s c y hs hc
    rw [List.takeWhile_append_of_pos (List.all_eq_true.mp hs), List.takeWhile_cons_of_neg
      (by simp [hc]), List.append_nil]
  have hst : s = t := by rw [← htake hs hc, h, htake ht hd]
  subst hst
  exact ⟨rfl, List.cons.inj (List.append_cancel_left h)⟩

theorem drop_boot (s : List Char) : ("<boot".toList ++ s).drop 5 = s := rfl

/-- **Inversion** of a match. -/
theorem inv_osBootElRe (h : osBootElRe.len s ≠ 0) :
    ∃ w b z, s = w ++ '<' :: ("boot".toList ++ b ++ '>' :: z) ∧ w.all regexpSpace = true ∧
      '>' ∉ b ∧ b.getLast? = some '/' := by
  change osBootElLen s ≠ 0 at h
  rw [osBootElLen] at h
  dsimp only at h
  split at h
  · rename_i hpre
    obtain ⟨r, hr⟩ := hpre
    split at h
    · rename_i htag
      rw [Bool.and_eq_true, decide_eq_true_eq, decide_eq_true_eq] at htag
      rw [← hr, drop_boot] at htag
      obtain ⟨hlast, hlt⟩ := htag
      have hsplit : bootTag r ++ r.dropWhile (fun c => c != '>') = r :=
        List.takeWhile_append_dropWhile
      cases hrest : r.dropWhile (fun c => c != '>') with
      | nil =>
        rw [hrest, List.append_nil] at hsplit
        exact absurd (congrArg List.length hsplit) (Nat.ne_of_lt hlt)
      | cons d z =>
        have hd : d = '>' := by
          have hhead := List.head_dropWhile_not (l := r) (fun c => c != '>')
            (hrest ▸ List.cons_ne_nil d z)
          simpa [hrest] using hhead
        subst hd
        rw [hrest] at hsplit
        refine ⟨s.takeWhile regexpSpace, bootTag r, z, ?_, ?_, ?_, hlast⟩
        · rw [List.append_assoc, hsplit]
          exact (List.takeWhile_append_dropWhile (p := regexpSpace)).symm.trans
            (congrArg (List.takeWhile regexpSpace s ++ ·) hr.symm)
        · exact List.all_takeWhile
        · exact fun hmem => by simpa using List.mem_takeWhile_imp hmem
    · exact absurd rfl h
  · exact absurd rfl h

/-- Such a text matches. -/
theorem osBootElRe_len (hw : w.all regexpSpace = true) (hb : '>' ∉ b)
    (hlast : b.getLast? = some '/') :
    osBootElRe.len (w ++ '<' :: ("boot".toList ++ b ++ '>' :: z)) = w.length + (b.length + 6) := by
  have hspace := List.all_eq_true.mp hw
  have htake : (w ++ '<' :: ("boot".toList ++ b ++ '>' :: z)).takeWhile regexpSpace = w := by
    rw [List.takeWhile_append_of_pos hspace, List.takeWhile_cons_of_neg (by decide),
      List.append_nil]
  have hdrop : (w ++ '<' :: ("boot".toList ++ b ++ '>' :: z)).dropWhile regexpSpace =
      "<boot".toList ++ (b ++ '>' :: z) := by
    rw [List.dropWhile_append_of_pos hspace, List.dropWhile_cons_of_neg (by decide),
      List.append_assoc]
    rfl
  have htag : bootTag (b ++ '>' :: z) = b := by
    have hne : ∀ c ∈ b, (c != '>') = true := fun c hc =>
      bne_iff_ne.mpr (ne_of_mem_of_not_mem hc hb)
    rw [bootTag, List.takeWhile_append_of_pos hne,
      List.takeWhile_cons_of_neg (by decide), List.append_nil]
  change osBootElLen _ = _
  rw [osBootElLen]
  dsimp only
  rw [htake, hdrop, drop_boot, htag, if_pos (List.prefix_append _ _), if_pos]
  rw [Bool.and_eq_true, decide_eq_true_eq, decide_eq_true_eq, List.length_append,
    List.length_cons]
  exact ⟨hlast, by omega⟩

end BootElements

/-! ## Tags among printed elements -/

/-- The tags that `osBootElRe` matches. -/
def bootLike (tag : List Char) : Bool :=
  "boot".toList.isPrefixOf tag && (tag.drop 4).getLast? = some '/'

/-- What `osBootElRe` leaves of a tag and the text before it. -/
def keep (i : Item) : List Char :=
  if bootLike i.tag.chars then i.gap.chars.rdropWhile regexpSpace else i.text

theorem bootLike_iff {tag : List Char} :
    bootLike tag = true ↔ ∃ b, tag = "boot".toList ++ b ∧ b.getLast? = some '/' := by
  rw [bootLike, Bool.and_eq_true, List.isPrefixOf_iff_prefix, decide_eq_true_eq]
  constructor
  · rintro ⟨⟨b, rfl⟩, hlast⟩
    exact ⟨b, rfl, hlast⟩
  · rintro ⟨b, rfl, hlast⟩
    exact ⟨List.prefix_append _ _, hlast⟩

section Keep

variable {i : Item} {is : List Item}

theorem Markup.Plain.suffix_plain (s : Plain) {t : List Char} (ht : t <:+ s.chars) :
    t.all plain = true :=
  List.all_eq_true.mpr fun c hc => List.all_eq_true.mp s.ok c (ht.subset hc)

/-- No match begins within a tag. -/
theorem silent_inside (s : Plain) : osBootElRe.Silent (s.chars ++ ['>']) := by
  refine .append_of (fun u hu hne z => ?_) (.cons (fun z => ?_) .nil)
  · by_contra h
    obtain ⟨w, b, y, heq, hw, -⟩ := inv_osBootElRe h
    have hplain : w.all plain = true :=
      List.all_eq_true.mpr fun c hc => plain_of_regexpSpace (List.all_eq_true.mp hw c hc)
    obtain ⟨-, hbracket, -⟩ := plain_inj (s.suffix_plain hu) hplain (by rfl) (by rfl) heq
    exact absurd hbracket (by decide)
  · by_contra h
    obtain ⟨w, b, y, heq, hw, -⟩ := inv_osBootElRe h
    have hplain : w.all plain = true :=
      List.all_eq_true.mpr fun c hc => plain_of_regexpSpace (List.all_eq_true.mp hw c hc)
    obtain ⟨-, hbracket, -⟩ := plain_inj (s := []) rfl hplain (by rfl) (by rfl) heq
    exact absurd hbracket (by decide)

/-- … nor at another tag. -/
theorem silent_item (h : bootLike i.tag.chars = false) : osBootElRe.Silent i.text := by
  have hlen : ∀ u, u <:+ i.gap.chars → ∀ z,
      osBootElRe.len (u ++ '<' :: (i.tag.chars ++ '>' :: z)) = 0 := by
    intro u hu z
    by_contra hne
    obtain ⟨w, b, y, heq, hw, hb, hlast⟩ := inv_osBootElRe hne
    have hplain : w.all plain = true :=
      List.all_eq_true.mpr fun c hc => plain_of_regexpSpace (List.all_eq_true.mp hw c hc)
    obtain ⟨-, -, htag⟩ := plain_inj (i.gap.suffix_plain hu) hplain (by rfl) (by rfl) heq
    have hboot : '>' ∉ "boot".toList ++ b := by
      rw [List.mem_append, not_or]
      exact ⟨by decide, hb⟩
    obtain ⟨htag, -⟩ := (split_inj i.tag.gt_notMem hboot).mp htag
    rw [bootLike_iff.mpr ⟨b, htag, hlast⟩] at h
    exact Bool.noConfusion h
  refine .append_of (fun u hu _ z => ?_) (.cons (fun z => ?_) (silent_inside i.tag))
  · have hz := hlen u hu z
    simpa using hz
  · have hz := hlen [] List.nil_suffix z
    simpa using hz

/-- The text before a match, without the white space at its end. -/
theorem silent_rdropWhile (s : Plain) : osBootElRe.Silent (s.chars.rdropWhile regexpSpace) := by
  intro t ht hne z
  by_contra h
  obtain ⟨w, b, y, heq, hw, -⟩ := inv_osBootElRe h
  have hsub : t <:+: s.chars :=
    ht.isInfix.trans (List.rdropWhile_prefix regexpSpace s.chars).isInfix
  have hlt : '<' ∉ t := fun hmem => s.lt_notMem (hsub.subset hmem)
  -- the match begins in white space, which goes on to the end of `t`
  have hpre : t <+: w := by
    rcases List.append_eq_append_iff.mp heq with ⟨u, rfl, -⟩ | ⟨u, rfl, hu⟩
    · exact List.prefix_append _ _
    · cases u with
      | nil => exact ⟨[], by simp⟩
      | cons c u =>
        obtain ⟨rfl, -⟩ := List.cons.inj hu
        exact absurd (List.mem_append_right _ List.mem_cons_self) hlt
  have hlast := List.rdropWhile_last_not regexpSpace s.chars (fun hnil => by
    rw [hnil] at ht
    exact hne (List.suffix_nil.mp ht))
  rw [← ht.getLast hne] at hlast
  exact hlast (List.all_eq_true.mp hw _ (hpre.subset (List.getLast_mem hne)))

/-- A match, with the white space in front. -/
theorem osBootElRe_match {w b : List Char} (hw : w.all regexpSpace = true) (hb : '>' ∉ b)
    (hlast : b.getLast? = some '/') (z : List Char) :
    osBootElRe.eraseAll (w ++ '<' :: ("boot".toList ++ b ++ ['>']) ++ z) =
      osBootElRe.eraseAll z := by
  refine Matcher.replaceAll_match _ (by simp) ?_
  have hlen := osBootElRe_len (z := z) hw hb hlast
  have hshape : w ++ '<' :: ("boot".toList ++ b ++ ['>']) ++ z =
      w ++ '<' :: ("boot".toList ++ b ++ '>' :: z) := by simp
  rw [hshape, hlen]
  simp only [List.length_append, List.length_cons, List.length_nil]
  change _ = w.length + (4 + b.length + 1 + 1)
  omega

theorem exists_rdropWhile (s : List Char) :
    ∃ w, s = s.rdropWhile regexpSpace ++ w ∧ w.all regexpSpace = true := by
  refine ⟨(s.reverse.takeWhile regexpSpace).reverse, ?_, ?_⟩
  · rw [List.rdropWhile, ← List.reverse_append, List.takeWhile_append_dropWhile,
      List.reverse_reverse]
  · rw [List.all_reverse]
    exact List.all_takeWhile

/-- **What is left**: the tags that do not match, with the text before them. -/
theorem eraseAll_textOf (is : List Item) (z : List Char) :
    osBootElRe.eraseAll (textOf is ++ z) = is.flatMap keep ++ osBootElRe.eraseAll z := by
  induction is with
  | nil => rfl
  | cons i is ih =>
    rw [textOf_cons, List.append_assoc, List.flatMap_cons, List.append_assoc, ← ih, keep]
    by_cases htag : bootLike i.tag.chars = true
    · rw [if_pos htag]
      obtain ⟨b, hb, hlast⟩ := bootLike_iff.mp htag
      have hgt : '>' ∉ b := fun hmem => i.tag.gt_notMem (hb ▸ List.mem_append_right _ hmem)
      obtain ⟨w, hgap, hspace⟩ := exists_rdropWhile i.gap.chars
      have htext : i.text ++ (textOf is ++ z) = i.gap.chars.rdropWhile regexpSpace ++
          (w ++ '<' :: ("boot".toList ++ b ++ ['>']) ++ (textOf is ++ z)) := by
        conv_lhs => rw [Item.text, hb, hgap]
        simp only [List.append_assoc, List.cons_append]
      rw [htext, ← osBootElRe_match hspace hgt hlast (textOf is ++ z)]
      exact (silent_rdropWhile i.gap).replaceAll_append _ _
    · rw [if_neg htag]
      exact (silent_item (Bool.eq_false_iff.mpr htag)).replaceAll_append _ _

end Keep

end Ultrav
