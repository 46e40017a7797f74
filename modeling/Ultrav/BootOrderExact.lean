import Mathlib.Data.List.Perm.Basic
import Ultrav.BootOrderBlocks
import Ultrav.MachineConfig

/-!
# The boot order of a definition

Documents as libvirt prints them: one os element in the domain, its boot devices as
`<boot dev='hd'/>`, with white space between its children.

* `OsDocument` — such a document.
* `OsDocument.Exact` — the rewrite changes the boot devices, nothing else, and only once.
* `OsDocument.Rewritable` — the documents for which it does.
* `setOSBootOrderXML_text` — what becomes of a document.
* `devices_eq_rewrittenBoot` — the configuration of a machine has the same boot devices.
* `bootOrder_exact_iff` — the documents for which the rewrite is exact.
-/

namespace Ultrav

open Markup

/-! ## Documents -/

def domainName : Name := ⟨"domain".toList, rfl⟩

/-- `<boot dev='…'/>` -/
def IsBootDev (e : Elem) : Prop :=
  ∃ g a dev, e = .empty g bootName a ∧ a.chars = " dev='".toList ++ dev ++ "'".toList

/-- The definition of a domain. -/
structure OsDocument where
  /-- the attributes of the domain -/
  root : Attrs
  before : List Elem
  /-- the text before the os element -/
  gap : Plain
  attrs : Attrs
  /-- the children of the os element -/
  children : List Elem
  /-- the text before its end tag -/
  tail : Plain
  after : List Elem
  /-- the text before the end tag of the domain -/
  close : Plain
  /-- the text behind it -/
  rest : Plain
  gaps_blank : ∀ c ∈ children, c.gap.chars.all blank = true
  boot_form : ∀ c ∈ children, c.name = bootName → IsBootDev c
  no_os : ∀ c ∈ children, osName ∉ c.names

namespace OsDocument

variable (d : OsDocument)

/-- The os element. -/
def osElem : Elem := .full d.gap osName d.attrs d.children d.tail

/-- The document up to the os element. -/
def head : List Char :=
  textOf (⟨.nil, startTag domainName d.root⟩ :: d.before.flatMap Elem.items)

/-- The document behind the os element. -/
def foot : List Char :=
  textOf (d.after.flatMap Elem.items ++ [⟨d.close, endTag domainName⟩]) ++ d.rest.chars

def text : List Char := d.head ++ (d.osElem.text ++ d.foot)

def boots : List Elem := d.children.filter fun c => c.name = bootName

def others : List Elem := d.children.filter fun c => c.name ≠ bootName

/-- The device of a boot element. -/
def devOf (e : Elem) : String := .ofList (e.attrs.chars.drop 6).dropLast

/-- The boot devices. -/
def devices : List String := d.boots.map devOf

end OsDocument

/-- The boot devices that are asked for. -/
def wantedDevices (cdromFirst : Bool) : List String :=
  if cdromFirst then ["cdrom", "hd"] else ["hd"]

namespace OsDocument

/-- **Exactness**: the os element has the boot devices that are asked for, everything else is as
it was, and once more changes nothing. -/
structure Exact (d : OsDocument) (cdromFirst : Bool) (d' : OsDocument) : Prop where
  text : d'.text = setOSBootOrderXML cdromFirst d.text
  devices : d'.devices = wantedDevices cdromFirst
  others : d'.others = d.others
  attrs : d'.attrs = d.attrs
  head : d'.head = d.head
  gap : d'.gap = d.gap
  foot : d'.foot = d.foot
  again : setOSBootOrderXML cdromFirst d'.text = d'.text

/-- **The documents that are rewritten as they should be**: an os element without attributes
holds no other empty element whose name starts with `boot`, one with attributes boots from what
is asked for already, and blocks elsewhere stay as they are. -/
structure Rewritable (d : OsDocument) (cdromFirst : Bool) : Prop where
  bare : d.attrs.chars = [] →
    ∀ e ∈ d.others, ∀ n ∈ e.emptyNames, ¬ "boot".toList <+: n.chars
  attributed : d.attrs.chars ≠ [] → d.devices = wantedDevices cdromFirst
  elsewhere : ∀ m ∈ osBlockRe.findAll d.head ++ osBlockRe.findAll d.foot, Settled cdromFirst m

end OsDocument

/-! ## Empty elements whose names start with `boot` -/

section Empty

variable {n : Name} {a : Attrs} {e : Elem}

theorem getLast_of_bootLike {tag : List Char} (h : bootLike tag = true) :
    tag.getLast? = some '/' := by
  obtain ⟨b, rfl, hlast⟩ := bootLike_iff.mp h
  rw [List.getLast?_append, hlast]
  rfl

theorem bootLike_startTag : bootLike (startTag n a).chars = false :=
  Bool.eq_false_iff.mpr fun h => startTag_getLast n a (getLast_of_bootLike h)

theorem bootLike_endTag : bootLike (endTag n).chars = false := rfl

theorem bootLike_emptyTag : bootLike (emptyTag n a).chars = true ↔ "boot".toList <+: n.chars := by
  rw [bootLike_iff]
  constructor
  · rintro ⟨b, htag, -⟩
    change n.chars ++ (a.chars ++ ['/']) = _ at htag
    rcases List.append_eq_append_iff.mp htag with ⟨u, hboot, hu⟩ | ⟨u, hn, -⟩
    · cases u with
      | nil => exact ⟨[], by rw [hboot, List.append_nil, List.append_nil]⟩
      | cons c u =>
        -- a name ends before white space or a slash only
        have hstop := a.head_stop_slash
        have hc : c ∈ "boot".toList := hboot ▸ List.mem_append_right _ List.mem_cons_self
        have hnot : ("boot".toList.all fun c => !(blank c || c = '/')) = true := by decide
        have hc := List.all_eq_true.mp hnot c hc
        rw [hu, List.cons_append, List.head?_cons, Option.all_some] at hstop
        rw [hstop] at hc
        exact Bool.noConfusion hc
    · exact ⟨u, hn.symm⟩
  · rintro ⟨u, hn⟩
    refine ⟨u ++ (a.chars ++ ['/']), ?_, ?_⟩
    · change n.chars ++ (a.chars ++ ['/']) = _
      rw [← hn, List.append_assoc]
    · rw [← List.append_assoc, List.getLast?_append, List.getLast?_singleton]
      rfl

/-- Nothing in an element is matched by `osBootElRe`. -/
theorem bootLike_items : (∀ i ∈ e.items, bootLike i.tag.chars = false) ↔
    ∀ n ∈ e.emptyNames, ¬ "boot".toList <+: n.chars := by
  constructor
  · intro h n hn hpre
    obtain ⟨i, hi, a, htag⟩ := Elem.exists_emptyTag hn
    have hfalse := h i hi
    rw [htag, bootLike_emptyTag.mpr hpre] at hfalse
    exact Bool.noConfusion hfalse
  · intro h i hi
    rcases Elem.tag_of_mem hi with ⟨n, -, ⟨a, htag⟩ | htag⟩ | ⟨n, hn, a, htag⟩
    · rw [htag, bootLike_startTag]
    · rw [htag, bootLike_endTag]
    · rw [htag]
      exact Bool.eq_false_iff.mpr fun hlike => h n hn (bootLike_emptyTag.mp hlike)

end Empty

/-! ## What becomes of a document -/

namespace OsDocument

section Rewrite

variable (d : OsDocument) (b : Bool)

theorem head_closed : osBlockRe.Closed d.head := by
  have htag : (startTag domainName d.root).chars ≠ "os".toList := fun h =>
    absurd (startTag_inj (n := osName) (b := .nil) h).1 (by decide)
  rw [head, textOf_cons]
  exact (osBlockRe_silent htag).closed.append (osBlockRe_closed_all _)

theorem foot_closed : osBlockRe.Closed d.foot := by
  rw [foot, textOf_append, textOf_cons, textOf_nil, List.append_nil]
  exact ((osBlockRe_closed_all _).append (osBlockRe_silent (endTag_ne_os _)).closed).append
    (osBlockRe_silent_plain _).closed

theorem head_printed : Printed d.head := ⟨_, .nil, (List.append_nil _).symm⟩

theorem foot_printed : Printed d.foot := ⟨_, d.rest, rfl⟩

theorem osElem_text : d.osElem.text = Item.text ⟨d.gap, startTag osName d.attrs⟩ ++
    (textOf (d.children.flatMap Elem.items) ++ endText d.tail) := by
  rw [Elem.text, osElem, Elem.items_full, textOf_cons, textOf_append, textOf_cons, textOf_nil,
    List.append_nil]
  rfl

/-- The os element after the rewrite. -/
def rewrittenOs : List Char :=
  if d.attrs.chars = [] then
    d.gap.chars ++ rewriteBlock b (blockOf (d.children.flatMap Elem.items) d.tail)
  else d.osElem.text

theorem tags_children {i : Item} (hi : i ∈ d.children.flatMap Elem.items) :
    i.tag.chars ≠ "os".toList ∧ i.tag.chars ≠ "/os".toList := by
  obtain ⟨c, hc, hi⟩ := List.mem_flatMap.mp hi
  exact tag_ne_of_names (d.no_os c hc) hi

/-- The os element is rewritten by itself. -/
theorem replaceAll_osElem (z : List Char) :
    osBlockRe.replaceAll (rewriteBlock b) (d.osElem.text ++ z) =
      d.rewrittenOs b ++ osBlockRe.replaceAll (rewriteBlock b) z := by
  rw [osElem_text, rewrittenOs]
  by_cases hattrs : d.attrs.chars = []
  · have hnil : d.attrs = .nil := Attrs.ext hattrs
    have hlen := osBlockRe_len_block
      (endOs_silent_textOf fun i hi => (d.tags_children hi).2) d.tail z
    have hne : blockOf (d.children.flatMap Elem.items) d.tail ≠ [] :=
      List.append_ne_nil_of_left_ne_nil (by decide) _
    rw [if_pos hattrs, hnil, startText_eq, List.append_assoc, List.append_assoc,
      ← List.append_assoc "<os>".toList, (osBlockRe_silent_plain d.gap).replaceAll_append]
    change _ ++ osBlockRe.replaceAll _ (blockOf (d.children.flatMap Elem.items) d.tail ++ z) = _
    rw [Matcher.replaceAll_match _ hne hlen, List.append_assoc]
  · have htag : (startTag osName d.attrs).chars ≠ "os".toList := by
      intro h
      exact hattrs (congrArg Attrs.chars (startTag_inj (n := osName) (b := .nil) h).2)
    have hbody : osBlockRe.Silent (textOf (d.children.flatMap Elem.items)) :=
      silent_textOf fun i hi => osBlockRe_silent (d.tags_children hi).1
    have hend : osBlockRe.Silent (endText d.tail) := osBlockRe_silent (endTag_ne_os _)
    rw [if_neg hattrs, osElem_text]
    exact ((osBlockRe_silent htag).append (hbody.append hend)).replaceAll_append _ _

theorem replaceAll_text : osBlockRe.replaceAll (rewriteBlock b) d.text =
    osBlockRe.replaceAll (rewriteBlock b) d.head ++
      (d.rewrittenOs b ++ osBlockRe.replaceAll (rewriteBlock b) d.foot) := by
  rw [text, Matcher.replaceAll_append _ d.head_closed, d.replaceAll_osElem b d.foot]

variable {d}

theorem infix_textOf {i : Item} {is : List Item} (h : i ∈ is) : i.text <:+: textOf is := by
  obtain ⟨js, ks, rfl⟩ := List.append_of_mem h
  exact ⟨textOf js, textOf ks, by rw [textOf_append, textOf_cons, List.append_assoc]⟩

theorem infix_boot {c : Elem} (h : IsBootDev c) :
    ∃ i ∈ c.items, "<boot dev=".toList <:+: i.text := by
  obtain ⟨g, a, dev, rfl, ha⟩ := h
  refine ⟨⟨g, emptyTag bootName a⟩, by simp, g.chars, "'".toList ++ dev ++ "'/>".toList, ?_⟩
  have htag : (emptyTag bootName a).chars = "boot".toList ++ (a.chars ++ ['/']) := rfl
  rw [Item.text, htag, ha]
  simp only [List.append_assoc]
  rfl

/-- Documents with boot devices are rewritten. -/
theorem setOSBootOrderXML_text (h : d.devices ≠ []) : setOSBootOrderXML b d.text =
    osBlockRe.replaceAll (rewriteBlock b) d.head ++
      (d.rewrittenOs b ++ osBlockRe.replaceAll (rewriteBlock b) d.foot) := by
  have hne : d.boots ≠ [] := fun hnil => h (by rw [devices, hnil]; rfl)
  obtain ⟨c, hboot⟩ := List.exists_mem_of_ne_nil d.boots hne
  obtain ⟨hc, hname⟩ := List.mem_filter.mp hboot
  obtain ⟨i, hi, hinfix⟩ := infix_boot (d.boot_form c hc (of_decide_eq_true hname))
  have hbody := infix_textOf (List.mem_flatMap.mpr ⟨c, hc, hi⟩)
  have hos : d.osElem.text <:+: d.text := ⟨d.head, d.foot, List.append_assoc ..⟩
  have hchild : textOf (d.children.flatMap Elem.items) <:+: d.osElem.text := by
    rw [osElem_text]
    exact ⟨Item.text ⟨d.gap, startTag osName d.attrs⟩, endText d.tail, List.append_assoc ..⟩
  have hall := hinfix.trans (hbody.trans (hchild.trans hos))
  have htext : setOSBootOrderXML b d.text = osBlockRe.replaceAll (rewriteBlock b) d.text :=
    if_pos hall
  exact htext.trans (d.replaceAll_text b)

end Rewrite

/-! ## The rewritten document -/

section Rewritten

variable (d : OsDocument) (b : Bool)

theorem keep_isBootDev {c : Elem} (h : IsBootDev c) (hgap : c.gap.chars.all blank = true) :
    c.items.flatMap keep = [] := by
  obtain ⟨g, a, dev, rfl, -⟩ := h
  have hlike : bootLike (emptyTag bootName a).chars = true :=
    bootLike_emptyTag.mpr (List.prefix_refl _)
  rw [Elem.items_empty, List.flatMap_singleton, keep, if_pos hlike, List.rdropWhile_eq_nil_iff]
  intro c hc
  rw [regexpSpace, List.all_eq_true.mp hgap c hc]
  rfl

/-- All boot elements go. -/
theorem keep_children : (d.children.flatMap Elem.items).flatMap keep =
    (d.others.flatMap Elem.items).flatMap keep := by
  have hall : ∀ cs : List Elem, (∀ c ∈ cs, c ∈ d.children) →
      (cs.flatMap Elem.items).flatMap keep =
        ((cs.filter fun c => c.name ≠ bootName).flatMap Elem.items).flatMap keep := by
    intro cs
    induction cs with
    | nil => exact fun _ => rfl
    | cons c cs ih =>
      intro hsub
      have htail := ih fun e he => hsub e (List.mem_cons_of_mem _ he)
      have hc := hsub c List.mem_cons_self
      rw [List.flatMap_cons, List.flatMap_append, htail]
      by_cases hname : c.name = bootName
      · rw [keep_isBootDev (d.boot_form c hc hname) (d.gaps_blank c hc),
          List.filter_cons_of_neg (by simp [hname]), List.nil_append]
      · rw [List.filter_cons_of_pos (by simp [hname]), List.flatMap_cons, List.flatMap_append]
  exact hall d.children fun _ hc => hc

theorem mem_others {c : Elem} : c ∈ d.others ↔ c ∈ d.children ∧ c.name ≠ bootName := by
  rw [others, List.mem_filter, decide_eq_true_eq]

theorem mem_bootElems {c : Elem} (h : c ∈ bootElems b) :
    c.name = bootName ∧ c.gap = .nil ∧ c.names = [] ∧ IsBootDev c := by
  obtain ⟨a, ha, rfl⟩ := List.mem_map.mp h
  refine ⟨rfl, rfl, Elem.names_empty .., ?_⟩
  have hform : ∀ b, ∀ a ∈ bootAttrs b, a.chars = " dev='cdrom'".toList ∨
      a.chars = " dev='hd'".toList := by decide
  rcases hform b a ha with hchars | hchars
  · exact ⟨.nil, a, "cdrom".toList, rfl, hchars⟩
  · exact ⟨.nil, a, "hd".toList, rfl, hchars⟩

/-- The new children of the os element. -/
def newChildren : List Elem := bootElems b ++ d.others

variable {d b} in
theorem mem_newChildren {c : Elem} (h : c ∈ d.newChildren b) :
    c ∈ bootElems b ∨ c ∈ d.children := by
  rcases List.mem_append.mp h with hc | hc
  · exact .inl hc
  · exact .inr (d.mem_others.mp hc).1

theorem gaps_blank_new : ∀ c ∈ d.newChildren b, c.gap.chars.all blank = true := by
  intro c hc
  rcases mem_newChildren hc with hc | hc
  · rw [(mem_bootElems b hc).2.1]
    rfl
  · exact d.gaps_blank c hc

theorem boot_form_new : ∀ c ∈ d.newChildren b, c.name = bootName → IsBootDev c := by
  intro c hc hname
  rcases mem_newChildren hc with hc | hc
  · exact (mem_bootElems b hc).2.2.2
  · exact d.boot_form c hc hname

theorem no_os_new : ∀ c ∈ d.newChildren b, osName ∉ c.names := by
  intro c hc
  rcases mem_newChildren hc with hc | hc
  · rw [(mem_bootElems b hc).2.2.1]
    exact List.not_mem_nil
  · exact d.no_os c hc

/-- The document with the boot devices that are asked for. -/
def withBoot : OsDocument :=
  { d with
    children := d.newChildren b
    gaps_blank := d.gaps_blank_new b
    boot_form := d.boot_form_new b
    no_os := d.no_os_new b }

/-- The document after the rewrite, if nothing else is matched. -/
def rewritten : OsDocument := if d.attrs.chars = [] then d.withBoot b else d

theorem others_withBoot : (d.withBoot b).others = d.others := by
  have hboot : (bootElems b).filter (fun c => c.name ≠ bootName) = [] := by
    refine List.filter_eq_nil_iff.mpr fun c hc => ?_
    simp [(mem_bootElems b hc).1]
  change (bootElems b ++ d.others).filter _ = d.others
  rw [List.filter_append, hboot, List.nil_append, others, List.filter_filter]
  simp

theorem boots_withBoot : (d.withBoot b).boots = bootElems b := by
  have hothers : d.others.filter (fun c => c.name = bootName) = [] := by
    refine List.filter_eq_nil_iff.mpr fun c hc => ?_
    simp [(d.mem_others.mp hc).2]
  have hboot : (bootElems b).filter (fun c => c.name = bootName) = bootElems b := by
    refine List.filter_eq_self.mpr fun c hc => ?_
    simp [(mem_bootElems b hc).1]
  change (bootElems b ++ d.others).filter _ = bootElems b
  rw [List.filter_append, hothers, hboot, List.append_nil]

theorem devices_withBoot : (d.withBoot b).devices = wantedDevices b := by
  rw [devices, boots_withBoot]
  cases b <;> decide

/-- Without other matches, the os element is rewritten to that of the new document. -/
theorem rewrittenOs_eq
    (h : d.attrs.chars = [] → ∀ e ∈ d.others, ∀ n ∈ e.emptyNames, ¬ "boot".toList <+: n.chars) :
    d.rewrittenOs b = (d.rewritten b).osElem.text := by
  rw [rewrittenOs, rewritten]
  by_cases hattrs : d.attrs.chars = []
  · have hnil : (d.withBoot b).attrs = .nil := Attrs.ext hattrs
    have hkeep : (d.others.flatMap Elem.items).flatMap keep =
        textOf (d.others.flatMap Elem.items) := by
      refine List.flatMap_congr fun i hi => ?_
      obtain ⟨e, he, hi⟩ := List.mem_flatMap.mp hi
      rw [keep, bootLike_items.mpr (h hattrs e he) i hi]
      rfl
    rw [if_pos hattrs, if_pos hattrs, rewriteBlock_blockOf, keep_children, hkeep, osElem_text,
      hnil, startText_eq, bootXML_eq, ← textOf_append, ← List.flatMap_append, List.append_assoc]
    rfl
  · rw [if_neg hattrs, if_neg hattrs]

theorem rewritten_of_bare {d : OsDocument} (h : d.attrs.chars = []) :
    d.rewritten b = d.withBoot b := if_pos h

theorem rewritten_of_attrs {d : OsDocument} (h : d.attrs.chars ≠ []) : d.rewritten b = d := if_neg h

/-- What the rewrite leaves alone. -/
theorem rewritten_frame : (d.rewritten b).attrs = d.attrs ∧ (d.rewritten b).head = d.head ∧
    (d.rewritten b).gap = d.gap ∧ (d.rewritten b).foot = d.foot ∧
    (d.rewritten b).others = d.others := by
  by_cases hattrs : d.attrs.chars = []
  · rw [rewritten_of_bare b hattrs]
    exact ⟨rfl, rfl, rfl, rfl, d.others_withBoot b⟩
  · rw [rewritten_of_attrs b hattrs]
    exact ⟨rfl, rfl, rfl, rfl, rfl⟩

/-- Once more. -/
theorem osElem_rewritten : ((d.rewritten b).rewritten b).osElem = (d.rewritten b).osElem := by
  by_cases hattrs : d.attrs.chars = []
  · rw [rewritten_of_bare b hattrs, rewritten_of_bare (d := d.withBoot b) b hattrs]
    have hnew : (d.withBoot b).newChildren b = d.newChildren b := by
      rw [newChildren, others_withBoot, newChildren]
    change Elem.full _ _ _ ((d.withBoot b).newChildren b) _ = _
    rw [hnew]
    rfl
  · rw [rewritten_of_attrs b hattrs, rewritten_of_attrs b hattrs]

end Rewritten

/-! ## Documents that are rewritten as they should be -/

section Sufficient

variable {d : OsDocument} {b : Bool}

theorem wantedDevices_ne (b : Bool) : wantedDevices b ≠ [] := by
  cases b <;> decide

/-- **The rewritten text**. -/
theorem setOSBootOrderXML_rewritten (hd : d.devices ≠ [])
    (hbare : d.attrs.chars = [] →
      ∀ e ∈ d.others, ∀ n ∈ e.emptyNames, ¬ "boot".toList <+: n.chars)
    (helse : ∀ m ∈ osBlockRe.findAll d.head ++ osBlockRe.findAll d.foot, Settled b m) :
    setOSBootOrderXML b d.text = (d.rewritten b).text := by
  have hhead := replaceAll_of_settled b d.head_printed
    fun m hm => helse m (List.mem_append_left _ hm)
  have hfoot := replaceAll_of_settled b d.foot_printed
    fun m hm => helse m (List.mem_append_right _ hm)
  obtain ⟨-, hsame, -, hsame', -⟩ := d.rewritten_frame b
  rw [setOSBootOrderXML_text b hd, hhead, hfoot, rewrittenOs_eq d b hbare, text, hsame, hsame']

/-- **Refinement**: the boot devices of the new text are those of the configuration. -/
theorem devices_eq_rewrittenBoot {c : MachineConfig} (hd : d.devices ≠ [])
    (hboot : c.osBoot = d.devices) (hattrs : c.osAttrs = !d.attrs.chars.isEmpty) :
    (d.rewritten b).devices = c.rewrittenBoot b := by
  have horder : c.hasOSBootOrder = true := by
    rw [MachineConfig.hasOSBootOrder, hboot, Bool.not_eq_true', List.isEmpty_eq_false_iff]
    exact hd
  rw [MachineConfig.rewrittenBoot, horder, hattrs, Bool.not_not, Bool.true_and]
  by_cases hnil : d.attrs.chars = []
  · rw [rewritten_of_bare b hnil, devices_withBoot, if_pos (List.isEmpty_iff.mpr hnil)]
    rfl
  · rw [rewritten_of_attrs b hnil, if_neg (fun h => hnil (List.isEmpty_iff.mp h)), hboot]

theorem devices_rewritten (h : d.Rewritable b) : (d.rewritten b).devices = wantedDevices b := by
  by_cases hattrs : d.attrs.chars = []
  · rw [rewritten_of_bare b hattrs, devices_withBoot]
  · rw [rewritten_of_attrs b hattrs]
    exact h.attributed hattrs

theorem Rewritable.rewritten (h : d.Rewritable b) : (d.rewritten b).Rewritable b := by
  obtain ⟨hattrs, hhead, -, hfoot, hothers⟩ := d.rewritten_frame b
  refine ⟨fun hnil => ?_, fun _ => devices_rewritten h, ?_⟩
  · rw [hothers]
    exact h.bare (hattrs ▸ hnil)
  · rw [hhead, hfoot]
    exact h.elsewhere

theorem exact_rewritten (hd : d.devices ≠ []) (h : d.Rewritable b) :
    d.Exact b (d.rewritten b) := by
  obtain ⟨hattrs, hhead, hgap, hfoot, hothers⟩ := d.rewritten_frame b
  have hdevices := devices_rewritten h
  have htext := setOSBootOrderXML_rewritten hd h.bare h.elsewhere
  have hagain := h.rewritten
  refine ⟨htext.symm, hdevices, hothers, hattrs, hhead, hgap, hfoot, ?_⟩
  rw [setOSBootOrderXML_rewritten (hdevices ▸ wantedDevices_ne b) hagain.bare hagain.elsewhere,
    text, text, osElem_rewritten]
  obtain ⟨-, hhead', -, hfoot', -⟩ := (d.rewritten b).rewritten_frame b
  rw [hhead', hfoot']

end Sufficient

/-! ## … and the others -/

section Necessary

variable {d d' : OsDocument} {b : Bool}

/-- The tags of a text. -/
theorem count_textOf (is : List Item) : (textOf is).count '<' = is.length := by
  induction is with
  | nil => rfl
  | cons i is ih =>
    rw [textOf_cons, List.count_append, ih, Item.text, List.count_append, List.count_cons_self,
      List.count_append, List.count_eq_zero.mpr i.gap.lt_notMem,
      List.count_eq_zero.mpr i.tag.lt_notMem, List.length_cons]
    simp
    omega

/-- The tags that are left. -/
theorem count_keep (is : List Item) : (is.flatMap keep).count '<' =
    is.countP fun i => !bootLike i.tag.chars := by
  induction is with
  | nil => rfl
  | cons i is ih =>
    rw [List.flatMap_cons, List.count_append, ih, List.countP_cons, keep]
    by_cases hlike : bootLike i.tag.chars = true
    · have hgap : '<' ∉ i.gap.chars.rdropWhile regexpSpace := fun hmem =>
        i.gap.lt_notMem ((List.rdropWhile_prefix regexpSpace i.gap.chars).subset hmem)
      rw [if_pos hlike, List.count_eq_zero.mpr hgap, hlike]
      simp
    · have htext := count_textOf [i]
      rw [textOf_cons, textOf_nil, List.append_nil, List.length_singleton] at htext
      rw [if_neg hlike, htext, Bool.eq_false_iff.mpr hlike]
      simp [Nat.add_comm]

/-- A boot element is one tag. -/
theorem length_boots (d : OsDocument) :
    (d.boots.flatMap Elem.items).length = d.devices.length := by
  have hone : ∀ c ∈ d.boots, c.items.length = 1 := by
    intro c hc
    obtain ⟨hc, hname⟩ := List.mem_filter.mp hc
    obtain ⟨g, a, dev, rfl, -⟩ := d.boot_form c hc (of_decide_eq_true hname)
    rw [Elem.items_empty, List.length_singleton]
  rw [List.length_flatMap, List.map_congr_left hone, List.map_const', List.sum_replicate_nat,
    Nat.mul_one, devices, List.length_map]

theorem length_children (d : OsDocument) : (d.children.flatMap Elem.items).length =
    d.devices.length + (d.others.flatMap Elem.items).length := by
  have hperm := List.filter_append_perm (fun c : Elem => decide (c.name = bootName)) d.children
  have hothers : d.children.filter (fun c => !decide (c.name = bootName)) = d.others :=
    List.filter_congr fun c _ => by rw [decide_not]
  rw [hothers] at hperm
  have hlen := (hperm.flatMap_right Elem.items).length_eq
  rw [List.flatMap_append, List.length_append] at hlen
  rw [← length_boots, ← hlen]
  rfl

theorem count_bootXML (b : Bool) : (bootXML b).count '<' = (wantedDevices b).length := by
  cases b <;> decide

/-- **No other match**: as many tags are left as there should be. -/
theorem bare_of_text (hdevices : d'.devices = wantedDevices b) (hothers : d'.others = d.others)
    (htext : bootXML b ++ (d.children.flatMap Elem.items).flatMap keep ++ endText d.tail =
      textOf (d'.children.flatMap Elem.items) ++ endText d'.tail) :
    ∀ e ∈ d.others, ∀ n ∈ e.emptyNames, ¬ "boot".toList <+: n.chars := by
  have hend : ∀ t, (endText t).count '<' = 1 := fun t => by
    have hone := count_textOf [⟨t, endTag osName⟩]
    rwa [textOf_cons, textOf_nil, List.append_nil] at hone
  have hcount := congrArg (List.count '<') htext
  rw [List.count_append, List.count_append, List.count_append, hend, hend, count_bootXML,
    keep_children, count_keep, count_textOf, length_children, hdevices, hothers] at hcount
  have hall := List.countP_eq_length.mp
    (Nat.add_left_cancel (Nat.add_right_cancel hcount))
  intro e he
  refine bootLike_items.mp fun i hi => ?_
  simpa using hall i (List.mem_flatMap.mpr ⟨e, he, hi⟩)

/-- The rewritten os element is that of a document. -/
theorem rewritable_of_osElem (hdevices : d'.devices = wantedDevices b)
    (hothers : d'.others = d.others) (hattrs : d'.attrs = d.attrs) (hgap : d'.gap = d.gap)
    {y z : List Char} (h : d.rewrittenOs b ++ y = d'.osElem.text ++ z) :
    y = z ∧ (d.attrs.chars = [] →
      ∀ e ∈ d.others, ∀ n ∈ e.emptyNames, ¬ "boot".toList <+: n.chars) ∧
    (d.attrs.chars ≠ [] → d.devices = wantedDevices b) := by
  by_cases hnil : d.attrs.chars = []
  · have hempty : d'.attrs = .nil := hattrs.trans (Attrs.ext hnil)
    have hboot : endOs.Silent (bootXML b ++ (d.children.flatMap Elem.items).flatMap keep) :=
      (endOs_silent_bootXML b).append (endOs_silent_keep fun i hi => (d.tags_children hi).2)
    have hbody := endOs_silent_textOf fun i hi => (d'.tags_children hi).2
    rw [rewrittenOs, if_pos hnil, osElem_text, hgap, hempty, startText_eq, List.append_assoc,
      List.append_assoc, List.append_assoc, List.append_cancel_left_eq,
      rewriteBlock_blockOf] at h
    -- both end at the first end tag
    have hblocks : "<os>".toList ++ (bootXML b ++ (d.children.flatMap Elem.items).flatMap keep ++
        endText d.tail) ++ y = "<os>".toList ++ (textOf (d'.children.flatMap Elem.items) ++
          endText d'.tail) ++ z := by
      simpa only [List.append_assoc] using h
    have hlen := osBlockRe_len_block hboot d.tail y
    rw [hblocks, osBlockRe_len_block hbody d'.tail z] at hlen
    obtain ⟨hblock, hyz⟩ := List.append_inj hblocks hlen.symm
    exact ⟨hyz, fun _ => bare_of_text hdevices hothers (List.append_cancel_left hblock),
      fun hne => absurd hnil hne⟩
  · rw [rewrittenOs, if_neg hnil] at h
    obtain ⟨hos, hyz⟩ := readable d.osElem d'.osElem y z h
    refine ⟨hyz, fun hbare => absurd hbare hnil, fun _ => ?_⟩
    obtain ⟨-, -, -, hchildren, -⟩ := Elem.full.inj hos
    rw [← hdevices, devices, devices, boots, boots, hchildren]

/-- **The documents that are rewritten as they should be**. -/
theorem rewritable_of_exact (hd : d.devices ≠ []) (h : d.Exact b d') : d.Rewritable b := by
  have htext := h.text
  rw [setOSBootOrderXML_text b hd, text, h.head] at htext
  have hhead := settled_of_prefix b d.head_printed d.head_closed htext.symm
  rw [replaceAll_of_settled b d.head_printed hhead, List.append_cancel_left_eq] at htext
  obtain ⟨hfoot, hbare, hattrs⟩ :=
    rewritable_of_osElem h.devices h.others h.attrs h.gap htext.symm
  rw [h.foot] at hfoot
  have hsettled := settled_of_prefix b d.foot_printed d.foot_closed
    (congrArg (· ++ []) hfoot)
  refine ⟨hbare, hattrs, fun m hm => ?_⟩
  rcases List.mem_append.mp hm with hm | hm
  · exact hhead m hm
  · exact hsettled m hm

end Necessary

/-- **Exactness**: a document with boot devices is rewritten as it should be if and only if its
os element has no attributes and holds no other empty element whose name starts with `boot`, or
has attributes and boots from what is asked for already, and the blocks elsewhere stay. -/
theorem bootOrder_exact_iff (d : OsDocument) (b : Bool) (hd : d.devices ≠ []) :
    (∃ d', d.Exact b d') ↔ d.Rewritable b :=
  ⟨fun ⟨_, h⟩ => rewritable_of_exact hd h, fun h => ⟨_, exact_rewritten hd h⟩⟩

/-! ### Some documents -/

def typeElem : Elem :=
  .full ⟨"\n    ".toList, rfl⟩ ⟨"type".toList, rfl⟩ ⟨" arch='x86_64'".toList, rfl⟩ []
    ⟨"hvm".toList, rfl⟩

def hdElem : Elem := .empty ⟨"\n    ".toList, rfl⟩ bootName ⟨" dev='hd'".toList, isAttrs_hd⟩

def bootmenuElem : Elem :=
  .empty ⟨"\n    ".toList, rfl⟩ ⟨"bootmenu".toList, rfl⟩ ⟨" enable='yes'".toList, rfl⟩

theorem sample_gaps : ∀ c ∈ [typeElem, hdElem, bootmenuElem], c.gap.chars.all blank = true := by
  decide

theorem sample_boot : ∀ c ∈ [typeElem, hdElem, bootmenuElem], c.name = bootName → IsBootDev c := by
  intro c hc hname
  simp only [List.mem_cons, List.not_mem_nil, or_false] at hc
  rcases hc with rfl | rfl | rfl
  · exact absurd hname (by decide)
  · exact ⟨_, _, "hd".toList, rfl, rfl⟩
  · exact absurd hname (by decide)

theorem sample_os : ∀ c ∈ [typeElem, hdElem, bootmenuElem], osName ∉ c.names := by decide

/-- A domain with nothing but an os element. -/
def sample (attrs : Attrs) (children : List Elem)
    (h : children ⊆ [typeElem, hdElem, bootmenuElem]) : OsDocument where
  root := ⟨" type='kvm'".toList, rfl⟩
  before := []
  gap := ⟨"\n  ".toList, rfl⟩
  attrs := attrs
  children := children
  tail := ⟨"\n  ".toList, rfl⟩
  after := []
  close := ⟨"\n".toList, rfl⟩
  rest := ⟨"\n".toList, rfl⟩
  gaps_blank c hc := sample_gaps c (h hc)
  boot_form c hc := sample_boot c (h hc)
  no_os c hc := sample_os c (h hc)

theorem sample_subset : [typeElem, hdElem] ⊆ [typeElem, hdElem, bootmenuElem] := by simp

def plainDocument : OsDocument := sample .nil [typeElem, hdElem] sample_subset

def menuDocument : OsDocument := sample .nil _ (List.Subset.refl _)

def firmwareDocument : OsDocument :=
  sample ⟨" firmware='efi'".toList, rfl⟩ [typeElem, hdElem] sample_subset

theorem elsewhere_plainDocument :
    osBlockRe.findAll plainDocument.head ++ osBlockRe.findAll plainDocument.foot = [] := by decide

theorem exact_plainDocument : ∃ d', plainDocument.Exact true d' :=
  (bootOrder_exact_iff plainDocument true (by decide)).mpr
    ⟨fun _ => by decide, fun h => absurd rfl h, fun _ hm =>
      absurd (elsewhere_plainDocument ▸ hm) List.not_mem_nil⟩

example : plainDocument.text = ("<domain type='kvm'>\n  <os>\n    <type arch='x86_64'>hvm</type>" ++
    "\n    <boot dev='hd'/>\n  </os>\n</domain>\n").toList := by decide

/-- The boot menu goes, and firmware keeps the boot devices as they are. -/
theorem bootOrder_inexact :
    (menuDocument.devices ≠ [] ∧ ¬ ∃ d', menuDocument.Exact true d') ∧
      firmwareDocument.devices ≠ [] ∧ ¬ ∃ d', firmwareDocument.Exact true d' := by
  refine ⟨⟨by decide, fun ⟨d', h⟩ => ?_⟩, by decide, fun ⟨d', h⟩ => ?_⟩
  · have hbare := (rewritable_of_exact (by decide) h).bare rfl
    revert hbare
    decide
  · have hsame := (rewritable_of_exact (by decide) h).attributed (by decide)
    revert hsame
    decide

end OsDocument

end Ultrav
