import Mathlib.Data.List.Basic
import Mathlib.Data.Nat.Notation

/-!
# Printed element trees

Documents as they are printed: tags, with text between them that holds no angle bracket.

* `Markup.Plain` / `Name` / `Attrs` — the pieces, as texts that can stand where they do.
* `Markup.Elem` — an element, with the text before it.
* `Elem.items` / `Elem.text` — its tags, and the printed element.
* `Elem.names` / `Elem.emptyNames` — the elements in it.
* `text_inj` — a text is the print of one list of elements only.
-/

namespace Ultrav.Markup

/-! ## Pieces -/

/-- No angle bracket. -/
def plain (c : Char) : Bool := c != '<' && c != '>'

def blank (c : Char) : Bool := c = ' ' || c = '\t' || c = '\n' || c = '\r'

/-- Text between tags, or within one. -/
structure Plain where
  chars : List Char
  ok : chars.all plain = true
  deriving DecidableEq

def isName (s : List Char) : Bool :=
  !s.isEmpty && s.all fun c => plain c && c != '/' && !blank c

/-- The name of an element. -/
structure Name where
  chars : List Char
  ok : isName chars = true
  deriving DecidableEq

/-- Attributes, with the white space in front, do not end in a slash. -/
def isAttrs (s : List Char) : Bool :=
  s.all plain && s.head?.all blank && s.getLast? != some '/'

/-- The attributes of an element as they are printed. -/
structure Attrs where
  chars : List Char
  ok : isAttrs chars = true
  deriving DecidableEq

theorem Plain.ext {s t : Plain} (h : s.chars = t.chars) : s = t := by
  cases s
  cases t
  cases h
  rfl

theorem Name.ext {m n : Name} (h : m.chars = n.chars) : m = n := by
  cases m
  cases n
  cases h
  rfl

theorem Attrs.ext {a b : Attrs} (h : a.chars = b.chars) : a = b := by
  cases a
  cases b
  cases h
  rfl

theorem plain_iff {c : Char} : plain c = true ↔ c ≠ '<' ∧ c ≠ '>' := by simp [plain]

namespace Plain

variable (s : Plain)

theorem lt_notMem : '<' ∉ s.chars := fun h =>
  (plain_iff.mp (List.all_eq_true.mp s.ok _ h)).1 rfl

theorem gt_notMem : '>' ∉ s.chars := fun h =>
  (plain_iff.mp (List.all_eq_true.mp s.ok _ h)).2 rfl

def nil : Plain := ⟨[], rfl⟩

end Plain

namespace Name

variable (n : Name)

theorem ne_nil : n.chars ≠ [] := by
  have h := n.ok
  rw [isName, Bool.and_eq_true, Bool.not_eq_true', List.isEmpty_eq_false_iff] at h
  exact h.1

theorem all_plain : n.chars.all plain = true := by
  have h := n.ok
  rw [isName, Bool.and_eq_true, List.all_eq_true] at h
  refine List.all_eq_true.mpr fun c hc => ?_
  have hc := h.2 c hc
  rw [Bool.and_eq_true, Bool.and_eq_true] at hc
  exact hc.1.1

theorem of_mem {c : Char} (hc : c ∈ n.chars) : c ≠ '/' ∧ blank c = false := by
  have h := n.ok
  rw [isName, Bool.and_eq_true, List.all_eq_true] at h
  have hc := h.2 c hc
  rw [Bool.and_eq_true, Bool.and_eq_true, Bool.not_eq_true', bne_iff_ne] at hc
  exact ⟨hc.1.2, hc.2⟩

end Name

namespace Attrs

variable (a : Attrs)

theorem all_plain : a.chars.all plain = true := by
  have h := a.ok
  rw [isAttrs, Bool.and_eq_true, Bool.and_eq_true] at h
  exact h.1.1

theorem head : a.chars.head?.all blank = true := by
  have h := a.ok
  rw [isAttrs, Bool.and_eq_true, Bool.and_eq_true] at h
  exact h.1.2

theorem getLast_ne : a.chars.getLast? ≠ some '/' := by
  have h := a.ok
  rw [isAttrs, Bool.and_eq_true, bne_iff_ne] at h
  exact h.2

def nil : Attrs := ⟨[], rfl⟩

end Attrs

/-! ## Tags -/

section Tags

variable {m n : Name} {a b : Attrs}

theorem plain_startTag (n : Name) (a : Attrs) : (n.chars ++ a.chars).all plain = true := by
  rw [List.all_append, n.all_plain, a.all_plain]
  rfl

theorem plain_emptyTag (n : Name) (a : Attrs) :
    (n.chars ++ (a.chars ++ ['/'])).all plain = true := by
  rw [List.all_append, List.all_append, n.all_plain, a.all_plain]
  rfl

theorem plain_endTag (n : Name) : ('/' :: n.chars).all plain = true := by
  rw [List.all_cons, n.all_plain]
  rfl

/-- What is between the brackets of a start tag. -/
def startTag (n : Name) (a : Attrs) : Plain := ⟨n.chars ++ a.chars, plain_startTag n a⟩

/-- … of the tag of an empty element. -/
def emptyTag (n : Name) (a : Attrs) : Plain :=
  ⟨n.chars ++ (a.chars ++ ['/']), plain_emptyTag n a⟩

/-- … of an end tag. -/
def endTag (n : Name) : Plain := ⟨'/' :: n.chars, plain_endTag n⟩

/-- A name ends where white space or a slash begins. -/
theorem name_inj {s t : List Char} (hs : s.head?.all (fun c => blank c || c = '/') = true)
    (ht : t.head?.all (fun c => blank c || c = '/') = true) (h : m.chars ++ s = n.chars ++ t) :
    m = n ∧ s = t := by
  have hname : ∀ (n : Name) (t : List Char), t.head?.all (fun c => blank c || c = '/') = true →
      (n.chars ++ t).takeWhile (fun c => !(blank c || c = '/')) = n.chars := by
    intro n t ht
    rw [List.takeWhile_append_of_pos fun c hc => by simp [n.of_mem hc]]
    cases t with
    | nil => exact List.append_nil _
    | cons c t =>
      rw [List.head?_cons, Option.all_some] at ht
      rw [List.takeWhile_cons_of_neg (by simp only [ht, Bool.not_true, Bool.false_eq_true,
        not_false_eq_true]), List.append_nil]
  have hmn : m = n := Name.ext (by rw [← hname m s hs, h, hname n t ht])
  subst hmn
  exact ⟨rfl, List.append_cancel_left h⟩

theorem Attrs.head_stop (a : Attrs) : a.chars.head?.all (fun c => blank c || c = '/') = true := by
  have h := a.head
  cases hchars : a.chars with
  | nil => rfl
  | cons c s =>
    rw [hchars, List.head?_cons, Option.all_some] at h
    rw [List.head?_cons, Option.all_some, h]
    rfl

theorem Attrs.head_stop_slash (a : Attrs) :
    (a.chars ++ ['/']).head?.all (fun c => blank c || c = '/') = true := by
  have h := a.head_stop
  cases hchars : a.chars with
  | nil => rfl
  | cons c s =>
    rw [hchars] at h
    exact h

theorem startTag_inj (h : (startTag m a).chars = (startTag n b).chars) : m = n ∧ a = b := by
  obtain ⟨hname, hattrs⟩ := name_inj a.head_stop b.head_stop h
  exact ⟨hname, Attrs.ext hattrs⟩

theorem emptyTag_inj (h : (emptyTag m a).chars = (emptyTag n b).chars) : m = n ∧ a = b := by
  obtain ⟨hname, hattrs⟩ := name_inj a.head_stop_slash b.head_stop_slash h
  exact ⟨hname, Attrs.ext (List.append_cancel_right hattrs)⟩

theorem startTag_getLast (n : Name) (a : Attrs) : (startTag n a).chars.getLast? ≠ some '/' := by
  rw [startTag, List.getLast?_append]
  cases hlast : a.chars.getLast? with
  | none => exact fun h => (n.of_mem (List.mem_of_getLast? h)).1 rfl
  | some c =>
    have hne := a.getLast_ne
    rwa [hlast] at hne

theorem emptyTag_getLast (n : Name) (a : Attrs) : (emptyTag n a).chars.getLast? = some '/' := by
  change (n.chars ++ (a.chars ++ ['/'])).getLast? = some '/'
  rw [← List.append_assoc, List.getLast?_append, List.getLast?_singleton]
  rfl

theorem startTag_ne_emptyTag : (startTag m a).chars ≠ (emptyTag n b).chars :=
  fun h => startTag_getLast m a (h ▸ emptyTag_getLast n b)

theorem head_ne_slash (n : Name) (s : List Char) : (n.chars ++ s).head? ≠ some '/' := by
  obtain ⟨c, t, hchars⟩ := List.exists_cons_of_ne_nil n.ne_nil
  rw [hchars, List.cons_append, List.head?_cons]
  exact fun h => (n.of_mem (hchars ▸ List.mem_cons_self)).1 (Option.some.inj h)

end Tags

/-! ## Items -/

/-- A tag and the text before it. -/
structure Item where
  gap : Plain
  tag : Plain
  deriving DecidableEq

def Item.text (i : Item) : List Char := i.gap.chars ++ '<' :: (i.tag.chars ++ ['>'])

/-- Tags one after the other. -/
def textOf (is : List Item) : List Char := is.flatMap Item.text

@[simp] theorem textOf_nil : textOf [] = [] := rfl

@[simp] theorem textOf_cons (i : Item) (is : List Item) : textOf (i :: is) = i.text ++ textOf is :=
  List.flatMap_cons

@[simp] theorem textOf_append (is js : List Item) : textOf (is ++ js) = textOf is ++ textOf js :=
  List.flatMap_append

/-! ## Elements -/

/-- An element and the text before it. -/
inductive Elem where
  | empty (gap : Plain) (name : Name) (attrs : Attrs)
  | full (gap : Plain) (name : Name) (attrs : Attrs) (children : List Elem) (tail : Plain)

namespace Elem

def gap : Elem → Plain
  | empty g _ _ => g
  | full g _ _ _ _ => g

def name : Elem → Name
  | empty _ n _ => n
  | full _ n _ _ _ => n

def attrs : Elem → Attrs
  | empty _ _ a => a
  | full _ _ a _ _ => a

/-- It has no end tag. -/
def isEmpty : Elem → Bool
  | empty _ _ _ => true
  | full _ _ _ _ _ => false

/-- **Induction**: over the children. -/
@[elab_as_elim, induction_eliminator]
theorem induct {motive : Elem → Prop} (empty : ∀ g n a, motive (.empty g n a))
    (full : ∀ g n a cs t, (∀ c ∈ cs, motive c) → motive (.full g n a cs t)) (e : Elem) :
    motive e :=
  e.rec (motive_2 := fun cs => ∀ c ∈ cs, motive c) empty full (fun _ hc => by cases hc)
    fun c cs hhead htail d hd => by
      rcases List.mem_cons.mp hd with rfl | hd
      · exact hhead
      · exact htail d hd

mutual

/-- The tags. -/
def items : Elem → List Item
  | empty g n a => [⟨g, emptyTag n a⟩]
  | full g n a cs t => ⟨g, startTag n a⟩ :: (itemsAll cs ++ [⟨t, endTag n⟩])

def itemsAll : List Elem → List Item
  | [] => []
  | e :: es => e.items ++ itemsAll es

end

mutual

/-- The names of the elements that have an end tag. -/
def names : Elem → List Name
  | empty _ _ _ => []
  | full _ n _ cs _ => n :: namesAll cs

def namesAll : List Elem → List Name
  | [] => []
  | e :: es => e.names ++ namesAll es

end

mutual

/-- The names of the other elements. -/
def emptyNames : Elem → List Name
  | empty _ n _ => [n]
  | full _ _ _ cs _ => emptyNamesAll cs

def emptyNamesAll : List Elem → List Name
  | [] => []
  | e :: es => e.emptyNames ++ emptyNamesAll es

end

@[simp] theorem itemsAll_eq (es : List Elem) : itemsAll es = es.flatMap items := by
  induction es with
  | nil => rfl
  | cons e es ih => rw [itemsAll, ih, List.flatMap_cons]

@[simp] theorem namesAll_eq (es : List Elem) : namesAll es = es.flatMap names := by
  induction es with
  | nil => rfl
  | cons e es ih => rw [namesAll, ih, List.flatMap_cons]

@[simp] theorem emptyNamesAll_eq (es : List Elem) :
    emptyNamesAll es = es.flatMap emptyNames := by
  induction es with
  | nil => rfl
  | cons e es ih => rw [emptyNamesAll, ih, List.flatMap_cons]

@[simp] theorem items_empty (g : Plain) (n : Name) (a : Attrs) :
    (empty g n a).items = [⟨g, emptyTag n a⟩] := by
  rw [items]

@[simp] theorem items_full (g : Plain) (n : Name) (a : Attrs) (cs : List Elem) (t : Plain) :
    (full g n a cs t).items = ⟨g, startTag n a⟩ :: (cs.flatMap items ++ [⟨t, endTag n⟩]) := by
  rw [items, itemsAll_eq]

@[simp] theorem names_empty (g : Plain) (n : Name) (a : Attrs) : (empty g n a).names = [] := by
  rw [names]

@[simp] theorem names_full (g : Plain) (n : Name) (a : Attrs) (cs : List Elem) (t : Plain) :
    (full g n a cs t).names = n :: cs.flatMap names := by
  rw [names, namesAll_eq]

@[simp] theorem emptyNames_empty (g : Plain) (n : Name) (a : Attrs) :
    (empty g n a).emptyNames = [n] := by
  rw [emptyNames]

@[simp] theorem emptyNames_full (g : Plain) (n : Name) (a : Attrs) (cs : List Elem)
    (t : Plain) : (full g n a cs t).emptyNames = cs.flatMap emptyNames := by
  rw [emptyNames, emptyNamesAll_eq]

/-- The print of an element. -/
def text (e : Elem) : List Char := textOf e.items

/-- The kinds of tags. -/
theorem tag_of_mem {e : Elem} {i : Item} (h : i ∈ e.items) :
    (∃ n ∈ e.names, (∃ a, i.tag = startTag n a) ∨ i.tag = endTag n) ∨
      ∃ n ∈ e.emptyNames, ∃ a, i.tag = emptyTag n a := by
  induction e with
  | empty g n a =>
    rw [items_empty, List.mem_singleton] at h
    subst h
    exact .inr ⟨n, by simp, a, rfl⟩
  | full g n a cs t ih =>
    rw [items_full, List.mem_cons, List.mem_append, List.mem_singleton, List.mem_flatMap] at h
    rw [names_full, emptyNames_full]
    rcases h with rfl | ⟨c, hc, hi⟩ | rfl
    · exact .inl ⟨n, List.mem_cons_self, .inl ⟨a, rfl⟩⟩
    · rcases ih c hc hi with ⟨m, hm, htag⟩ | ⟨m, hm, htag⟩
      · exact .inl ⟨m, List.mem_cons_of_mem _ (List.mem_flatMap.mpr ⟨c, hc, hm⟩), htag⟩
      · exact .inr ⟨m, List.mem_flatMap.mpr ⟨c, hc, hm⟩, htag⟩
    · exact .inl ⟨n, List.mem_cons_self, .inr rfl⟩

theorem exists_emptyTag {e : Elem} {n : Name} (h : n ∈ e.emptyNames) :
    ∃ i ∈ e.items, ∃ a, i.tag = emptyTag n a := by
  induction e with
  | empty g m a =>
    rw [emptyNames_empty, List.mem_singleton] at h
    subst h
    exact ⟨_, by rw [items_empty]; exact List.mem_singleton_self _, a, rfl⟩
  | full g m a cs t ih =>
    rw [emptyNames_full, List.mem_flatMap] at h
    obtain ⟨c, hc, hn⟩ := h
    obtain ⟨i, hi, b, htag⟩ := ih c hc hn
    refine ⟨i, ?_, b, htag⟩
    rw [items_full]
    exact List.mem_cons_of_mem _ (List.mem_append_left _ (List.mem_flatMap.mpr ⟨c, hc, hi⟩))

end Elem

/-! ## Reading back -/

/-- A text ends where a character begins that is not in it. -/
theorem split_inj {c : Char} {s t y z : List Char} (hs : c ∉ s) (ht : c ∉ t) :
    s ++ c :: y = t ++ c :: z ↔ s = t ∧ y = z := by
  constructor
  · intro h
    have hlen : s.length = t.length := by
      have hidx := congrArg (List.idxOf c) h
      rwa [List.idxOf_append_of_notMem hs, List.idxOf_append_of_notMem ht, List.idxOf_cons_self,
        List.idxOf_cons_self] at hidx
    obtain ⟨hst, hyz⟩ := List.append_inj h hlen
    exact ⟨hst, (List.cons.inj hyz).2⟩
  · rintro ⟨rfl, rfl⟩
    rfl

/-- The text before a tag, and the tag. -/
theorem item_inj {i j : Item} {y z : List Char} (h : i.text ++ y = j.text ++ z) :
    i = j ∧ y = z := by
  rw [Item.text, Item.text, List.append_assoc, List.append_assoc, List.cons_append,
    List.cons_append, List.append_assoc, List.append_assoc,
    split_inj i.gap.lt_notMem j.gap.lt_notMem] at h
  obtain ⟨hgap, htag⟩ := h
  rw [List.singleton_append, List.singleton_append,
    split_inj i.tag.gt_notMem j.tag.gt_notMem] at htag
  obtain ⟨htag, hrest⟩ := htag
  cases i
  cases j
  cases Plain.ext hgap
  cases Plain.ext htag
  exact ⟨rfl, hrest⟩

/-- An element can be read back from the start of a text. -/
def Readable (e : Elem) : Prop :=
  ∀ e' y z, textOf e.items ++ y = textOf e'.items ++ z → e = e' ∧ y = z

/-- An element begins with no end tag. -/
theorem no_endTag {e : Elem} {n : Name} {t : Plain} {y z : List Char} :
    textOf e.items ++ y ≠ Item.text ⟨t, endTag n⟩ ++ z := by
  intro h
  cases e with
  | empty g m a =>
    rw [Elem.items_empty, textOf_cons, textOf_nil, List.append_nil] at h
    have htag := congrArg (fun i => i.tag.chars.head?) (item_inj h).1
    exact head_ne_slash m _ htag
  | full g m a cs t' =>
    rw [Elem.items_full, textOf_cons, List.append_assoc] at h
    have htag := congrArg (fun i => i.tag.chars.head?) (item_inj h).1
    exact head_ne_slash m _ htag

/-- Elements up to an end tag. -/
theorem forest_inj {es es' : List Elem} {n n' : Name} {t t' : Plain} {y z : List Char}
    (hes : ∀ e ∈ es, Readable e)
    (h : textOf (es.flatMap Elem.items) ++ (Item.text ⟨t, endTag n⟩ ++ y) =
      textOf (es'.flatMap Elem.items) ++ (Item.text ⟨t', endTag n'⟩ ++ z)) :
    es = es' ∧ t = t' ∧ n = n' ∧ y = z := by
  induction es generalizing es' with
  | nil =>
    cases es' with
    | nil =>
      obtain ⟨hitem, hrest⟩ := item_inj h
      obtain ⟨ht, htag⟩ := Item.mk.inj hitem
      have hname := congrArg Plain.chars htag
      exact ⟨rfl, ht, Name.ext (List.cons.inj hname).2, hrest⟩
    | cons e' es' =>
      rw [List.flatMap_cons, textOf_append, List.append_assoc] at h
      exact absurd h.symm no_endTag
  | cons e es ih =>
    cases es' with
    | nil =>
      rw [List.flatMap_cons, textOf_append, List.append_assoc] at h
      exact absurd h no_endTag
    | cons e' es' =>
      rw [List.flatMap_cons, List.flatMap_cons, textOf_append, textOf_append, List.append_assoc,
        List.append_assoc] at h
      obtain ⟨rfl, hrest⟩ := hes e List.mem_cons_self e' _ _ h
      obtain ⟨rfl, htail⟩ := ih (fun d hd => hes d (List.mem_cons_of_mem _ hd)) hrest
      exact ⟨rfl, htail⟩

theorem readable (e : Elem) : Readable e := by
  induction e with
  | empty g n a =>
    intro e' y z h
    cases e' with
    | empty g' n' a' =>
      rw [Elem.items_empty, Elem.items_empty, textOf_cons, textOf_cons, textOf_nil,
        List.append_nil, List.append_nil] at h
      obtain ⟨hitem, hrest⟩ := item_inj h
      obtain ⟨rfl, htag⟩ := Item.mk.inj hitem
      obtain ⟨rfl, rfl⟩ := emptyTag_inj (congrArg Plain.chars htag)
      exact ⟨rfl, hrest⟩
    | full g' n' a' cs' t' =>
      rw [Elem.items_empty, Elem.items_full, textOf_cons, textOf_cons, textOf_nil,
        List.append_nil, List.append_assoc] at h
      have htag := (Item.mk.inj (item_inj h).1).2
      exact absurd (congrArg Plain.chars htag).symm startTag_ne_emptyTag
  | full g n a cs t ih =>
    intro e' y z h
    cases e' with
    | empty g' n' a' =>
      rw [Elem.items_empty, Elem.items_full, textOf_cons, textOf_cons, textOf_nil,
        List.append_nil, List.append_assoc] at h
      have htag := (Item.mk.inj (item_inj h).1).2
      exact absurd (congrArg Plain.chars htag) startTag_ne_emptyTag
    | full g' n' a' cs' t' =>
      rw [Elem.items_full, Elem.items_full, textOf_cons, textOf_cons, List.append_assoc,
        List.append_assoc] at h
      obtain ⟨hitem, hchildren⟩ := item_inj h
      obtain ⟨rfl, htag⟩ := Item.mk.inj hitem
      obtain ⟨rfl, rfl⟩ := startTag_inj (congrArg Plain.chars htag)
      rw [textOf_append, textOf_append, textOf_cons, textOf_cons, textOf_nil, List.append_nil,
        List.append_nil, List.append_assoc, List.append_assoc] at hchildren
      obtain ⟨rfl, rfl, -, hrest⟩ := forest_inj ih hchildren
      exact ⟨rfl, hrest⟩

/-- **Uniqueness**: a text up to an end tag is the print of one list of elements only. -/
theorem text_inj {es es' : List Elem} {n n' : Name} {t t' : Plain} {y z : List Char}
    (h : textOf (es.flatMap Elem.items) ++ (Item.text ⟨t, endTag n⟩ ++ y) =
      textOf (es'.flatMap Elem.items) ++ (Item.text ⟨t', endTag n'⟩ ++ z)) :
    es = es' ∧ t = t' ∧ n = n' ∧ y = z :=
  forest_inj (fun e _ => readable e) h

end Ultrav.Markup
