import Mathlib.Data.List.Basic
import Ultrav.XmlLiteral

/-!
# Elements of a document

What a program that decodes a document gets to see of it: elements with their attributes, their
character data in one piece, and their child elements.

* `Element` — over any type of values; `Element.map`, `Element.values`.
* `Element.attr` / `Element.follow` — attributes, and the elements at a path.
* `Element.attrsAt` / `Element.textsAt` — the values there.
* `Builder` — an element from what a document says.
* `parse` — the root element of a document.
-/

namespace Ultrav.Xml

/-- An element, with values in its attributes and as its character data. -/
inductive Element (V : Type) where
  | mk (name : String) (attrs : List (String × V)) (text : V) (children : List (Element V))

namespace Element

variable {V W : Type}

def name : Element V → String
  | mk n _ _ _ => n

def attrs : Element V → List (String × V)
  | mk _ as _ _ => as

def text : Element V → V
  | mk _ _ t _ => t

def children : Element V → List (Element V)
  | mk _ _ _ cs => cs

/-- **Induction**: over the children. -/
@[elab_as_elim, induction_eliminator]
theorem induct {motive : Element V → Prop}
    (mk : ∀ n as t cs, (∀ c ∈ cs, motive c) → motive (.mk n as t cs)) (e : Element V) :
    motive e :=
  e.rec (motive_2 := fun cs => ∀ c ∈ cs, motive c) mk (fun _ hc => by cases hc)
    fun c cs hhead htail d hd => by
      rcases List.mem_cons.mp hd with rfl | hd
      · exact hhead
      · exact htail d hd

/-! ## Other values -/

mutual

/-- Other values in the same places. -/
def map (f : V → W) : Element V → Element W
  | mk n as t cs => mk n (as.map fun a => (a.1, f a.2)) (f t) (mapAll f cs)

def mapAll (f : V → W) : List (Element V) → List (Element W)
  | [] => []
  | c :: cs => c.map f :: mapAll f cs

end

mutual

/-- The values, in the order of the document. -/
def values : Element V → List V
  | mk _ as t cs => as.map Prod.snd ++ t :: valuesAll cs

def valuesAll : List (Element V) → List V
  | [] => []
  | c :: cs => c.values ++ valuesAll cs

end

@[simp] theorem mapAll_eq (f : V → W) (cs : List (Element V)) : mapAll f cs = cs.map (map f) := by
  induction cs with
  | nil => rfl
  | cons c cs ih => rw [mapAll, ih, List.map_cons]

@[simp] theorem map_mk (f : V → W) (n : String) (as : List (String × V)) (t : V)
    (cs : List (Element V)) : (mk n as t cs).map f =
      mk n (as.map fun a => (a.1, f a.2)) (f t) (cs.map (map f)) := by
  rw [map, mapAll_eq]

@[simp] theorem valuesAll_eq (cs : List (Element V)) : valuesAll cs = cs.flatMap values := by
  induction cs with
  | nil => rfl
  | cons c cs ih => rw [valuesAll, ih, List.flatMap_cons]

@[simp] theorem values_mk (n : String) (as : List (String × V)) (t : V) (cs : List (Element V)) :
    (mk n as t cs).values = as.map Prod.snd ++ t :: cs.flatMap values := by
  rw [values, valuesAll_eq]

theorem values_map (f : V → W) (e : Element V) : (e.map f).values = e.values.map f := by
  induction e with
  | mk n as t cs ih =>
    rw [map_mk, values_mk, values_mk, List.map_append, List.map_cons, List.flatMap_map,
      List.map_flatMap, List.flatMap_congr ih, List.map_map, List.map_map]
    rfl

/-- Only the values matter. -/
theorem map_congr {f g : V → W} {e : Element V} (h : ∀ v ∈ e.values, f v = g v) :
    e.map f = e.map g := by
  induction e with
  | mk n as t cs ih =>
    rw [values_mk] at h
    simp only [List.mem_append, List.mem_cons, List.mem_map, List.mem_flatMap] at h
    have has : (as.map fun a => (a.1, f a.2)) = as.map fun a => (a.1, g a.2) :=
      List.map_congr_left fun a ha => by rw [h a.2 (.inl ⟨a, ha, rfl⟩)]
    have hcs : cs.map (map f) = cs.map (map g) :=
      List.map_congr_left fun c hc => ih c hc fun v hv => h v (.inr (.inr ⟨c, hc, hv⟩))
    rw [map_mk, map_mk, has, hcs, h t (.inr (.inl rfl))]

/-! ## Looking things up -/

/-- The value of an attribute. -/
def attr (key : String) (e : Element V) : Option V :=
  (e.attrs.find? fun a => a.1 = key).map Prod.snd

/-- The elements at a path below this one, in the order of the document. -/
def follow : List String → Element V → List (Element V)
  | [], e => [e]
  | n :: ns, e => (e.children.filter fun c => c.name = n).flatMap (follow ns)

@[simp] theorem name_map (f : V → W) (e : Element V) : (e.map f).name = e.name := by
  obtain ⟨n, as, t, cs⟩ := e
  rw [map_mk]
  rfl

@[simp] theorem children_map (f : V → W) (e : Element V) :
    (e.map f).children = e.children.map (map f) := by
  obtain ⟨n, as, t, cs⟩ := e
  rw [map_mk]
  rfl

/-- The values of an attribute, of the elements at a path. -/
def attrsAt (path : List String) (key : String) (e : Element V) : List V :=
  (e.follow path).filterMap (attr key)

/-- The character data of the elements at a path. -/
def textsAt (path : List String) (e : Element V) : List V := (e.follow path).map text

end Element

/-! ## From a document -/

/-- The elements that are open, innermost first, and the last one that ended outside of all. -/
structure Builder where
  root : Option (Element String)
  stack : List (Element String)

namespace Builder

/-- One more thing that a document says. -/
def step (b : Builder) : Event → Builder
  | .start n => { b with stack := .mk n [] "" [] :: b.stack }
  | .attr k v =>
    match b.stack with
    | .mk n as t cs :: rest => { b with stack := .mk n (as ++ [(k, v)]) t cs :: rest }
    | [] => b
  | .char c =>
    match b.stack with
    | .mk n as t cs :: rest => { b with stack := .mk n as (t.push c) cs :: rest }
    | [] => b
  | .finish _ _ =>
    match b.stack with
    | e :: .mk n as t cs :: rest => { b with stack := .mk n as t (cs ++ [e]) :: rest }
    | [e] => ⟨some e, []⟩
    | [] => b

end Builder

/-- The root element of a document, if it is well formed. -/
def parse (doc : String) : Option (Element String) :=
  (scan doc).bind fun es => (es.foldl Builder.step ⟨none, []⟩).root

end Ultrav.Xml
