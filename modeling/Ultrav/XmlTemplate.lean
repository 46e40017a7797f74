import Ultrav.XmlWriter

/-!
# Documents from templates

A template puts literal text, escaped values and elements one after the other, in any layout. What
comes of it reads back as the elements of the template.

* `openTag` / `emptyTag` / `closeTag` — how tags are written.
* `Content` — the content of an element, by the pieces it is made of.
* `Reading` — content is read and built as what it stands for; `Content.reading`.
* `parse_element` — the document of an element with such content.
-/

namespace Ultrav.Xml

/-! ## Pieces -/

/-- A start tag up to its bracket. -/
def tagHead (n : String) (attrs : List (String × String)) : List Char :=
  '<' :: (n.toList ++ attrs.flatMap writeAttr)

/-- `<n …>` -/
def openTag (n : String) (attrs : List (String × String)) : List Char := tagHead n attrs ++ ['>']

/-- `<n …/>` -/
def emptyTag (n : String) (attrs : List (String × String)) : List Char :=
  tagHead n attrs ++ ['/', '>']

/-- `</n>` -/
def closeTag (n : String) : List Char := '<' :: '/' :: (n.toList ++ ['>'])

/-- The name of an element and those of its attributes. -/
structure ValidTag (n : String) (attrs : List (String × String)) : Prop where
  name : validName n = true
  keys : ∀ a ∈ attrs, validName a.1 = true
  nodup : (attrs.map Prod.fst).Nodup

/-- What is read of attributes. -/
def readAttrs (attrs : List (String × String)) : List (String × String) :=
  attrs.map fun a => (a.1, legalText a.2)

/-- Characters that are content of an element, with their character data and their elements. -/
inductive Content : List Char → String → List (Element String) → Prop where
  | nil : Content [] "" []
  /-- literal text -/
  | literal (cs : List Char) : (∀ c ∈ cs, plain c = true ∧ c ≠ '>') → Content cs (.ofList cs) []
  /-- a value -/
  | escaped (s : String) : Content (s.toList.flatMap escape) (legalText s) []
  | element {n : String} {attrs : List (String × String)} {cs : List Char} {t : String}
      {ds : List (Element String)} : ValidTag n attrs → Content cs t ds →
      Content (openTag n attrs ++ (cs ++ closeTag n)) "" [.mk n (readAttrs attrs) t ds]
  | empty {n : String} {attrs : List (String × String)} : ValidTag n attrs →
      Content (emptyTag n attrs) "" [.mk n (readAttrs attrs) "" []]
  | append {cs cs' : List Char} {t t' : String} {ds ds' : List (Element String)} :
      Content cs t ds → Content cs' t' ds' → Content (cs ++ cs') (t ++ t') (ds ++ ds')

/-- A new line. -/
theorem Content.newline (depth : ℕ) : Content (newline depth) (.ofList (newline depth)) [] := by
  refine .literal _ fun c hc => ?_
  rw [Xml.newline, List.mem_cons, List.mem_replicate] at hc
  rcases hc with rfl | ⟨-, rfl⟩ <;> decide

/-! ## Reading -/

/-- The content is read without leaving the element, as the events `es`, and these build it. -/
structure Reading (cs : List Char) (t : String) (ds : List (Element String))
    (es : List Event) : Prop where
  run : ∀ {s : State} {k : ℕ}, s.mode = .text k → s.done = false → s.stack ≠ [] →
    ∃ s', s.run cs = some s' ∧ State.Within s s' es
  build : ∀ root n as t₀ ds₀ rest, es.foldl Builder.step ⟨root, .mk n as t₀ ds₀ :: rest⟩ =
    ⟨root, .mk n as (t₀ ++ t) (ds₀ ++ ds) :: rest⟩

namespace Reading

variable {cs cs' : List Char} {t t' : String} {ds ds' : List (Element String)}
  {es es' : List Event}

protected theorem nil : Reading [] "" [] [] :=
  ⟨fun {s k} hmode _ _ => ⟨s, rfl, ⟨k, hmode⟩, rfl, rfl, rfl⟩, fun _ _ _ _ _ _ => by simp⟩

/-- Content after content. -/
protected theorem append (h : Reading cs t ds es) (h' : Reading cs' t' ds' es') :
    Reading (cs ++ cs') (t ++ t') (ds ++ ds') (es ++ es') := by
  refine ⟨fun {s k} hmode hdone hstack => ?_, fun root n as t₀ ds₀ rest => ?_⟩
  · obtain ⟨s₁, hrun, hin⟩ := h.run hmode hdone hstack
    obtain ⟨k₁, hmode₁⟩ := hin.mode
    obtain ⟨s₂, hrun', hin'⟩ := h'.run hmode₁ (hin.done.trans hdone) (hin.stack_ne_nil hstack)
    exact ⟨s₂, by rw [State.run_append, hrun, Option.bind_some, hrun'], hin.trans hin'⟩
  · rw [List.foldl_append, h.build, h'.build, String.append_assoc, List.append_assoc]

/-- Characters that are read as they are. -/
theorem of_chars (hrun : ∀ {s : State} {k : ℕ}, s.mode = .text k → s.stack ≠ [] →
    ∃ k', s.run cs = some ((s.chars cs').goto (.text k'))) :
    Reading cs (.ofList cs') [] (cs'.map .char) := by
  refine ⟨fun {s k} hmode _ hstack => ?_, fun root n as t₀ ds₀ rest => ?_⟩
  · obtain ⟨k', hrun⟩ := hrun hmode hstack
    exact ⟨_, hrun, State.within_chars s k' cs'⟩
  · rw [Builder.foldl_chars, List.append_nil]

end Reading

namespace State

variable {s : State} {k : ℕ} {n : String} {attrs : List (String × String)}

/-- Text that cannot end a CDATA section. -/
theorem run_literal {cs : List Char} (hcs : ∀ c ∈ cs, plain c = true ∧ c ≠ '>')
    (hmode : s.mode = .text k) (hstack : s.stack ≠ []) :
    ∃ k', s.run cs = some ((s.chars cs).goto (.text k')) := by
  obtain ⟨k', hend⟩ : ∃ k', textEnd k cs = some k' := by
    have hne : ∀ c ∈ cs, c ≠ '>' := fun c hc => (hcs c hc).2
    clear hcs
    induction cs generalizing k s with
    | nil => exact ⟨k, rfl⟩
    | cons c cs ih =>
      rw [textEnd, if_neg (by simp [hne c List.mem_cons_self])]
      exact ih (s := ⟨.text (if c = ']' then min 2 (k + 1) else 0), s.stack, s.done, s.log⟩) rfl
        hstack fun d hd => hne d (List.mem_cons_of_mem c hd)
  refine ⟨k', ?_⟩
  rw [run_text (fun c hc => (hcs c hc).1) hmode hstack, hend]
  rfl

end State

namespace Reading

variable {n : String} {attrs : List (String × String)} {cs : List Char} {t : String}
  {ds : List (Element String)} {es : List Event}

/-- What is in a tag. -/
theorem foldl_tag (root : Option (Element String)) (stack : List (Element String))
    (n : String) (attrs : List (String × String)) :
    (.start n :: attrs.map attrEvent).foldl Builder.step ⟨root, stack⟩ =
      ⟨root, .mk n (readAttrs attrs) "" [] :: stack⟩ := by
  have hstart : Builder.step ⟨root, stack⟩ (.start n) = ⟨root, .mk n [] "" [] :: stack⟩ := rfl
  rw [List.foldl_cons, hstart, Builder.foldl_attrs, List.nil_append]
  rfl

/-- The events of an element. -/
def elementEvents (n : String) (attrs : List (String × String)) (es : List Event) : List Event :=
  (.start n :: attrs.map attrEvent) ++ (es ++ [.finish n !es.isEmpty])

/-- An element is read wherever one may stand. -/
theorem run_element (h : Reading cs t ds es) (hvalid : ValidTag n attrs) {s : State} {k : ℕ}
    (hmode : s.mode = .text k) (hdone : s.done = false) :
    s.run (openTag n attrs ++ (cs ++ closeTag n)) = some ⟨.text 0, State.fill s.stack,
      (State.fill s.stack).isEmpty, (elementEvents n attrs es).reverse ++ s.log⟩ := by
  have hopen := State.run_startTag hmode hdone hvalid.name hvalid.keys hvalid.nodup
  rw [← List.append_assoc, ← List.cons_append] at hopen
  obtain ⟨s', hrun, hin⟩ := h.run (s := ⟨.text 0, (n, false) :: State.fill s.stack, false,
    (attrs.map attrEvent).reverse ++ .start n :: s.log⟩) rfl rfl (List.cons_ne_nil _ _)
  obtain ⟨k', hmode'⟩ := hin.mode
  have hstack : s'.stack = (n, !es.isEmpty) :: State.fill s.stack := by
    rw [hin.stack]
    cases es <;> rfl
  rw [openTag, tagHead, closeTag, State.run_append, hopen, Option.bind_some, State.run_append,
    hrun, Option.bind_some, State.run_endTag hmode' hstack hvalid.name, hin.log]
  simp [elementEvents]

/-- An element is built. -/
theorem build_element (h : Reading cs t ds es) (b : Builder) :
    (elementEvents n attrs es).foldl Builder.step b = b.ended (.mk n (readAttrs attrs) t ds) := by
  rw [elementEvents, List.foldl_append, foldl_tag, List.foldl_append, h.build, List.foldl_cons,
    List.foldl_nil, Builder.step_finish, String.empty_append, List.nil_append]

end Reading

/-- **Content** is read as what it stands for. -/
theorem Content.reading {cs : List Char} {t : String} {ds : List (Element String)}
    (h : Content cs t ds) : ∃ es, Reading cs t ds es := by
  have hended : ∀ root n as (t₀ : String) ds₀ rest e,
      Builder.ended ⟨root, .mk n as t₀ ds₀ :: rest⟩ e =
        ⟨root, .mk n as (t₀ ++ "") (ds₀ ++ [e]) :: rest⟩ := by simp [Builder.ended]
  have hfill : ∀ {stack : List (String × Bool)}, stack ≠ [] →
      (State.fill stack).isEmpty = false := by
    intro stack hstack
    cases stack with
    | nil => exact absurd rfl hstack
    | cons p rest => rfl
  induction h with
  | nil => exact ⟨[], .nil⟩
  | literal cs hcs => exact ⟨_, .of_chars fun hmode hstack => State.run_literal hcs hmode hstack⟩
  | escaped s => exact ⟨_, .of_chars fun hmode hstack => State.run_escape_texts _ hmode hstack⟩
  | @element n attrs cs t ds hvalid _ ih =>
    obtain ⟨es, ih⟩ := ih
    refine ⟨Reading.elementEvents n attrs es, fun hmode hdone hstack => ?_, fun _ _ _ _ _ _ => ?_⟩
    · exact ⟨_, ih.run_element hvalid hmode hdone, ⟨0, rfl⟩, rfl,
        (hfill hstack).trans hdone.symm, rfl⟩
    · rw [ih.build_element, hended]
  | @empty n attrs hvalid =>
    refine ⟨Reading.elementEvents n attrs [], fun hmode hdone hstack => ?_, fun _ _ _ _ _ _ => ?_⟩
    · have hrun := State.run_emptyTag hmode hdone hvalid.name hvalid.keys hvalid.nodup
      rw [← List.append_assoc, ← List.cons_append] at hrun
      refine ⟨_, hrun, ⟨0, rfl⟩, rfl, (hfill hstack).trans hdone.symm, ?_⟩
      simp [Reading.elementEvents]
    · rw [Reading.nil.build_element, hended]
  | append _ _ ih ih' =>
    obtain ⟨es, ih⟩ := ih
    obtain ⟨es', ih'⟩ := ih'
    exact ⟨es ++ es', ih.append ih'⟩

/-! ## Documents -/

/-- The first tag of a document is read as any other. -/
theorem run_start {n : String} (hn : validName n = true) (cs : List Char) :
    State.start.run ('<' :: (n.toList ++ cs)) =
      (State.mk (.text 0) [] false []).run ('<' :: (n.toList ++ cs)) := by
  obtain ⟨c, name, hlist, hc, -⟩ := validName_toList hn
  have hne : c ≠ '/' ∧ c ≠ '!' ∧ c ≠ '?' := by
    refine ⟨?_, ?_, ?_⟩ <;> rintro rfl <;> exact absurd hc (by decide)
  have hstep (b : Bool) : (State.mk (.markup b) [] false []).step c =
      some ⟨.startName [c], [], false, []⟩ := by
    have hlegal := legal_of_nameChar (nameChar_of_nameStart hc)
    simp [State.step, hlegal, State.stepMarkup, hne, hc, State.goto]
  rw [hlist]
  exact congrArg (Option.bind · fun s => s.run (name ++ cs)) ((hstep true).trans (hstep false).symm)

/-- **The document of an element** is that element. -/
theorem parse_element {n : String} {attrs : List (String × String)} {cs : List Char} {t : String}
    {ds : List (Element String)} (hvalid : ValidTag n attrs) (h : Content cs t ds) :
    parse (.ofList (openTag n attrs ++ (cs ++ closeTag n))) =
      some (.mk n (readAttrs attrs) t ds) := by
  obtain ⟨es, h⟩ := h.reading
  have hrun := h.run_element (s := ⟨.text 0, [], false, []⟩) (k := 0) hvalid rfl rfl
  have hstart : State.start.run (openTag n attrs ++ (cs ++ closeTag n)) =
      (State.mk (.text 0) [] false []).run (openTag n attrs ++ (cs ++ closeTag n)) := by
    simp only [openTag, tagHead, List.cons_append, List.append_assoc]
    exact run_start hvalid.name _
  rw [← hstart] at hrun
  rw [parse, scan, String.toList_ofList, normalize_eq_self (State.not_mem_of_run hrun), hrun,
    Option.bind_some]
  change Option.bind (some (List.reverse _)) _ = _
  rw [List.append_nil, List.reverse_reverse, Option.bind_some, h.build_element]
  rfl

end Ultrav.Xml
