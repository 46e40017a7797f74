import Ultrav.CreateMachine
import Ultrav.Decimal
import Ultrav.XmlWriter

/-!
# The document of a volume

`CreateVirtualMachine` writes the volume document with a format string. The name, the size and
the pool of an accepted request are checked; the format is not.

* `volumeTree` — the element the document is to be.
* `SafeVolume` — the document is that element, and the volume has no path separator in its name.
* `Literal` — a format that stands for itself wherever the document puts it.
* `safeVolume_iff` — the accepted requests that are safe are those with such a format.
-/

namespace Ultrav

open Xml Xml.State

namespace VirtualMachineCreate

variable (req : VirtualMachineCreate)

/-- The name of the volume. -/
def volumeName : String := req.name ++ "." ++ req.format

/-- The element the document is to be, with something between its tags. -/
def volumeTree (gap : Fin 6 → String) : Node :=
  .element "volume" [("type", "file")] [
    .text (gap 0),
    .element "name" [] [.text req.volumeName],
    .text (gap 1),
    .element "capacity" [("unit", "bytes")] [.text (toString req.disk.sizeBytes)],
    .text (gap 2),
    .element "target" [] [
      .text (gap 3),
      .element "format" [("type", req.format)] [],
      .text (gap 4)],
    .text (gap 5)]

/-- The document is one volume element of the name, the capacity and the format asked for, with
nothing else but white space, and the name is not a path. -/
structure SafeVolume : Prop where
  document : ∃ gap, (∀ i, (gap i).toList.all space = true) ∧
    Parses req.volumeXML (req.volumeTree gap)
  name : '/' ∉ req.volumeName.toList

end VirtualMachineCreate

/-- A format that can be written as it is: in text, between single quotes and in a file name. -/
structure Literal (format : String) : Prop where
  plain : ∀ c ∈ format.toList, plainValue c = true
  quote : '\'' ∉ format.toList
  cdata : ¬ "]]>".toList <:+: format.toList
  slash : '/' ∉ format.toList

/-! ## What validation leaves of the other fields -/

/-- A character of a name or of a numeral. -/
structure Tame (c : Char) : Prop where
  plain : plain c = true
  bracket : c ≠ ']'
  slash : c ≠ '/'

theorem tame_of_toNat {c : Char} (h : 0x2D ≤ c.toNat ∧ c.toNat ≤ 0x7A)
    (h' : c.toNat ≠ 0x2F ∧ c.toNat ≠ 0x3C ∧ c.toNat ≠ 0x5D) : Tame c := by
  have hne : ∀ d : Char, c.toNat ≠ d.toNat → c ≠ d := fun d hd heq => hd (heq ▸ rfl)
  refine ⟨?_, hne _ h'.2.2, hne _ h'.1⟩
  have hlt : c ≠ '<' := hne _ h'.2.1
  have hamp : c ≠ '&' := hne _ (by change c.toNat ≠ 0x26; omega)
  have hcr : c ≠ '\r' := hne _ (by change c.toNat ≠ 0x0D; omega)
  have hlegal : legal c = true := by
    simp only [legal, Bool.or_eq_true, Bool.and_eq_true, decide_eq_true_eq]
    omega
  simp [plain, hlegal, hlt, hamp, hcr]

theorem tame_of_digit {c : Char} (h : c.isDigit = true) : Tame c := by
  simp only [Char.isDigit, Bool.and_eq_true, decide_eq_true_eq, ge_iff_le,
    UInt32.le_iff_toNat_le] at h
  change 0x30 ≤ c.toNat ∧ c.toNat ≤ 0x39 at h
  exact tame_of_toNat (by omega) (by omega)

/-- The characters of a name. -/
theorem tame_of_alnum {c : Char}
    (h : (alnum c || c = '.' || c = '_' || c = '-') = true) : Tame c := by
  simp only [alnum, digit, Bool.or_eq_true, Bool.and_eq_true, decide_eq_true_eq, Char.le_def,
    UInt32.le_iff_toNat_le] at h
  rcases h with ((((h | h) | h) | rfl) | rfl) | rfl
  · change 0x61 ≤ c.toNat ∧ c.toNat ≤ 0x7A at h
    exact tame_of_toNat (by omega) (by omega)
  · change 0x41 ≤ c.toNat ∧ c.toNat ≤ 0x5A at h
    exact tame_of_toNat (by omega) (by omega)
  · change 0x30 ≤ c.toNat ∧ c.toNat ≤ 0x39 at h
    exact tame_of_toNat (by omega) (by omega)
  · exact tame_of_toNat (by decide) (by decide)
  · exact tame_of_toNat (by decide) (by decide)
  · exact tame_of_toNat (by decide) (by decide)

/-- A name that passes the pattern. -/
theorem tame_of_namePattern {name : String} (h : namePattern name = true) :
    ∀ c ∈ name.toList, Tame c := by
  rw [namePattern] at h
  split at h
  · cases h
  rename_i c cs hname
  simp only [Bool.and_eq_true, List.all_eq_true] at h
  rw [hname]
  intro d hd
  rcases List.mem_cons.mp hd with rfl | hd
  · exact tame_of_alnum (by rw [h.1.1]; rfl)
  · exact tame_of_alnum (h.2 d hd)

/-- A document can hold it as it is. -/
theorem legalText_of_namePattern {name : String} (h : namePattern name = true) :
    legalText name = name := by
  refine legalText_eq_self (List.all_eq_true.mpr fun c hc => ?_)
  have hplain := (tame_of_namePattern h c hc).plain
  simp only [plain, Bool.and_eq_true] at hplain
  exact hplain.1.1.1

/-- The size of an accepted request is a numeral. -/
theorem size_toList {n : ℤ} (h : 1024 * 1024 ≤ n) :
    (toString n).toList = Nat.toDigits 10 n.toNat := by
  obtain ⟨m, rfl⟩ := Int.eq_ofNat_of_zero_le (Int.le_trans (by decide) h)
  change (Nat.repr m).toList = Nat.toDigits 10 m
  rw [Nat.repr, String.toList_ofList]

namespace VirtualMachineCreate

variable {req : VirtualMachineCreate}

/-- What validation checks of the values that reach the document. -/
theorem namePattern_and_size (h : req.validate = "") :
    namePattern req.name = true ∧ 1024 * 1024 ≤ req.disk.sizeBytes := by
  rw [validate] at h
  split at h
  · exact absurd h (by decide)
  rename_i hname
  split at h
  · exact absurd h (by decide)
  split at h
  · exact absurd h (by decide)
  split at h
  · exact absurd h (by decide)
  split at h
  · exact absurd h (by decide)
  rename_i hsize
  simp only [Bool.not_eq_true, Bool.not_eq_false'] at hname
  exact ⟨hname, Int.not_lt.mp hsize⟩

/-! ## Reading the document -/

/-- Up to the name. -/
def nameOpen : String := "<volume type='file'>\n  <name>"

/-- From the name to the size. -/
def capacityOpen : String := "</name>\n  <capacity unit='bytes'>"

/-- From the size to the format. -/
def formatOpen : String := "</capacity>\n  <target>\n    <format type='"

/-- From the format to the end. -/
def formatClose : String := "'/>\n  </target>\n</volume>"

/-- The document around its values. -/
def documentOf (name size format : List Char) : List Char :=
  nameOpen.toList ++ (name ++ (capacityOpen.toList ++ (size ++ (formatOpen.toList ++
    (format ++ formatClose.toList)))))

theorem volumeXML_toList (req : VirtualMachineCreate) : req.volumeXML.toList = documentOf
    req.volumeName.toList (toString req.disk.sizeBytes).toList req.format.toList := by
  unfold documentOf volumeXML volumeName nameOpen capacityOpen formatOpen formatClose
  simp only [String.toList_append, List.append_assoc]

/-- In the name or in the capacity. -/
def inField (field : String) (k : ℕ) (content : Bool) (log : List Event) : State :=
  ⟨.text k, [(field, content), ("volume", true)], false, log⟩

/-- In the type of the format. -/
def inFormat (buf : List Char) (log : List Event) : State :=
  ⟨.value [] "type" false buf, [("format", false), ("target", true), ("volume", true)], false, log⟩

theorem run_nameOpen : State.start.run nameOpen.toList = some (inField "name" 0 false
    [.start "name", .char ' ', .char ' ', .char '\n', .attr "type" "file", .start "volume"]) := rfl

theorem run_capacityOpen (k : ℕ) (log : List Event) :
    (inField "name" k true log).run capacityOpen.toList = some (inField "capacity" 0 false
      (.attr "unit" "bytes" :: .start "capacity" :: .char ' ' :: .char ' ' :: .char '\n' ::
        .finish "name" true :: log)) := rfl

theorem run_formatOpen (k : ℕ) (log : List Event) :
    (inField "capacity" k true log).run formatOpen.toList = some (inFormat []
      (.start "format" :: .char ' ' :: .char ' ' :: .char ' ' :: .char ' ' :: .char '\n' ::
        .start "target" :: .char ' ' :: .char ' ' :: .char '\n' ::
        .finish "capacity" true :: log)) := rfl

theorem run_formatClose (buf : List Char) (log : List Event) :
    (inFormat buf log).run formatClose.toList = some ⟨.text 0, [], true,
      .finish "volume" true :: .char '\n' :: .finish "target" true :: .char ' ' :: .char ' ' ::
        .char '\n' :: .finish "format" false :: .attr "type" (.ofList buf) :: log⟩ := rfl

/-- A value is the content of its element, unless it ends a CDATA section. -/
theorem run_field {field : String} {cs : List Char} (hne : cs ≠ [])
    (hplain : ∀ c ∈ cs, plain c = true) (log : List Event) :
    (inField field 0 false log).run cs = (textEnd 0 cs).map fun k =>
      inField field k true ((cs.map Event.char).reverse ++ log) := by
  rw [run_text hplain rfl (List.cons_ne_nil _ _)]
  congr 1
  funext k
  rw [chars_eq hne]
  rfl

theorem volumeName_toList (req : VirtualMachineCreate) :
    req.volumeName.toList = req.name.toList ++ '.' :: req.format.toList := by
  rw [volumeName, String.toList_append, String.toList_append, List.append_assoc]
  rfl

theorem volumeName_ne_nil (req : VirtualMachineCreate) : req.volumeName.toList ≠ [] := by
  rw [volumeName_toList]
  exact List.append_ne_nil_of_right_ne_nil _ (List.cons_ne_nil _ _)

/-- The name of the machine has no closing brackets, so only the format can end a section. -/
theorem textEnd_volumeName (hvalid : req.validate = "") :
    textEnd 0 req.volumeName.toList = textEnd 0 req.format.toList := by
  have htame := tame_of_namePattern (namePattern_and_size hvalid).1
  rw [volumeName_toList, textEnd_append, textEnd_of_not_mem fun h => (htame _ h).bracket rfl]
  rfl

/-- The numeral of the size. -/
theorem tame_of_size (hvalid : req.validate = "") :
    ∀ c ∈ (toString req.disk.sizeBytes).toList, Tame c := by
  rw [size_toList (namePattern_and_size hvalid).2]
  intro c hc
  exact tame_of_digit (Nat.isDigit_of_mem_toDigits (by decide) (by decide) hc)

theorem size_ne_nil (hvalid : req.validate = "") : (toString req.disk.sizeBytes).toList ≠ [] := by
  rw [size_toList (namePattern_and_size hvalid).2]
  exact Nat.toDigits_ne_nil

theorem plain_volumeName (hvalid : req.validate = "")
    (hplain : ∀ c ∈ req.format.toList, plain c = true) :
    ∀ c ∈ req.volumeName.toList, plain c = true := by
  intro c hc
  rw [volumeName_toList, List.mem_append, List.mem_cons] at hc
  rcases hc with hc | rfl | hc
  · exact (tame_of_namePattern (namePattern_and_size hvalid).1 c hc).plain
  · rfl
  · exact hplain c hc

/-- The document up to the format, newest first. -/
def beforeFormat (name size : List Char) : List Event :=
  .start "format" :: .char ' ' :: .char ' ' :: .char ' ' :: .char ' ' :: .char '\n' ::
    .start "target" :: .char ' ' :: .char ' ' :: .char '\n' :: .finish "capacity" true ::
    ((size.map Event.char).reverse ++
      .attr "unit" "bytes" :: .start "capacity" :: .char ' ' :: .char ' ' :: .char '\n' ::
        .finish "name" true :: ((name.map Event.char).reverse ++
          [.start "name", .char ' ', .char ' ', .char '\n', .attr "type" "file",
            .start "volume"]))

/-- The document is read up to the format, unless the format ends a CDATA section in the name. -/
theorem run_volumeXML (hvalid : req.validate = "")
    (hplain : ∀ c ∈ req.format.toList, plain c = true) :
    State.start.run req.volumeXML.toList = (textEnd 0 req.format.toList).bind fun _ =>
      (inFormat [] (beforeFormat req.volumeName.toList (toString req.disk.sizeBytes).toList)).run
        (req.format.toList ++ formatClose.toList) := by
  have hsize := tame_of_size hvalid
  rw [volumeXML_toList, documentOf, run_append, run_nameOpen, Option.bind_some, run_append,
    run_field (volumeName_ne_nil req) (plain_volumeName hvalid hplain), textEnd_volumeName hvalid]
  cases textEnd 0 req.format.toList with
  | none => rfl
  | some k =>
    rw [Option.map_some, Option.bind_some, Option.bind_some, run_append, run_capacityOpen,
      Option.bind_some, run_append,
      run_field (size_ne_nil hvalid) fun c hc => (hsize c hc).plain,
      textEnd_of_not_mem fun h => (hsize _ h).bracket rfl, Option.map_some, Option.bind_some,
      run_append, run_formatOpen, Option.bind_some]
    rfl

/-! ## A literal format is safe -/

/-- The white space of the document. -/
def layout : Fin 6 → String
  | 3 => "\n    "
  | 5 => "\n"
  | _ => "\n  "

/-- What the tree says, in order. -/
def treeEvents (gap : Fin 6 → String) (name size : List Char) (format : String) : List Event :=
  .start "volume" :: .attr "type" "file" :: ((gap 0).toList.map Event.char ++
    .start "name" :: (name.map Event.char ++
    .finish "name" true :: ((gap 1).toList.map Event.char ++
    .start "capacity" :: .attr "unit" "bytes" :: (size.map Event.char ++
    .finish "capacity" true :: ((gap 2).toList.map Event.char ++
    .start "target" :: ((gap 3).toList.map Event.char ++
    .start "format" :: .attr "type" format :: .finish "format" false ::
    ((gap 4).toList.map Event.char ++
    .finish "target" true :: ((gap 5).toList.map Event.char ++
    [.finish "volume" true]))))))))

theorem events_volumeTree (hvalid : req.validate = "") (gap : Fin 6 → String) :
    (req.volumeTree gap).events = treeEvents gap req.volumeName.toList
      (toString req.disk.sizeBytes).toList req.format := by
  have hne := And.intro (volumeName_ne_nil req) (size_ne_nil hvalid)
  simpa [volumeTree, Node.events, eventsAll, treeEvents] using hne

/-- The log at the end of the document. -/
theorem reverse_log (name size : List Char) (format : String) :
    (.finish "volume" true :: .char '\n' :: .finish "target" true :: .char ' ' :: .char ' ' ::
      .char '\n' :: .finish "format" false :: .attr "type" format ::
        beforeFormat name size).reverse = treeEvents layout name size format := by
  simp [beforeFormat, treeEvents, layout]

theorem not_mem_cr (hvalid : req.validate = "")
    (hplain : ∀ c ∈ req.format.toList, plain c = true) : '\r' ∉ req.volumeXML.toList := by
  have hcr : ∀ {c : Char}, plain c = true → '\r' ≠ c := by
    rintro c hc rfl
    exact absurd hc (by decide)
  rw [volumeXML_toList, documentOf]
  simp only [List.mem_append, not_or]
  exact ⟨by decide, fun h => hcr (plain_volumeName hvalid hplain _ h) rfl, by decide,
    fun h => hcr (tame_of_size hvalid _ h).plain rfl, by decide,
    fun h => hcr (hplain _ h) rfl, by decide⟩

/-- A literal format does not break the document. -/
theorem parses_of_literal (hvalid : req.validate = "") (h : Literal req.format) :
    Parses req.volumeXML (req.volumeTree layout) := by
  have hend : textEnd 0 req.format.toList ≠ none :=
    mt (textEnd_eq_none_iff (Nat.zero_le 2) _).mp h.cdata
  obtain ⟨k, hk⟩ := Option.ne_none_iff_exists'.mp hend
  have hvalue : ∀ c ∈ req.format.toList, plainValue c = true ∧
      c ≠ if (false : Bool) then '"' else '\'' := by
    intro c hc
    refine ⟨h.plain c hc, ?_⟩
    rintro rfl
    exact h.quote hc
  have hplain := fun c hc => plain_of_plainValue (h.plain c hc)
  rw [Parses, scan, normalize_eq_self (not_mem_cr hvalid hplain), run_volumeXML hvalid hplain, hk,
    Option.bind_some, run_append, run_value hvalue rfl, Option.bind_some]
  change ((inFormat req.format.toList _).run formatClose.toList).bind _ = _
  rw [run_formatClose, Option.bind_some, events_volumeTree hvalid, String.ofList_toList]
  exact congrArg some (reverse_log _ _ _)

/-! ## A safe format is literal -/

/-- The ink of the names and values that are always there. -/
theorem inkOf_words : inkOf "volume".toList = 6 ∧ inkOf "name".toList = 4 ∧
    inkOf "capacity".toList = 8 ∧ inkOf "target".toList = 6 ∧ inkOf "format".toList = 6 ∧
    inkOf "type".toList = 4 ∧ inkOf "file".toList = 4 ∧ inkOf "unit".toList = 4 ∧
    inkOf "bytes".toList = 5 := by decide

theorem weight_treeEvents {gap : Fin 6 → String} (hgap : ∀ i, (gap i).toList.all space = true)
    (name size : List Char) (format : String) :
    weight (treeEvents gap name size format) =
      107 + inkOf name + inkOf size + inkOf format.toList := by
  simp only [treeEvents, weight_cons, weight_append, weight_map_char, weight_nil, Event.weight,
    fun i => inkOf_of_space (hgap i), inkOf_words, if_true, Bool.false_eq_true, if_false]
  omega

theorem inkOf_pieces : inkOf nameOpen.toList = 25 ∧ inkOf capacityOpen.toList = 29 ∧
    inkOf formatOpen.toList = 32 ∧ inkOf formatClose.toList = 21 := by decide

theorem inkOf_documentOf (name size format : List Char) :
    inkOf (documentOf name size format) = 107 + inkOf name + inkOf size + inkOf format := by
  simp only [documentOf, inkOf_append, inkOf_pieces]
  omega

/-- The document takes as much ink as what the tree says, so all of it is written literally. -/
theorem clean_of_parses (hvalid : req.validate = "") {gap : Fin 6 → String}
    (hgap : ∀ i, (gap i).toList.all space = true)
    (h : Parses req.volumeXML (req.volumeTree gap)) :
    ∀ c ∈ req.format.toList, plainValue c = true := by
  have hclean := clean_of_weight h (by
    rw [events_volumeTree hvalid, weight_treeEvents hgap, volumeXML_toList, inkOf_documentOf])
  have hattr : Event.attr "type" req.format ∈ (req.volumeTree gap).events := by
    rw [events_volumeTree hvalid]
    simp [treeEvents]
  exact List.all_eq_true.mp (hclean _ hattr)

/-- The attribute an event is. -/
def attrOf : Event → Option (String × String)
  | .attr name value => some (name, value)
  | _ => none

@[simp] theorem filterMap_char (cs : List Char) : cs.filterMap (attrOf ∘ Event.char) = [] :=
  List.filterMap_eq_nil_iff.mpr fun _ _ => rfl

theorem attrs_treeEvents (gap : Fin 6 → String) (name size : List Char) (format : String) :
    (treeEvents gap name size format).filterMap attrOf =
      [("type", "file"), ("unit", "bytes"), ("type", format)] := by
  simp [treeEvents, attrOf, List.filterMap_cons]

theorem attrs_beforeFormat (name size : List Char) (value : String) :
    (.attr "type" value :: beforeFormat name size).reverse.filterMap attrOf =
      [("type", "file"), ("unit", "bytes"), ("type", value)] := by
  simp [beforeFormat, attrOf, List.filterMap_cons]

/-- A quote ends the value. -/
theorem step_quote (buf : List Char) (log : List Event) :
    (inFormat buf log).step '\'' = some ⟨.tag ["type"] false,
      [("format", false), ("target", true), ("volume", true)], false,
      .attr "type" (.ofList buf) :: log⟩ := rfl

/-- What was read of a document that is the tree. -/
theorem run_of_parses (hvalid : req.validate = "") {gap : Fin 6 → String}
    (hplain : ∀ c ∈ req.format.toList, plain c = true)
    (h : Parses req.volumeXML (req.volumeTree gap)) :
    textEnd 0 req.format.toList ≠ none ∧
      ∃ s, (inFormat [] (beforeFormat req.volumeName.toList
          (toString req.disk.sizeBytes).toList)).run
            (req.format.toList ++ formatClose.toList) = some s ∧
        s.log.reverse = (req.volumeTree gap).events := by
  obtain ⟨s, hs, -, hlog⟩ := scan_eq_some h
  rw [normalize_eq_self (not_mem_cr hvalid hplain), run_volumeXML hvalid hplain] at hs
  obtain ⟨k, hk, hs⟩ := Option.bind_eq_some_iff.mp hs
  exact ⟨by rw [hk]; exact Option.some_ne_none k, s, hs, hlog⟩

/-- A format with a quote in it ends the value early: the third attribute is only a part of it. -/
theorem quote_of_parses (hvalid : req.validate = "") {gap : Fin 6 → String}
    (hplain : ∀ c ∈ req.format.toList, plainValue c = true)
    (h : Parses req.volumeXML (req.volumeTree gap)) : '\'' ∉ req.format.toList := by
  intro hquote
  obtain ⟨before, after, hformat, hnot⟩ := List.eq_append_cons_of_mem hquote
  have hbefore : ∀ c ∈ before, plainValue c = true ∧
      c ≠ if (false : Bool) then '"' else '\'' := by
    intro c hc
    refine ⟨hplain c (by rw [hformat]; exact List.mem_append_left _ hc), ?_⟩
    rintro rfl
    exact hnot hc
  obtain ⟨-, s, hs, hlog⟩ :=
    run_of_parses hvalid (fun c hc => plain_of_plainValue (hplain c hc)) h
  rw [hformat, List.append_assoc, run_append, run_value hbefore rfl, Option.bind_some] at hs
  obtain ⟨t, ht, hs⟩ := Option.bind_eq_some_iff.mp hs
  obtain rfl := Option.some.inj ((step_quote before _).symm.trans ht)
  -- the log only grows, so the third attribute of the document is the value before the quote
  have hprefix := (List.reverse_prefix.mpr (frugal_run hs).log).filterMap attrOf
  rw [hlog, events_volumeTree hvalid] at hprefix
  change (Event.attr "type" (.ofList before) :: beforeFormat _ _).reverse.filterMap attrOf <+:
    _ at hprefix
  rw [attrs_beforeFormat, attrs_treeEvents] at hprefix
  have heq := hprefix.eq_of_length rfl
  have hvalue : String.ofList before = req.format := by simpa using heq
  rw [← hvalue, String.toList_ofList] at hquote
  exact hnot hquote

/-- **The volume document** of an accepted request is safe exactly when its format is literal:
nothing checks the format before it is written into the document. -/
theorem safeVolume_iff (req : VirtualMachineCreate) (hvalid : req.validate = "") :
    req.SafeVolume ↔ Literal req.format := by
  have hslash : '/' ∈ req.volumeName.toList ↔ '/' ∈ req.format.toList := by
    have htame := tame_of_namePattern (namePattern_and_size hvalid).1
    rw [volumeName_toList, List.mem_append, List.mem_cons]
    exact ⟨fun h => (h.resolve_left fun h => (htame _ h).slash rfl).resolve_left (by decide),
      fun h => .inr (.inr h)⟩
  constructor
  · rintro ⟨⟨gap, hgap, hparse⟩, hname⟩
    have hplain := clean_of_parses hvalid hgap hparse
    obtain ⟨hend, -⟩ :=
      run_of_parses hvalid (fun c hc => plain_of_plainValue (hplain c hc)) hparse
    exact ⟨hplain, quote_of_parses hvalid hplain hparse,
      mt (textEnd_eq_none_iff (Nat.zero_le 2) _).mpr hend, mt hslash.mpr hname⟩
  · intro h
    exact ⟨⟨layout, by decide, parses_of_literal hvalid h⟩, mt hslash.mp h.slash⟩

end VirtualMachineCreate

namespace UnknownNetwork

/-- The default format is safe. -/
theorem createRequest_safe : createRequest.SafeVolume :=
  (VirtualMachineCreate.safeVolume_iff createRequest rfl).mpr
    ⟨List.all_eq_true.mp rfl, by decide, by decide, by decide⟩

/-- A format with a quote in it. -/
def quotedRequest : VirtualMachineCreate :=
  { createRequest with disk := ⟨some "raw'", "images", 10737418240⟩ }

/-- Validation accepts a request whose document is not the one asked for. -/
theorem validate_not_safe :
    ¬ ∀ req : VirtualMachineCreate, req.validate = "" → req.SafeVolume := by
  intro hall
  obtain ⟨⟨gap, -, hparse⟩, -⟩ := hall quotedRequest rfl
  exact VirtualMachineCreate.quote_of_parses rfl (List.all_eq_true.mp rfl) hparse (by decide)

end UnknownNetwork

end Ultrav
