import Ultrav.DomainModel
import Ultrav.StorageVisibility
import Ultrav.Words

/-!
# The table of mounts

The kernel writes one line for each mount, with the characters that would break a line apart as
octal escapes. The provider reads the lines back.

* `parseMountinfo` — how the provider reads the table.
* `MountRow` / `mountinfo` — what the kernel knows of a mount, and the table it writes.
* `unescapeMount_mangle` — the escapes are undone.
* `parseMountinfo_eq_iff` — the mounts that are read back: other blanks in a name break a line too.
-/

namespace Ultrav

/-! ## The provider -/

/-- `mountEscapes` / `unescapeMount` -/
def unescapeMount : List Char → List Char
  | '\\' :: '0' :: '4' :: '0' :: cs => ' ' :: unescapeMount cs
  | '\\' :: '0' :: '1' :: '1' :: cs => '\t' :: unescapeMount cs
  | '\\' :: '0' :: '1' :: '2' :: cs => '\n' :: unescapeMount cs
  | '\\' :: '1' :: '3' :: '4' :: cs => '\\' :: unescapeMount cs
  | c :: cs => c :: unescapeMount cs
  | [] => []

/-- One line of `parseMountinfo`, in fields. -/
def parseMountFields (fields : List (List Char)) : Option MountEntry :=
  if fields.length < 7 then none
  else
    match (fields.drop 5).findIdx? (· = ['-']) with
    | none => none
    | some i =>
      let sep := i + 5
      if sep + 1 ≥ fields.length then none
      else some
        { root := .ofList (unescapeMount (fields.getD 3 []))
          mountPoint := .ofList (unescapeMount (fields.getD 4 []))
          fsType := .ofList (fields.getD (sep + 1) []) }

/-- `parseMountinfo` -/
def parseMountinfo (text : List Char) : List MountEntry :=
  (scanLines (1024 * 1024) text).filterMap fun line => parseMountFields (words isSpace line)

/-! ## The kernel -/

/-- The characters that are escaped. -/
def mangled : List Char := [' ', '\t', '\n', '\\']

/-- A character as a backslash and three octal digits. -/
def octal (c : Char) : List Char :=
  ['\\', Nat.digitChar (c.toNat / 64), Nat.digitChar (c.toNat / 8 % 8), Nat.digitChar (c.toNat % 8)]

def mangle (s : List Char) : List Char := s.flatMap fun c => if c ∈ mangled then octal c else [c]

/-- The options of a mount, and what may be between them and the dash. -/
structure MountField where
  text : String
  word : IsWord isSpace text.toList
  ne_dash : text ≠ "-"

/-- A mount. -/
structure MountRow where
  id : ℕ
  parent : ℕ
  major : ℕ
  minor : ℕ
  root : String
  mountPoint : String
  options : MountField
  optional : List MountField
  fsType : String
  source : String
  superOptions : String
  no_newline : '\n' ∉ superOptions.toList

namespace MountRow

variable (m : MountRow)

/-- In front of the names. -/
def ids : List (List Char) :=
  [Nat.toDigits 10 m.id, Nat.toDigits 10 m.parent,
    Nat.toDigits 10 m.major ++ ':' :: Nat.toDigits 10 m.minor]

/-- Between the names and the dash. -/
def tags : List (List Char) := (m.options :: m.optional).map fun f => f.text.toList

def fields : List (List Char) :=
  m.ids ++ [mangle m.root.toList, mangle m.mountPoint.toList] ++ m.tags ++
    [['-'], mangle m.fsType.toList, mangle m.source.toList, m.superOptions.toList]

/-- A line of the table. -/
def line : List Char := [' '].intercalate m.fields

/-- What the provider takes of it. -/
def entry : MountEntry := ⟨m.root, m.mountPoint, m.fsType⟩

end MountRow

/-- `/proc/self/mountinfo` -/
def mountinfo (ms : List MountRow) : List Char := ms.flatMap fun m => m.line ++ ['\n']

/-- A name without other blanks than those that are escaped. -/
structure Clear (name : String) : Prop where
  ne_empty : name ≠ ""
  blanks : ∀ c ∈ name.toList, isSpace c = true → c ∈ mangled

theorem clear_iff {name : String} :
    name ≠ "" ∧ (name.toList.all fun c => !isSpace c || c ∈ mangled) = true ↔ Clear name := by
  rw [List.all_eq_true]
  simp only [Bool.or_eq_true, Bool.not_eq_true', decide_eq_true_eq]
  constructor
  · exact fun h => ⟨h.1, fun c hc hspace => (h.2 c hc).resolve_left (by simp [hspace])⟩
  · refine fun h => ⟨h.ne_empty, fun c hc => ?_⟩
    cases hspace : isSpace c with
    | false => exact .inl rfl
    | true => exact .inr (h.blanks c hc hspace)

instance (name : String) : Decidable (Clear name) := decidable_of_iff _ clear_iff

/-- What it takes: names that are there, without other blanks, and a type without escapes. -/
structure MountRow.Readable (m : MountRow) : Prop where
  root : Clear m.root
  mountPoint : Clear m.mountPoint
  fsType : IsWord isSpace m.fsType.toList
  no_backslash : '\\' ∉ m.fsType.toList

/-! ## Escapes -/

theorem unescapeMount_cons {c : Char} (h : c ≠ '\\') (cs : List Char) :
    unescapeMount (c :: cs) = c :: unescapeMount cs := by
  rw [unescapeMount] <;> simp [h]

theorem unescapeMount_octal {c : Char} (h : c ∈ mangled) (cs : List Char) :
    unescapeMount (octal c ++ cs) = c :: unescapeMount cs := by
  simp only [mangled, List.mem_cons, List.not_mem_nil, or_false] at h
  rcases h with rfl | rfl | rfl | rfl <;> rfl

/-- **There and back**: the escapes are undone. -/
theorem unescapeMount_mangle (s : List Char) : unescapeMount (mangle s) = s := by
  induction s with
  | nil => rfl
  | cons c s ih =>
    rw [mangle, List.flatMap_cons, ← mangle]
    split
    · rename_i hc
      rw [unescapeMount_octal hc, ih]
    · rename_i hc
      have hslash : c ≠ '\\' := fun heq => hc (heq ▸ by decide)
      rw [List.singleton_append, unescapeMount_cons hslash, ih]

theorem mem_unescapeMount {c : Char} {s : List Char} (h : c ∈ unescapeMount s) :
    c ∈ s ∨ c ∈ mangled := by
  fun_induction unescapeMount s with
  | case1 cs ih | case2 cs ih | case3 cs ih | case4 cs ih =>
    rcases List.mem_cons.mp h with rfl | h
    · exact .inr (by decide)
    · exact (ih h).imp_left fun hc => by simp [hc]
  | case5 d cs _ _ _ _ ih =>
    rcases List.mem_cons.mp h with rfl | h
    · exact .inl List.mem_cons_self
    · exact (ih h).imp_left (List.mem_cons_of_mem d)
  | case6 => exact absurd h List.not_mem_nil

theorem unescapeMount_ne_nil {s : List Char} (h : s ≠ []) : unescapeMount s ≠ [] := by
  fun_cases unescapeMount s <;> simp_all

/-- What is read from a word is a name without other blanks. -/
theorem clear_unescapeMount {w : List Char} (h : IsWord isSpace w) :
    Clear (.ofList (unescapeMount w)) := by
  constructor
  · intro hempty
    exact unescapeMount_ne_nil h.ne_nil (String.ofList_inj.mp hempty)
  · intro c hc hspace
    rw [String.toList_ofList] at hc
    refine (mem_unescapeMount hc).resolve_left fun hmem => ?_
    rw [h.no_blank c hmem] at hspace
    cases hspace

theorem isSpace_octal {c d : Char} (hc : c ∈ mangled) (hd : d ∈ octal c) : isSpace d = false := by
  simp only [mangled, List.mem_cons, List.not_mem_nil, or_false] at hc
  have hword : ∀ l : List Char, d ∈ l → IsWord isSpace l → isSpace d = false :=
    fun _ hd hl => hl.no_blank d hd
  rcases hc with rfl | rfl | rfl | rfl <;> exact hword _ hd (by decide)

theorem mem_mangle {d : Char} {s : List Char} :
    d ∈ mangle s ↔ ∃ c ∈ s, if c ∈ mangled then d ∈ octal c else d = c := by
  rw [mangle, List.mem_flatMap]
  refine exists_congr fun c => and_congr_right fun _ => ?_
  split <;> simp

/-- A name is written as one word when it has no other blanks. -/
theorem isWord_mangle {name : String} (h : Clear name) : IsWord isSpace (mangle name.toList) := by
  constructor
  · intro hnil
    have hempty := unescapeMount_mangle name.toList
    rw [hnil] at hempty
    exact h.ne_empty (String.toList_inj.mp hempty.symm)
  · intro d hd
    obtain ⟨c, hc, hcase⟩ := mem_mangle.mp hd
    split at hcase
    · exact isSpace_octal ‹_› hcase
    · subst hcase
      exact Bool.eq_false_iff.mpr fun hspace => ‹d ∉ mangled› (h.blanks d hc hspace)

theorem newline_notMem_mangle (s : List Char) : '\n' ∉ mangle s := by
  intro h
  obtain ⟨c, -, hcase⟩ := mem_mangle.mp h
  split at hcase
  · exact absurd (isSpace_octal ‹_› hcase) (by decide)
  · rename_i hnot
    subst hcase
    exact hnot (by decide)

theorem mangle_cons (c : Char) (s : List Char) :
    mangle (c :: s) = (if c ∈ mangled then octal c else [c]) ++ mangle s := List.flatMap_cons ..

theorem length_le_mangle (s : List Char) : s.length ≤ (mangle s).length := by
  induction s with
  | nil => exact Nat.le_refl _
  | cons c s ih =>
    rw [mangle_cons, List.length_append, List.length_cons]
    split
    · rw [octal]
      simp only [List.length_cons]
      omega
    · rw [List.length_singleton]
      omega

/-- An escape is longer than what it stands for. -/
theorem mangle_eq_self_iff {s : List Char} : mangle s = s ↔ ∀ c ∈ s, c ∉ mangled := by
  induction s with
  | nil => simp [mangle]
  | cons c s ih =>
    rw [mangle_cons, List.forall_mem_cons, ← ih]
    split
    · rename_i hc
      refine iff_of_false (fun heq => ?_) fun h => h.1 hc
      have hlen := congrArg List.length heq
      have hle := length_le_mangle s
      rw [List.length_append, octal] at hlen
      simp only [List.length_cons, List.length_nil] at hlen
      omega
    · rename_i hc
      simp [hc]

theorem clear_of_isWord {name : String} (h : IsWord isSpace name.toList) : Clear name where
  ne_empty := fun hempty => h.ne_nil (by rw [hempty]; rfl)
  blanks := fun c hc hspace => by rw [h.no_blank c hc] at hspace; cases hspace

/-- A word is written as it is unless there is a backslash in it. -/
theorem mangle_eq_self_of_isWord {w : List Char} (h : IsWord isSpace w) :
    mangle w = w ↔ '\\' ∉ w := by
  rw [mangle_eq_self_iff]
  refine ⟨fun hw hmem => hw _ hmem (by decide), fun hslash c hc hmangled => ?_⟩
  have hspace := h.no_blank c hc
  simp only [mangled, List.mem_cons, List.not_mem_nil, or_false] at hmangled
  rcases hmangled with rfl | rfl | rfl | rfl
  · cases hspace
  · cases hspace
  · cases hspace
  · exact hslash hc

/-! ## A line -/

theorem isWord_toDigits (n : ℕ) : IsWord isSpace (Nat.toDigits 10 n) where
  ne_nil := Nat.toDigits_ne_nil
  no_blank _ hc := isSpace_of_isDigit (isDigit_numeral hc)

theorem parseMountFields_eq {a b c r p t : List Char} {tags rest : List (List Char)}
    (h : ['-'] ∉ tags) :
    parseMountFields (a :: b :: c :: r :: p :: (tags ++ ['-'] :: t :: rest)) =
      some ⟨.ofList (unescapeMount r), .ofList (unescapeMount p), .ofList t⟩ := by
  have hsep : (tags ++ ['-'] :: t :: rest).findIdx? (· = ['-']) = some tags.length := by
    have hnone : tags.findIdx? (· = ['-']) = none :=
      List.findIdx?_eq_none_iff.mpr fun x hx => decide_eq_false fun heq => h (heq ▸ hx)
    rw [List.findIdx?_append, hnone]
    simp [List.findIdx?_cons]
  have hlen : (a :: b :: c :: r :: p :: (tags ++ ['-'] :: t :: rest)).length =
      tags.length + rest.length + 7 := by
    simp only [List.length_cons, List.length_append]
    omega
  have ht : (a :: b :: c :: r :: p :: (tags ++ ['-'] :: t :: rest)).getD (tags.length + 5 + 1) [] =
      t := by
    simp [List.getD_eq_getElem?_getD]
  rw [parseMountFields, hlen, if_neg (by omega)]
  simp only [List.drop_succ_cons, List.drop_zero, hsep]
  rw [if_neg (by omega), ht]
  rfl

theorem parseMountFields_some {fields : List (List Char)} {e : MountEntry}
    (h : parseMountFields fields = some e) : ∃ r ∈ fields, ∃ p ∈ fields, ∃ t ∈ fields,
      e = ⟨.ofList (unescapeMount r), .ofList (unescapeMount p), .ofList t⟩ := by
  have hmem : ∀ {i}, i < fields.length → fields.getD i [] ∈ fields := fun hi => by
    simp [List.getD_eq_getElem?_getD, hi]
  rw [parseMountFields] at h
  split at h
  · cases h
  · split at h
    · cases h
    · rename_i hlen _ i _
      simp only at h
      split at h
      · cases h
      · exact ⟨_, hmem (i := 3) (by omega), _, hmem (i := 4) (by omega), _,
          hmem (i := i + 5 + 1) (by omega), (Option.some.inj h).symm⟩

section Row

variable {m : MountRow}

theorem isWord_ids {w : List Char} (h : w ∈ m.ids) : IsWord isSpace w := by
  simp only [MountRow.ids, List.mem_cons, List.not_mem_nil, or_false] at h
  rcases h with rfl | rfl | rfl
  · exact isWord_toDigits _
  · exact isWord_toDigits _
  · refine ⟨by simp, fun c hc => ?_⟩
    rcases List.mem_append.mp hc with hc | hc
    · exact (isWord_toDigits _).no_blank c hc
    · rcases List.mem_cons.mp hc with rfl | hc
      · decide
      · exact (isWord_toDigits _).no_blank c hc

theorem isWord_tags {w : List Char} (h : w ∈ m.tags) : IsWord isSpace w ∧ w ≠ ['-'] := by
  obtain ⟨f, -, rfl⟩ := List.mem_map.mp h
  exact ⟨f.word, fun heq => f.ne_dash (String.toList_inj.mp heq)⟩

/-- **The words of a line**: a name that is written as no word, or as several, shifts the rest. -/
theorem words_line : words isSpace m.line =
    m.ids ++ (words isSpace (mangle m.root.toList) ++ words isSpace (mangle m.mountPoint.toList)) ++
      m.tags ++ ['-'] :: (words isSpace (mangle m.fsType.toList) ++
        (words isSpace (mangle m.source.toList) ++ words isSpace m.superOptions.toList)) := by
  have hids := flatMap_words fun w (hw : w ∈ m.ids) => isWord_ids hw
  have htags := flatMap_words fun w (hw : w ∈ m.tags) => (isWord_tags hw).1
  have hdash : words isSpace ['-'] = [['-']] := by decide
  rw [MountRow.line, words_intercalate rfl, MountRow.fields]
  simp only [List.flatMap_append, List.flatMap_cons, List.flatMap_nil, hids, htags, hdash]
  simp

theorem parse_line (hroot : Clear m.root) (hpoint : Clear m.mountPoint)
    (htype : IsWord isSpace (mangle m.fsType.toList)) :
    parseMountFields (words isSpace m.line) =
      some ⟨m.root, m.mountPoint, .ofList (mangle m.fsType.toList)⟩ := by
  have hdash : ['-'] ∉ m.tags := fun h => (isWord_tags h).2 rfl
  rw [words_line, words_of_isWord (isWord_mangle hroot), words_of_isWord (isWord_mangle hpoint),
    words_of_isWord htype, MountRow.ids]
  simp only [List.cons_append, List.nil_append]
  rw [parseMountFields_eq hdash, unescapeMount_mangle, unescapeMount_mangle, String.ofList_toList,
    String.ofList_toList]

/-- **One line** is read back when the names and the type are readable. -/
theorem parse_line_iff :
    parseMountFields (words isSpace m.line) = some m.entry ↔ m.Readable := by
  constructor
  · intro h
    obtain ⟨r, hr, p, hp, t, ht, he⟩ := parseMountFields_some h
    obtain ⟨hroot, hpoint, htype⟩ := MountEntry.mk.inj he
    have hclear : Clear m.root := hroot ▸ clear_unescapeMount (mem_words hr)
    have hclear' : Clear m.mountPoint := hpoint ▸ clear_unescapeMount (mem_words hp)
    have hword : IsWord isSpace m.fsType.toList := by
      rw [htype, String.toList_ofList]
      exact mem_words ht
    refine ⟨hclear, hclear', hword, ?_⟩
    -- the type is taken as it is written
    rw [parse_line hclear hclear' (isWord_mangle (clear_of_isWord hword))] at h
    obtain ⟨-, -, hsame⟩ := MountEntry.mk.inj (Option.some.inj h)
    refine (mangle_eq_self_of_isWord hword).mp ?_
    rw [← String.toList_inj, String.toList_ofList] at hsame
    exact hsame
  · intro h
    have hsame := (mangle_eq_self_of_isWord h.fsType).mpr h.no_backslash
    rw [parse_line h.root h.mountPoint (hsame.symm ▸ h.fsType), hsame, String.ofList_toList,
      MountRow.entry]

theorem newline_notMem_line (m : MountRow) : '\n' ∉ m.line := by
  intro h
  have hblank : ∀ {w : List Char}, IsWord isSpace w → '\n' ∉ w :=
    fun hw hmem => absurd (hw.no_blank _ hmem) (by decide)
  rcases mem_of_mem_intercalate h with h | ⟨part, hpart, h⟩
  · exact absurd h (by decide)
  · simp only [MountRow.fields, List.mem_append, List.mem_cons, List.not_mem_nil, or_false] at hpart
    rcases hpart with ((hid | rfl | rfl) | htag) | rfl | rfl | rfl | rfl
    · exact hblank (isWord_ids hid) h
    · exact newline_notMem_mangle _ h
    · exact newline_notMem_mangle _ h
    · exact hblank (isWord_tags htag).1 h
    · exact absurd h (by decide)
    · exact newline_notMem_mangle _ h
    · exact newline_notMem_mangle _ h
    · exact m.no_newline h

end Row

/-! ## The table -/

theorem filterMap_eq_map_iff {α β : Type} {f : α → Option β} {g : α → β} {l : List α} :
    l.filterMap f = l.map g ↔ ∀ a ∈ l, f a = some (g a) := by
  induction l with
  | nil => simp
  | cons a l ih =>
    rw [List.forall_mem_cons, ← ih, List.map_cons]
    cases hfa : f a with
    | none =>
      -- one less cannot be made up for
      rw [List.filterMap_cons_none hfa]
      refine iff_of_false (fun heq => ?_) fun h => Option.some_ne_none _ h.1.symm
      have hlen := congrArg List.length heq
      have hle := List.length_filterMap_le f l
      rw [List.length_cons, List.length_map] at hlen
      omega
    | some b => rw [List.filterMap_cons_some hfa, List.cons.injEq, Option.some.injEq]

/-- **The table** is the lines that are read. -/
theorem parseMountinfo_mountinfo {ms : List MountRow}
    (hsize : ∀ m ∈ ms, sizeOfText m.line < 1024 * 1024) :
    parseMountinfo (mountinfo ms) =
      ms.filterMap fun m => parseMountFields (words isSpace m.line) := by
  have htext : mountinfo ms = (ms.map MountRow.line).flatMap fun line => line ++ ['\n'] :=
    by rw [mountinfo, List.flatMap_map]
  have hlines : ∀ line ∈ ms.map MountRow.line, '\n' ∉ line := by
    simpa using fun m _ => newline_notMem_line m
  rw [parseMountinfo, htext, scanLines_lines hlines (by simpa using hsize), List.filterMap_map,
    List.filterMap_map]
  refine List.filterMap_congr fun m _ => ?_
  exact congrArg parseMountFields (words_dropCR rfl m.line)

/-- **The mounts are read back** exactly when their names are there and have no other blanks than
those that are escaped, and their types need no escapes. -/
theorem parseMountinfo_eq_iff {ms : List MountRow}
    (hsize : ∀ m ∈ ms, sizeOfText m.line < 1024 * 1024) :
    parseMountinfo (mountinfo ms) = ms.map MountRow.entry ↔ ∀ m ∈ ms, m.Readable := by
  rw [parseMountinfo_mountinfo hsize, filterMap_eq_map_iff]
  exact forall₂_congr fun m _ => parse_line_iff

theorem isWord_rw : IsWord isSpace "rw".toList := by decide

theorem rw_ne_dash : "rw" ≠ "-" := by decide

theorem newline_notMem_rw : '\n' ∉ "rw".toList := by decide

def rwField : MountField := ⟨"rw", isWord_rw, rw_ne_dash⟩

/-- A disk that is mounted somewhere. -/
def diskAt (mountPoint : String) : MountRow where
  id := 36
  parent := 35
  major := 98
  minor := 0
  root := "/"
  mountPoint := mountPoint
  options := rwField
  optional := []
  fsType := "ext4"
  source := "/dev/sda1"
  superOptions := "rw"
  no_newline := newline_notMem_rw

theorem parseMountinfo_isos :
    parseMountinfo (mountinfo [diskAt "/srv/my isos"]) = [⟨"/", "/srv/my isos", "ext4"⟩] := by
  refine (parseMountinfo_eq_iff (by decide)).mpr fun m hm => ?_
  obtain rfl := List.mem_singleton.mp hm
  exact ⟨by decide, by decide, by decide, by decide⟩

/-- A space that does not break lines is not escaped, and breaks the field. -/
theorem not_parseMountinfo_eq :
    ¬ ∀ ms : List MountRow, (∀ m ∈ ms, sizeOfText m.line < 1024 * 1024) →
      parseMountinfo (mountinfo ms) = ms.map MountRow.entry := by
  intro h
  have hread := h [diskAt "/srv/my\u00a0isos"] (by decide)
  exact absurd hread (by decide)

/-- What is read has a root and a mount point. -/
theorem clear_of_mem_parseMountinfo {text : List Char} {e : MountEntry}
    (h : e ∈ parseMountinfo text) : Clear e.root ∧ Clear e.mountPoint := by
  obtain ⟨line, -, hline⟩ := List.mem_filterMap.mp h
  obtain ⟨r, hr, p, hp, t, -, rfl⟩ := parseMountFields_some hline
  exact ⟨clear_unescapeMount (mem_words hr), clear_unescapeMount (mem_words hp)⟩

/-- **A table that is read** has no empty roots: with mount points in canonical form it is one of
the kernel. -/
theorem kernelTable_parseMountinfo {text : List Char}
    (h : ∀ e ∈ parseMountinfo text, ∃ p : DirPath, p.Rooted ∧ e.mountPoint = .ofList p.text) :
    KernelTable (parseMountinfo text) :=
  fun e he => ⟨h e he, (clear_of_mem_parseMountinfo he).1.ne_empty⟩

end Ultrav
