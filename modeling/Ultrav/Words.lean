import Mathlib.Data.List.TakeWhile
import Ultrav.PathText

/-!
# Words and lines

* `words` — the parts of a text between blanks.
* `words_intercalate` — the words of texts with blanks between them, `mem_words` — what a word is.
* `scanLines` — the lines of a text, up to the first that is too long.
-/

namespace Ultrav

open DirPath

section Words

variable {α : Type} (blank : α → Bool)

/-- The word that is read so far, if any. -/
def flush (word : List α) : List (List α) := if word = [] then [] else [word]

def wordsFrom (word : List α) : List α → List (List α)
  | [] => flush word
  | a :: l => if blank a then flush word ++ wordsFrom [] l else wordsFrom (word ++ [a]) l

/-- The parts between blanks; none is empty. -/
def words (l : List α) : List (List α) := wordsFrom blank [] l

variable {blank}

theorem flush_of_ne {word : List α} (h : word ≠ []) : flush word = [word] := if_neg h

theorem wordsFrom_append_blank {s : α} (hs : blank s = true) (l r word : List α) :
    wordsFrom blank word (l ++ s :: r) = wordsFrom blank word l ++ words blank r := by
  induction l generalizing word with
  | nil =>
    rw [List.nil_append, wordsFrom, wordsFrom, if_pos hs]
    rfl
  | cons a l ih =>
    rw [List.cons_append, wordsFrom, wordsFrom]
    split
    · rw [ih, List.append_assoc]
    · exact ih _

theorem words_append_blank {s : α} (hs : blank s = true) (l r : List α) :
    words blank (l ++ s :: r) = words blank l ++ words blank r :=
  wordsFrom_append_blank hs l r []

/-- **The words of texts** with blanks between them. -/
theorem words_intercalate {s : α} (hs : blank s = true) (parts : List (List α)) :
    words blank ([s].intercalate parts) = parts.flatMap (words blank) := by
  induction parts with
  | nil => rfl
  | cons part parts ih =>
    cases parts with
    | nil => simp
    | cons next parts =>
      rw [List.intercalate_cons_cons, List.append_assoc, List.singleton_append,
        words_append_blank hs, ih]
      rfl

theorem mem_of_mem_intercalate {s a : α} {parts : List (List α)}
    (h : a ∈ [s].intercalate parts) : a = s ∨ ∃ part ∈ parts, a ∈ part := by
  induction parts with
  | nil => exact absurd h List.not_mem_nil
  | cons part parts ih =>
    cases parts with
    | nil => exact .inr ⟨part, List.mem_cons_self, by simpa using h⟩
    | cons next parts =>
      rw [List.intercalate_cons_cons, List.append_assoc, List.singleton_append,
        List.mem_append, List.mem_cons] at h
      rcases h with h | rfl | h
      · exact .inr ⟨part, List.mem_cons_self, h⟩
      · exact .inl rfl
      · exact (ih h).imp_right fun ⟨p, hp, ha⟩ => ⟨p, List.mem_cons_of_mem _ hp, ha⟩

theorem wordsFrom_of_forall {l : List α} (h : ∀ a ∈ l, blank a = false) (word : List α) :
    wordsFrom blank word l = flush (word ++ l) := by
  induction l generalizing word with
  | nil => rw [List.append_nil, wordsFrom]
  | cons a l ih =>
    obtain ⟨ha, hl⟩ := List.forall_mem_cons.mp h
    rw [wordsFrom, if_neg (by simp [ha]), ih hl, List.append_assoc, List.singleton_append]

/-- A text that is one word. -/
structure IsWord (blank : α → Bool) (l : List α) : Prop where
  ne_nil : l ≠ []
  no_blank : ∀ a ∈ l, blank a = false

theorem isWord_iff {l : List α} : l ≠ [] ∧ l.any blank = false ↔ IsWord blank l := by
  rw [List.any_eq_false]
  simp only [Bool.not_eq_true]
  exact ⟨fun h => ⟨h.1, h.2⟩, fun h => ⟨h.ne_nil, h.no_blank⟩⟩

instance (l : List α) : Decidable (IsWord blank l) := decidable_of_iff _ isWord_iff

theorem words_of_isWord {l : List α} (h : IsWord blank l) : words blank l = [l] := by
  rw [words, wordsFrom_of_forall h.no_blank, List.nil_append, flush_of_ne h.ne_nil]

theorem flatMap_words {parts : List (List α)} (h : ∀ part ∈ parts, IsWord blank part) :
    parts.flatMap (words blank) = parts := by
  induction parts with
  | nil => rfl
  | cons part parts ih =>
    obtain ⟨hpart, hparts⟩ := List.forall_mem_cons.mp h
    rw [List.flatMap_cons, words_of_isWord hpart, ih hparts, List.singleton_append]

theorem mem_wordsFrom {w l word : List α} (hword : ∀ a ∈ word, blank a = false)
    (h : w ∈ wordsFrom blank word l) : IsWord blank w := by
  have hflush : ∀ {word : List α}, (∀ a ∈ word, blank a = false) → w ∈ flush word →
      IsWord blank w := by
    intro word hword hmem
    rw [flush] at hmem
    split at hmem
    · exact absurd hmem List.not_mem_nil
    · obtain rfl := List.mem_singleton.mp hmem
      exact ⟨‹_›, hword⟩
  induction l generalizing word with
  | nil => exact hflush hword h
  | cons a l ih =>
    rw [wordsFrom] at h
    split at h
    · rcases List.mem_append.mp h with h | h
      · exact hflush hword h
      · exact ih (by simp) h
    · rename_i ha
      refine ih (fun b hb => ?_) h
      rcases List.mem_append.mp hb with hb | hb
      · exact hword b hb
      · rw [List.mem_singleton.mp hb, Bool.eq_false_iff]
        exact ha

/-- **What is read as a word** is one. -/
theorem mem_words {w l : List α} (h : w ∈ words blank l) : IsWord blank w :=
  mem_wordsFrom (by simp) h

end Words

/-! ## Lines -/

/-- The carriage return before a line feed. -/
def dropCR (line : List Char) : List Char :=
  if line.getLast? = some '\r' then line.dropLast else line

/-- The size of a text in bytes. -/
def sizeOfText (line : List Char) : ℕ := (String.ofList line).utf8ByteSize

/-- `bufio.Scanner` with `bufio.ScanLines`: it ends at a line that does not fit. -/
def scanLines (max : ℕ) (text : List Char) : List (List Char) :=
  let parts := splitOn '\n' text
  -- what is behind the last line feed is a line when there is something
  let parts := if parts.getLast? = some [] then parts.dropLast else parts
  (parts.takeWhile fun line => sizeOfText line < max).map dropCR

theorem splitOn_lines {lines : List (List Char)} (h : ∀ line ∈ lines, '\n' ∉ line) :
    splitOn '\n' (lines.flatMap fun line => line ++ ['\n']) = lines ++ [[]] := by
  induction lines with
  | nil => rfl
  | cons line lines ih =>
    obtain ⟨hline, hlines⟩ := List.forall_mem_cons.mp h
    rw [List.flatMap_cons, List.append_assoc, List.singleton_append, splitOn_append_sep,
      splitOn_eq_singleton hline, ih hlines, List.singleton_append, List.cons_append]

/-- **Lines that fit** are all read. -/
theorem scanLines_lines {max : ℕ} {lines : List (List Char)}
    (h : ∀ line ∈ lines, '\n' ∉ line) (hsize : ∀ line ∈ lines, sizeOfText line < max) :
    scanLines max (lines.flatMap fun line => line ++ ['\n']) = lines.map dropCR := by
  have hfit : lines.takeWhile (fun line => decide (sizeOfText line < max)) = lines :=
    List.takeWhile_eq_self_iff.mpr fun line hline => decide_eq_true (hsize line hline)
  rw [scanLines, splitOn_lines h]
  simp [hfit]

/-- A carriage return is a blank. -/
theorem words_dropCR {blank : Char → Bool} (h : blank '\r' = true) (line : List Char) :
    words blank (dropCR line) = words blank line := by
  rw [dropCR]
  split
  · rename_i hlast
    obtain ⟨front, rfl⟩ := List.getLast?_eq_some_iff.mp hlast
    rw [List.dropLast_concat, words_append_blank h]
    exact (List.append_nil _).symm
  · rfl

end Ultrav
