import Mathlib.Data.List.Basic
import Mathlib.Data.Nat.Notation

/-!
# Bytes of a text

* `Utf8.encode` — the bytes of a text.
* `Utf8.decode` — the text of some bytes; a byte that is not part of a character is replaced.
* `decode_encode` — **round trip**.
* `cut_encode` — the first bytes of a text are some of its characters and then, when one is
  cut, bytes that are no characters of their own.
* `encode_decode_of_ascii` — a text in ASCII has no other bytes than its characters.
-/

namespace Ultrav.Utf8

/-- The bytes of a text. -/
def encode (cs : List Char) : List UInt8 := cs.flatMap String.utf8EncodeChar

/-- The character at the start of some bytes. -/
def rune (bs : List UInt8) : Option Char := bs.toByteArray.utf8DecodeChar? 0

/-- The text of some bytes, past so many bytes of a character. -/
def decodeFrom : ℕ → List UInt8 → List Char
  | _, [] => []
  | k + 1, _ :: bs => decodeFrom k bs
  | 0, b :: bs =>
    match rune (b :: bs) with
    | some c => c :: decodeFrom (c.utf8Size - 1) bs
    -- only the first byte is replaced: the next one is looked at again
    | none => '\uFFFD' :: decodeFrom 0 bs

/-- The text of some bytes. -/
def decode (bs : List UInt8) : List Char := decodeFrom 0 bs

/-- A byte that is not a character of its own. -/
def High (b : UInt8) : Prop := 0x80 ≤ b.toNat

/-! ## Round trip -/

theorem rune_encode (c : Char) (bs : List UInt8) :
    rune (String.utf8EncodeChar c ++ bs) = some c := by
  rw [rune, List.toByteArray_append]
  exact ByteArray.utf8DecodeChar?_utf8EncodeChar_append

theorem decodeFrom_append {as : List UInt8} {k : ℕ} (h : as.length = k) (bs : List UInt8) :
    decodeFrom k (as ++ bs) = decode bs := by
  induction as generalizing k with
  | nil =>
    cases h
    rfl
  | cons a as ih =>
    cases h
    exact ih rfl

theorem encodeChar_cons (c : Char) :
    ∃ b bs, String.utf8EncodeChar c = b :: bs ∧ bs.length = c.utf8Size - 1 := by
  have hlen := String.length_utf8EncodeChar c
  cases h : String.utf8EncodeChar c with
  | nil =>
    rw [h] at hlen
    exact absurd hlen (Nat.ne_of_lt c.utf8Size_pos)
  | cons b bs =>
    rw [h, List.length_cons] at hlen
    exact ⟨b, bs, rfl, by omega⟩

theorem decode_encodeChar (c : Char) (bs : List UInt8) :
    decode (String.utf8EncodeChar c ++ bs) = c :: decode bs := by
  have hrune := rune_encode c bs
  obtain ⟨b, cs, hb, hlen⟩ := encodeChar_cons c
  rw [hb, List.cons_append] at hrune ⊢
  rw [decode, decodeFrom, hrune]
  exact congrArg (c :: ·) (decodeFrom_append hlen bs)

theorem decode_encode_append (cs : List Char) (bs : List UInt8) :
    decode (encode cs ++ bs) = cs ++ decode bs := by
  induction cs with
  | nil => rfl
  | cons c cs ih =>
    rw [encode, List.flatMap_cons, List.append_assoc, decode_encodeChar]
    exact congrArg (c :: ·) ih

/-- **Round trip**. -/
theorem decode_encode (cs : List Char) : decode (encode cs) = cs := by
  have h := decode_encode_append cs []
  rw [List.append_nil] at h
  exact h.trans (List.append_nil cs)

/-! ## Cut texts -/

/-- A character is one byte, or all its bytes are high. -/
theorem high_encodeChar (c : Char) :
    (String.utf8EncodeChar c).length = 1 ∨ ∀ b ∈ String.utf8EncodeChar c, High b := by
  have hor : ∀ x y : UInt8, 0x80 ≤ y.toNat → High (x ||| y) := by
    intro x y hy
    rw [High, UInt8.toNat_or]
    exact Nat.le_trans hy Nat.right_le_or
  rcases c.utf8Size_eq with h | h | h | h
  · exact .inl ((String.length_utf8EncodeChar c).trans h)
  · right
    rw [String.utf8EncodeChar_eq_cons_cons h]
    simp only [List.forall_mem_cons]
    exact ⟨hor _ _ (by decide), hor _ _ (by decide), fun _ hb => by cases hb⟩
  · right
    rw [String.utf8EncodeChar_eq_cons_cons_cons h]
    simp only [List.forall_mem_cons]
    exact ⟨hor _ _ (by decide), hor _ _ (by decide), hor _ _ (by decide), fun _ hb => by cases hb⟩
  · right
    rw [String.utf8EncodeChar_eq_cons_cons_cons_cons h]
    simp only [List.forall_mem_cons]
    exact ⟨hor _ _ (by decide), hor _ _ (by decide), hor _ _ (by decide), hor _ _ (by decide),
      fun _ hb => by cases hb⟩

/-- **The first bytes** of a text. -/
theorem cut_encode {bs : List UInt8} {cs : List Char} (h : bs <+: encode cs) :
    ∃ as cs' tail, cs = as ++ cs' ∧ bs = encode as ++ tail ∧ (∀ b ∈ tail, High b) ∧
      (cs' = [] → tail = []) := by
  induction cs generalizing bs with
  | nil =>
    obtain rfl := List.prefix_nil.mp h
    exact ⟨[], [], [], rfl, rfl, ⟨fun _ hb => (by cases hb), fun _ => rfl⟩⟩
  | cons c cs ih =>
    obtain ⟨rest, hrest⟩ := h
    rw [encode, List.flatMap_cons] at hrest
    rcases List.append_eq_append_iff.mp hrest with ⟨l, hl, -⟩ | ⟨l, hl, hr⟩
    · by_cases hnil : l = []
      · refine ⟨[c], cs, [], rfl, ?_, fun _ hb => (by cases hb), fun _ => rfl⟩
        rw [hnil, List.append_nil] at hl
        rw [List.append_nil, encode, List.flatMap_singleton, hl]
      · refine ⟨[], c :: cs, bs, rfl, rfl, ?_, fun h => (by cases h)⟩
        intro b hb
        rcases high_encodeChar c with hlen | hhigh
        · have hpos := List.length_pos_of_mem hb
          have hpos' := List.length_pos_iff.mpr hnil
          rw [hl, List.length_append] at hlen
          omega
        · exact hhigh b (by rw [hl]; exact List.mem_append_left _ hb)
    · obtain ⟨as, cs', tail, rfl, htail, hhigh, hnil⟩ := ih ⟨rest, hr.symm⟩
      refine ⟨c :: as, cs', tail, rfl, ?_, hhigh, hnil⟩
      rw [hl, htail, encode, encode, List.flatMap_cons, List.append_assoc]

theorem rune_high {b : UInt8} {bs : List UInt8} {c : Char} (hb : High b)
    (h : rune (b :: bs) = some c) : 0x80 ≤ c.toNat := by
  obtain ⟨l, hl⟩ := ByteArray.exists_of_utf8DecodeChar?_eq_some h
  have hlist : l = l.data.toList.toByteArray := ByteArray.ext (by rw [List.data_toByteArray])
  rw [hlist, ← List.toByteArray_append, List.toByteArray_inj] at hl
  by_contra hlt
  have hsize : c.utf8Size = 1 := by
    rw [Char.utf8Size_eq_one_iff, UInt32.le_iff_toNat_le]
    change c.toNat ≤ 127
    omega
  rw [String.utf8EncodeChar_eq_singleton hsize] at hl
  obtain rfl := (List.cons.inj hl).1
  rw [High, UInt32.toNat_toUInt8] at hb
  change 0x80 ≤ c.toNat % 256 at hb
  omega

/-- High bytes are no ASCII characters. -/
theorem decode_high {bs : List UInt8} (h : ∀ b ∈ bs, High b) :
    ∀ c ∈ decode bs, 0x80 ≤ c.toNat := by
  have hfrom : ∀ k, ∀ c ∈ decodeFrom k bs, 0x80 ≤ c.toNat := by
    induction bs with
    | nil =>
      intro k c hc
      cases k <;> cases hc
    | cons b bs ih =>
      obtain ⟨hb, hbs⟩ := List.forall_mem_cons.mp h
      intro k
      cases k with
      | succ k => exact ih hbs k
      | zero =>
        rw [decodeFrom]
        split
        · exact List.forall_mem_cons.mpr ⟨rune_high hb ‹_›, ih hbs _⟩
        · exact List.forall_mem_cons.mpr ⟨by decide, ih hbs _⟩
  exact hfrom 0

/-! ## ASCII -/

theorem encodeChar_of_ascii {c : Char} (hc : c.toNat < 0x80) :
    String.utf8EncodeChar c = [c.toNat.toUInt8] := by
  have hsize : c.utf8Size = 1 := by
    rw [Char.utf8Size_eq_one_iff, UInt32.le_iff_toNat_le]
    change c.toNat ≤ 127
    omega
  rw [String.utf8EncodeChar_eq_singleton hsize]
  rfl

/-- A byte in front of an ASCII character is that character. -/
theorem eq_of_rune {b : UInt8} {bs : List UInt8} {c : Char} (h : rune (b :: bs) = some c)
    (hc : c.toNat < 0x80) : String.utf8EncodeChar c = [b] := by
  obtain ⟨l, hl⟩ := ByteArray.exists_of_utf8DecodeChar?_eq_some h
  have hlist : l = l.data.toList.toByteArray := ByteArray.ext (by rw [List.data_toByteArray])
  rw [hlist, ← List.toByteArray_append, List.toByteArray_inj, encodeChar_of_ascii hc] at hl
  rw [encodeChar_of_ascii hc, (List.cons.inj hl).1]

/-- **A text in ASCII** has no other bytes than its characters. -/
theorem encode_decode_of_ascii {bs : List UInt8} (h : ∀ c ∈ decode bs, c.toNat < 0x80) :
    encode (decode bs) = bs := by
  induction bs with
  | nil => rfl
  | cons b bs ih =>
    rw [decode, decodeFrom] at h ⊢
    cases hrune : rune (b :: bs) with
    | none =>
      rw [hrune] at h
      exact absurd (h _ (List.mem_cons_self ..)) (by decide)
    | some c =>
      rw [hrune] at h
      obtain ⟨hc, hcs⟩ := List.forall_mem_cons.mp h
      have hb := eq_of_rune hrune hc
      have hsize : c.utf8Size - 1 = 0 := by
        rw [← String.length_utf8EncodeChar, hb]
        rfl
      rw [hsize] at hcs
      have hrest : encode (decodeFrom 0 bs) = bs := ih hcs
      dsimp only
      rw [hsize, encode, List.flatMap_cons, hb]
      exact congrArg (b :: ·) hrest

end Ultrav.Utf8
