import Mathlib.Data.BitVec
import Mathlib.Tactic.Ring

/-!
# Addresses in octets

An address is a list of octets, the most significant first, and a subnet is given by the number of
its leading bits.

* `Octets.value` — the number that the octets denote.
* `Octets.prefixMask` — the mask that has `n` leading ones.
* `value_masked`, `value_filled` — masking rounds down to the subnet's first address, and filling
  the other bits gives its last one.
* `value_odd` — setting the low bit of every octet.
* `value_add` — addition octet by octet, with a carry.
-/

namespace Ultrav

abbrev Octet := BitVec 8

/-! ## The bits of an octet -/

namespace Octet

/-- The mask of `n` leading ones. -/
def mask (n : ℕ) : Octet := ~~~ (255#8 >>> n)

/-- Shifting all ones down. -/
theorem ones_div (n : ℕ) : 255 / 2 ^ n = 2 ^ (8 - n) - 1 := by
  rcases Nat.lt_or_ge n 8 with hn | hn
  · revert n
    decide
  · rw [Nat.sub_eq_zero_of_le hn]
    exact Nat.div_eq_of_lt (Nat.lt_of_lt_of_le (by decide) (Nat.pow_le_pow_right (by decide) hn))

theorem toNat_not_mask (n : ℕ) : (~~~ mask n).toNat = 2 ^ (8 - n) - 1 := by
  rw [mask, BitVec.not_not, BitVec.toNat_ushiftRight, Nat.shiftRight_eq_div_pow]
  exact ones_div n

/-- What a mask keeps and what it clears. -/
theorem toNat_and_add (b m : Octet) : (b &&& m).toNat + (b &&& ~~~ m).toNat = b.toNat := by
  have hdisjoint : (b &&& m) &&& (b &&& ~~~ m) = 0#8 := by
    ext i hi
    simp only [BitVec.getElem_and, BitVec.getElem_not, BitVec.getElem_zero]
    grind
  have hor : b &&& m ||| b &&& ~~~ m = b := by
    ext i hi
    simp only [BitVec.getElem_or, BitVec.getElem_and, BitVec.getElem_not]
    grind
  rw [← BitVec.toNat_add_of_and_eq_zero hdisjoint, BitVec.add_eq_or_of_and_eq_zero _ _ hdisjoint,
    hor]

/-- Masking rounds down. -/
theorem toNat_and_mask (b : Octet) (n : ℕ) :
    (b &&& mask n).toNat = b.toNat / 2 ^ (8 - n) * 2 ^ (8 - n) := by
  have hsum := toNat_and_add b (mask n)
  have hrest : (b &&& ~~~ mask n).toNat = b.toNat % 2 ^ (8 - n) := by
    rw [BitVec.toNat_and, toNat_not_mask, Nat.and_two_pow_sub_one_eq_mod]
  have hdiv := Nat.div_add_mod' b.toNat (2 ^ (8 - n))
  omega

/-- What a mask keeps, with the bits set that it clears. -/
theorem toNat_or_not (b m : Octet) :
    (b &&& m ||| ~~~ m).toNat = (b &&& m).toNat + (~~~ m).toNat := by
  have hdisjoint : (b &&& m) &&& ~~~ m = 0#8 := by
    ext i hi
    simp only [BitVec.getElem_and, BitVec.getElem_not, BitVec.getElem_zero]
    grind
  rw [← BitVec.add_eq_or_of_and_eq_zero _ _ hdisjoint, BitVec.toNat_add_of_and_eq_zero hdisjoint]

/-- Setting the low bit. -/
theorem toNat_or_one (b : Octet) : (b ||| 1).toNat = b.toNat + (1 - b.toNat % 2) := by
  revert b
  decide

@[simp] theorem mask_zero : mask 0 = 0 := by decide

end Octet

/-! ## Addresses -/

namespace Octets

/-- The number of an address. -/
def value : List Octet → ℕ
  | [] => 0
  | b :: bs => b.toNat * 256 ^ bs.length + value bs

/-- The mask of `l` octets that has `n` leading ones. -/
def prefixMask : ℕ → ℕ → List Octet
  | 0, _ => []
  | l + 1, n => if 8 ≤ n then 255 :: prefixMask l (n - 8) else Octet.mask n :: prefixMask l 0

/-- The address under a mask. -/
def masked (bs ms : List Octet) : List Octet := List.zipWith (· &&& ·) bs ms

/-- The address with the bits set that a mask clears. -/
def filled (bs ms : List Octet) : List Octet := List.zipWith (fun b m => b &&& m ||| ~~~ m) bs ms

/-- The numbers of a subnet with `k` free bits begin at a multiple of `2 ^ k`. -/
def roundDown (k v : ℕ) : ℕ := v / 2 ^ k * 2 ^ k

theorem value_lt (bs : List Octet) : value bs < 256 ^ bs.length := by
  induction bs with
  | nil => exact Nat.one_pos
  | cons b bs ih =>
    have hb : b.toNat + 1 ≤ 256 := b.isLt
    calc value (b :: bs) < b.toNat * 256 ^ bs.length + 256 ^ bs.length := Nat.add_lt_add_left ih _
      _ = (b.toNat + 1) * 256 ^ bs.length := by rw [Nat.succ_mul]
      _ ≤ 256 * 256 ^ bs.length := Nat.mul_le_mul_right _ hb
      _ = 256 ^ (b :: bs).length := by rw [List.length_cons, Nat.pow_succ']

/-- An address has one number only. -/
theorem value_inj {as bs : List Octet} (hlen : as.length = bs.length)
    (hvalue : value as = value bs) : as = bs := by
  induction as generalizing bs with
  | nil => exact (List.eq_nil_of_length_eq_zero hlen.symm).symm
  | cons a as ih =>
    cases bs with
    | nil => cases hlen
    | cons b bs =>
      have hrest : as.length = bs.length := Nat.succ.inj hlen
      have hdiv (c : Octet) {cs : List Octet} (hcs : cs.length = bs.length) :
          value (c :: cs) / 256 ^ bs.length = c.toNat ∧
            value (c :: cs) % 256 ^ bs.length = value cs := by
        have hlt := value_lt cs
        rw [hcs] at hlt
        rw [value, hcs, Nat.mul_comm, Nat.mul_add_div (Nat.zero_lt_of_lt hlt),
          Nat.div_eq_of_lt hlt, Nat.mul_add_mod, Nat.mod_eq_of_lt hlt]
        exact ⟨rfl, rfl⟩
      have ha := hdiv a hrest
      have hb := hdiv b rfl
      rw [hvalue] at ha
      rw [BitVec.toNat_inj.mp (ha.1.symm.trans hb.1), ih hrest (ha.2.symm.trans hb.2)]

theorem pow_length (l : ℕ) : 256 ^ l = 2 ^ (8 * l) := by
  rw [Nat.pow_mul]

/-- Whole octets in front do not matter. -/
theorem roundDown_add {k l : ℕ} (hk : k ≤ 8 * l) (a v : ℕ) :
    roundDown k (a * 256 ^ l + v) = a * 256 ^ l + roundDown k v := by
  obtain ⟨j, hj⟩ := Nat.exists_eq_add_of_le hk
  have hsplit : a * 256 ^ l = 2 ^ k * (a * 2 ^ j) := by
    rw [pow_length, hj, Nat.pow_add]
    ring
  rw [roundDown, roundDown, hsplit, Nat.mul_add_div (Nat.two_pow_pos k)]
  ring

/-- The free bits that are not in the first octet. -/
theorem roundDown_first {l v : ℕ} (hv : v < 256 ^ l) (j a : ℕ) :
    roundDown (j + 8 * l) (a * 256 ^ l + v) = roundDown j a * 256 ^ l := by
  have hpow : (2 : ℕ) ^ (j + 8 * l) = 256 ^ l * 2 ^ j := by
    rw [Nat.pow_add, pow_length, Nat.mul_comm]
  have hdiv : (a * 256 ^ l + v) / 256 ^ l = a := by
    rw [Nat.mul_comm, Nat.mul_add_div (Nat.zero_lt_of_lt hv), Nat.div_eq_of_lt hv, Nat.add_zero]
  rw [roundDown, roundDown, hpow, ← Nat.div_div_eq_div_mul, hdiv]
  ring

theorem length_prefixMask (l n : ℕ) : (prefixMask l n).length = l := by
  fun_induction prefixMask l n with
  | case1 n => rfl
  | case2 l n hn ih => rw [List.length_cons, ih]
  | case3 l n hn ih => rw [List.length_cons, ih]

/-- **Masking** gives the first address of the subnet. -/
theorem value_masked (bs : List Octet) :
    ∀ {n : ℕ}, n ≤ 8 * bs.length →
      value (masked bs (prefixMask bs.length n)) = roundDown (8 * bs.length - n) (value bs) := by
  induction bs with
  | nil =>
    intro n hn
    rw [value, roundDown, Nat.zero_div, Nat.zero_mul]
    rfl
  | cons b bs ih =>
    intro n hn
    rw [List.length_cons] at hn ⊢
    have hlen (k : ℕ) : (masked bs (prefixMask bs.length k)).length = bs.length := by
      rw [masked, List.length_zipWith, length_prefixMask, Nat.min_self]
    rw [prefixMask]
    split
    · rename_i h8
      have hk : 8 * (bs.length + 1) - n = 8 * bs.length - (n - 8) := by omega
      have hall : b &&& 255 = b := BitVec.and_allOnes
      rw [masked, List.zipWith_cons_cons, value, value, ← masked, hlen, ih (by omega), hall, hk,
        roundDown_add (Nat.sub_le _ _)]
    · rename_i h8
      have hk : 8 * (bs.length + 1) - n = (8 - n) + 8 * bs.length := by omega
      rw [masked, List.zipWith_cons_cons, value, value, ← masked, hlen, ih (Nat.zero_le _), hk,
        roundDown_first (value_lt bs), Octet.toNat_and_mask, Nat.sub_zero]
      have hnone : roundDown (8 * bs.length) (value bs) = 0 := by
        rw [roundDown, Nat.div_eq_of_lt (by rw [← pow_length]; exact value_lt bs), Nat.zero_mul]
      rw [hnone, Nat.add_zero, roundDown]

theorem value_not_prefixMask {l n : ℕ} (hn : n ≤ 8 * l) :
    value ((prefixMask l n).map (~~~ ·)) = 2 ^ (8 * l - n) - 1 := by
  fun_induction prefixMask l n with
  | case1 n =>
    rw [Nat.mul_zero, Nat.zero_sub]
    rfl
  | case2 l n h8 ih =>
    have hk : 8 * (l + 1) - n = 8 * l - (n - 8) := by omega
    have hnone : (~~~ (255 : Octet)).toNat = 0 := rfl
    rw [List.map_cons, value, ih (by omega), hk, hnone, Nat.zero_mul, Nat.zero_add]
  | case3 l n h8 ih =>
    have hk : 8 * (l + 1) - n = (8 - n) + 8 * l := by omega
    rw [List.map_cons, value, ih (Nat.zero_le _), hk, List.length_map, length_prefixMask,
      Octet.toNat_not_mask, Nat.sub_zero, Nat.pow_add, pow_length, Nat.sub_mul, Nat.one_mul]
    have hle : 2 ^ (8 * l) ≤ 2 ^ (8 - n) * 2 ^ (8 * l) :=
      Nat.le_mul_of_pos_left _ (Nat.two_pow_pos _)
    have hpos := Nat.two_pow_pos (8 * l)
    omega

theorem value_filled_add {bs ms : List Octet} (h : bs.length = ms.length) :
    value (filled bs ms) = value (masked bs ms) + value (ms.map (~~~ ·)) := by
  induction bs generalizing ms with
  | nil =>
    cases ms with
    | nil => rfl
    | cons m ms => cases h
  | cons b bs ih =>
    cases ms with
    | nil => cases h
    | cons m ms =>
      have hlen : bs.length = ms.length := Nat.succ.inj h
      have hf : (filled bs ms).length = ms.length := by
        rw [filled, List.length_zipWith, hlen, Nat.min_self]
      have hm : (masked bs ms).length = ms.length := by
        rw [masked, List.length_zipWith, hlen, Nat.min_self]
      rw [filled, masked, List.zipWith_cons_cons, List.zipWith_cons_cons, ← filled, ← masked,
        List.map_cons, value, value, value, hf, hm, List.length_map, ih hlen, Octet.toNat_or_not]
      ring

/-- **Filling** the free bits gives the last address of the subnet. -/
theorem value_filled (bs : List Octet) {n : ℕ} (hn : n ≤ 8 * bs.length) :
    value (filled bs (prefixMask bs.length n)) =
      roundDown (8 * bs.length - n) (value bs) + (2 ^ (8 * bs.length - n) - 1) := by
  rw [value_filled_add (length_prefixMask _ n).symm, value_masked bs hn, value_not_prefixMask hn]

/-- The octets that are even, as ones. -/
def evens (bs : List Octet) : List Octet := bs.map fun b => BitVec.ofNat 8 (1 - b.toNat % 2)

/-- Setting the low bit of every octet adds a one at each that was even. -/
theorem value_odd (bs : List Octet) :
    value (bs.map (· ||| 1)) = value bs + value (evens bs) := by
  induction bs with
  | nil => rfl
  | cons b bs ih =>
    have hone : (BitVec.ofNat 8 (1 - b.toNat % 2)).toNat = 1 - b.toNat % 2 :=
      Nat.mod_eq_of_lt (Nat.lt_of_le_of_lt (Nat.sub_le _ _) (by decide))
    rw [List.map_cons, value, value, evens, List.map_cons, ← evens, value, ih, Octet.toNat_or_one,
      hone, List.length_map, evens, List.length_map]
    ring

/-! ## Addition -/

theorem value_append (as bs : List Octet) :
    value (as ++ bs) = value as * 256 ^ bs.length + value bs := by
  induction as with
  | nil => rw [List.nil_append, value, Nat.zero_mul, Nat.zero_add]
  | cons a as ih =>
    rw [List.cons_append, value, value, ih, List.length_append, Nat.pow_add]
    ring

/-- `out[i] = byte(v)` from the lowest octet up; the sum has 32 bits. -/
def carryAdd : List Octet → BitVec 32 → List Octet
  | [], _ => []
  | b :: bs, carry =>
    if carry = 0 then b :: bs
    else (b.setWidth 32 + carry).setWidth 8 :: carryAdd bs ((b.setWidth 32 + carry).sshiftRight 8)

/-- The number of an address that is given from its lowest octet up. -/
def lowValue : List Octet → ℕ
  | [] => 0
  | b :: bs => b.toNat + 256 * lowValue bs

theorem lowValue_lt (bs : List Octet) : lowValue bs < 256 ^ bs.length := by
  induction bs with
  | nil => exact Nat.one_pos
  | cons b bs ih =>
    have hb := b.isLt
    rw [lowValue, List.length_cons, Nat.pow_succ']
    omega

theorem value_reverse (bs : List Octet) : value bs.reverse = lowValue bs := by
  induction bs with
  | nil => rfl
  | cons b bs ih =>
    rw [List.reverse_cons, value_append, ih, lowValue, value, value]
    simp only [List.length_singleton, List.length_nil, pow_one, pow_zero]
    ring

/-- A step of the addition: the octet that is written and the carry. -/
theorem carry_step (b : Octet) (c : BitVec 32) (hc : c.toInt + 255 < 2 ^ 31) :
    (((b.setWidth 32 + c).setWidth 8).toNat : ℤ) = (b.toNat + c.toInt) % 256 ∧
      ((b.setWidth 32 + c).sshiftRight 8).toInt = (b.toNat + c.toInt) / 256 := by
  have hb := b.isLt
  have hlow := BitVec.le_toInt c
  have hsum : (b.setWidth 32 + c).toInt = b.toNat + c.toInt := by
    have hwide : (b.setWidth 32).toInt = b.toNat := by
      rw [BitVec.toInt_eq_toNat_of_lt] <;> rw [BitVec.toNat_setWidth] <;> omega
    rw [BitVec.toInt_add, hwide]
    exact Int.bmod_eq_of_le (by omega) (by omega)
  refine ⟨?_, ?_⟩
  · rw [← hsum, BitVec.toNat_setWidth, BitVec.toInt_eq_toNat_cond]
    split <;> omega
  · rw [BitVec.toInt_sshiftRight, hsum, Int.shiftRight_eq_div_pow]
    rfl

/-- The lowest octet of a remainder. -/
theorem add_mul_emod {r x : ℤ} {m : ℕ} (hr : 0 ≤ r) (hr' : r < 256) :
    (r + 256 * x) % 256 ^ (m + 1) = r + 256 * (x % 256 ^ m) := by
  have hpos : (0 : ℤ) < 256 ^ m := Int.pow_pos (by decide)
  have hmod := Int.emod_nonneg x (Int.ne_of_gt hpos)
  have hlt := Int.emod_lt_of_pos x hpos
  have hsplit : r + 256 * x = r + 256 * (x % 256 ^ m) + 256 ^ (m + 1) * (x / 256 ^ m) := by
    conv_lhs => rw [← Int.emod_add_mul_ediv x (256 ^ m)]
    ring
  rw [hsplit, Int.add_mul_emod_self_left]
  refine Int.emod_eq_of_lt (by omega) ?_
  rw [pow_succ']
  omega

/-- **Addition**, modulo the size of the address, when the first sum cannot overflow. -/
theorem lowValue_carryAdd (bs : List Octet) :
    ∀ {c : BitVec 32}, c.toInt + 255 < 2 ^ 31 →
      (lowValue (carryAdd bs c) : ℤ) = (lowValue bs + c.toInt) % 256 ^ bs.length := by
  induction bs with
  | nil =>
    intro c hc
    rw [List.length_nil, pow_zero, Int.emod_one]
    rfl
  | cons b bs ih =>
    intro c hc
    rw [carryAdd]
    split
    · rename_i hzero
      have hlt := lowValue_lt (b :: bs)
      have hnone : (0 : BitVec 32).toInt = 0 := rfl
      rw [hzero, hnone, Int.add_zero]
      exact (Int.emod_eq_of_lt (Int.natCast_nonneg _) (by exact_mod_cast hlt)).symm
    · obtain ⟨hwrite, hcarry⟩ := carry_step b c hc
      have hnext := ih (c := (b.setWidth 32 + c).sshiftRight 8) (by omega)
      have hsum := Int.emod_add_mul_ediv (b.toNat + c.toInt) 256
      have hgroup : ((b.toNat + 256 * lowValue bs : ℕ) : ℤ) + c.toInt =
          (b.toNat + c.toInt) % 256 + 256 * (lowValue bs + (b.toNat + c.toInt) / 256) := by
        push_cast
        omega
      rw [lowValue, lowValue, List.length_cons, hgroup, add_mul_emod (by omega) (by omega)]
      push_cast
      rw [hwrite, hnext, hcarry]

/-- One is taken off an address. -/
theorem value_carryAdd_neg_one {bs : List Octet} (h : 0 < value bs) :
    value (carryAdd bs.reverse (-1)).reverse = value bs - 1 := by
  have hadd := lowValue_carryAdd bs.reverse (c := -1) (by decide)
  have hneg : (-1 : BitVec 32).toInt = -1 := by decide
  have hlt := value_lt bs
  have hle : ((value bs : ℕ) : ℤ) < 256 ^ bs.length := by exact_mod_cast hlt
  rw [← value_reverse bs.reverse, List.reverse_reverse, List.length_reverse, hneg,
    Int.emod_eq_of_lt (by omega) (by omega)] at hadd
  rw [value_reverse]
  omega

end Octets

end Ultrav
