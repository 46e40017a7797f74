import Ultrav.NetworkXml

/-!
# The hosts of a subnet

The first host of a subnet is the gateway and begins the range for DHCP, the last one ends it.

* `cidrPattern_cidrText`, `parseCIDR_cidrText` — every IPv4 subnet is read.
* `ServesSubnet` — both hosts are right, and subnets without two hosts are refused.
* `serves_subnet_iff` — the subnets for which this holds: `subnetFirstAndLastHost` sets the low
  bit of every octet for the first host, and no subnet is refused.
-/

namespace Ultrav

open Octets

/-- An address and the number of its leading bits. -/
def cidrText (ip : List Octet) (p : ℕ) : String :=
  String.ofList (ipText ip ++ '/' :: Decimal.padded 0 p)

/-! ## Reading -/

theorem toNat_digitChar {d : ℕ} (hd : d < 10) : d.digitChar.toNat - '0'.toNat = d :=
  Nat.toNat_digitChar_sub_48_of_lt_ten hd

theorem isDigit_digitChar {d : ℕ} (hd : d < 10) : d.digitChar.isDigit = true :=
  Nat.isDigit_digitChar.trans (decide_eq_true hd)

theorem padded_zero (n : ℕ) : Decimal.padded 0 n = Nat.toDigits 10 n := by
  rw [Decimal.padded, Nat.zero_sub, List.replicate_zero, List.nil_append]

/-- A number up to 255 is read to its end. -/
theorem parseIPv4Fields_toDigits (fields : List Octet) :
    ∀ (n : ℕ) (s : List Char), n ≤ 255 →
      parseIPv4Fields fields 0 0 (Nat.toDigits 10 n ++ s) =
        parseIPv4Fields fields n (Nat.toDigits 10 n).length s := by
  intro n
  induction n using Nat.strongRecOn with
  | ind n ih =>
    intro s hn
    by_cases hlt : n < 10
    · rw [Nat.toDigits_of_lt_base hlt, List.singleton_append, parseIPv4Fields,
        if_pos (isDigit_digitChar hlt), if_neg (by omega), toNat_digitChar hlt, Nat.zero_mul,
        Nat.zero_add, if_neg (by omega), List.length_singleton]
    · have hd : n % 10 < 10 := Nat.mod_lt n (by decide)
      have hval : n / 10 * 10 + n % 10 = n := Nat.div_add_mod' n 10
      rw [Nat.toDigits_of_base_le (by decide) (by omega), List.append_assoc,
        ih (n / 10) (by omega) _ (by omega), List.singleton_append, parseIPv4Fields,
        if_pos (isDigit_digitChar hd), if_neg (by omega), toNat_digitChar hd, hval,
        if_neg (by omega), List.length_append, List.length_singleton]

/-- A field and the point behind it. -/
theorem parseIPv4Fields_point {fields : List Octet} (b : Octet) {s : List Char} (hs : s ≠ [])
    (hlen : fields.length < 3) :
    parseIPv4Fields fields 0 0 (Decimal.padded 0 b.toNat ++ '.' :: s) =
      parseIPv4Fields (fields ++ [b]) 0 0 s := by
  have hpos : (Nat.toDigits 10 b.toNat).length ≠ 0 := Nat.ne_of_gt Nat.length_toDigits_pos
  rw [padded_zero, parseIPv4Fields_toDigits _ _ _ (Nat.le_of_lt_succ b.isLt), parseIPv4Fields,
    if_neg (by decide), if_pos rfl, if_neg (by simp [hs]), if_neg (Nat.ne_of_lt hlen),
    BitVec.ofNat_toNat, BitVec.setWidth_eq]

/-- The last field. -/
theorem parseIPv4Fields_end {fields : List Octet} (b : Octet) (hlen : fields.length = 3) :
    parseIPv4Fields fields 0 0 (Decimal.padded 0 b.toNat) = some (fields ++ [b]) := by
  have h := parseIPv4Fields_toDigits fields b.toNat [] (Nat.le_of_lt_succ b.isLt)
  rw [List.append_nil] at h
  rw [padded_zero, h, parseIPv4Fields, if_neg (by omega), BitVec.ofNat_toNat, BitVec.setWidth_eq]

section Text

variable (a b c d : Octet)

theorem ipText_four : ipText [a, b, c, d] =
    Decimal.padded 0 a.toNat ++ '.' :: (Decimal.padded 0 b.toNat ++
      '.' :: (Decimal.padded 0 c.toNat ++ '.' :: Decimal.padded 0 d.toNat)) := by
  simp [ipText, List.intercalate, List.intersperse]

theorem parseIPv4Fields_ipText :
    parseIPv4Fields [] 0 0 (ipText [a, b, c, d]) = some [a, b, c, d] := by
  have hne (n : ℕ) (s : List Char) : Decimal.padded 0 n ++ s ≠ [] := by
    rw [padded_zero]
    exact List.append_ne_nil_of_left_ne_nil Nat.toDigits_ne_nil s
  have hlast : Decimal.padded 0 d.toNat ≠ [] := by
    rw [padded_zero]
    exact Nat.toDigits_ne_nil
  rw [ipText_four, parseIPv4Fields_point a (hne _ _) (by decide),
    parseIPv4Fields_point b (hne _ _) (by simp), parseIPv4Fields_point c hlast (by simp),
    parseIPv4Fields_end d (by simp)]
  rfl

theorem length_octet (b : Octet) :
    1 ≤ (Decimal.padded 0 b.toNat).length ∧ (Decimal.padded 0 b.toNat).length ≤ 3 := by
  rw [padded_zero]
  have hb := b.isLt
  exact ⟨Nat.length_toDigits_pos,
    (Nat.length_toDigits_le_iff (by decide) (by decide)).mpr (by omega)⟩

theorem digitField_octet (b : Octet) {sep : Char} (hsep : sep.isDigit = false) (s : List Char) :
    digitField sep (Decimal.padded 0 b.toNat ++ sep :: s) = some s := by
  have hds : ∀ c ∈ Decimal.padded 0 b.toNat, c.isDigit = true :=
    fun c hc => Decimal.isDigit_of_mem_padded hc
  have hstop : ¬ sep.isDigit = true := by simp [hsep]
  rw [digitField, List.takeWhile_append_of_pos hds, List.dropWhile_append_of_pos hds,
    List.takeWhile_cons_of_neg hstop, List.dropWhile_cons_of_neg hstop, List.append_nil]
  dsimp only
  rw [if_pos (length_octet b), if_pos rfl]

theorem prefixPattern_padded {p : ℕ} (hp : p ≤ 32) : prefixPattern (Decimal.padded 0 p) = true := by
  have h : ∀ q < 33, prefixPattern (Decimal.padded 0 q) = true := by decide
  exact h p (Nat.lt_succ_of_le hp)

variable {p : ℕ}

/-- The pattern lets every subnet by. -/
theorem cidrPattern_cidrText (hp : p ≤ 32) : cidrPattern (cidrText [a, b, c, d] p) = true := by
  rw [cidrPattern, cidrText, String.toList_ofList, ipText_four, List.append_assoc, List.cons_append,
    List.append_assoc, List.cons_append, List.append_assoc, List.cons_append,
    digitField_octet a rfl, Option.bind_some, digitField_octet b rfl, Option.bind_some,
    digitField_octet c rfl, Option.bind_some, digitField_octet d rfl, Option.any_some]
  exact prefixPattern_padded hp

theorem dtoi_padded (m : ℕ) :
    dtoi (Decimal.padded 0 m) = if m < 0xFFFFFF then some m else none := by
  have hne : Decimal.padded 0 m ≠ [] := by
    rw [padded_zero]
    exact Nat.toDigits_ne_nil
  have hall : (Decimal.padded 0 m).all Char.isDigit = true :=
    List.all_eq_true.mpr fun c hc => Decimal.isDigit_of_mem_padded hc
  simp only [dtoi, Decimal.value_padded, ne_eq, hne, not_false_eq_true, hall, true_and]

theorem ne_slash {x : Char} (hx : x ∈ ipText [a, b, c, d]) : decide (x ≠ '/') = true := by
  have hdigit {n : ℕ} (h : x ∈ Decimal.padded 0 n) : x ≠ '/' := by
    rintro rfl
    cases Decimal.isDigit_of_mem_padded h
  rw [ipText_four] at hx
  simp only [List.mem_append, List.mem_cons] at hx
  refine decide_eq_true ?_
  rcases hx with hx | rfl | hx | rfl | hx | rfl | hx
  · exact hdigit hx
  · decide
  · exact hdigit hx
  · decide
  · exact hdigit hx
  · decide
  · exact hdigit hx

/-- **Every subnet** is read. -/
theorem parseCIDR_cidrText (hp : p ≤ 32) : parseCIDR (cidrText [a, b, c, d] p) =
    some ⟨masked [a, b, c, d] (prefixMask 4 p), prefixMask 4 p⟩ := by
  have hpre : ∀ x ∈ ipText [a, b, c, d], decide (x ≠ '/') = true := fun x hx => ne_slash a b c d hx
  have hslash : ¬ decide ('/' ≠ '/') = true := by decide
  rw [parseCIDR, cidrText, String.toList_ofList, List.dropWhile_append_of_pos hpre,
    List.takeWhile_append_of_pos hpre,
    List.dropWhile_cons_of_neg (p := fun x => decide (x ≠ '/')) hslash,
    List.takeWhile_cons_of_neg (p := fun x => decide (x ≠ '/')) hslash, List.append_nil]
  dsimp only
  rw [parseIPv4Fields_ipText, Option.bind_some, dtoi_padded, if_pos (by omega),
    Option.bind_some, if_pos hp]

end Text

/-! ## The hosts -/

section Hosts

/-- The first and the last host: the numbers next to both ends. -/
structure HostsOf (network broadcast first last : ℕ) : Prop where
  first_eq : first = network + 1
  last_eq : last = broadcast - 1
  after_network : network < first
  ordered : first ≤ last
  before_broadcast : last < broadcast

/-- The number of a subnet's first address. -/
def networkOf (ip : List Octet) (p : ℕ) : ℕ := roundDown (32 - p) (value ip)

/-- The number of a subnet's last address. -/
def broadcastOf (ip : List Octet) (p : ℕ) : ℕ := networkOf ip p + (2 ^ (32 - p) - 1)

/-- A network's document has the right hosts of its subnet, and there is none for a subnet without
two hosts. -/
structure ServesSubnet (req : NetworkCreate) (ip : List Octet) (p : ℕ) : Prop where
  hosts : 1 ≤ p → p ≤ 30 → ∃ ipNet first last,
    parseCIDR (cidrText ip p) = some ipNet ∧
    subnetFirstAndLastHost ipNet = some (first, last) ∧
    HostsOf (networkOf ip p) (broadcastOf ip p) (value first) (value last) ∧
    networkCreateXML req = .ok (subnetXML req.name
      (if req.mode = .nat then "<forward mode=\"nat\"/>" else "")
      (if req.dhcpEnabled.getD true then dhcpXML first last else "") first p)
  refused : 31 ≤ p → ∃ e, networkCreateXML req = .error e

/-! ### Masks -/

/-- A mask of fewer than eight ones clears the low bit. -/
theorem even_and_mask (b : Octet) {n : ℕ} (hn : n < 8) : (b &&& Octet.mask n).toNat % 2 = 0 := by
  obtain ⟨k, hk⟩ : ∃ k, 8 - n = k + 1 := ⟨7 - n, by omega⟩
  rw [Octet.toNat_and_mask, hk, Nat.pow_succ, ← Nat.mul_assoc, Nat.mul_mod_left]

theorem prefixMask_of_lt {p : ℕ} (hp : p < 24) :
    ∃ m₁ m₂ n m₄, n < 8 ∧ prefixMask 4 p = [m₁, m₂, Octet.mask n, m₄] := by
  rcases Nat.lt_or_ge p 8 with h8 | h8
  · exact ⟨_, _, 0, _, by decide, by rw [prefixMask, if_neg (Nat.not_le.mpr h8)]; rfl⟩
  rw [prefixMask, if_pos h8]
  rcases Nat.lt_or_ge p 16 with h16 | h16
  · exact ⟨_, _, 0, _, by decide, by rw [prefixMask, if_neg (by omega)]; rfl⟩
  · refine ⟨255, 255, p - 8 - 8, Octet.mask 0, by omega, ?_⟩
    rw [prefixMask, if_pos (by omega), prefixMask, if_neg (by omega)]
    rfl

theorem prefixMask_of_ge {p : ℕ} (hp : 24 ≤ p) (hp' : p < 32) :
    prefixMask 4 p = [255, 255, 255, Octet.mask (p - 8 - 8 - 8)] := by
  rw [prefixMask, if_pos (by omega), prefixMask, if_pos (by omega), prefixMask, if_pos (by omega),
    prefixMask, if_neg (by omega), prefixMask]

/-- What masks each octet again does not see that it was masked. -/
theorem zipWith_masked (f : Octet → Octet → Octet) (bs ms : List Octet) :
    List.zipWith (fun b m => f (b &&& m) m) (masked bs ms) ms =
      List.zipWith (fun b m => f (b &&& m) m) bs ms := by
  induction bs generalizing ms with
  | nil => rfl
  | cons b bs ih =>
    cases ms with
    | nil => rfl
    | cons m ms =>
      have hm : b &&& m &&& m = b &&& m := by rw [BitVec.and_assoc, BitVec.and_self]
      rw [masked, List.zipWith_cons_cons, List.zipWith_cons_cons, List.zipWith_cons_cons, hm,
        ← masked, ih]

theorem prefixMask_zero (l : ℕ) : (prefixMask l 0).all (· = 0) = true := by
  induction l with
  | zero => rfl
  | succ l ih => rw [prefixMask, if_neg (by decide), List.all_cons, ih, Octet.mask_zero]; rfl

theorem maskSize_prefixMask {l n : ℕ} (hn : n ≤ 8 * l) : maskSize (prefixMask l n) = n := by
  fun_induction prefixMask l n with
  | case1 n => exact (Nat.le_zero.mp hn).symm
  | case2 l n h8 ih =>
    rw [maskSize, if_pos rfl, ih (by omega)]
    omega
  | case3 l n h8 ih =>
    have hones : ∀ k < 8, Octet.mask k ≠ 255 ∧
        ((List.range 8).takeWhile (Octet.mask k).getMsbD).length = k ∧ Octet.mask k <<< k = 0 := by
      decide
    obtain ⟨hne, hlead, hrest⟩ := hones n (by omega)
    rw [maskSize, if_neg hne, hlead]
    exact if_pos ⟨hrest, prefixMask_zero l⟩

/-! ### What the provider computes -/

/-- The subnet of an address is the one of its first address. -/
theorem subnetFirstAndLastHost_masked (ip : List Octet) (hip : ip.length = 4) (p : ℕ) :
    subnetFirstAndLastHost ⟨masked ip (prefixMask 4 p), prefixMask 4 p⟩ =
      some ((masked ip (prefixMask 4 p)).map (· ||| 1),
        addToIP (filled ip (prefixMask 4 p)) (-1)) := by
  have hlen : (masked ip (prefixMask 4 p)).length = 4 := by
    rw [masked, List.length_zipWith, hip, length_prefixMask, Nat.min_self]
  have hfirst : List.zipWith (fun b m => b &&& m ||| 1) (masked ip (prefixMask 4 p))
      (prefixMask 4 p) = (masked ip (prefixMask 4 p)).map (· ||| 1) := by
    rw [zipWith_masked fun b _ => b ||| 1, masked, List.map_zipWith]
  rw [subnetFirstAndLastHost, to4, if_pos hlen, Option.map_some]
  dsimp only
  rw [hfirst, filled, zipWith_masked fun b m => b ||| ~~~ m, filled]

variable {req : NetworkCreate} {a b c d : Octet} {p : ℕ}

/-- The document of a subnet. -/
theorem networkCreateXML_cidrText (hmode : req.mode = .nat ∨ req.mode = .isolated)
    (hcidr : req.cidr = some (cidrText [a, b, c, d] p)) (hp : p ≤ 32) :
    networkCreateXML req = .ok (subnetXML req.name
      (if req.mode = .nat then "<forward mode=\"nat\"/>" else "")
      (if req.dhcpEnabled.getD true then
        dhcpXML ((masked [a, b, c, d] (prefixMask 4 p)).map (· ||| 1))
          (addToIP (filled [a, b, c, d] (prefixMask 4 p)) (-1))
      else "")
      ((masked [a, b, c, d] (prefixMask 4 p)).map (· ||| 1)) p) := by
  have hsubnet : networkCreateXML req = subnetNetworkXML req := by
    rcases hmode with hmode | hmode <;> rw [networkCreateXML, hmode]
  rw [hsubnet, subnetNetworkXML, hcidr]
  dsimp only
  rw [cidrPattern_cidrText a b c d hp, parseCIDR_cidrText a b c d hp]
  dsimp only
  rw [subnetFirstAndLastHost_masked _ rfl]
  dsimp only
  rw [maskSize_prefixMask hp]
  rfl

theorem value_network (hp : p ≤ 32) :
    value (masked [a, b, c, d] (prefixMask 4 p)) = networkOf [a, b, c, d] p :=
  value_masked [a, b, c, d] hp

theorem value_broadcast (hp : p ≤ 32) :
    value (filled [a, b, c, d] (prefixMask 4 p)) = broadcastOf [a, b, c, d] p :=
  value_filled [a, b, c, d] hp

/-- A subnet that has two hosts. -/
theorem network_add_three_le (ip : List Octet) (hp : p ≤ 30) :
    networkOf ip p + 3 ≤ broadcastOf ip p := by
  have hpow : 2 ^ 2 ≤ 2 ^ (32 - p) := Nat.pow_le_pow_right (by decide) (by omega)
  rw [broadcastOf]
  omega

/-- The last host is right for every subnet that has one. -/
theorem value_last (hp : p ≤ 30) :
    value (addToIP (filled [a, b, c, d] (prefixMask 4 p)) (-1)) =
      broadcastOf [a, b, c, d] p - 1 := by
  have hle := network_add_three_le [a, b, c, d] hp
  have hfilled := value_broadcast (a := a) (b := b) (c := c) (d := d) (p := p) (by omega)
  rw [addToIP, value_carryAdd_neg_one (by omega), hfilled]

/-- The first host is off by one at each octet of the network address that is even. -/
theorem value_first (hp : p ≤ 32) :
    value ((masked [a, b, c, d] (prefixMask 4 p)).map (· ||| 1)) =
      networkOf [a, b, c, d] p + value (evens (masked [a, b, c, d] (prefixMask 4 p))) := by
  rw [value_odd, value_network hp]

theorem value_evens_four (w x y z : Octet) :
    value (evens [w, x, y, z]) = 1 ↔
      w.toNat % 2 = 1 ∧ x.toNat % 2 = 1 ∧ y.toNat % 2 = 1 ∧ z.toNat % 2 = 0 := by
  simp only [evens, List.map_cons, List.map_nil, value, List.length_cons, List.length_nil,
    BitVec.toNat_ofNat]
  omega

example : subnetFirstAndLastHost ⟨[192, 168, 100, 0], [255, 255, 255, 0]⟩ =
    some ([193, 169, 101, 1], [192, 168, 100, 254]) := by decide

/-- The octets that are to be odd for the first host. -/
theorem value_evens (hp : p ≤ 30) :
    value (evens (masked [a, b, c, d] (prefixMask 4 p))) = 1 ↔
      24 ≤ p ∧ a.toNat % 2 = 1 ∧ b.toNat % 2 = 1 ∧ c.toNat % 2 = 1 := by
  rcases Nat.lt_or_ge p 24 with h24 | h24
  · obtain ⟨m₁, m₂, n, m₄, hn, hmask⟩ := prefixMask_of_lt h24
    rw [hmask]
    refine iff_of_false (fun h => ?_) fun h => Nat.not_le.mpr h24 h.1
    have hodd := ((value_evens_four _ _ _ _).mp h).2.2.1
    rw [even_and_mask c hn] at hodd
    cases hodd
  · have hall (x : Octet) : x &&& 255 = x := BitVec.and_allOnes
    have hmasked : masked [a, b, c, d] (prefixMask 4 p) =
        [a, b, c, d &&& Octet.mask (p - 8 - 8 - 8)] := by
      rw [prefixMask_of_ge h24 (by omega)]
      simp only [masked, List.zipWith_cons_cons, List.zipWith_nil_left, hall]
    have heven := even_and_mask d (n := p - 8 - 8 - 8) (by omega)
    rw [hmasked, value_evens_four]
    exact ⟨fun h => ⟨h24, h.1, h.2.1, h.2.2.1⟩, fun h => ⟨h.2.1, h.2.2.1, h.2.2.2, heven⟩⟩

/-- **The hosts of a subnet** are right exactly for a subnet in which only the last octet has host
bits and the others are odd; a subnet without two hosts is never refused. -/
theorem serves_subnet_iff (hmode : req.mode = .nat ∨ req.mode = .isolated)
    (hcidr : req.cidr = some (cidrText [a, b, c, d] p)) (hp : p ≤ 32) :
    ServesSubnet req [a, b, c, d] p ↔
      p = 0 ∨ 24 ≤ p ∧ p ≤ 30 ∧ a.toNat % 2 = 1 ∧ b.toNat % 2 = 1 ∧ c.toNat % 2 = 1 := by
  have hxml := networkCreateXML_cidrText hmode hcidr hp
  have hparse := parseCIDR_cidrText a b c d hp
  have hsubnet := subnetFirstAndLastHost_masked [a, b, c, d] rfl p
  have hfirst := value_first (a := a) (b := b) (c := c) (d := d) hp
  constructor
  · intro h
    rcases Nat.eq_zero_or_pos p with hzero | hpos
    · exact .inl hzero
    have h30 : p ≤ 30 := by
      by_contra hgt
      obtain ⟨e, he⟩ := h.refused (by omega)
      cases hxml.symm.trans he
    obtain ⟨ipNet, first, last, hnet, hhosts, hof, -⟩ := h.hosts hpos h30
    cases hparse.symm.trans hnet
    cases hsubnet.symm.trans hhosts
    have heq := hof.first_eq
    rw [hfirst] at heq
    obtain ⟨h24, hodd⟩ := (value_evens h30).mp (Nat.add_left_cancel heq)
    exact .inr ⟨h24, h30, hodd⟩
  · intro h
    refine ⟨fun hpos h30 => ?_, fun h31 => ?_⟩
    · rcases h with rfl | ⟨h24, -, hodd⟩
      · cases hpos
      have hle := network_add_three_le [a, b, c, d] h30
      rw [(value_evens h30).mpr ⟨h24, hodd⟩] at hfirst
      have hlast := value_last (a := a) (b := b) (c := c) (d := d) h30
      exact ⟨_, _, _, hparse, hsubnet,
        ⟨hfirst, hlast, by omega, by omega, by omega⟩, hxml⟩
    · rcases h with rfl | ⟨-, h30, -⟩ <;> omega

end Hosts

/-- A request for a network with NAT on a subnet. -/
def natRequest (cidr : String) : NetworkCreate where
  bridgeName := none
  cidr := some cidr
  dhcpEnabled := none
  mode := .nat
  name := "lab"

theorem serves_subnet_iff_odd :
    ServesSubnet (natRequest (cidrText [11, 1, 101, 0] 24)) [11, 1, 101, 0] 24 ↔
      24 = 0 ∨ 24 ≤ 24 ∧ 24 ≤ 30 ∧ (11 : Octet).toNat % 2 = 1 ∧ (1 : Octet).toNat % 2 = 1 ∧
        (101 : Octet).toNat % 2 = 1 :=
  serves_subnet_iff (.inl rfl) rfl (by decide)

/-- The gateway of 192.168.100.0/24 is put on 193.169.101.1. -/
theorem gateway_outside_subnet :
    ¬ ∀ (req : NetworkCreate) (a b c d : Octet) (p : ℕ), req.mode = .nat ∨ req.mode = .isolated →
      req.cidr = some (cidrText [a, b, c, d] p) → p ≤ 32 → ServesSubnet req [a, b, c, d] p := by
  intro hall
  have h := hall (natRequest (cidrText [192, 168, 100, 0] 24)) 192 168 100 0 24 (.inl rfl) rfl
    (by decide)
  obtain ⟨ipNet, first, last, hnet, hhosts, hof, -⟩ := h.hosts (by decide) (by decide)
  cases (parseCIDR_cidrText 192 168 100 0 (p := 24) (by decide)).symm.trans hnet
  cases (subnetFirstAndLastHost_masked [192, 168, 100, 0] rfl 24).symm.trans hhosts
  exact absurd hof.first_eq (by decide)

end Ultrav
