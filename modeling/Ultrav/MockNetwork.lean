import Ultrav.NetworkValidation

/-!
# Updates of a network in the mock provider

The mock provider assigns the fields of a network in place, one after the other, and makes those of
a subnet anew from the address and the prefix.

* `MockNetwork.update` — `UpdateNetwork`, once the network is found.
* `UpdateFrame` — what is not asked for stays, a second update changes nothing, and an update that
  fails changes nothing.
* `FrameHolds` — what it takes: the stored values are those that are made, and the autostart flag
  does not change when the rest fails.
* `updateFrame_iff` — the updates that live up to it.
-/

namespace Ultrav

open Attempt Octets

/-! ## The call -/

/-- A network of the mock provider. -/
structure MockNetwork where
  id : String
  active : Bool
  autostart : Bool
  bridge : String
  ip : String
  ipPrefix : ℤ
  dhcp : Bool
  domain : String
  mode : String
  deriving DecidableEq, Repr

/-- How an update ends without a network. -/
inductive MockNetworkError where
  /-- `stop the network before structural changes` -/
  | active
  /-- `bridgeName is required for bridge networks` -/
  | bridgeName
  /-- `cidr is required for nat/isolated networks` -/
  | cidr
  /-- `invalid cidr: …` -/
  | invalidCidr (text : String)
  /-- an index that is out of range, which is no error that is returned -/
  | crash
  deriving DecidableEq, Repr

/-- The text of a mode. -/
def NetworkCreateMode.text : NetworkCreateMode → String
  | nat => "nat"
  | isolated => "isolated"
  | bridge => "bridge"
  | other m => m

/-- The last octet goes up by one, or from 255 to 0. -/
def bump (ip : List Octet) : List Octet := ip.modify (ip.length - 1) (· + 1)

namespace NetworkUpdate

variable (req : NetworkUpdate) (n : MockNetwork)

/-- The mode the network is to have. -/
def mergedMode : String := (req.mode.map NetworkCreateMode.text).getD n.mode

/-- The subnet it is to have, empty for none. -/
def mergedCIDR : String :=
  match req.cidr with
  | some cidr => cidr
  | none => if n.ip ≠ "" then n.ip ++ "/" ++ toString n.ipPrefix else ""

end NetworkUpdate

namespace MockNetwork

/-- `UpdateNetwork`, once the network is found. -/
def update (req : NetworkUpdate) : Attempt MockNetworkError MockNetwork Unit := do
  let n ← get
  failIf (n.active && req.structural) .active
  modify fun n => { n with autostart := req.autostart.getD n.autostart }
  if !req.structural then
    pure ()
  else if req.mergedMode n = "bridge" then do
    failIf (req.bridgeName.getD n.bridge = "") .bridgeName
    modify fun n' => { n' with
      bridge := req.bridgeName.getD n.bridge, ip := "", ipPrefix := 0, dhcp := false }
    modify fun n' => { n' with mode := req.mergedMode n }
  else do
    failIf (req.mergedCIDR n = "") .cidr
    match parseIPNet (req.mergedCIDR n) with
    | none => throw (.invalidCidr (req.mergedCIDR n))
    | some ipNet =>
      match to4 ipNet.ip with
      | none => throw .crash
      | some network => do
        modify fun n' => { n' with
          ip := .ofList (ipString (bump network))
          ipPrefix := maskSize ipNet.mask
          dhcp := req.dhcpEnabled.getD true }
        modify fun n' => { n' with mode := req.mergedMode n }

end MockNetwork

/-! ## What is expected -/

section Expected

variable (req : NetworkUpdate) (n : MockNetwork)

/-- What is not asked for stays as it was. -/
structure MockKeeps (n' : MockNetwork) : Prop where
  mode : req.mode = none → n'.mode = n.mode
  bridge : req.bridgeName = none → n'.bridge = n.bridge
  subnet : req.cidr = none → n'.ip = n.ip ∧ n'.ipPrefix = n.ipPrefix
  dhcp : req.dhcpEnabled = none → n'.dhcp = n.dhcp
  autostart : req.autostart = none → n'.autostart = n.autostart

/-- The network is on a bridge before if and only if it is to be on one. -/
def MockNoSwitch : Prop :=
  ∀ mode, req.mode = some mode → (mode = .bridge ↔ n.mode = "bridge")

/-- What is not asked for stays, a second update changes nothing, and an update that fails changes
nothing. -/
structure UpdateFrame : Prop where
  keeps : MockNoSwitch req n → ∀ n', MockNetwork.update req n = (.ok (), n') → MockKeeps req n n'
  again : MockNoSwitch req n → ∀ n', MockNetwork.update req n = (.ok (), n') →
    MockNetwork.update req n' = (.ok (), n')
  error : ∀ e n', MockNetwork.update req n = (.error e, n') → e ≠ .crash → n' = n

/-- The subnet that is kept, if it can be read. -/
def MockNetwork.keptNet : Option IPNet :=
  if n.ip = "" then none else parseIPNet (n.ip ++ "/" ++ toString n.ipPrefix)

/-- The address is the one that is made of it: the first behind the one of the subnet. -/
def MockNetwork.HasGateway : Prop :=
  ∃ ip, ip.length = 4 ∧ n.ip = .ofList (ipText ip) ∧ value ip % 2 ^ (32 - n.ipPrefix.toNat) = 1

/-- What an update of an inactive network takes, on a bridge. -/
structure BridgeFrame : Prop where
  keeps : MockNoSwitch req n → (req.bridgeName ≠ none ∨ n.bridge ≠ "") →
    (req.cidr = none → n.ip = "" ∧ n.ipPrefix = 0) ∧ (req.dhcpEnabled = none → n.dhcp = false)
  error : req.bridgeName = none → n.bridge = "" → req.autostart.getD n.autostart = n.autostart

/-- What an update of an inactive network takes, on a subnet. -/
structure SubnetFrame : Prop where
  keeps : MockNoSwitch req n → (req.cidr ≠ none ∨ ∃ net v4, n.keptNet = some net ∧
      to4 net.ip = some v4) →
    (req.cidr = none → n.HasGateway) ∧ (req.dhcpEnabled = none → n.dhcp = true)
  error : req.cidr = none → n.keptNet = none → req.autostart.getD n.autostart = n.autostart

/-- What an update takes. -/
def FrameHolds : Prop :=
  req.structural = true → n.active = false →
    if req.mergedMode n = "bridge" then BridgeFrame req n else SubnetFrame req n

end Expected

/-! ## What an update does -/

section Update

variable {req : NetworkUpdate} {n n' : MockNetwork}

theorem update_of_active (hstructural : req.structural = true) (hactive : n.active = true) :
    MockNetwork.update req n = (.error .active, n) := by
  simp [MockNetwork.update, get_bind_apply, failIf_bind_apply, hstructural, hactive]

/-- A change of the autostart flag alone. -/
theorem update_of_not_structural (hstructural : req.structural = false) :
    MockNetwork.update req n =
      (.ok (), { n with autostart := req.autostart.getD n.autostart }) := by
  simp only [MockNetwork.update, get_bind_apply, failIf_bind_apply, modify_bind_apply, hstructural,
    Bool.and_false, Bool.false_eq_true, Bool.not_false, if_true, if_false]
  rfl

/-- The network on a bridge. -/
def MockNetwork.onBridge (req : NetworkUpdate) (n : MockNetwork) : MockNetwork :=
  { n with
    autostart := req.autostart.getD n.autostart
    bridge := req.bridgeName.getD n.bridge
    ip := ""
    ipPrefix := 0
    dhcp := false
    mode := req.mergedMode n }

/-- The network on a subnet. -/
def MockNetwork.onSubnet (req : NetworkUpdate) (ipNet : IPNet) (network : List Octet)
    (n : MockNetwork) : MockNetwork :=
  { n with
    autostart := req.autostart.getD n.autostart
    ip := .ofList (ipString (bump network))
    ipPrefix := maskSize ipNet.mask
    dhcp := req.dhcpEnabled.getD true
    mode := req.mergedMode n }

/-- **On a bridge**: with a name, or not at all. -/
theorem update_bridge (hstructural : req.structural = true) (hactive : n.active = false)
    (hmode : req.mergedMode n = "bridge") : MockNetwork.update req n =
      if req.bridgeName.getD n.bridge = "" then
        (.error .bridgeName, { n with autostart := req.autostart.getD n.autostart })
      else (.ok (), n.onBridge req) := by
  simp only [MockNetwork.update, get_bind_apply, failIf_bind_apply, modify_bind_apply, hstructural,
    hactive, hmode, Bool.false_and, Bool.false_eq_true, Bool.not_true, if_true, if_false,
    decide_eq_true_eq]
  split
  · rfl
  · rw [MockNetwork.onBridge, hmode, hactive]
    rfl

/-- **On a subnet** that can be read. -/
theorem update_subnet {ipNet : IPNet} {network : List Octet} (hstructural : req.structural = true)
    (hactive : n.active = false) (hmode : req.mergedMode n ≠ "bridge")
    (hcidr : req.mergedCIDR n ≠ "") (hnet : parseIPNet (req.mergedCIDR n) = some ipNet)
    (hnetwork : to4 ipNet.ip = some network) :
    MockNetwork.update req n = (.ok (), n.onSubnet req ipNet network) := by
  simp only [MockNetwork.update, get_bind_apply, failIf_bind_apply, modify_bind_apply, hstructural,
    hactive, hmode, hcidr, hnet, hnetwork, Bool.false_and, Bool.false_eq_true, Bool.not_true,
    if_false, decide_false]
  rw [MockNetwork.onSubnet, hactive]
  rfl

/-- On a subnet that cannot be read. -/
theorem update_subnet_error (hstructural : req.structural = true) (hactive : n.active = false)
    (hmode : req.mergedMode n ≠ "bridge")
    (hnet : req.mergedCIDR n = "" ∨ parseIPNet (req.mergedCIDR n) = none) :
    ∃ e, e ≠ .crash ∧ MockNetwork.update req n =
      (.error e, { n with autostart := req.autostart.getD n.autostart }) := by
  by_cases hcidr : req.mergedCIDR n = ""
  · refine ⟨.cidr, by simp, ?_⟩
    simp only [MockNetwork.update, get_bind_apply, failIf_bind_apply, modify_bind_apply,
      hstructural, hactive, hmode, hcidr, Bool.false_and, Bool.false_eq_true, Bool.not_true,
      if_false, decide_true, if_true]
  · refine ⟨.invalidCidr (req.mergedCIDR n), by simp, ?_⟩
    simp only [MockNetwork.update, get_bind_apply, failIf_bind_apply, modify_bind_apply,
      hstructural, hactive, hmode, hcidr, hnet.resolve_left hcidr, Bool.false_and,
      Bool.false_eq_true, Bool.not_true, if_false, decide_false]
    rfl

/-- On a subnet of the other family. -/
theorem update_subnet_crash {ipNet : IPNet} (hstructural : req.structural = true)
    (hactive : n.active = false) (hmode : req.mergedMode n ≠ "bridge")
    (hcidr : req.mergedCIDR n ≠ "") (hnet : parseIPNet (req.mergedCIDR n) = some ipNet)
    (hnetwork : to4 ipNet.ip = none) : (MockNetwork.update req n).1 = .error .crash := by
  simp only [MockNetwork.update, get_bind_apply, failIf_bind_apply, modify_bind_apply, hstructural,
    hactive, hmode, hcidr, hnet, hnetwork, Bool.false_and, Bool.false_eq_true, Bool.not_true,
    if_false, decide_false]
  rfl

end Update

/-! ## Subnets that are kept -/

section Kept

/-- A number behind the slash. -/
theorem dtoi_toDigits (m : ℕ) :
    dtoi (Nat.toDigits 10 m) = if m < 0xFFFFFF then some m else none := by
  rw [← padded_zero, dtoi_padded]

theorem dtoi_toString (P : ℤ) :
    dtoi (toString P).toList = if 0 ≤ P ∧ P < 0xFFFFFF then some P.toNat else none := by
  cases P with
  | ofNat m =>
    have hlist : (toString (Int.ofNat m)).toList = Nat.toDigits 10 m := String.toList_ofList
    rw [hlist, dtoi_toDigits]
    have hiff : (m < 0xFFFFFF) ↔ (0 ≤ Int.ofNat m ∧ Int.ofNat m < 0xFFFFFF) := by
      simp only [Int.ofNat_eq_natCast]
      omega
    by_cases hlt : m < 0xFFFFFF
    · rw [if_pos hlt, if_pos (hiff.mp hlt)]
      rfl
    · rw [if_neg hlt, if_neg (mt hiff.mpr hlt)]
  | negSucc m =>
    have hlist : (toString (Int.negSucc m)).toList = '-' :: Nat.toDigits 10 (m + 1) := by
      change ("-" ++ (m + 1).repr).toList = _
      rw [String.toList_append]
      exact congrArg ('-' :: ·) String.toList_ofList
    have hneg : ¬ (0 ≤ Int.negSucc m ∧ Int.negSucc m < 0xFFFFFF) := by omega
    rw [hlist, if_neg hneg, dtoi]
    exact if_neg (by simp)

/-- An IPv4 address and a number. -/
theorem parseIPNet_ipText {ip : List Octet} (hip : ip.length = 4) (P : ℤ) :
    parseIPNet (.ofList (ipText ip) ++ "/" ++ toString P) = if 0 ≤ P ∧ P ≤ 32 then
      some ⟨masked ip (prefixMask 4 P.toNat), prefixMask 4 P.toNat⟩ else none := by
  match ip, hip with
  | [a, b, c, d], _ =>
    have hpre : ∀ x ∈ ipText [a, b, c, d], decide (x ≠ '/') = true :=
      fun x hx => ne_slash a b c d hx
    have hslash : ¬ decide ('/' ≠ '/') = true := by simp
    have hlist : (String.ofList (ipText [a, b, c, d]) ++ "/" ++ toString P).toList =
        ipText [a, b, c, d] ++ '/' :: (toString P).toList := by
      simp
    rw [parseIPNet, hlist, List.dropWhile_append_of_pos hpre, List.takeWhile_append_of_pos hpre,
      List.dropWhile_cons_of_neg (p := fun x => decide (x ≠ '/')) hslash,
      List.takeWhile_cons_of_neg (p := fun x => decide (x ≠ '/')) hslash, List.append_nil]
    dsimp only
    rw [parseAddr_ipText, Option.bind_some, dtoi_toString]
    by_cases hP : 0 ≤ P ∧ P ≤ 32
    · have hlt : 0 ≤ P ∧ P < 0xFFFFFF := by omega
      have hle : P.toNat ≤ 8 * [a, b, c, d].length := by simp; omega
      rw [if_pos hP, if_pos hlt, Option.bind_some, if_pos hle]
      rfl
    · rw [if_neg hP]
      split
      · have hle : ¬ P.toNat ≤ 8 * [a, b, c, d].length := by simp; omega
        rw [Option.bind_some, if_neg hle]
      · rfl

theorem value_four (a b c d : Octet) : value [a, b, c, d] =
    a.toNat * 16777216 + b.toNat * 65536 + c.toNat * 256 + d.toNat := by
  simp [value, Nat.add_assoc]

theorem four_octets {ip : List Octet} (h : ip.length = 4) : ∃ a b c d, ip = [a, b, c, d] := by
  rcases ip with _ | ⟨a, _ | ⟨b, _ | ⟨c, _ | ⟨d, _ | ⟨e, ip⟩⟩⟩⟩⟩ <;> simp_all

/-- The first address behind the one of the subnet. -/
theorem bump_masked_iff {ip : List Octet} (hip : ip.length = 4) {p : ℕ} (hp : p ≤ 32) :
    bump (masked ip (prefixMask 4 p)) = ip ↔ value ip % 2 ^ (32 - p) = 1 := by
  have hvalue := value_masked ip (n := p) (by omega)
  have hlen : (masked ip (prefixMask ip.length p)).length = 4 := by
    simp [masked, hip, length_prefixMask]
  have hdiv := Nat.div_add_mod' (value ip) (2 ^ (8 * ip.length - p))
  rw [roundDown] at hvalue
  rw [hip] at hvalue hlen hdiv
  have heven : p < 32 → value ip / 2 ^ (8 * 4 - p) * 2 ^ (8 * 4 - p) % 2 = 0 := by
    intro hlt
    obtain ⟨k, hk⟩ : ∃ k, 8 * 4 - p = k + 1 := ⟨31 - p, by omega⟩
    rw [hk, Nat.pow_succ, ← Nat.mul_assoc, Nat.mul_mod_left]
  have hone : p = 32 → value ip % 2 ^ (8 * 4 - p) = 0 := by
    rintro rfl
    exact Nat.mod_one _
  change _ ↔ value ip % 2 ^ (8 * 4 - p) = 1
  generalize value ip / 2 ^ (8 * 4 - p) * 2 ^ (8 * 4 - p) = network at hvalue hdiv heven
  generalize value ip % 2 ^ (8 * 4 - p) = host at hdiv hone ⊢
  generalize masked ip (prefixMask 4 p) = net at hvalue hlen
  obtain ⟨a, b, c, d, rfl⟩ := four_octets hip
  obtain ⟨a', b', c', d', rfl⟩ := four_octets hlen
  have hbump : bump [a', b', c', d'] = [a', b', c', d' + 1] := rfl
  have hlast : (d' + 1).toNat = (d'.toNat + 1) % 256 := BitVec.toNat_add ..
  have hbound := d'.isLt
  have hlow : network % 2 = d'.toNat % 2 := by
    rw [← hvalue, value_four]
    omega
  have hnet : value [a', b', c', d' + 1] + d'.toNat = network + (d' + 1).toNat := by
    rw [← hvalue, value_four, value_four]
    omega
  rw [hbump]
  constructor
  · intro hsame
    rw [hsame, ← hdiv] at hnet
    rcases Nat.lt_or_ge p 32 with hlt | hge
    · have hzero := heven hlt
      omega
    · have hzero := hone (by omega)
      omega
  · intro hhost
    rcases Nat.lt_or_ge p 32 with hlt | hge
    · have hzero := heven hlt
      exact value_inj rfl (by omega)
    · have hzero := hone (by omega)
      omega

theorem length_of_to4 {ip network : List Octet} (h : to4 ip = some network) :
    network.length = 4 := by
  rw [to4] at h
  split_ifs at h with hfour hmapped
  · obtain rfl := Option.some.inj h
    exact hfour
  · obtain rfl := Option.some.inj h
    simp [hmapped.1]

theorem ipString_of_length {ip : List Octet} (hip : ip.length = 4) : ipString ip = ipText ip := by
  rw [ipString, to4, if_pos hip]

/-- **A kept subnet** is written as it was exactly when the address is the first one of it. -/
theorem keptGateway_iff {n : MockNetwork} {ipNet : IPNet} {network : List Octet}
    (hnet : n.keptNet = some ipNet) (hnetwork : to4 ipNet.ip = some network) :
    (.ofList (ipString (bump network)) = n.ip ∧ (maskSize ipNet.mask : ℤ) = n.ipPrefix) ↔
      n.HasGateway := by
  have hempty : n.ip ≠ "" := by
    intro hempty
    simp [MockNetwork.keptNet, hempty] at hnet
  rw [MockNetwork.keptNet, if_neg hempty] at hnet
  -- what is read when the address is one in dotted form
  have hdotted : ∀ ip, ip.length = 4 → n.ip = .ofList (ipText ip) → n.ipPrefix.toNat ≤ 32 ∧
      maskSize ipNet.mask = n.ipPrefix ∧ network = masked ip (prefixMask 4 n.ipPrefix.toNat) := by
    intro ip hip haddress
    rw [haddress, parseIPNet_ipText hip] at hnet
    split at hnet
    · rename_i hP
      obtain rfl := Option.some.inj hnet
      have hlen : (masked ip (prefixMask 4 n.ipPrefix.toNat)).length = 4 := by
        simp [masked, hip, length_prefixMask]
      rw [to4, if_pos hlen] at hnetwork
      have hsize : maskSize (prefixMask 4 n.ipPrefix.toNat) = n.ipPrefix.toNat :=
        maskSize_prefixMask (by omega)
      exact ⟨by omega, by rw [hsize]; omega, (Option.some.inj hnetwork).symm⟩
    · cases hnet
  have hlen : (bump network).length = 4 := by
    rw [bump, List.length_modify, length_of_to4 hnetwork]
  rw [ipString_of_length hlen]
  constructor
  · rintro ⟨haddress, -⟩
    obtain ⟨hp, -, hmasked⟩ := hdotted _ hlen haddress.symm
    refine ⟨bump network, hlen, haddress.symm, (bump_masked_iff hlen hp).mp ?_⟩
    rw [← hmasked]
  · rintro ⟨ip, hip, haddress, hvalue⟩
    obtain ⟨hp, hsize, rfl⟩ := hdotted ip hip haddress
    rw [(bump_masked_iff hip hp).mpr hvalue]
    exact ⟨haddress.symm, hsize⟩

/-- A field of digits in front of what follows it. -/
theorem digitField_eq_some {sep : Char} {s rest : List Char} (h : digitField sep s = some rest) :
    ∃ ds, (∀ c ∈ ds, c.isDigit = true) ∧ s = ds ++ sep :: rest := by
  simp only [digitField] at h
  split at h
  · split at h
    · cases h
    · rename_i c tail hdrop
      split at h
      · rename_i hsep
        obtain rfl := Option.some.inj h
        refine ⟨s.takeWhile Char.isDigit, fun c hc => ?_, ?_⟩
        · exact List.all_eq_true.mp List.all_takeWhile c hc
        · rw [← hsep, ← hdrop, List.takeWhile_append_dropWhile]
      · cases h
  · cases h

/-- The pattern lets IPv4 alone by. -/
theorem parseIPNet_of_cidrPattern {s : String} (h : cidrPattern s = true) :
    parseIPNet s = parseCIDR s := by
  obtain ⟨tail, htail⟩ : ∃ tail, digitField '.' s.toList = some tail := by
    cases hfield : digitField '.' s.toList with
    | none => simp [cidrPattern, hfield] at h
    | some tail => exact ⟨tail, rfl⟩
  obtain ⟨ds, hdigits, hs⟩ := digitField_eq_some htail
  have hslash : ∀ c ∈ ds, decide (c ≠ '/') = true := by
    intro c hc
    have hdigit := hdigits c hc
    exact decide_eq_true (by rintro rfl; exact absurd hdigit (by decide))
  have haddr : parseAddr (s.toList.takeWhile fun c => decide (c ≠ '/')) =
      parseIPv4Fields [] 0 0 (s.toList.takeWhile fun c => decide (c ≠ '/')) := by
    rw [hs, List.takeWhile_append_of_pos hslash, List.takeWhile_cons_of_pos (by decide)]
    exact parseAddr_digits hdigits _
  rw [parseIPNet, parseCIDR, haddr]
  cases s.toList.dropWhile fun c => decide (c ≠ '/') with
  | nil => rfl
  | cons c mask =>
    refine Option.bind_congr fun ip hip => ?_
    rw [length_parseIPv4Fields hip (by simp)]

end Kept

/-! ## The frame of an update -/

section Frame

variable {req : NetworkUpdate} {n n' : MockNetwork}

/-- An update that goes through. -/
theorem updateFrame_of_ok (h : MockNetwork.update req n = (.ok (), n')) :
    UpdateFrame req n ↔ (MockNoSwitch req n →
      MockKeeps req n n' ∧ MockNetwork.update req n' = (.ok (), n')) := by
  constructor
  · rintro ⟨hkeeps, hagain, -⟩ hswitch
    exact ⟨hkeeps hswitch n' h, hagain hswitch n' h⟩
  · intro hframe
    refine ⟨fun hswitch n₁ h₁ => ?_, fun hswitch n₁ h₁ => ?_, fun e n₁ h₁ => ?_⟩
    · obtain ⟨-, rfl⟩ := Prod.mk.inj (h.symm.trans h₁)
      exact (hframe hswitch).1
    · obtain ⟨-, rfl⟩ := Prod.mk.inj (h.symm.trans h₁)
      exact (hframe hswitch).2
    · simp [h] at h₁

/-- An update that fails. -/
theorem updateFrame_of_error {e : MockNetworkError}
    (h : MockNetwork.update req n = (.error e, n')) :
    UpdateFrame req n ↔ (e ≠ .crash → n' = n) := by
  constructor
  · rintro ⟨-, -, herror⟩
    exact herror e n' h
  · intro hframe
    refine ⟨fun _ n₁ h₁ => ?_, fun _ n₁ h₁ => ?_, fun e₁ n₁ h₁ he => ?_⟩
    · simp [h] at h₁
    · simp [h] at h₁
    · obtain ⟨he₁, rfl⟩ := Prod.mk.inj (h.symm.trans h₁)
      obtain rfl := Except.error.inj he₁
      exact hframe he

/-- The flag is the only field that an update which fails may have changed. -/
theorem autostart_eq_iff {b : Bool} : { n with autostart := b } = n ↔ b = n.autostart := by
  constructor
  · intro h
    exact congrArg MockNetwork.autostart h
  · rintro rfl
    rfl

theorem updateFrame_of_not_structural (hstructural : req.structural = false) :
    UpdateFrame req n := by
  refine (updateFrame_of_ok (update_of_not_structural hstructural)).mpr fun _ => ⟨?_, ?_⟩
  · exact ⟨fun _ => rfl, fun _ => rfl, fun _ => ⟨rfl, rfl⟩, fun _ => rfl,
      fun hnone => by simp [hnone]⟩
  · rw [update_of_not_structural hstructural]
    cases req.autostart <;> rfl

@[simp] theorem mergedMode_onBridge :
    req.mergedMode (n.onBridge req) = req.mergedMode n := by
  simp only [NetworkUpdate.mergedMode, MockNetwork.onBridge]
  cases req.mode <;> rfl

@[simp] theorem mergedMode_onSubnet (ipNet : IPNet) (network : List Octet) :
    req.mergedMode (n.onSubnet req ipNet network) = req.mergedMode n := by
  simp only [NetworkUpdate.mergedMode, MockNetwork.onSubnet]
  cases req.mode <;> rfl

theorem onBridge_onBridge : (n.onBridge req).onBridge req = n.onBridge req := by
  rw [MockNetwork.onBridge, mergedMode_onBridge]
  simp only [MockNetwork.onBridge]
  cases req.autostart <;> cases req.bridgeName <;> rfl

theorem onSubnet_onSubnet (ipNet : IPNet) (network : List Octet) :
    (n.onSubnet req ipNet network).onSubnet req ipNet network =
      n.onSubnet req ipNet network := by
  rw [MockNetwork.onSubnet, mergedMode_onSubnet]
  simp only [MockNetwork.onSubnet]
  cases req.autostart <;> rfl

/-- A network on a bridge. -/
theorem updateFrame_bridge_iff (hvalid : req.bridgeName ≠ some "")
    (hstructural : req.structural = true) (hactive : n.active = false)
    (hmode : req.mergedMode n = "bridge") : UpdateFrame req n ↔ BridgeFrame req n := by
  have hupdate := update_bridge hstructural hactive hmode
  by_cases hname : req.bridgeName.getD n.bridge = ""
  · -- no name was asked for, and there is none
    obtain ⟨hnone, hbridge⟩ : req.bridgeName = none ∧ n.bridge = "" := by
      cases hreq : req.bridgeName with
      | none => simpa [hreq] using hname
      | some bridge =>
        rw [hreq, Option.getD_some] at hname
        rw [hreq, hname] at hvalid
        exact absurd rfl hvalid
    rw [if_pos hname] at hupdate
    rw [updateFrame_of_error hupdate, autostart_eq_iff]
    constructor
    · intro hflag
      exact ⟨fun _ hsome => by simp [hnone, hbridge] at hsome, fun _ _ => hflag (by simp)⟩
    · rintro ⟨-, herror⟩ -
      exact herror hnone hbridge
  · rw [if_neg hname] at hupdate
    have hnamed : req.bridgeName ≠ none ∨ n.bridge ≠ "" := by
      cases hreq : req.bridgeName with
      | none => exact .inr (by simpa [hreq] using hname)
      | some bridge => exact .inl (by simp)
    have hagain : MockNetwork.update req (n.onBridge req) = (.ok (), n.onBridge req) := by
      have hname' : req.bridgeName.getD (n.onBridge req).bridge = req.bridgeName.getD n.bridge := by
        cases hreq : req.bridgeName <;> simp [MockNetwork.onBridge, hreq]
      have hmode' : req.mergedMode (n.onBridge req) = "bridge" := by
        rw [mergedMode_onBridge, hmode]
      rw [update_bridge (n := n.onBridge req) hstructural hactive hmode', hname', if_neg hname,
        onBridge_onBridge]
    rw [updateFrame_of_ok hupdate]
    constructor
    · intro hframe
      refine ⟨fun hswitch _ => ⟨fun hnone => ?_, fun hnone => ?_⟩, fun hnone hbridge => ?_⟩
      · obtain ⟨hip, hprefix⟩ := (hframe hswitch).1.subnet hnone
        exact ⟨hip.symm, hprefix.symm⟩
      · exact ((hframe hswitch).1.dhcp hnone).symm
      · simp [hnone, hbridge] at hname
    · rintro ⟨hkeeps, -⟩ hswitch
      obtain ⟨hsubnet, hdhcp⟩ := hkeeps hswitch hnamed
      refine ⟨⟨fun hnone => ?_, fun hnone => ?_, fun hnone => ?_, fun hnone => ?_,
        fun hnone => ?_⟩, hagain⟩
      · simp [MockNetwork.onBridge, NetworkUpdate.mergedMode, hnone]
      · simp [MockNetwork.onBridge, hnone]
      · obtain ⟨hip, hprefix⟩ := hsubnet hnone
        exact ⟨hip.symm, hprefix.symm⟩
      · exact (hdhcp hnone).symm
      · simp [MockNetwork.onBridge, hnone]

/-- What an update keeps on a subnet. -/
theorem mockKeeps_onSubnet_iff {ipNet : IPNet} {network : List Octet} :
    MockKeeps req n (n.onSubnet req ipNet network) ↔
      (req.cidr = none → .ofList (ipString (bump network)) = n.ip ∧
        (maskSize ipNet.mask : ℤ) = n.ipPrefix) ∧ (req.dhcpEnabled = none → n.dhcp = true) := by
  constructor
  · intro hkeeps
    refine ⟨hkeeps.subnet, fun hnone => ?_⟩
    simpa [MockNetwork.onSubnet, hnone] using (hkeeps.dhcp hnone).symm
  · rintro ⟨hsubnet, hdhcp⟩
    refine ⟨fun hnone => ?_, fun _ => rfl, hsubnet, fun hnone => ?_, fun hnone => ?_⟩
    · simp [MockNetwork.onSubnet, NetworkUpdate.mergedMode, hnone]
    · simp [MockNetwork.onSubnet, hnone, hdhcp hnone]
    · simp [MockNetwork.onSubnet, hnone]

/-- A subnet that was asked for. -/
theorem updateFrame_asked_iff {cidr : String} {ipNet : IPNet} {network : List Octet}
    (hstructural : req.structural = true) (hactive : n.active = false)
    (hmode : req.mergedMode n ≠ "bridge") (hcidr : req.cidr = some cidr)
    (hnet : parseIPNet cidr = some ipNet) (hnetwork : to4 ipNet.ip = some network) :
    UpdateFrame req n ↔ SubnetFrame req n := by
  have hmerged : ∀ n, req.mergedCIDR n = cidr := fun n => by
    simp [NetworkUpdate.mergedCIDR, hcidr]
  have hne : cidr ≠ "" := by
    rintro rfl
    cases hnet
  have hupdate : ∀ n, n.active = false → req.mergedMode n ≠ "bridge" →
      MockNetwork.update req n = (.ok (), n.onSubnet req ipNet network) := by
    intro n hactive hmode
    refine update_subnet hstructural hactive hmode ?_ ?_ hnetwork <;> rw [hmerged]
    · exact hne
    · exact hnet
  have hagain := hupdate (n.onSubnet req ipNet network) hactive (by rwa [mergedMode_onSubnet])
  rw [onSubnet_onSubnet] at hagain
  have hsome : req.cidr ≠ none := by simp [hcidr]
  rw [updateFrame_of_ok (hupdate n hactive hmode), mockKeeps_onSubnet_iff]
  constructor
  · intro hframe
    exact ⟨fun hswitch _ => ⟨fun hnone => absurd hnone hsome, (hframe hswitch).1.2⟩,
      fun hnone => absurd hnone hsome⟩
  · rintro ⟨hkeeps, -⟩ hswitch
    exact ⟨⟨fun hnone => absurd hnone hsome, (hkeeps hswitch (.inl hsome)).2⟩, hagain⟩

theorem mergedCIDR_of_empty (hcidr : req.cidr = none) (hip : n.ip = "") :
    req.mergedCIDR n = "" := by
  simp [NetworkUpdate.mergedCIDR, hcidr, hip]

theorem parseIPNet_mergedCIDR (hcidr : req.cidr = none) (hip : n.ip ≠ "") :
    parseIPNet (req.mergedCIDR n) = n.keptNet := by
  simp [NetworkUpdate.mergedCIDR, MockNetwork.keptNet, hcidr, hip]

theorem mergedCIDR_ne (hcidr : req.cidr = none) (hip : n.ip ≠ "") : req.mergedCIDR n ≠ "" := by
  simp [NetworkUpdate.mergedCIDR, hcidr, hip]

/-- A subnet that is kept. -/
theorem updateFrame_kept_iff (hstructural : req.structural = true) (hactive : n.active = false)
    (hmode : req.mergedMode n ≠ "bridge") (hcidr : req.cidr = none) :
    UpdateFrame req n ↔ SubnetFrame req n := by
  cases hkept : n.keptNet with
  | none =>
    have hnet : req.mergedCIDR n = "" ∨ parseIPNet (req.mergedCIDR n) = none := by
      by_cases hip : n.ip = ""
      · exact .inl (mergedCIDR_of_empty hcidr hip)
      · exact .inr (by rw [parseIPNet_mergedCIDR hcidr hip, hkept])
    obtain ⟨e, he, hupdate⟩ := update_subnet_error hstructural hactive hmode hnet
    rw [updateFrame_of_error hupdate, autostart_eq_iff]
    constructor
    · intro hflag
      exact ⟨fun _ hread => by simp [hcidr, hkept] at hread, fun _ _ => hflag he⟩
    · rintro ⟨-, herror⟩ -
      exact herror hcidr hkept
  | some ipNet =>
    have hip : n.ip ≠ "" := by
      intro hip
      simp [MockNetwork.keptNet, hip] at hkept
    have hnet := (parseIPNet_mergedCIDR hcidr hip).trans hkept
    cases hnetwork : to4 ipNet.ip with
    | none =>
      -- an address of the other family is no error that is returned
      have hcrash := update_subnet_crash hstructural hactive hmode (mergedCIDR_ne hcidr hip) hnet
        hnetwork
      rw [updateFrame_of_error (Prod.ext hcrash rfl)]
      refine iff_of_true (by simp) ⟨fun _ hread => ?_, fun _ hnone => by simp [hkept] at hnone⟩
      simp [hcidr, hkept, hnetwork] at hread
    | some network =>
      have hupdate := update_subnet hstructural hactive hmode (mergedCIDR_ne hcidr hip) hnet
        hnetwork
      have hread : req.cidr ≠ none ∨ ∃ net v4, n.keptNet = some net ∧ to4 net.ip = some v4 :=
        .inr ⟨ipNet, network, hkept, hnetwork⟩
      rw [updateFrame_of_ok hupdate, mockKeeps_onSubnet_iff, keptGateway_iff hkept hnetwork]
      constructor
      · intro hframe
        exact ⟨fun hswitch _ => (hframe hswitch).1, fun _ hnone => by simp [hkept] at hnone⟩
      · rintro ⟨hkeeps, -⟩ hswitch
        refine ⟨hkeeps hswitch hread, ?_⟩
        obtain ⟨haddress, hsize⟩ :=
          (keptGateway_iff hkept hnetwork).mpr ((hkeeps hswitch hread).1 hcidr)
        -- the second update reads the same subnet again
        have hmerged : req.mergedCIDR (n.onSubnet req ipNet network) = req.mergedCIDR n := by
          simp only [NetworkUpdate.mergedCIDR, MockNetwork.onSubnet, hcidr, haddress, hsize]
        have hagain := update_subnet (n := n.onSubnet req ipNet network) hstructural hactive
          (by rwa [mergedMode_onSubnet]) (by rw [hmerged]; exact mergedCIDR_ne hcidr hip)
          (by rw [hmerged, hnet]) hnetwork
        rwa [onSubnet_onSubnet] at hagain

/-- What the validation says about a request. -/
theorem validateUpdateNetwork_eq (hvalid : validateUpdateNetwork req = "") :
    (∀ cidr, req.cidr = some cidr → ∃ ip p, ip.length = 4 ∧ p ≤ 32 ∧
      parseIPNet cidr = some ⟨masked ip (prefixMask 4 p), prefixMask 4 p⟩) ∧
    req.bridgeName ≠ some "" := by
  rw [validateUpdateNetwork] at hvalid
  split_ifs at hvalid with hcidr hbridge
  · simp at hvalid
  · simp at hvalid
  refine ⟨fun cidr hreq => ?_, fun hempty => hbridge (by rw [hempty]; decide)⟩
  rw [hreq] at hcidr
  simp only [Option.any_some, Bool.or_eq_true, Bool.not_eq_true', not_or, Bool.not_eq_false,
    Bool.not_eq_true] at hcidr
  obtain ⟨hpattern, hsome⟩ := hcidr
  obtain ⟨ipNet, hnet⟩ := Option.isSome_iff_exists.mp (by simpa using hsome)
  obtain ⟨ip, p, hip, hp, rfl⟩ := parseCIDR_eq_some hnet
  exact ⟨ip, p, hip, hp, (parseIPNet_of_cidrPattern hpattern).trans hnet⟩

/-- **The frame of an update** that is accepted: what is not asked for stays, a second one changes
nothing and one that fails changes nothing, exactly when the stored values are those that are made
and the autostart flag does not change when the rest fails. -/
theorem updateFrame_iff (hvalid : validateUpdateNetwork req = "") :
    UpdateFrame req n ↔ FrameHolds req n := by
  obtain ⟨hcidr, hbridge⟩ := validateUpdateNetwork_eq hvalid
  rw [FrameHolds]
  cases hstructural : req.structural with
  | false => exact iff_of_true (updateFrame_of_not_structural hstructural) (by simp)
  | true =>
    cases hactive : n.active with
    | true =>
      rw [updateFrame_of_error (update_of_active hstructural hactive)]
      simp
    | false =>
      by_cases hmode : req.mergedMode n = "bridge"
      · simpa [hmode] using updateFrame_bridge_iff hbridge hstructural hactive hmode
      · have hframe : UpdateFrame req n ↔ SubnetFrame req n := by
          cases hreq : req.cidr with
          | none => exact updateFrame_kept_iff hstructural hactive hmode hreq
          | some cidr =>
            obtain ⟨ip, p, hip, -, hnet⟩ := hcidr cidr hreq
            refine updateFrame_asked_iff hstructural hactive hmode hreq hnet (if_pos ?_)
            simp [masked, hip, length_prefixMask]
        simpa [hmode] using hframe

end Frame

/-- Only DHCP is asked for. -/
def dhcpOn : NetworkUpdate := ⟨none, none, none, some true, none⟩

/-- Only the mode is asked for. -/
def toIsolated : NetworkUpdate := ⟨none, none, none, none, some .isolated⟩

/-- A network that was stopped, without DHCP. -/
def stoppedNetwork : MockNetwork where
  id := "lab"
  active := false
  autostart := true
  bridge := ""
  ip := "192.168.100.1"
  ipPrefix := 24
  dhcp := false
  domain := "lab"
  mode := "nat"

theorem hasGateway_stopped : stoppedNetwork.HasGateway :=
  ⟨[192, 168, 100, 1], rfl, by decide, by decide⟩

/-- Turning DHCP on changes nothing else. -/
theorem updateFrame_stopped : UpdateFrame dhcpOn stoppedNetwork := by
  refine (updateFrame_iff (by decide)).mpr fun _ _ => ?_
  rw [if_neg (by decide)]
  exact ⟨fun _ _ => ⟨fun _ => hasGateway_stopped, by simp [dhcpOn]⟩, fun _ _ => rfl⟩

/-- A change of the mode turns DHCP on as well. -/
theorem not_updateFrame_stopped :
    validateUpdateNetwork toIsolated = "" ∧ ¬ UpdateFrame toIsolated stoppedNetwork := by
  refine ⟨by decide, fun hframe => ?_⟩
  rw [updateFrame_kept_iff rfl rfl (by decide) rfl] at hframe
  have hswitch : MockNoSwitch toIsolated stoppedNetwork := by
    intro mode hmode
    obtain rfl := Option.some.inj hmode
    decide
  have hkept : stoppedNetwork.keptNet = some ⟨[192, 168, 100, 0], [255, 255, 255, 0]⟩ := by
    decide
  have hdhcp := (hframe.keeps hswitch (.inr ⟨_, _, hkept, rfl⟩)).2 rfl
  exact absurd hdhcp (by decide)

end Ultrav
