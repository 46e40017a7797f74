import Ultrav.Attempts
import Ultrav.IpText
import Ultrav.NetworkReadBack

/-!
# Updates of a network

`UpdateNetwork` reads a few values of the definition, makes a request for a new network of them and
of the changes, and defines the network from that request.

* `cidrFromIPPrefix` / `mergeUpdate` — the request.
* `updateNetwork` — the call.
* `KeepsOmitted` — what is not asked for stays as it was.
* `Rebuilds` — the definitions that come out of such a request as they were.
* `keepsOmitted_iff` — the updates that keep what is not asked for.
-/

namespace Ultrav

open Attempt Octets Xml

/-! ## The call -/

/-- `NetworkUpdate` -/
structure NetworkUpdate where
  autostart : Option Bool
  bridgeName : Option String
  cidr : Option String
  dhcpEnabled : Option Bool
  mode : Option NetworkCreateMode
  deriving DecidableEq, Repr

/-- Something other than the autostart flag is to change. -/
def NetworkUpdate.structural (req : NetworkUpdate) : Bool :=
  req.mode.isSome || req.bridgeName.isSome || req.cidr.isSome || req.dhcpEnabled.isSome

/-- A network of libvirt. -/
structure LibvirtNetwork where
  /-- what the persistent definition says -/
  definition : NetworkXML
  active : Bool
  autostart : Bool
  deriving DecidableEq, Repr

/-- How an update fails. -/
inductive NetworkUpdateError where
  /-- `ErrNetworkNotFound` -/
  | notFound
  /-- `stop the network before structural changes` -/
  | active
  /-- `cannot determine current subnet; pass cidr explicitly` -/
  | noSubnet
  /-- an error of `networkCreateXML` -/
  | create (e : NetworkError)
  /-- a call whose error is passed on -/
  | libvirt (call : String)
  deriving DecidableEq, Repr

/-- What the calls to libvirt answer. -/
structure NetworkUpdateEnv where
  lookupFails : Bool
  activeFails : Bool
  xmlFails : Bool
  unmarshalFails : Bool
  defineFails : Bool
  autostartFails : Bool
  readBackFails : Bool
  /-- the name that libvirt gives to the bridge of a network that is defined without one -/
  autoBridge : String

/-- `cidrFromIPPrefix` -/
def cidrFromIPPrefix (ipStr : String) (p : ℤ) : String :=
  match parseIP ipStr with
  | none => ""
  | some ip =>
    if p ≤ 0 ∨ 32 < p then ""
    else .ofList (ipString ip ++ '/' :: Decimal.padded 0 p.toNat)

/-- The subnet to create the network with, if there is one. -/
def mergedSubnet (req : NetworkUpdate) (nx : NetworkXML) :
    Except NetworkUpdateError (Option String) :=
  match req.cidr with
  | some cidr => .ok (some cidr)
  | none =>
    if nx.address = "" then .ok none
    else if cidrFromIPPrefix nx.address nx.ipPrefix = "" then .error .noSubnet
    else .ok (some (cidrFromIPPrefix nx.address nx.ipPrefix))

/-- The current definition and the changes, as a request. -/
def mergeUpdate (id : String) (req : NetworkUpdate) (nx : NetworkXML) :
    Except NetworkUpdateError NetworkCreate :=
  match req.mode.getD (networkForwardMode nx.forwardMode) with
  | .bridge => .ok
    { bridgeName := req.bridgeName.or (if nx.bridgeName ≠ "" then some nx.bridgeName else none)
      cidr := none
      dhcpEnabled := none
      mode := .bridge
      name := id }
  | .other m => .ok ⟨none, none, none, .other m, id⟩
  | mode => (mergedSubnet req nx).map fun cidr =>
    { bridgeName := none
      cidr := cidr
      dhcpEnabled := some (req.dhcpEnabled.getD nx.dhcp)
      mode := mode
      name := id }

/-- `NetworkDefineXML` -/
def LibvirtNetwork.define (n : LibvirtNetwork) (autoBridge : String) (doc : String) :
    LibvirtNetwork :=
  match (parse doc).bind decodeNetwork with
  | none => n
  | some nx =>
    { n with definition := { nx with
      bridgeName := if nx.bridgeName = "" then autoBridge else nx.bridgeName } }

/-- `UpdateNetwork` -/
def updateNetwork (env : NetworkUpdateEnv) (id : String) (req : NetworkUpdate) :
    Attempt NetworkUpdateError LibvirtNetwork Unit := do
  failIf env.lookupFails .notFound
  failIf env.activeFails (.libvirt "is active")
  let n ← get
  failIf (n.active && req.structural) .active
  if !req.structural then do
    failIf (req.autostart.isSome && env.autostartFails) (.libvirt "set autostart")
    modify fun n => { n with autostart := req.autostart.getD n.autostart }
    failIf env.readBackFails (.libvirt "get network")
  else do
    failIf env.xmlFails (.libvirt "get xml desc")
    failIf env.unmarshalFails (.libvirt "unmarshal")
    match mergeUpdate id req n.definition with
    | .error e => throw e
    | .ok create =>
      match networkCreateXML create with
      | .error e => throw (.create e)
      | .ok doc => do
        failIf env.defineFails (.libvirt "define")
        modify fun n => n.define env.autoBridge doc
        -- the flag is set as far as that works
        modify fun n => { n with
          autostart := if env.autostartFails then n.autostart else req.autostart.getD n.autostart }
        failIf env.readBackFails (.libvirt "get network")

/-! ## What is expected -/

/-- What is not asked for stays as it was. -/
structure KeepsOmitted (req : NetworkUpdate) (nx nx' : NetworkXML) : Prop where
  mode : req.mode = none → nx'.forwardMode = nx.forwardMode
  bridge : req.bridgeName = none → nx'.bridgeName = nx.bridgeName
  subnet : req.cidr = none → nx'.address = nx.address ∧ nx'.ipPrefix = nx.ipPrefix
  dhcp : req.dhcpEnabled = none → nx'.dhcp = nx.dhcp

/-- The network is on a host bridge. -/
def NetworkXML.onBridge (nx : NetworkXML) : Bool := networkForwardMode nx.forwardMode = .bridge

/-- The network is on a host bridge before if and only if it is to be on one. -/
def NoSwitch (req : NetworkUpdate) (nx : NetworkXML) : Prop :=
  ∀ mode, req.mode = some mode → (mode = .bridge ↔ nx.onBridge = true)

/-- The address is the gateway that is written for its subnet: every octet is odd, and has no other
bits behind the prefix. -/
def IsGateway (ip : List Octet) (p : ℕ) : Prop :=
  ∀ i b, ip[i]? = some b → b.toNat % 2 = 1 ∧ b.toNat % 2 ^ (8 - (p - 8 * i)) ≤ 1

/-- What is not asked for comes out of the merged request as it was. -/
structure Rebuilds (autoBridge : String) (req : NetworkUpdate) (nx : NetworkXML) : Prop where
  mode : req.mode = none →
    nx.forwardMode = "" ∨ nx.forwardMode = "nat" ∨ nx.forwardMode = "bridge"
  noSubnet : nx.onBridge = true → req.cidr = none → nx.address = "" ∧ nx.ipPrefix = 0
  noDHCP : nx.onBridge = true → req.dhcpEnabled = none → nx.dhcp = false
  bridge : nx.onBridge = false → req.bridgeName = none → nx.bridgeName = autoBridge
  gateway : nx.onBridge = false → req.cidr = none → ∃ ip, ip.length = 4 ∧
    nx.address = .ofList (ipText ip) ∧ IsGateway ip nx.ipPrefix.toNat

/-! ## The gateway -/

section Gateway

theorem isGateway_cons {b : Octet} {ip : List Octet} {p : ℕ} : IsGateway (b :: ip) p ↔
    (b.toNat % 2 = 1 ∧ b.toNat % 2 ^ (8 - p) ≤ 1) ∧ IsGateway ip (p - 8) := by
  constructor
  · refine fun h => ⟨h 0 b rfl, fun i b' hb => ?_⟩
    have hrest := h (i + 1) b' (by simpa using hb)
    rwa [Nat.mul_succ, Nat.add_comm, ← Nat.sub_sub] at hrest
  · rintro ⟨hhead, hrest⟩ (_ | i) b' hb
    · obtain rfl : b = b' := by simpa using hb
      exact hhead
    · rw [Nat.mul_succ, Nat.add_comm, ← Nat.sub_sub]
      exact hrest i b' (by simpa using hb)

/-- An octet is as it was once it is masked and its low bit is set. -/
theorem masked_octet_iff (b : Octet) {n : ℕ} (hn : n < 8) :
    b &&& Octet.mask n ||| 1 = b ↔ b.toNat % 2 = 1 ∧ b.toNat % 2 ^ (8 - n) ≤ 1 := by
  have heven := even_and_mask b hn
  have hmask := Octet.toNat_and_mask b n
  have hdiv := Nat.div_add_mod' b.toNat (2 ^ (8 - n))
  obtain ⟨k, hk⟩ : ∃ k, 2 ^ (8 - n) = 2 * k := ⟨2 ^ (7 - n), by rw [← Nat.pow_succ']; congr; omega⟩
  have hmod : b.toNat % 2 ^ (8 - n) % 2 = b.toNat % 2 := by
    rw [hk, Nat.mod_mul_right_mod]
  rw [← BitVec.toNat_inj, Octet.toNat_or_one, heven]
  omega

theorem masked_odd_iff (ip : List Octet) (p : ℕ) :
    (masked ip (prefixMask ip.length p)).map (· ||| 1) = ip ↔ IsGateway ip p := by
  induction ip generalizing p with
  | nil => simp [masked, IsGateway]
  | cons b ip ih =>
    rw [isGateway_cons, ← ih, List.length_cons, prefixMask]
    split
    · rename_i h8
      have hall : b &&& 255 = b := BitVec.and_allOnes
      have hodd : b ||| 1 = b ↔ b.toNat % 2 = 1 := by
        rw [← BitVec.toNat_inj, Octet.toNat_or_one]
        omega
      rw [masked, List.zipWith_cons_cons, List.map_cons, List.cons.injEq, hall, hodd,
        Nat.sub_eq_zero_of_le h8, pow_zero, Nat.mod_one]
      simp [masked]
    · rename_i h8
      have hzero : p - 8 = 0 := by omega
      rw [masked, List.zipWith_cons_cons, List.map_cons, List.cons.injEq,
        masked_octet_iff b (by omega), hzero]
      rfl

theorem gatewayOf_eq_self_iff {ip : List Octet} (hip : ip.length = 4) (p : ℕ) :
    gatewayOf ip p = ip ↔ IsGateway ip p := by
  rw [← masked_odd_iff, hip, gatewayOf]

end Gateway

/-! ## Keeping -/

section Keeping

variable {env : NetworkUpdateEnv} {id : String} {req : NetworkUpdate} {n n' : LibvirtNetwork}

/-- An update of the autostart flag alone leaves the definition. -/
theorem updateNetwork_of_not_structural (hstructural : req.structural = false)
    (h : updateNetwork env id req n = (.ok (), n')) : n'.definition = n.definition := by
  obtain ⟨-, h⟩ := failIf_bind_eq_ok h
  obtain ⟨-, h⟩ := failIf_bind_eq_ok h
  rw [get_bind_apply] at h
  obtain ⟨-, h⟩ := failIf_bind_eq_ok h
  rw [hstructural] at h
  obtain ⟨-, h⟩ := failIf_bind_eq_ok h
  rw [modify_bind_apply] at h
  obtain ⟨-, rfl⟩ := failIf_eq_ok h
  rfl

/-- **Inversion** of a structural update: the network is defined from the merged request. -/
theorem updateNetwork_eq_ok (hstructural : req.structural = true)
    (h : updateNetwork env id req n = (.ok (), n')) : ∃ create doc,
    mergeUpdate id req n.definition = .ok create ∧ networkCreateXML create = .ok doc ∧
      n'.definition = (n.define env.autoBridge doc).definition := by
  obtain ⟨-, h⟩ := failIf_bind_eq_ok h
  obtain ⟨-, h⟩ := failIf_bind_eq_ok h
  rw [get_bind_apply] at h
  obtain ⟨-, h⟩ := failIf_bind_eq_ok h
  rw [hstructural] at h
  obtain ⟨-, h⟩ := failIf_bind_eq_ok h
  obtain ⟨-, h⟩ := failIf_bind_eq_ok h
  cases hmerge : mergeUpdate id req n.definition with
  | error e =>
    rw [hmerge] at h
    cases h
  | ok create =>
    rw [hmerge] at h
    dsimp only at h
    cases hdoc : networkCreateXML create with
    | error e =>
      rw [hdoc] at h
      cases h
    | ok doc =>
      rw [hdoc] at h
      obtain ⟨-, h⟩ := failIf_bind_eq_ok h
      rw [modify_bind_apply, modify_bind_apply] at h
      obtain ⟨-, rfl⟩ := failIf_eq_ok h
      exact ⟨create, doc, rfl, hdoc, rfl⟩

theorem define_of_says {name doc autoBridge : String} {nx : NetworkXML} (h : Says doc name nx) :
    (n.define autoBridge doc).definition =
      { nx with bridgeName := if nx.bridgeName = "" then autoBridge else nx.bridgeName } := by
  obtain ⟨root, hparse, -, hdecode⟩ := h
  simp [LibvirtNetwork.define, hparse, hdecode]

/-- The definition of a network that was made on a bridge. -/
theorem define_onBridge {create : NetworkCreate} {bridge doc : String} (autoBridge : String)
    (h : OnBridge create bridge doc) : (n.define autoBridge doc).definition =
      { bridgeName := bridge, forwardMode := "bridge", address := "", ipPrefix := 0, dhcp := false,
        domainName := "" } := by
  obtain ⟨hne, hlegal⟩ := ifaceNamePattern_legal h.pattern
  rw [h.document, define_of_says (says_bridgeXML create.name bridge)]
  simp [hlegal, hne]

/-- The definition of a network that was made on a subnet. -/
theorem define_onSubnet {create : NetworkCreate} {ip : List Octet} {p : ℕ} {doc : String}
    (autoBridge : String) (h : OnSubnet create ip p doc) :
    (n.define autoBridge doc).definition =
      { bridgeName := autoBridge, forwardMode := if create.mode = .nat then "nat" else "",
        address := .ofList (ipText (gatewayOf ip p)), ipPrefix := p,
        dhcp := create.dhcpEnabled.getD true, domainName := "" } := by
  have hsays := says_subnetXML create.name (decide (create.mode = .nat))
    (if create.dhcpEnabled.getD true then
      some (gatewayOf ip p, addToIP (filled ip (prefixMask 4 p)) (-1)) else none) (gatewayOf ip p) p
  simp only [decide_eq_true_eq] at hsays
  rw [h.document, define_of_says hsays]
  cases hdhcp : create.dhcpEnabled.getD true <;> simp

/-- **Inversion** of the merge. -/
theorem mergeUpdate_eq_ok {nx : NetworkXML} {create : NetworkCreate}
    (h : mergeUpdate id req nx = .ok create) :
    create.mode = req.mode.getD (networkForwardMode nx.forwardMode) ∧
    (create.mode = .bridge → create.bridgeName =
      req.bridgeName.or (if nx.bridgeName ≠ "" then some nx.bridgeName else none)) ∧
    (create.mode.hasSubnet = true → mergedSubnet req nx = .ok create.cidr ∧
      create.dhcpEnabled = some (req.dhcpEnabled.getD nx.dhcp)) := by
  rw [mergeUpdate] at h
  split at h
  · rename_i hmode
    obtain rfl := Except.ok.inj h
    exact ⟨hmode.symm, fun _ => rfl,
      fun hsubnet => by simp [NetworkCreateMode.hasSubnet] at hsubnet⟩
  · rename_i m hmode
    obtain rfl := Except.ok.inj h
    exact ⟨hmode.symm, fun hbridge => by simp at hbridge,
      fun hsubnet => by simp [NetworkCreateMode.hasSubnet] at hsubnet⟩
  · rename_i hbridge _
    cases hsubnet : mergedSubnet req nx with
    | error e =>
      rw [hsubnet] at h
      cases h
    | ok cidr =>
      rw [hsubnet] at h
      obtain rfl := Except.ok.inj h
      exact ⟨rfl, fun hmode => absurd hmode hbridge, fun _ => ⟨rfl, rfl⟩⟩

/-- The forward mode that is written. -/
def forwardText : NetworkCreateMode → String
  | .bridge => "bridge"
  | .nat => "nat"
  | .isolated | .other _ => ""

theorem forwardText_of_hasSubnet {m : NetworkCreateMode} (h : m.hasSubnet = true) :
    forwardText m = if m = .nat then "nat" else "" := by
  cases m with
  | nat | isolated => rfl
  | bridge | other => cases h

/-- The forward modes that come out as they were. -/
theorem forwardText_eq_iff (f : String) :
    forwardText (networkForwardMode f) = f ↔ f = "" ∨ f = "nat" ∨ f = "bridge" := by
  by_cases hnat : f = "nat"
  · simp [hnat, networkForwardMode, forwardText]
  by_cases hbridge : f = "bridge"
  · simp [hbridge, networkForwardMode, forwardText]
  rw [networkForwardMode, if_neg hnat, if_neg hbridge]
  split
  · rename_i hother
    rcases hother with rfl | rfl | rfl | rfl | rfl <;> simp [forwardText]
  · simp [hnat, hbridge, forwardText, eq_comm]

/-- The kept subnet is the address and the prefix. -/
theorem mergedSubnet_eq_ok {nx : NetworkXML} {cidr : String} (hcidr : req.cidr = none)
    (hmerge : mergedSubnet req nx = .ok (some cidr)) : ∃ ip, parseIP nx.address = some ip ∧
      0 < nx.ipPrefix ∧ nx.ipPrefix ≤ 32 ∧
      cidr = .ofList (ipString ip ++ '/' :: Decimal.padded 0 nx.ipPrefix.toNat) := by
  rw [mergedSubnet, hcidr] at hmerge
  dsimp only at hmerge
  split at hmerge
  · cases hmerge
  split at hmerge
  · cases hmerge
  rename_i htext
  obtain rfl := Option.some.inj (Except.ok.inj hmerge)
  rw [cidrFromIPPrefix] at htext ⊢
  split at htext
  · exact absurd rfl htext
  rename_i ip hip
  split at htext
  · exact absurd rfl htext
  rename_i hp
  exact ⟨ip, hip, by omega, by omega, by simp [hp]⟩

/-- The text of an IPv4 address and a prefix. -/
theorem parseCIDR_kept {nx : NetworkXML} {cidr : String} {ip : List Octet} (hip : ip.length = 4)
    (hcidr : req.cidr = none) (hmerge : mergedSubnet req nx = .ok (some cidr))
    (haddress : nx.address = .ofList (ipText ip)) :
    parseCIDR cidr = some ⟨masked ip (prefixMask 4 nx.ipPrefix.toNat),
      prefixMask 4 nx.ipPrefix.toNat⟩ := by
  obtain ⟨ip', hparse, hpos, hle, rfl⟩ := mergedSubnet_eq_ok hcidr hmerge
  match ip, hip with
  | [a, b, c, d], _ =>
    rw [haddress, parseIP_ipText] at hparse
    obtain rfl := Option.some.inj hparse
    rw [ipString_mapped]
    exact parseCIDR_cidrText a b c d (by omega)

/-- **The kept subnet** is written with the address that it had exactly when that is its gateway. -/
theorem keptSubnet_iff {nx : NetworkXML} {create : NetworkCreate} {ip : List Octet} {p : ℕ}
    {doc : String} (hcidr : req.cidr = none) (hmerge : mergedSubnet req nx = .ok create.cidr)
    (h : OnSubnet create ip p doc) :
    (.ofList (ipText (gatewayOf ip p)) = nx.address ∧ (p : ℤ) = nx.ipPrefix) ↔
      ∃ ip', ip'.length = 4 ∧ nx.address = .ofList (ipText ip') ∧
        IsGateway ip' nx.ipPrefix.toNat := by
  obtain ⟨cidr, hcreate, -, hparse⟩ := h.cidr
  rw [hcreate] at hmerge
  have hlen := length_gatewayOf (p := p) h.length
  constructor
  · rintro ⟨haddress, hprefix⟩
    have hp : nx.ipPrefix.toNat = p := by omega
    have hkept := parseCIDR_kept hlen hcidr hmerge haddress.symm
    rw [hp, hparse] at hkept
    have hmasked : masked ip (prefixMask 4 p) = masked (gatewayOf ip p) (prefixMask 4 p) :=
      congrArg IPNet.ip (Option.some.inj hkept)
    refine ⟨gatewayOf ip p, hlen, haddress.symm, ?_⟩
    rw [hp, ← gatewayOf_eq_self_iff hlen]
    conv_lhs => rw [gatewayOf, ← hmasked, ← gatewayOf]
  · rintro ⟨ip', hip', haddress, hgateway⟩
    have hkept := parseCIDR_kept hip' hcidr hmerge haddress
    obtain ⟨-, -, hpos, hle, -⟩ := mergedSubnet_eq_ok hcidr hmerge
    rw [hparse] at hkept
    obtain ⟨hmasked, hmask⟩ := IPNet.mk.inj (Option.some.inj hkept)
    have hp : p = nx.ipPrefix.toNat := by
      have hsize := congrArg maskSize hmask
      rwa [maskSize_prefixMask h.size, maskSize_prefixMask (by omega)] at hsize
    have hsame : gatewayOf ip p = ip' := by
      rw [gatewayOf, hmasked, ← gatewayOf, (gatewayOf_eq_self_iff hip' _).mpr hgateway]
    exact ⟨by rw [hsame, haddress], by omega⟩

/-- An update of a network on a bridge. -/
theorem keepsOmitted_onBridge_iff {nx : NetworkXML} {create : NetworkCreate}
    {bridge doc : String} (hmerge : mergeUpdate id req nx = .ok create)
    (honBridge : nx.onBridge = true) (h : OnBridge create bridge doc) :
    KeepsOmitted req nx (n.define env.autoBridge doc).definition ↔
      Rebuilds env.autoBridge req nx := by
  obtain ⟨-, hname, -⟩ := mergeUpdate_eq_ok hmerge
  have hforward : networkForwardMode nx.forwardMode = .bridge := by
    simpa [NetworkXML.onBridge] using honBridge
  have hmode : nx.forwardMode = "bridge" := by
    rw [networkForwardMode] at hforward
    split_ifs at hforward with hnat hbridge
    exact hbridge
  have hbridge : req.bridgeName = none → bridge = nx.bridgeName := by
    intro hnone
    have hnamed := h.named
    rw [hname h.mode, hnone, Option.none_or] at hnamed
    split at hnamed
    · exact (Option.some.inj hnamed).symm
    · cases hnamed
  rw [define_onBridge env.autoBridge h]
  constructor
  · rintro ⟨-, -, hsubnet, hdhcp⟩
    exact ⟨fun _ => .inr (.inr hmode),
      fun _ hcidr => ⟨(hsubnet hcidr).1.symm, (hsubnet hcidr).2.symm⟩,
      fun _ hnone => (hdhcp hnone).symm, by simp [honBridge], by simp [honBridge]⟩
  · rintro ⟨-, hsubnet, hdhcp, -, -⟩
    exact ⟨fun _ => hmode.symm, hbridge, fun hcidr => ⟨(hsubnet honBridge hcidr).1.symm,
      (hsubnet honBridge hcidr).2.symm⟩, fun hnone => (hdhcp honBridge hnone).symm⟩

/-- An update of a network on a subnet. -/
theorem keepsOmitted_onSubnet_iff {nx : NetworkXML} {create : NetworkCreate} {ip : List Octet}
    {p : ℕ} {doc : String} (hmerge : mergeUpdate id req nx = .ok create)
    (honBridge : nx.onBridge = false) (h : OnSubnet create ip p doc) :
    KeepsOmitted req nx (n.define env.autoBridge doc).definition ↔
      Rebuilds env.autoBridge req nx := by
  obtain ⟨hmode, -, hsubnet⟩ := mergeUpdate_eq_ok hmerge
  obtain ⟨hcidr, hdhcp⟩ := hsubnet h.mode
  have hforward : req.mode = none → ((if create.mode = .nat then "nat" else "") = nx.forwardMode ↔
      nx.forwardMode = "" ∨ nx.forwardMode = "nat" ∨ nx.forwardMode = "bridge") := by
    intro hnone
    rw [hnone, Option.getD_none] at hmode
    rw [← forwardText_eq_iff, ← hmode, forwardText_of_hasSubnet h.mode]
  have hkept := fun hnone => keptSubnet_iff hnone hcidr h
  rw [define_onSubnet env.autoBridge h]
  constructor
  · rintro ⟨hm, hb, hs, -⟩
    exact ⟨fun hnone => (hforward hnone).mp (hm hnone), by simp [honBridge], by simp [honBridge],
      fun _ hnone => (hb hnone).symm, fun _ hnone => (hkept hnone).mp (hs hnone)⟩
  · rintro ⟨hm, -, -, hb, hg⟩
    exact ⟨fun hnone => (hforward hnone).mpr (hm hnone), fun hnone => (hb honBridge hnone).symm,
      fun hnone => (hkept hnone).mpr (hg honBridge hnone), fun hnone => by simp [hdhcp, hnone]⟩

/-- **Partial updates of a network** keep what is not asked for exactly when the definition comes
out of a new request as it was. -/
theorem keepsOmitted_iff (hswitch : NoSwitch req n.definition)
    (h : updateNetwork env id req n = (.ok (), n')) :
    KeepsOmitted req n.definition n'.definition ↔
      (req.structural = true → Rebuilds env.autoBridge req n.definition) := by
  cases hstructural : req.structural with
  | false =>
    rw [updateNetwork_of_not_structural hstructural h]
    exact iff_of_true ⟨fun _ => rfl, fun _ => rfl, fun _ => ⟨rfl, rfl⟩, fun _ => rfl⟩ (by simp)
  | true =>
    obtain ⟨create, doc, hmerge, hdoc, hdef⟩ := updateNetwork_eq_ok hstructural h
    have hmode := (mergeUpdate_eq_ok hmerge).1
    have hkind : create.mode = .bridge ↔ n.definition.onBridge = true := by
      cases hreq : req.mode with
      | none => simp [hmode, hreq, NetworkXML.onBridge]
      | some mode => simpa [hmode, hreq] using hswitch mode hreq
    rw [hdef]
    simp only [forall_const]
    rcases networkCreateXML_eq_ok hdoc with ⟨bridge, hon⟩ | ⟨ip, p, hon⟩
    · exact keepsOmitted_onBridge_iff hmerge (hkind.mp hon.mode) hon
    · refine keepsOmitted_onSubnet_iff hmerge ?_ hon
      have hsubnet := hon.mode
      rw [Bool.eq_false_iff]
      intro honBridge
      rw [hkind.mpr honBridge] at hsubnet
      cases hsubnet

end Keeping

/-! ## A network with an address -/

/-- A network of the prefix 24 that is not active. -/
def labNetwork (ip : List Octet) : LibvirtNetwork where
  definition :=
    { bridgeName := "virbr0", forwardMode := "nat", address := .ofList (ipText ip), ipPrefix := 24,
      dhcp := true, domainName := "" }
  active := false
  autostart := true

/-- DHCP is to be switched off. -/
def dhcpOff : NetworkUpdate := ⟨none, none, none, some false, none⟩

/-- Every call goes through, and libvirt takes the first name for the bridge. -/
def virbr0Env : NetworkUpdateEnv := ⟨false, false, false, false, false, false, false, "virbr0"⟩

section Lab

variable (a b c d : Octet)

/-- The network is created anew on the subnet of its address. -/
theorem mergeUpdate_lab : mergeUpdate "lab" dhcpOff (labNetwork [a, b, c, d]).definition =
    .ok ⟨none, some (cidrText [a, b, c, d] 24), some false, .nat, "lab"⟩ := by
  have haddress := ipText_ne_empty (rfl : [a, b, c, d].length = 4)
  have htext : cidrFromIPPrefix (.ofList (ipText [a, b, c, d])) 24 =
      cidrText [a, b, c, d] 24 := by
    rw [cidrFromIPPrefix, parseIP_ipText]
    dsimp only
    rw [if_neg (by decide), ipString_mapped]
    rfl
  have hcidr : cidrText [a, b, c, d] 24 ≠ "" := by
    intro hempty
    have hlist := congrArg String.toList hempty
    simp [cidrText] at hlist
  simp [mergeUpdate, dhcpOff, labNetwork, networkForwardMode, mergedSubnet, haddress, htext, hcidr,
    Except.map]

/-- An update in which every call goes through. -/
theorem updateNetwork_virbr0 {id : String} {req : NetworkUpdate} {n : LibvirtNetwork}
    {create : NetworkCreate} {doc : String} (hactive : n.active = false)
    (hstructural : req.structural = true) (hmerge : mergeUpdate id req n.definition = .ok create)
    (hdoc : networkCreateXML create = .ok doc) : ∃ n', updateNetwork virbr0Env id req n =
      (.ok (), n') ∧ n'.definition = (n.define "virbr0" doc).definition := by
  refine ⟨{ n.define "virbr0" doc with
    autostart := req.autostart.getD (n.define "virbr0" doc).autostart }, ?_, rfl⟩
  simp only [updateNetwork, failIf_bind_apply, get_bind_apply, hactive, hstructural, hmerge, hdoc,
    Bool.not_true, Bool.false_and, Bool.false_eq_true, if_false]
  rfl

theorem onSubnet_lab : ∃ doc,
    networkCreateXML ⟨none, some (cidrText [a, b, c, d] 24), some false, .nat, "lab"⟩ = .ok doc ∧
    OnSubnet ⟨none, some (cidrText [a, b, c, d] 24), some false, .nat, "lab"⟩ [a, b, c, d] 24
      doc :=
  ⟨_, networkCreateXML_cidrText (.inl rfl) rfl (by decide), rfl, rfl, by decide,
    ⟨_, rfl, cidrPattern_cidrText a b c d (by decide), parseCIDR_cidrText a b c d (by decide)⟩, rfl⟩

end Lab

/-- The gateway 11.1.101.1 stays. -/
theorem keepsOmitted_lab : ∃ n',
    updateNetwork virbr0Env "lab" dhcpOff (labNetwork [11, 1, 101, 1]) = (.ok (), n') ∧
    KeepsOmitted dhcpOff (labNetwork [11, 1, 101, 1]).definition n'.definition := by
  obtain ⟨doc, hdoc, -⟩ := onSubnet_lab 11 1 101 1
  obtain ⟨n', h, -⟩ := updateNetwork_virbr0 rfl rfl (mergeUpdate_lab 11 1 101 1) hdoc
  refine ⟨n', h, (keepsOmitted_iff (by simp [NoSwitch, dhcpOff]) h).mpr fun _ => ?_⟩
  have hgateway : IsGateway [11, 1, 101, 1] 24 :=
    (gatewayOf_eq_self_iff rfl 24).mp (by decide)
  exact ⟨fun _ => .inr (.inl rfl), fun h => absurd h (by decide), fun h => absurd h (by decide),
    fun _ _ => rfl, fun _ _ => ⟨_, rfl, rfl, hgateway⟩⟩

/-- The gateway 192.168.122.1 does not. -/
theorem not_keepsOmitted_default : ∃ n',
    updateNetwork virbr0Env "lab" dhcpOff (labNetwork [192, 168, 122, 1]) = (.ok (), n') ∧
    ¬ KeepsOmitted dhcpOff (labNetwork [192, 168, 122, 1]).definition n'.definition := by
  obtain ⟨doc, hdoc, hsubnet⟩ := onSubnet_lab 192 168 122 1
  obtain ⟨n', h, hdef⟩ := updateNetwork_virbr0 rfl rfl (mergeUpdate_lab 192 168 122 1) hdoc
  refine ⟨n', h, fun hkeeps => ?_⟩
  have haddress := (hkeeps.subnet rfl).1
  rw [hdef, define_onSubnet "virbr0" hsubnet] at haddress
  exact absurd haddress (by decide)

end Ultrav
