import Ultrav.NetworkModel
import Ultrav.VolumeDocument

/-!
# Networks read back

A network is created from a request, and read again from its document.

* `networkCreateXML_eq_ok` — what is accepted, and what is written for it.
* `ReadsBack` — the network is reported as it was asked for.
* `reported_bridge` / `reported_subnet` — what is reported in fact. The domain is read inside of
  the `ip` element and written outside of it.
* `readsBack_iff` — the requests that read back.
-/

namespace Ultrav

open Xml Octets

/-! ## What is accepted -/

theorem length_parseIPv4Fields {fields : List Octet} {val digLen : ℕ} {s : List Char}
    {ip : List Octet} (hip : parseIPv4Fields fields val digLen s = some ip)
    (hlen : fields.length ≤ 3) : ip.length = 4 := by
  fun_induction parseIPv4Fields fields val digLen s with
  | case1 => cases hip
  | case2 fields val digLen hfields =>
    obtain rfl := Option.some.inj hip
    simp
    omega
  | case3 | case4 | case6 | case7 | case9 => cases hip
  | case5 _ _ _ _ _ _ _ _ ih => exact ih hip hlen
  | case8 _ _ _ _ _ _ _ ih => exact ih hip (by simp; omega)

/-- A subnet that is read: an address under a mask. -/
theorem parseCIDR_eq_some {s : String} {ipNet : IPNet} (h : parseCIDR s = some ipNet) :
    ∃ ip p, ip.length = 4 ∧ p ≤ 32 ∧ ipNet = ⟨masked ip (prefixMask 4 p), prefixMask 4 p⟩ := by
  rw [parseCIDR] at h
  split at h
  · cases h
  · obtain ⟨ip, hip, h⟩ := Option.bind_eq_some_iff.mp h
    obtain ⟨p, -, h⟩ := Option.bind_eq_some_iff.mp h
    split at h
    · rename_i hp
      exact ⟨ip, p, length_parseIPv4Fields hip (by simp), hp, (Option.some.inj h).symm⟩
    · cases h

/-- The modes that have a subnet. -/
def NetworkCreateMode.hasSubnet : NetworkCreateMode → Bool
  | nat | isolated => true
  | bridge | other _ => false

/-- The gateway that is written for a subnet. -/
def gatewayOf (ip : List Octet) (p : ℕ) : List Octet := (masked ip (prefixMask 4 p)).map (· ||| 1)

/-- A request on a subnet, and its document. -/
structure OnSubnet (req : NetworkCreate) (ip : List Octet) (p : ℕ) (doc : String) : Prop where
  mode : req.mode.hasSubnet = true
  length : ip.length = 4
  size : p ≤ 32
  cidr : ∃ cidr, req.cidr = some cidr ∧ cidrPattern cidr = true ∧
    parseCIDR cidr = some ⟨masked ip (prefixMask 4 p), prefixMask 4 p⟩
  document : doc = subnetXML req.name (if req.mode = .nat then "<forward mode=\"nat\"/>" else "")
    (rangeXML (if req.dhcpEnabled.getD true then
      some (gatewayOf ip p, addToIP (filled ip (prefixMask 4 p)) (-1)) else none))
    (gatewayOf ip p) p

/-- A request on a bridge, and its document. -/
structure OnBridge (req : NetworkCreate) (bridge : String) (doc : String) : Prop where
  mode : req.mode = .bridge
  named : req.bridgeName = some bridge
  pattern : ifaceNamePattern bridge = true
  document : doc = bridgeXML req.name bridge

section Accepted

variable {req : NetworkCreate} {doc : String}

theorem subnetNetworkXML_eq_ok (hmode : req.mode.hasSubnet = true)
    (h : subnetNetworkXML req = .ok doc) : ∃ ip p, OnSubnet req ip p doc := by
  rw [subnetNetworkXML] at h
  split at h
  · cases h
  rename_i cidr hcidr
  split at h
  · cases h
  rename_i hpattern
  split at h
  · cases h
  rename_i ipNet hnet
  obtain ⟨ip, p, hip, hp, rfl⟩ := parseCIDR_eq_some hnet
  rw [subnetFirstAndLastHost_masked ip hip, maskSize_prefixMask hp] at h
  refine ⟨ip, p, hmode, hip, hp, ⟨cidr, hcidr, by simpa using hpattern, hnet⟩, ?_⟩
  obtain rfl := Except.ok.inj h
  by_cases hdhcp : req.dhcpEnabled.getD true = true
  · rw [if_pos hdhcp, if_pos hdhcp, rangeXML, gatewayOf]
  · rw [if_neg hdhcp, if_neg hdhcp, rangeXML, gatewayOf]

/-- **Inversion** of `networkCreateXML`: a bridge that is named, or a subnet that is read. -/
theorem networkCreateXML_eq_ok (h : networkCreateXML req = .ok doc) :
    (∃ bridge, OnBridge req bridge doc) ∨ ∃ ip p, OnSubnet req ip p doc := by
  rw [networkCreateXML] at h
  split at h
  · rename_i hmode
    split at h
    · cases h
    rename_i bridge hbridge
    split at h
    · cases h
    rename_i hpattern
    exact .inl ⟨bridge, hmode, hbridge, by simpa using hpattern, (Except.ok.inj h).symm⟩
  · rename_i hmode
    exact .inr (subnetNetworkXML_eq_ok (by rw [hmode]; rfl) h)
  · rename_i hmode
    exact .inr (subnetNetworkXML_eq_ok (by rw [hmode]; rfl) h)
  · cases h

end Accepted

/-! ## What is reported -/

/-- The network of a document, as the API reports it. -/
def reported (active autostart : Bool) (doc : String) : Option Network :=
  (parse doc).bind fun root =>
    (decodeNetwork root).map (networkToModel (networkName root) active autostart)

/-- The network is reported as it was asked for. -/
structure ReadsBack (req : NetworkCreate) (m : Network) : Prop where
  name : m.name = req.name
  mode : m.mode = req.mode
  /-- the requested prefix, and an address inside of the subnet -/
  subnet : req.mode.hasSubnet = true → ∀ cidr network p, req.cidr = some cidr → p ≤ 32 →
    parseCIDR cidr = some ⟨network, prefixMask 4 p⟩ →
      m.ipPrefix = some (p : ℤ) ∧ ∃ addr, m.ipAddress = some (.ofList (ipText addr)) ∧
        masked addr (prefixMask 4 p) = network
  /-- DHCP unless it was not wanted -/
  dhcp : req.mode.hasSubnet = true → m.dhcpEnabled = req.dhcpEnabled.getD true
  domainName : req.mode.hasSubnet = true → m.domainName = some req.name
  bridge : req.mode = .bridge → m.bridge = req.bridgeName ∧ m.dhcpEnabled = false

section Reported

variable {req : NetworkCreate} {doc : String} (active autostart : Bool)

theorem reported_of_says {name : String} {nx : NetworkXML} (h : Says doc name nx) :
    reported active autostart doc = some (networkToModel name active autostart nx) := by
  obtain ⟨root, hparse, rfl, hdecode⟩ := h
  simp [reported, hparse, hdecode]

/-- A name of the pattern is not empty, and is read as it is. -/
theorem ifaceNamePattern_legal {s : String} (h : ifaceNamePattern s = true) :
    s ≠ "" ∧ legalText s = s := by
  rw [ifaceNamePattern] at h
  split at h
  · cases h
  rename_i c cs hlist
  simp only [Bool.and_eq_true, List.all_eq_true] at h
  refine ⟨fun hempty => by simp [hempty] at hlist, legalText_eq_self ?_⟩
  rw [hlist, List.all_eq_true]
  intro d hd
  have htame : Tame d := by
    rcases List.mem_cons.mp hd with rfl | hd
    · exact tame_of_alnum (by rw [h.1.1]; rfl)
    · exact tame_of_alnum (h.2 d hd)
  have hplain := htame.plain
  simp only [plain, Bool.and_eq_true] at hplain
  exact hplain.1.1.1

/-- **A bridge network** is reported as it was asked for, but for characters of its name that a
document cannot hold. -/
theorem reported_bridge {bridge : String} (h : OnBridge req bridge doc) :
    reported active autostart doc = some
      { id := legalText req.name, name := legalText req.name, active, autostart,
        dhcpEnabled := false, mode := .bridge, bridge := some bridge, ipAddress := none,
        ipPrefix := none, domainName := none } := by
  obtain ⟨hne, hlegal⟩ := ifaceNamePattern_legal h.pattern
  rw [h.document, reported_of_says active autostart (says_bridgeXML req.name bridge)]
  simp [networkToModel, networkForwardMode, hlegal, hne]

theorem ipText_ne_empty {ip : List Octet} (hip : ip.length = 4) :
    String.ofList (ipText ip) ≠ "" := by
  match ip, hip with
  | [a, b, c, d], _ =>
    intro hempty
    have hlist := congrArg String.toList hempty
    simp [ipText_four] at hlist

theorem length_gatewayOf {ip : List Octet} {p : ℕ} (hip : ip.length = 4) :
    (gatewayOf ip p).length = 4 := by
  simp [gatewayOf, masked, hip, length_prefixMask]

/-- **A network on a subnet** is reported without its domain. -/
theorem reported_subnet {ip : List Octet} {p : ℕ} (h : OnSubnet req ip p doc) :
    reported active autostart doc = some
      { id := legalText req.name, name := legalText req.name, active, autostart,
        dhcpEnabled := req.dhcpEnabled.getD true, mode := req.mode, bridge := none,
        ipAddress := some (.ofList (ipText (gatewayOf ip p))), ipPrefix := some (p : ℤ),
        domainName := none } := by
  have haddress := ipText_ne_empty (length_gatewayOf (p := p) h.length)
  have hsays := says_subnetXML req.name (decide (req.mode = .nat))
    (if req.dhcpEnabled.getD true then
      some (gatewayOf ip p, addToIP (filled ip (prefixMask 4 p)) (-1)) else none) (gatewayOf ip p) p
  simp only [decide_eq_true_eq] at hsays
  rw [h.document, reported_of_says active autostart hsays]
  have hmode := h.mode
  cases hreq : req.mode <;> rw [hreq] at hmode <;> cases hdhcp : req.dhcpEnabled.getD true <;>
    simp_all [networkToModel, networkForwardMode, NetworkCreateMode.hasSubnet]

/-- **Networks read back as requested** when they are on a bridge and have a name that a document
can hold. -/
theorem readsBack_iff (hdoc : networkCreateXML req = .ok doc) :
    (∃ m, reported active autostart doc = some m ∧ ReadsBack req m) ↔
      req.mode = .bridge ∧ req.name.toList.all legal = true := by
  rcases networkCreateXML_eq_ok hdoc with ⟨bridge, h⟩ | ⟨ip, p, h⟩
  · rw [reported_bridge active autostart h, ← legalText_eq_self_iff]
    constructor
    · rintro ⟨m, hm, hback⟩
      obtain rfl := Option.some.inj hm
      exact ⟨h.mode, hback.name⟩
    · rintro ⟨-, hname⟩
      have hmode : ¬ req.mode.hasSubnet = true := by simp [h.mode, NetworkCreateMode.hasSubnet]
      exact ⟨_, rfl, hname, h.mode.symm, fun hs => absurd hs hmode, fun hs => absurd hs hmode,
        fun hs => absurd hs hmode, fun _ => ⟨h.named.symm, rfl⟩⟩
  · rw [reported_subnet active autostart h]
    constructor
    · rintro ⟨m, hm, hback⟩
      obtain rfl := Option.some.inj hm
      exact absurd (hback.domainName h.mode) (by simp)
    · rintro ⟨hmode, -⟩
      have hsubnet := h.mode
      simp [hmode, NetworkCreateMode.hasSubnet] at hsubnet

end Reported

/-- A network on the bridge `br0`. -/
def lanRequest : NetworkCreate where
  bridgeName := some "br0"
  cidr := none
  dhcpEnabled := none
  mode := .bridge
  name := "lan"

theorem readsBack_lan :
    ∃ m, reported true true (bridgeXML "lan" "br0") = some m ∧ ReadsBack lanRequest m := by
  have hdoc : networkCreateXML lanRequest = .ok (bridgeXML "lan" "br0") := rfl
  exact (readsBack_iff true true hdoc).mpr ⟨rfl, by decide⟩

/-- The network 192.168.100.0/24 is reported without a domain. -/
theorem not_readsBack_lab : ∃ doc,
    networkCreateXML (natRequest (cidrText [192, 168, 100, 0] 24)) = .ok doc ∧
    ¬ ∃ m, reported true true doc = some m ∧
      ReadsBack (natRequest (cidrText [192, 168, 100, 0] 24)) m := by
  have hcidr : (natRequest (cidrText [192, 168, 100, 0] 24)).cidr =
      some (cidrText [192, 168, 100, 0] 24) := rfl
  have hdoc := networkCreateXML_cidrText (.inl rfl) hcidr (by decide)
  refine ⟨_, hdoc, ?_⟩
  rcases networkCreateXML_eq_ok hdoc with ⟨bridge, h⟩ | ⟨ip, p, h⟩
  · cases h.mode
  · rw [reported_subnet true true h]
    rintro ⟨m, hm, hback⟩
    obtain rfl := Option.some.inj hm
    exact absurd (hback.domainName h.mode) (by simp)

end Ultrav
