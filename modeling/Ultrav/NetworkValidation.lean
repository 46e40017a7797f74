import Ultrav.NetworkUpdate

/-!
# Requests for networks, validated twice

The API checks a request before it goes to a provider, and the libvirt provider checks it again.

* `validateCreateNetwork` / `validateUpdateNetwork` — the checks of the API.
* `subnetNetworkXML_isOk_iff` — the subnets are the same for both.
* `validations_agree_iff` — both accept the same requests, but for long bridge names.
-/

namespace Ultrav

/-- `validateCreateNetwork`: a message, empty when the request is accepted. -/
def validateCreateNetwork (req : NetworkCreate) : String :=
  if !namePattern req.name then "Invalid network name"
  else match req.mode with
    | .nat | .isolated =>
      if !req.cidr.any cidrPattern then
        "cidr is required for nat/isolated networks (e.g. 192.168.100.0/24)"
      else if (req.cidr.bind parseCIDR).isNone then "cidr is not a valid subnet"
      else ""
    | .bridge =>
      if !req.bridgeName.any namePattern then
        "bridgeName is required for bridge networks and must be a valid interface name"
      else ""
    | .other _ => "mode must be one of: nat, bridge, isolated"

/-- `validateUpdateNetwork` -/
def validateUpdateNetwork (req : NetworkUpdate) : String :=
  if req.cidr.any fun cidr => !cidrPattern cidr || (parseCIDR cidr).isNone then
    "cidr is not a valid subnet (e.g. 192.168.100.0/24)"
  else if req.bridgeName.any fun bridge => !namePattern bridge then
    "bridgeName must be a valid interface name"
  else match req.mode with
    | none | some .nat | some .isolated | some .bridge => ""
    | some (.other _) => "mode must be one of: nat, bridge, isolated"

section Create

variable {req : NetworkCreate}

/-- The subnets that the provider accepts are the ones that are read. -/
theorem subnetNetworkXML_isOk_iff : (∃ doc, subnetNetworkXML req = .ok doc) ↔
    ∃ cidr ipNet, req.cidr = some cidr ∧ cidrPattern cidr = true ∧ parseCIDR cidr = some ipNet := by
  constructor
  · rintro ⟨doc, hdoc⟩
    rw [subnetNetworkXML] at hdoc
    split at hdoc
    · cases hdoc
    rename_i cidr hcidr
    split at hdoc
    · cases hdoc
    rename_i hpattern
    split at hdoc
    · cases hdoc
    rename_i ipNet hnet
    exact ⟨cidr, ipNet, hcidr, by simpa using hpattern, hnet⟩
  · rintro ⟨cidr, ipNet, hcidr, hpattern, hnet⟩
    -- an address that is read has four octets, so that there are hosts
    obtain ⟨ip, p, hip, hp, rfl⟩ := parseCIDR_eq_some hnet
    rw [subnetNetworkXML, hcidr]
    simp [hpattern, hnet, subnetFirstAndLastHost_masked ip hip]

/-- The two alphabets are the same, the lengths are not. -/
theorem ifaceNamePattern_iff {s : String} :
    ifaceNamePattern s = true ↔ namePattern s = true ∧ s.toList.length ≤ 16 := by
  rw [ifaceNamePattern, namePattern]
  cases s.toList with
  | nil => simp
  | cons c cs =>
    simp only [Bool.and_eq_true, decide_eq_true_eq, List.length_cons]
    constructor
    · rintro ⟨⟨hc, hlen⟩, hcs⟩
      exact ⟨⟨⟨hc, by omega⟩, hcs⟩, by omega⟩
    · rintro ⟨⟨⟨hc, -⟩, hcs⟩, hlen⟩
      exact ⟨⟨hc, by omega⟩, hcs⟩

/-- On subnets they accept the same requests. -/
theorem subnet_agree (hname : namePattern req.name = true) (hmode : req.mode.hasSubnet = true) :
    validateCreateNetwork req = "" ↔ ∃ doc, networkCreateXML req = .ok doc := by
  have hdoc : networkCreateXML req = subnetNetworkXML req := by
    cases hreq : req.mode <;> simp [networkCreateXML, hreq, NetworkCreateMode.hasSubnet] at hmode ⊢
  have hvalid : validateCreateNetwork req = "" ↔
      req.cidr.any cidrPattern = true ∧ (req.cidr.bind parseCIDR).isSome = true := by
    cases hreq : req.mode <;> simp [NetworkCreateMode.hasSubnet, hreq] at hmode <;>
      by_cases hcidr : req.cidr.any cidrPattern = true <;>
        by_cases hnet : req.cidr.bind parseCIDR = none <;>
          simp [validateCreateNetwork, hname, hreq, hcidr, hnet, Option.isSome_iff_ne_none]
  rw [hdoc, hvalid, subnetNetworkXML_isOk_iff]
  cases req.cidr with
  | none => simp
  | some cidr => simp [Option.isSome_iff_exists]

theorem validateCreateNetwork_bridge (hname : namePattern req.name = true)
    (hmode : req.mode = .bridge) :
    validateCreateNetwork req = "" ↔ req.bridgeName.any namePattern = true := by
  by_cases hbridge : req.bridgeName.any namePattern = true <;>
    simp [validateCreateNetwork, hname, hmode, hbridge]

theorem networkCreateXML_bridge (hmode : req.mode = .bridge) :
    (∃ doc, networkCreateXML req = .ok doc) ↔ req.bridgeName.any ifaceNamePattern = true := by
  rw [networkCreateXML, hmode]
  cases req.bridgeName with
  | none => simp
  | some bridge =>
    by_cases hbridge : ifaceNamePattern bridge = true <;> simp [hbridge]

/-- **Both validations agree** on a request with an acceptable name exactly when the bridge name
of a bridge network is not one that is too long for an interface. -/
theorem validations_agree_iff (hname : namePattern req.name = true) :
    (validateCreateNetwork req = "" ↔ ∃ doc, networkCreateXML req = .ok doc) ↔
      ∀ bridge, req.mode = .bridge → req.bridgeName = some bridge → namePattern bridge = true →
        bridge.toList.length ≤ 16 := by
  cases hmode : req.mode with
  | nat | isolated =>
    have hagree := subnet_agree hname (by rw [hmode]; rfl)
    simp [hagree]
  | other m => simp [validateCreateNetwork, networkCreateXML, hname, hmode]
  | bridge =>
    rw [validateCreateNetwork_bridge hname hmode, networkCreateXML_bridge hmode]
    cases req.bridgeName with
    | none => simp
    | some bridge =>
      have hlength := ifaceNamePattern_iff (s := bridge)
      simp only [Option.any_some, Option.some.injEq, forall_const]
      constructor
      · rintro hiff _ rfl hpattern
        exact (hlength.mp (hiff.mp hpattern)).2
      · intro hlen
        exact ⟨fun hpattern => hlength.mpr ⟨hpattern, hlen bridge rfl hpattern⟩,
          fun hiface => (hlength.mp hiface).1⟩

/-- They agree on a network on `br0`. -/
theorem validations_agree_lan : validateCreateNetwork lanRequest = "" ↔
    ∃ doc, networkCreateXML lanRequest = .ok doc := by
  refine (validations_agree_iff (by decide)).mpr fun bridge _ hbridge _ => ?_
  obtain rfl := Option.some.inj hbridge
  decide

/-- They do not on a bridge of seventeen characters. -/
theorem not_validations_agree : validateCreateNetwork
      { lanRequest with bridgeName := some "bridge-to-storage" } = "" ∧
    ¬ ∃ doc, networkCreateXML { lanRequest with bridgeName := some "bridge-to-storage" } =
      .ok doc := by
  refine ⟨by decide, fun hdoc => ?_⟩
  have hpattern := (networkCreateXML_bridge rfl).mp hdoc
  exact absurd hpattern (by decide)

end Create

end Ultrav
