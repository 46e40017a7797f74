import Ultrav.DomainModel
import Ultrav.NetworkHosts
import Ultrav.XmlTemplate

/-!
# Networks as they are read

The provider decodes a few values of a network's document, and makes the network of the API from
them.

* `NetworkXML` / `decodeNetwork` — the values of a document.
* `networkForwardMode` / `networkToModel` — the network of the API.
* `parse_bridgeXML` / `parse_subnetXML` — what the documents say that `networkCreateXML` writes.
* `decode_bridgeXML` / `decode_subnetXML` — the values of these.
-/

namespace Ultrav

open Xml Octets

/-! ## Decoding -/

/-- `networkXML`: the values that are consumed. -/
structure NetworkXML where
  bridgeName : String
  forwardMode : String
  address : String
  ipPrefix : ℤ
  dhcp : Bool
  domainName : String
  deriving DecidableEq, Repr

/-- `xml.Unmarshal` into it. An element that comes several times overwrites its values. -/
def decodeNetwork (root : Element String) : Option NetworkXML :=
  ((root.attrsAt ["ip"] "prefix").mapM parseInt).map fun prefixes =>
    { bridgeName := root.lastAttr ["bridge"] "name"
      forwardMode := root.lastAttr ["forward"] "mode"
      address := root.lastAttr ["ip"] "address"
      ipPrefix := prefixes.getLastD 0
      dhcp := !(root.follow ["ip", "dhcp"]).isEmpty
      domainName := root.lastAttr ["ip", "domain"] "name" }

/-- The name that libvirt gives back for a document. -/
def networkName (root : Element String) : String := (root.textsAt ["name"]).headD ""

/-- `networkForwardMode` -/
def networkForwardMode (mode : String) : NetworkCreateMode :=
  if mode = "nat" then .nat
  else if mode = "bridge" then .bridge
  else if mode = "route" ∨ mode = "open" ∨ mode = "vepa" ∨ mode = "passthrough" ∨
    mode = "hostdev" then .nat
  else .isolated

/-- `types.Network` -/
structure Network where
  id : String
  name : String
  active : Bool
  autostart : Bool
  dhcpEnabled : Bool
  mode : NetworkCreateMode
  bridge : Option String
  ipAddress : Option String
  ipPrefix : Option ℤ
  domainName : Option String
  deriving DecidableEq, Repr

/-- `networkToModel`, of what libvirt knows of a network. -/
def networkToModel (name : String) (active autostart : Bool) (nx : NetworkXML) : Network where
  id := name
  name := name
  active := active
  autostart := autostart
  dhcpEnabled := nx.dhcp
  mode := networkForwardMode nx.forwardMode
  bridge := if nx.bridgeName ≠ "" then some nx.bridgeName else none
  ipAddress := if nx.address ≠ "" then some nx.address else none
  ipPrefix := if nx.address ≠ "" then some nx.ipPrefix else none
  domainName := if nx.domainName ≠ "" then some nx.domainName else none

/-! ## The documents that are written -/

/-- The characters that are replaced. -/
theorem not_legal_iff {c : Char} (htab : c ≠ '\t') (hlf : c ≠ '\n') (hcr : c ≠ '\r') :
    ¬ legal c = true ↔ c.toNat < 0x20 ∨ c.toNat = 0xFFFE ∨ c.toNat = 0xFFFF := by
  simp only [legal, htab, hlf, hcr, decide_false, Bool.false_or, Bool.or_eq_true,
    Bool.and_eq_true, decide_eq_true_eq]
  omega

/-- `xmlEscape` writes character by character. -/
theorem xmlEscape_toList (s : String) : (xmlEscape s).toList = s.toList.flatMap escape := by
  rw [xmlEscape, String.toList_join, List.flatMap_map]
  refine List.flatMap_congr fun c _ => ?_
  split
  case h_9 hquot hapos hamp hlt hgt htab hlf hcr =>
    rw [escape, if_neg hquot, if_neg hapos, if_neg hamp, if_neg hlt, if_neg hgt, if_neg htab,
      if_neg hlf, if_neg hcr, legalize]
    by_cases h : c.toNat < 0x20 ∨ c.toNat = 0xFFFE ∨ c.toNat = 0xFFFF
    · rw [if_pos h, if_neg ((not_legal_iff htab hlf hcr).mpr h)]
      rfl
    · rw [if_neg h, if_pos (not_not.mp (mt (not_legal_iff htab hlf hcr).mp h))]
      exact String.toList_singleton c
  all_goals rfl

/-- The content of a bridge network's document. -/
theorem content_bridgeXML (name bridge : String) : ∃ cs t,
    (bridgeXML name bridge).toList = openTag "network" [] ++ (cs ++ closeTag "network") ∧
    Content cs t [.mk "name" [] (legalText name) [], .mk "forward" [("mode", "bridge")] "" [],
      .mk "bridge" [("name", legalText bridge)] "" []] := by
  have hname : ValidTag "name" [] := ⟨by decide, by simp, by simp⟩
  have hforward : ValidTag "forward" [("mode", "bridge")] := ⟨by decide, by decide, by decide⟩
  have hbridge : ValidTag "bridge" [("name", bridge)] := ⟨by decide, by simp; decide, by simp⟩
  refine ⟨_, _, ?_, (Content.newline 1).append <| (Content.element hname (.escaped name)).append <|
    (Content.newline 1).append <| (Content.empty hforward).append <|
    (Content.newline 1).append <| (Content.empty hbridge).append (.newline 0)⟩
  unfold bridgeXML
  simp only [String.toList_append, xmlEscape_toList]
  simp only [openTag, closeTag, emptyTag, tagHead, writeAttr, List.flatMap_nil, List.flatMap_cons,
    List.append_assoc, List.nil_append, List.cons_append]
  rfl

/-! ### Numerals -/

/-- The characters of addresses and numerals are written as they are, and read as they are. -/
theorem escape_numeral {c : Char} (h : c.isDigit = true ∨ c = '.') :
    escape c = [c] ∧ legal c = true := by
  have hrange : 0x2E ≤ c.toNat ∧ c.toNat ≤ 0x39 := by
    rcases h with h | rfl
    · simp only [Char.isDigit, Bool.and_eq_true, decide_eq_true_eq, ge_iff_le,
        UInt32.le_iff_toNat_le] at h
      change 0x30 ≤ c.toNat ∧ c.toNat ≤ 0x39 at h
      omega
    · decide
  have hne : ∀ d : Char, c.toNat ≠ d.toNat → c ≠ d := fun d hd heq => hd (heq ▸ rfl)
  have hlegal : legal c = true := by
    simp only [legal, Bool.or_eq_true, Bool.and_eq_true, decide_eq_true_eq]
    omega
  refine ⟨?_, hlegal⟩
  simp only [escape, legalize_eq_self hlegal]
  repeat rw [if_neg (hne _ (by simp; omega))]

theorem numeral_of_mem_ipText {ip : List Octet} {c : Char} (h : c ∈ ipText ip) :
    c.isDigit = true ∨ c = '.' := by
  induction ip with
  | nil => cases h
  | cons b ip ih =>
    cases ip with
    | nil => exact .inl (Decimal.isDigit_of_mem_padded (by simpa [ipText] using h))
    | cons b' ip =>
      have hcons : ipText (b :: b' :: ip) =
          Decimal.padded 0 b.toNat ++ '.' :: ipText (b' :: ip) := rfl
      rw [hcons, List.mem_append, List.mem_cons] at h
      rcases h with h | rfl | h
      · exact .inl (Decimal.isDigit_of_mem_padded h)
      · exact .inr rfl
      · exact ih h

/-- A text of such characters. -/
theorem flatMap_escape_numeral {cs : List Char} (h : ∀ c ∈ cs, c.isDigit = true ∨ c = '.') :
    cs.flatMap escape = cs ∧ legalText (.ofList cs) = .ofList cs := by
  refine ⟨?_, legalText_eq_self ?_⟩
  · rw [List.flatMap_congr fun c hc => (escape_numeral (h c hc)).1, List.flatMap_singleton']
  · rw [String.toList_ofList]
    exact List.all_eq_true.mpr fun c hc => (escape_numeral (h c hc)).2

/-! ### Subnets -/

/-- What the document of a subnet says in its `ip` element. -/
def dhcpElements (range : Option (List Octet × List Octet)) : List (Element String) :=
  match range with
  | none => []
  | some (first, last) => [.mk "dhcp" [] "\n      \n    "
      [.mk "range" [("start", .ofList (ipText first)), ("end", .ofList (ipText last))] "" []]]

/-- The range in the document, if there is one. -/
def rangeXML (range : Option (List Octet × List Octet)) : String :=
  match range with
  | none => ""
  | some (first, last) => dhcpXML first last

theorem content_rangeXML (range : Option (List Octet × List Octet)) :
    ∃ t, Content (rangeXML range).toList t (dhcpElements range) := by
  match range with
  | none => exact ⟨"", .nil⟩
  | some (first, last) =>
    have hfirst := flatMap_escape_numeral fun c (hc : c ∈ ipText first) => numeral_of_mem_ipText hc
    have hlast := flatMap_escape_numeral fun c (hc : c ∈ ipText last) => numeral_of_mem_ipText hc
    have hdhcp : ValidTag "dhcp" [] := ⟨by decide, by simp, by simp⟩
    have hrange : ValidTag "range" [("start", .ofList (ipText first)),
        ("end", .ofList (ipText last))] := ⟨by decide, by simp; decide, by simp⟩
    have hread : readAttrs [("start", .ofList (ipText first)), ("end", .ofList (ipText last))] =
        [("start", .ofList (ipText first)), ("end", .ofList (ipText last))] := by
      simp [readAttrs, hfirst.2, hlast.2]
    have htext : (dhcpXML first last).toList = newline 2 ++ (openTag "dhcp" [] ++
        ((newline 3 ++ (emptyTag "range" [("start", .ofList (ipText first)),
          ("end", .ofList (ipText last))] ++ newline 2)) ++ closeTag "dhcp")) := by
      unfold dhcpXML
      simp only [String.toList_append, openTag, closeTag, emptyTag, tagHead, writeAttr,
        List.flatMap_nil, List.flatMap_cons, List.append_assoc, List.nil_append, List.cons_append,
        String.toList_ofList, hfirst.1, hlast.1]
      rfl
    have hcontent := (Content.newline 2).append <| Content.element hdhcp <|
      (Content.newline 3).append <| (Content.empty hrange).append (.newline 2)
    rw [hread, ← htext] at hcontent
    exact ⟨_, hcontent⟩

/-- The `forward` element of a document. -/
def forwardElements (nat : Bool) : List (Element String) :=
  if nat then [.mk "forward" [("mode", "nat")] "" []] else []

theorem content_forward (nat : Bool) :
    Content (if nat then "<forward mode=\"nat\"/>" else "").toList "" (forwardElements nat) := by
  cases nat with
  | false => exact .nil
  | true =>
    have hforward : ValidTag "forward" [("mode", "nat")] := ⟨by decide, by decide, by decide⟩
    exact Content.empty hforward

/-- The elements of a subnet's document. -/
def subnetElements (name : String) (nat : Bool) (range : Option (List Octet × List Octet))
    (gw : List Octet) (size : ℕ) (t : String) : List (Element String) :=
  .mk "name" [] (legalText name) [] :: (forwardElements nat ++
    [.mk "domain" [("name", legalText name)] "" [],
      .mk "ip" [("address", .ofList (ipText gw)), ("prefix", .ofList (Decimal.padded 0 size))] t
        (dhcpElements range)])

/-- The content of a subnet's document. -/
theorem content_subnetXML (name : String) (nat : Bool) (range : Option (List Octet × List Octet))
    (gw : List Octet) (size : ℕ) : ∃ cs t t',
    (subnetXML name (if nat then "<forward mode=\"nat\"/>" else "") (rangeXML range) gw
      size).toList = openTag "network" [] ++ (cs ++ closeTag "network") ∧
    Content cs t (subnetElements name nat range gw size t') := by
  have hname : ValidTag "name" [] := ⟨by decide, by simp, by simp⟩
  have hdomain : ValidTag "domain" [("name", name)] := ⟨by decide, by simp; decide, by simp⟩
  have hip : ValidTag "ip" [("address", .ofList (ipText gw)),
      ("prefix", .ofList (Decimal.padded 0 size))] := ⟨by decide, by simp; decide, by simp⟩
  have haddress := flatMap_escape_numeral fun c (hc : c ∈ ipText gw) => numeral_of_mem_ipText hc
  have hsize := flatMap_escape_numeral fun c (hc : c ∈ Decimal.padded 0 size) =>
    .inl (Decimal.isDigit_of_mem_padded hc)
  have hread : readAttrs [("address", .ofList (ipText gw)),
      ("prefix", .ofList (Decimal.padded 0 size))] =
        [("address", .ofList (ipText gw)), ("prefix", .ofList (Decimal.padded 0 size))] := by
    simp [readAttrs, haddress.2, hsize.2]
  obtain ⟨t, hrange⟩ := content_rangeXML range
  have hcontent := (Content.newline 1).append <| (Content.element hname (.escaped name)).append <|
    (Content.newline 1).append <| (content_forward nat).append <| (Content.newline 1).append <|
    (Content.empty hdomain).append <| (Content.newline 1).append <|
    (Content.element hip (hrange.append (.newline 1))).append (.newline 0)
  rw [hread] at hcontent
  simp only [List.append_nil, List.nil_append, List.singleton_append, readAttrs, List.map_nil,
    List.map_cons] at hcontent
  refine ⟨_, _, t ++ .ofList (newline 1), ?_, hcontent⟩
  unfold subnetXML
  simp only [String.toList_append, xmlEscape_toList]
  simp only [openTag, closeTag, emptyTag, tagHead, writeAttr, List.flatMap_nil, List.flatMap_cons,
    List.append_assoc, List.nil_append, List.cons_append, String.toList_ofList, haddress.1,
    hsize.1]
  generalize (if nat = true then "<forward mode=\"nat\"/>" else "").toList = forward
  generalize (rangeXML range).toList = dhcp
  generalize name.toList.flatMap escape = name
  rfl

/-! ## What is read of them -/

theorem parseInt_padded (n : ℕ) : parseInt (.ofList (Decimal.padded 0 n)) = some (n : ℤ) := by
  have htext : String.ofList (Decimal.padded 0 n) = toString (n : ℤ) := by
    rw [padded_zero]
    rfl
  rw [htext, parseInt_toString]

/-- What the provider and libvirt make of a document. -/
def Says (doc : String) (name : String) (nx : NetworkXML) : Prop :=
  ∃ root, parse doc = some root ∧ networkName root = name ∧ decodeNetwork root = some nx

/-- **The document of a bridge network.** -/
theorem says_bridgeXML (name bridge : String) : Says (bridgeXML name bridge) (legalText name)
    { bridgeName := legalText bridge, forwardMode := "bridge", address := "", ipPrefix := 0,
      dhcp := false, domainName := "" } := by
  obtain ⟨cs, t, hdoc, hcontent⟩ := content_bridgeXML name bridge
  have hnetwork : ValidTag "network" [] := ⟨by decide, by simp, by simp⟩
  have hparse := parse_element hnetwork hcontent
  rw [← hdoc, String.ofList_toList] at hparse
  refine ⟨_, hparse, ?_, ?_⟩
  · simp [networkName, Element.textsAt, Element.follow, Element.children, Element.name,
      Element.text]
  · simp [decodeNetwork, Element.lastAttr, Element.attrsAt, Element.follow, Element.children,
      Element.name, Element.attr, Element.attrs]

/-- **The document of a subnet.** -/
theorem says_subnetXML (name : String) (nat : Bool) (range : Option (List Octet × List Octet))
    (gw : List Octet) (size : ℕ) :
    Says (subnetXML name (if nat then "<forward mode=\"nat\"/>" else "") (rangeXML range) gw size)
      (legalText name)
      { bridgeName := "", forwardMode := if nat then "nat" else "",
        address := .ofList (ipText gw), ipPrefix := size, dhcp := range.isSome,
        domainName := "" } := by
  obtain ⟨cs, t, t', hdoc, hcontent⟩ := content_subnetXML name nat range gw size
  have hnetwork : ValidTag "network" [] := ⟨by decide, by simp, by simp⟩
  have hparse := parse_element hnetwork hcontent
  rw [← hdoc, String.ofList_toList] at hparse
  refine ⟨_, hparse, ?_, ?_⟩
  · simp [networkName, subnetElements, Element.textsAt, Element.follow, Element.children,
      Element.name, Element.text]
  · cases nat <;> rcases range with _ | ⟨first, last⟩ <;>
      simp [decodeNetwork, subnetElements, forwardElements, dhcpElements, Element.lastAttr,
        Element.attrsAt, Element.follow, Element.children, Element.name, Element.attr,
        Element.attrs, parseInt_padded]

end Ultrav
