import Ultrav.Decimal
import Ultrav.Octets
import Ultrav.ScheduleUpdate

/-!
# Networks of the libvirt provider

`networkCreateXML` turns a request for a network into the document that libvirt defines it from.

* `cidrPattern`, `parseCIDR` — how a subnet is read.
* `subnetFirstAndLastHost` — the gateway and the end of the range for DHCP.
* `networkCreateXML` — the document or the error.
-/

namespace Ultrav

open Octets

/-! ## Requests -/

/-- `NetworkCreateMode` -/
inductive NetworkCreateMode where
  | nat
  | isolated
  | bridge
  | other (mode : String)
  deriving DecidableEq, Repr

/-- `NetworkCreate` -/
structure NetworkCreate where
  bridgeName : Option String
  cidr : Option String
  dhcpEnabled : Option Bool
  mode : NetworkCreateMode
  name : String
  deriving DecidableEq, Repr

/-- What is put behind the text of `ErrInvalidNetworkState`. -/
inductive NetworkError where
  | bridgeName
  | cidr
  | invalidCidr (text : String)
  | small
  | mode (m : String)
  deriving DecidableEq, Repr

/-- The message, where `quote` is how `%q` writes a string. -/
def NetworkError.message (quote : String → String) (e : NetworkError) : String :=
  "operation is not valid for the current network state: " ++ match e with
    | .bridgeName =>
      "bridgeName is required (and must be a valid interface name) for bridge networks"
    | .cidr => "cidr is required (e.g. 192.168.100.0/24) for nat/isolated networks"
    | .invalidCidr text => "invalid cidr: invalid CIDR address: " ++ text
    | .small => "cidr must be an IPv4 subnet of at least /30"
    | .mode m => "unsupported network mode " ++ quote m

/-! ## Patterns -/

/-- `[0-9]{1,3}` and the separator behind it. -/
def digitField (sep : Char) (s : List Char) : Option (List Char) :=
  let ds := s.takeWhile Char.isDigit
  if 1 ≤ ds.length ∧ ds.length ≤ 3 then
    match s.dropWhile Char.isDigit with
    | [] => none
    | c :: rest => if c = sep then some rest else none
  else none

/-- `([0-9]|[12][0-9]|3[0-2])$` -/
def prefixPattern : List Char → Bool
  | [c] => c.isDigit
  | [c, d] => (c = '1' || c = '2') && d.isDigit || c = '3' && ('0' ≤ d && d ≤ '2')
  | _ => false

/-- `cidrPattern`: `^([0-9]{1,3}\.){3}[0-9]{1,3}/([0-9]|[12][0-9]|3[0-2])$`. -/
def cidrPattern (s : String) : Bool :=
  ((digitField '.' s.toList).bind fun s => (digitField '.' s).bind fun s =>
    (digitField '.' s).bind (digitField '/')).any prefixPattern

/-- `ifaceNamePattern`: `^[a-zA-Z0-9][a-zA-Z0-9._-]{0,15}$`. -/
def ifaceNamePattern (s : String) : Bool :=
  match s.toList with
  | [] => false
  | c :: cs => alnum c && cs.length ≤ 15 &&
      cs.all fun c => alnum c || c = '.' || c = '_' || c = '-'

/-! ## Subnets -/

/-- `net.IPNet` -/
structure IPNet where
  ip : List Octet
  mask : List Octet
  deriving DecidableEq, Repr

/-- The loop of `parseIPv4Fields`: the fields that are complete, and the value and the number of
digits of the one that is read. -/
def parseIPv4Fields (fields : List Octet) (val digLen : ℕ) : List Char → Option (List Octet)
  | [] => if fields.length < 3 then none else some (fields ++ [BitVec.ofNat 8 val])
  | c :: s =>
    if c.isDigit then
      -- a zero can only stand alone
      if digLen = 1 ∧ val = 0 then none
      else if 255 < val * 10 + (c.toNat - '0'.toNat) then none
      else parseIPv4Fields fields (val * 10 + (c.toNat - '0'.toNat)) (digLen + 1) s
    else if c = '.' then
      if digLen = 0 ∨ s = [] then none
      else if fields.length = 3 then none
      else parseIPv4Fields (fields ++ [BitVec.ofNat 8 val]) 0 0 s
    else none

/-- `dtoi`, when it reads the whole text. -/
def dtoi (s : List Char) : Option ℕ :=
  if s ≠ [] ∧ s.all Char.isDigit ∧ Decimal.value s < 0xFFFFFF then some (Decimal.value s) else none

/-- `net.ParseCIDR` for IPv4; the pattern lets no other address by. -/
def parseCIDR (s : String) : Option IPNet :=
  match s.toList.dropWhile (· ≠ '/') with
  | [] => none
  | _ :: mask =>
    (parseIPv4Fields [] 0 0 (s.toList.takeWhile (· ≠ '/'))).bind fun ip =>
      (dtoi mask).bind fun n =>
        if n ≤ 32 then some ⟨masked ip (prefixMask 4 n), prefixMask 4 n⟩ else none

/-- `IP.To4` -/
def to4 (ip : List Octet) : Option (List Octet) :=
  if ip.length = 4 then some ip
  else if ip.length = 16 ∧ ip.take 12 = List.replicate 10 0 ++ [255, 255] then some (ip.drop 12)
  else none

/-- `IPMask.Size`: the leading ones, when only zeros follow. -/
def maskSize : List Octet → ℕ
  | [] => 0
  | m :: ms =>
    if m = 255 then maskSize ms + 8
    else
      let n := ((List.range 8).takeWhile m.getMsbD).length
      if m <<< n = 0 ∧ ms.all (· = 0) then n else 0

/-- `addToIP` -/
def addToIP (ip : List Octet) (delta : BitVec 32) : List Octet :=
  (carryAdd ip.reverse delta).reverse

/-- `subnetFirstAndLastHost` -/
def subnetFirstAndLastHost (ipNet : IPNet) : Option (List Octet × List Octet) :=
  (to4 ipNet.ip).map fun network =>
    let first := List.zipWith (fun b m => b &&& m ||| 1) network ipNet.mask
    -- last host = broadcast-1
    let last := addToIP (filled network ipNet.mask) (-1)
    (first, last)

/-! ## Documents -/

/-- `xmlEscape` -/
def xmlEscape (s : String) : String :=
  String.join <| s.toList.map fun r =>
    match r with
    | '"' => "&#34;"
    | '\'' => "&#39;"
    | '&' => "&amp;"
    | '<' => "&lt;"
    | '>' => "&gt;"
    | '\t' => "&#x9;"
    | '\n' => "&#xA;"
    | '\r' => "&#xD;"
    | r =>
      -- outside the characters that a document may hold
      if r.toNat < 0x20 ∨ r.toNat = 0xFFFE ∨ r.toNat = 0xFFFF then "\uFFFD" else r.toString

/-- `IP.String` of four octets. -/
def ipText (ip : List Octet) : List Char :=
  ['.'].intercalate (ip.map fun b => Decimal.padded 0 b.toNat)

/-- The document of a network on a host bridge. -/
def bridgeXML (name bridge : String) : String :=
  "<network>\n" ++
  "  <name>" ++ xmlEscape name ++ "</name>\n" ++
  "  <forward mode=\"bridge\"/>\n" ++
  "  <bridge name=\"" ++ xmlEscape bridge ++ "\"/>\n" ++
  "</network>"

/-- The range for DHCP. -/
def dhcpXML (first last : List Octet) : String :=
  "\n    <dhcp>\n" ++
  "      <range start=\"" ++ String.ofList (ipText first) ++ "\" end=\"" ++
    String.ofList (ipText last) ++ "\"/>\n" ++
  "    </dhcp>"

/-- The document of a network on a subnet. -/
def subnetXML (name forward dhcp : String) (gw : List Octet) (size : ℕ) : String :=
  "<network>\n" ++
  "  <name>" ++ xmlEscape name ++ "</name>\n" ++
  "  " ++ forward ++ "\n" ++
  "  <domain name=\"" ++ xmlEscape name ++ "\"/>\n" ++
  "  <ip address=\"" ++ String.ofList (ipText gw) ++ "\" prefix=\"" ++
    String.ofList (Decimal.padded 0 size) ++ "\">" ++ dhcp ++ "\n" ++
  "  </ip>\n" ++
  "</network>"

/-- The branch of `networkCreateXML` for the modes that have a subnet. -/
def subnetNetworkXML (req : NetworkCreate) : Except NetworkError String :=
  match req.cidr with
  | none => .error .cidr
  | some cidr =>
    if !cidrPattern cidr then .error .cidr
    else match parseCIDR cidr with
      | none => .error (.invalidCidr cidr)
      | some ipNet =>
        match subnetFirstAndLastHost ipNet with
        | none => .error .small
        | some (gw, last) =>
          let dhcp := if req.dhcpEnabled.getD true then dhcpXML gw last else ""
          let forward := if req.mode = .nat then "<forward mode=\"nat\"/>" else ""
          .ok (subnetXML req.name forward dhcp gw (maskSize ipNet.mask))

/-- `networkCreateXML` -/
def networkCreateXML (req : NetworkCreate) : Except NetworkError String :=
  match req.mode with
  | .bridge =>
    match req.bridgeName with
    | none => .error .bridgeName
    | some bridge =>
      if !ifaceNamePattern bridge then .error .bridgeName else .ok (bridgeXML req.name bridge)
  | .nat | .isolated => subnetNetworkXML req
  | .other mode => .error (.mode mode)

end Ultrav
