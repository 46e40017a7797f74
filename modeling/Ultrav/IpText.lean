import Ultrav.NetworkHosts

/-!
# Addresses as text

How Go reads and writes IP addresses. An address has sixteen octets once it is read; one that
stands for an IPv4 address has a fixed prefix.

* `parseAddr` / `parseIP` / `parseIPNet` — `netip.ParseAddr`, `net.ParseIP` and `net.ParseCIDR`,
  with both families.
* `ipString` — `IP.String`.
* `parseIP_ipText` / `ipString_mapped` — IPv4 addresses, there and back.
-/

namespace Ultrav

open Octets

/-! ## Reading -/

/-- The address with sixteen octets for one with four. -/
def mapped (ip : List Octet) : List Octet := List.replicate 10 0 ++ [255, 255] ++ ip

/-- A hexadecimal digit. -/
def hexValue (c : Char) : Option ℕ :=
  if '0' ≤ c ∧ c ≤ '9' then some (c.toNat - '0'.toNat)
  else if 'a' ≤ c ∧ c ≤ 'f' then some (c.toNat - 'a'.toNat + 10)
  else if 'A' ≤ c ∧ c ≤ 'F' then some (c.toNat - 'A'.toNat + 10)
  else none

/-- A group of one to four hexadecimal digits, and what follows it. -/
def hexGroup (s : List Char) : Option (ℕ × List Char) :=
  let ds := s.takeWhile fun c => (hexValue c).isSome
  if ds = [] ∨ 4 < ds.length then none
  else some ((ds.filterMap hexValue).foldl (fun acc d => acc * 16 + d) 0, s.drop ds.length)

/-- The loop of `parseIPv6` over so many groups: the octets before, and where the ellipsis is. -/
def parseIPv6Groups : ℕ → List Octet → Option ℕ → List Char →
    Option (List Octet × Option ℕ × List Char)
  | 0, ip, ellipsis, s => some (ip, ellipsis, s)
  | n + 1, ip, ellipsis, s =>
    (hexGroup s).bind fun (acc, rest) =>
      if rest.head? = some '.' then
        -- the last two groups may be an IPv4 address
        if ellipsis = none ∧ ip.length ≠ 12 ∨ 16 < ip.length + 4 then none
        else (parseIPv4Fields [] 0 0 s).map fun v4 => (ip ++ v4, ellipsis, [])
      else
        let ip := ip ++ [BitVec.ofNat 8 (acc / 256), BitVec.ofNat 8 acc]
        match rest with
        | [] => some (ip, ellipsis, [])
        | [':'] => none
        | ':' :: ':' :: rest =>
          if ellipsis.isSome then none
          else if rest = [] then some (ip, some ip.length, [])
          else parseIPv6Groups n ip (some ip.length) rest
        | ':' :: rest => parseIPv6Groups n ip ellipsis rest
        | _ => none

/-- `parseIPv6`, without zones. -/
def parseIPv6 (s : List Char) : Option (List Octet) :=
  let (ellipsis, s) := match s with
    | ':' :: ':' :: rest => (some 0, rest)
    | s => (none, s)
  if ellipsis = some 0 ∧ s = [] then some (List.replicate 16 0)
  else (parseIPv6Groups 8 [] ellipsis s).bind fun (ip, ellipsis, rest) =>
    if rest ≠ [] then none
    else if ip.length < 16 then
      ellipsis.map fun e => ip.take e ++ List.replicate (16 - ip.length) 0 ++ ip.drop e
    else if ellipsis.isSome then none
    else some ip

/-- `netip.ParseAddr`, without zones: the first point or colon tells the family. -/
def parseAddr (s : List Char) : Option (List Octet) :=
  match s.find? fun c => c = '.' || c = ':' || c = '%' with
  | some '.' => parseIPv4Fields [] 0 0 s
  | some ':' => if s.contains '%' then none else parseIPv6 s
  | _ => none

/-- `As16` -/
def as16 (ip : List Octet) : List Octet := if ip.length = 4 then mapped ip else ip

/-- `net.ParseIP` -/
def parseIP (s : String) : Option (List Octet) := (parseAddr s.toList).map as16

/-- `net.ParseCIDR`, with both families. -/
def parseIPNet (s : String) : Option IPNet :=
  match s.toList.dropWhile (· ≠ '/') with
  | [] => none
  | _ :: mask =>
    (parseAddr (s.toList.takeWhile (· ≠ '/'))).bind fun ip =>
      (dtoi mask).bind fun n =>
        if n ≤ 8 * ip.length then
          some ⟨masked ip (prefixMask ip.length n), prefixMask ip.length n⟩
        else none

/-! ## Writing -/

/-- The groups of an address. -/
def groups : List Octet → List ℕ
  | a :: b :: ip => (a.toNat * 256 + b.toNat) :: groups ip
  | _ => []

/-- The longest run of two or more groups that are zero: where it begins and ends. -/
def zeroRun (gs : List ℕ) : ℕ × ℕ :=
  (List.range gs.length).foldl (fun best i =>
    let l := ((gs.drop i).takeWhile (· = 0)).length
    if 2 ≤ l ∧ best.2 - best.1 < l then (i, i + l) else best) (255, 255)

/-- The groups with the run left out. -/
def ipv6Text (ip : List Octet) : List Char :=
  let gs := groups ip
  let run := zeroRun gs
  let text (gs : List ℕ) : List Char := [':'].intercalate (gs.map (Nat.toDigits 16))
  if run.1 < gs.length then text (gs.take run.1) ++ [':', ':'] ++ text (gs.drop run.2)
  else text gs

/-- `IP.String` -/
def ipString (ip : List Octet) : List Char :=
  match to4 ip with
  | some v4 => ipText v4
  | none => ipv6Text ip

/-! ## IPv4 -/

/-- Digits and a point behind them: the address is of that family. -/
theorem parseAddr_digits {ds : List Char} (hds : ∀ c ∈ ds, c.isDigit = true) (s : List Char) :
    parseAddr (ds ++ '.' :: s) = parseIPv4Fields [] 0 0 (ds ++ '.' :: s) := by
  have hnone : ds.find? (fun c => c = '.' || c = ':' || c = '%') = none := by
    refine List.find?_eq_none.mpr fun c hc hfound => ?_
    have hdigit := hds c hc
    simp only [Bool.or_eq_true, decide_eq_true_eq] at hfound
    rcases hfound with (rfl | rfl) | rfl <;> exact absurd hdigit (by decide)
  have hpoint : (ds ++ '.' :: s).find? (fun c => c = '.' || c = ':' || c = '%') = some '.' := by
    rw [List.find?_append, hnone, Option.none_or]
    exact List.find?_cons_of_pos rfl
  rw [parseAddr, hpoint]
  rfl

section IPv4

variable (a b c d : Octet)

theorem ipString_mapped : ipString (mapped [a, b, c, d]) = ipText [a, b, c, d] := rfl

/-- **An IPv4 address** is read. -/
theorem parseAddr_ipText : parseAddr (ipText [a, b, c, d]) = some [a, b, c, d] := by
  rw [ipText_four, parseAddr_digits fun _ hc => Decimal.isDigit_of_mem_padded hc, ← ipText_four,
    parseIPv4Fields_ipText]

theorem parseIP_ipText :
    parseIP (.ofList (ipText [a, b, c, d])) = some (mapped [a, b, c, d]) := by
  rw [parseIP, String.toList_ofList, parseAddr_ipText]
  rfl

end IPv4

example : String.ofList (ipString [0xFE, 0x80, 0, 0, 0, 0, 0, 0, 0, 1, 0, 0, 0, 0, 0, 2]) =
    "fe80::1:0:0:2" := by decide

example : parseIP "fe80::1:0:0:2" =
    some [0xFE, 0x80, 0, 0, 0, 0, 0, 0, 0, 1, 0, 0, 0, 0, 0, 2] := by decide

end Ultrav
