import Ultrav.MockPower
import Ultrav.NetworkHosts

/-!
# Addresses of the mock provider

A new machine has a MAC and an IP address made of the size of the fleet with it. The machines of the
fleet at the start have addresses written by hand.

* `macOf_injective`, `isSome_parse_host` — what the addresses say of the number they are made of.
* `Provider.Unique` — the addresses of the machines are distinct and valid.
* `Census` — a provider, with the number in the MAC address of each machine.
* `Fits` — the number of a new machine is free and small enough.
* `unique_iff` — the runs in which all addresses stay distinct and valid.
-/

namespace Ultrav.Fleet

open Machine

/-! ## Hexadecimal numerals -/

/-- What a hexadecimal digit denotes. -/
def hexDigitValue (c : Char) : ℕ := if c.isDigit then c.toNat - 48 else c.toNat - 87

/-- What a run of hexadecimal digits denotes. -/
def readHex (cs : List Char) : ℕ := cs.foldl (fun v c => 16 * v + hexDigitValue c) 0

theorem hexDigitValue_digitChar {d : ℕ} (hd : d < 16) : hexDigitValue d.digitChar = d := by
  revert d
  decide

theorem readHex_toDigits (n : ℕ) : readHex (Nat.toDigits 16 n) = n := by
  induction n using Nat.strongRecOn with
  | ind n ih =>
    by_cases hlt : n < 16
    · rw [Nat.toDigits_of_lt_base hlt, readHex, List.foldl_cons, List.foldl_nil, Nat.mul_zero,
        Nat.zero_add, hexDigitValue_digitChar hlt]
    · have hlast := hexDigitValue_digitChar (Nat.mod_lt n (by decide : 0 < 16))
      have hinit := ih (n / 16) (by omega)
      rw [readHex] at hinit
      rw [Nat.toDigits_of_base_le (by decide) (by omega), readHex, List.foldl_append, hinit,
        List.foldl_cons, List.foldl_nil, hlast]
      omega

theorem readHex_zeros (k : ℕ) (cs : List Char) :
    readHex (List.replicate k '0' ++ cs) = readHex cs := by
  induction k with
  | zero => rfl
  | succ k ih => exact ih

theorem hex2_injective : Function.Injective hex2 := by
  intro a b h
  have htext := congrArg (fun s => readHex s.toList) h
  simp only [hex2, String.toList_ofList, readHex_zeros, readHex_toDigits] at htext
  exact htext

theorem length_hex2 {n : ℕ} (hn : n < 256) : (hex2 n).toList.length = 2 := by
  have hlen : (Nat.toDigits 16 n).length ≤ 2 :=
    (Nat.length_toDigits_le_iff (by decide) (by decide)).mpr (by omega)
  rw [hex2, String.toList_ofList, List.length_append, List.length_replicate]
  omega

/-- **Sizes have different MAC addresses.** -/
theorem macOf_injective : Function.Injective macOf := by
  intro a b h
  have htext := congrArg String.toList h
  simp only [macOf, String.toList_append, List.append_assoc] at htext
  have hrest := List.append_cancel_left htext
  have hlen : (":".toList ++ (hex2 (a % 256)).toList).length =
      (":".toList ++ (hex2 (b % 256)).toList).length := by
    rw [List.length_append, List.length_append, length_hex2 (by omega), length_hex2 (by omega)]
  obtain ⟨hhigh, hlow⟩ := List.append_inj' hrest hlen
  have h1 : a / 256 = b / 256 := hex2_injective (String.toList_injective hhigh)
  have h2 : a % 256 = b % 256 :=
    hex2_injective (String.toList_injective (List.append_cancel_left hlow))
  omega

/-! ## IP addresses -/

/-- The address of a host. -/
def hostIP (k : ℕ) : String := "10.0.0." ++ toString k

theorem toList_hostIP (k : ℕ) : (hostIP k).toList = "10.0.0.".toList ++ Nat.toDigits 10 k := by
  rw [hostIP, String.toList_append]
  exact congrArg _ String.toList_ofList

theorem hostIP_injective : Function.Injective hostIP := by
  intro a b h
  have htext := congrArg String.toList h
  rw [toList_hostIP, toList_hostIP] at htext
  have hvalue := congrArg (Nat.ofDigitChars 10 · 0) (List.append_cancel_left htext)
  simpa only [Nat.ofDigitChars_ten_toDigits] using hvalue

/-- A number above 255 is not read. -/
theorem parseIPv4Fields_large (fields : List Octet) :
    ∀ (n : ℕ) (s : List Char), 255 < n →
      parseIPv4Fields fields 0 0 (Nat.toDigits 10 n ++ s) = none := by
  intro n
  induction n using Nat.strongRecOn with
  | ind n ih =>
    intro s hn
    have hd : n % 10 < 10 := Nat.mod_lt n (by decide)
    rw [Nat.toDigits_of_base_le (by decide) (by omega), List.append_assoc]
    by_cases hle : n / 10 ≤ 255
    · rw [parseIPv4Fields_toDigits fields _ _ hle, List.singleton_append, parseIPv4Fields,
        if_pos (isDigit_digitChar hd), if_neg (by omega), toNat_digitChar hd, if_pos (by omega)]
    · exact ih (n / 10) (by omega) _ (by omega)

theorem parse_host {s : List Char} (hs : s ≠ []) :
    parseIPv4Fields [] 0 0 ("10.0.0.".toList ++ s) = parseIPv4Fields [10, 0, 0] 0 0 s := by
  have htext : "10.0.0.".toList ++ s =
      Decimal.padded 0 (10 : Octet).toNat ++ '.' :: (Decimal.padded 0 (0 : Octet).toNat ++
        '.' :: (Decimal.padded 0 (0 : Octet).toNat ++ '.' :: s)) := rfl
  rw [htext, parseIPv4Fields_point 10 (by simp) (by decide),
    parseIPv4Fields_point 0 (by simp) (by decide), parseIPv4Fields_point 0 hs (by decide)]
  rfl

/-- **The address of a host is valid** when its number fits in a byte. -/
theorem isSome_parse_host (k : ℕ) :
    (parseIPv4Fields [] 0 0 (hostIP k).toList).isSome = true ↔ k ≤ 255 := by
  rw [toList_hostIP, parse_host Nat.toDigits_ne_nil]
  by_cases hk : k ≤ 255
  · have hbyte : (BitVec.ofNat 8 k).toNat = k := by
      rw [BitVec.toNat_ofNat]
      exact Nat.mod_eq_of_lt (by omega)
    have h := @parseIPv4Fields_end [10, 0, 0] (BitVec.ofNat 8 k) rfl
    rw [hbyte, padded_zero] at h
    rw [h]
    exact iff_of_true rfl hk
  · have h := parseIPv4Fields_large [10, 0, 0] k [] (by omega)
    rw [List.append_nil] at h
    rw [h]
    exact iff_of_false nofun hk

/-! ## Addresses of the fleet -/

namespace Provider

variable (p : Provider)

/-- The MAC and the IP address of a machine. -/
def addresses (r : ℕ) : Option (String × String) :=
  (p.heap[r]?).map fun vm => (vm.spec.mac, vm.spec.ip)

/-- Machines of different names have different addresses, and the IP addresses are valid. -/
structure Unique : Prop where
  apart : ∀ q ∈ p.vms, ∀ q' ∈ p.vms, q.1 ≠ q'.1 → ∀ a a', p.addresses q.2 = some a →
    p.addresses q'.2 = some a' → a.1 ≠ a'.1 ∧ a.2 ≠ a'.2
  valid : ∀ q ∈ p.vms, ∀ a, p.addresses q.2 = some a →
    (parseIPv4Fields [] 0 0 a.2.toList).isSome = true

end Provider

/-- The size that the fleet gets by a machine that is created. -/
def born (p : Provider) : Event → List ℕ
  | .call (.create _ req) => if (p.vms.lookup req.name).isSome then [] else [p.vms.length + 1]
  | _ => []

variable {p p' : Provider}

/-- The addresses of a machine are never changed. -/
theorem Move.addresses {vm vm' : VM} (h : Move vm vm') :
    vm'.spec.mac = vm.spec.mac ∧ vm'.spec.ip = vm.spec.ip := by
  cases h <;> exact ⟨rfl, rfl⟩

theorem addresses_put {r : ℕ} {vm vm' : VM} (found : p.heap[r]? = some vm)
    (h : vm'.spec.mac = vm.spec.mac ∧ vm'.spec.ip = vm.spec.ip) (k : ℕ) :
    (p.put r vm').addresses k = p.addresses k := by
  rw [Provider.addresses, Provider.addresses, Provider.put, List.getElem?_set]
  split
  · rename_i hrk
    subst hrk
    rw [if_pos (List.getElem?_eq_some_iff.mp found).1, found, Option.map_some, Option.map_some,
      h.1, h.2]
  · rfl

/-- A step that leaves the machines their addresses and adds none. -/
structure Settled (p p' : Provider) : Prop where
  vms : p'.vms ⊆ p.vms
  length : p'.heap.length = p.heap.length
  addresses : ∀ r, p'.addresses r = p.addresses r

/-- A step that makes a machine for the size of the fleet with it. -/
structure Grown (p p' : Provider) : Prop where
  fresh : ∃ id, p.vms.lookup id = none ∧ p'.vms = p.vms ++ [(id, p.heap.length)]
  length : p'.heap.length = p.heap.length + 1
  old : ∀ r < p.heap.length, p'.addresses r = p.addresses r
  new : p'.addresses p.heap.length =
    some (macOf (p.vms.length + 1), hostIP (20 + (p.vms.length + 1)))

theorem Settled.refl (p : Provider) : Settled p p := ⟨List.Subset.refl _, rfl, fun _ => rfl⟩

theorem settled_put {r : ℕ} {vm vm' : VM} (found : p.heap[r]? = some vm)
    (h : vm'.spec.mac = vm.spec.mac ∧ vm'.spec.ip = vm.spec.ip) : Settled p (p.put r vm') :=
  ⟨List.Subset.refl _, List.length_set, addresses_put found h⟩

/-- **What a step does to the addresses**, by whether it makes a machine. -/
theorem addresses_step {e : Event} (hstep : step p e = some p') :
    born p e = [p.vms.length + 1] ∧ Grown p p' ∨ born p e = [] ∧ Settled p p' := by
  have hborn : (∀ now req, e ≠ .call (.create now req)) → born p e = [] := by
    intro he
    cases e with
    | wake i => rfl
    | call c =>
      cases c with
      | create now req => exact absurd rfl (he now req)
      | _ => rfl
  by_cases he : ∃ now req, e = .call (.create now req)
  · obtain ⟨now, req, rfl⟩ := he
    obtain rfl := Option.some.inj hstep
    rw [born, Call.perform]
    split
    · exact .inr ⟨rfl, .refl p⟩
    · rename_i hfresh
      refine .inl ⟨rfl, ⟨⟨req.name, Option.not_isSome_iff_eq_none.mp hfresh, rfl⟩,
        List.length_append, fun r hr => ?_, ?_⟩⟩
      · rw [Provider.addresses, Provider.register, List.getElem?_append_left hr]
        rfl
      · rw [Provider.addresses, Provider.register, List.getElem?_concat_length, created]
        split <;> rfl
  · refine .inr ⟨hborn fun now req h => he ⟨now, req, h⟩, ?_⟩
    cases effect_step hstep with
    | same => exact .refl p
    | created h fresh => exact absurd ⟨_, _, h⟩ he
    | moved found move => exact settled_put found move.addresses
    | @shutDown id r vm h found running =>
      have hput : Settled p (p.put r { vm with state := .shuttingDown }) :=
        settled_put (Provider.find_eq_some.mp found).2 ⟨rfl, rfl⟩
      exact ⟨hput.vms, hput.length, hput.addresses⟩
    | deleted found stopped => exact ⟨List.filter_subset_self _, rfl, fun _ => rfl⟩
    | woke h asleep => exact ⟨List.Subset.refl _, rfl, fun _ => rfl⟩
    | @wokeAndStopped i r vm h asleep found down =>
      have hput : Settled (p.awake i r) ((p.awake i r).put r vm.powerOff) :=
        settled_put found ⟨rfl, rfl⟩
      exact ⟨hput.vms, hput.length, hput.addresses⟩

theorem Settled.unique (h : Settled p p') (hu : p.Unique) : p'.Unique := by
  refine ⟨fun q hq q' hq' hne a a' ha ha' => ?_, fun q hq a ha => ?_⟩
  · rw [h.addresses] at ha ha'
    exact hu.apart q (h.vms hq) q' (h.vms hq') hne a a' ha ha'
  · rw [h.addresses] at ha
    exact hu.valid q (h.vms hq) a ha

/-! ## Numbers -/

/-- A provider, with the number in the MAC address of each machine: the size of the fleet when it
was created, or one written by hand. -/
structure Census where
  provider : Provider
  numbers : List ℕ

namespace Census

/-- The fleet at the start, with the MAC addresses `11` to `14` in hexadecimal. -/
def start (now : ℤ) : Census := ⟨new now, [0x11, 0x12, 0x13, 0x14]⟩

def step (s : Census) (e : Event) : Option Census :=
  (Fleet.step s.provider e).map fun p => ⟨p, s.numbers ++ born s.provider e⟩

/-- The number of a new machine is no larger than 235, and no existing machine has it. -/
def Fits (s : Census) (e : Event) : Prop :=
  ∀ n ∈ born s.provider e, n ≤ 235 ∧ ∀ q ∈ s.provider.vms, s.numbers[q.2]? ≠ some n

/-- The last number of the IP address of a machine. -/
def host (r n : ℕ) : ℕ := if r < 4 then 11 + r else 20 + n

/-- What the numbers are. -/
structure Counted (s : Census) : Prop where
  length : s.numbers.length = s.provider.heap.length
  fleet : 4 ≤ s.numbers.length
  registered : ∀ q ∈ s.provider.vms, q.2 < s.provider.heap.length
  once : ∀ q ∈ s.provider.vms, ∀ q' ∈ s.provider.vms, q.2 = q'.2 → q.1 = q'.1
  addresses : ∀ r n, s.numbers[r]? = some n →
    s.provider.addresses r = some (macOf n, hostIP (host r n))

theorem spec_seed (now : ℤ) (spec : VMSpec) : (seed now spec).spec = spec := by
  rw [seed]
  split
  · split <;> rfl
  · rfl

theorem addresses_new (now : ℤ) (r : ℕ) :
    (new now).addresses r = (specs[r]?).map fun spec => (spec.mac, spec.ip) := by
  rw [Provider.addresses, new, List.getElem?_map, Option.map_map]
  exact congrArg (Option.map · _) (funext fun spec => by rw [Function.comp, spec_seed])

/-- The addresses that are written by hand. -/
theorem specs_distinct : ∀ q ∈ (new 0).vms, ∀ q' ∈ (new 0).vms, q.1 ≠ q'.1 →
    ∀ t ∈ specs[q.2]?, ∀ t' ∈ specs[q'.2]?, t.mac ≠ t'.mac ∧ t.ip ≠ t'.ip := by decide

theorem specs_valid : ∀ q ∈ (new 0).vms, ∀ t ∈ specs[q.2]?,
    (parseIPv4Fields [] 0 0 t.ip.toList).isSome = true := by decide

theorem unique_new (now : ℤ) : (new now).Unique := by
  refine ⟨fun q hq q' hq' hne a a' ha ha' => ?_, fun q hq a ha => ?_⟩
  · rw [addresses_new] at ha ha'
    obtain ⟨t, ht, rfl⟩ := Option.map_eq_some_iff.mp ha
    obtain ⟨t', ht', rfl⟩ := Option.map_eq_some_iff.mp ha'
    exact specs_distinct q hq q' hq' hne t ht t' ht'
  · rw [addresses_new] at ha
    obtain ⟨t, ht, rfl⟩ := Option.map_eq_some_iff.mp ha
    exact specs_valid q hq t ht

theorem registered_start : ∀ q ∈ (new 0).vms, q.2 < 4 := by decide

theorem once_start : ∀ q ∈ (new 0).vms, ∀ q' ∈ (new 0).vms, q.2 = q'.2 → q.1 = q'.1 := by
  decide

theorem counted_start (now : ℤ) : (start now).Counted where
  length := rfl
  fleet := le_rfl
  registered := registered_start
  once := once_start
  addresses := by
    intro r n hn
    rw [start, addresses_new]
    have hr : r < 4 := (List.getElem?_eq_some_iff.mp hn).1
    obtain rfl | rfl | rfl | rfl : r = 0 ∨ r = 1 ∨ r = 2 ∨ r = 3 := by omega
    all_goals
      obtain rfl := Option.some.inj hn
      decide

variable {s s' : Census} {e : Event}

/-- The number of a machine that is there, and its addresses. -/
theorem Counted.number (h : s.Counted) {q : String × ℕ} (hq : q ∈ s.provider.vms) :
    ∃ m, s.numbers[q.2]? = some m ∧
      s.provider.addresses q.2 = some (macOf m, hostIP (host q.2 m)) := by
  have hlt : q.2 < s.numbers.length := h.length ▸ h.registered q hq
  exact ⟨s.numbers[q.2], List.getElem?_eq_getElem hlt,
    h.addresses q.2 _ (List.getElem?_eq_getElem hlt)⟩

theorem counted_step (h : s.Counted) (hstep : s.step e = some s') : s'.Counted := by
  obtain ⟨p, hp, rfl⟩ := Option.map_eq_some_iff.mp hstep
  rcases addresses_step hp with ⟨hborn, hgrown⟩ | ⟨hborn, hsettled⟩
  · obtain ⟨id, _, hvms⟩ := hgrown.fresh
    have hlen := h.length
    have hold := h.registered
    refine ⟨?_, ?_, fun q hq => ?_, fun q hq q' hq' heq => ?_, fun r n hn => ?_⟩
    · rw [hborn, List.length_append, List.length_singleton, hgrown.length, hlen]
    · rw [List.length_append]
      exact Nat.le_add_right_of_le h.fleet
    · rw [hgrown.length]
      rw [hvms] at hq
      rcases List.mem_append.mp hq with hq | hq
      · exact Nat.lt_succ_of_lt (hold q hq)
      · rw [List.mem_singleton.mp hq]
        exact Nat.lt_succ_self _
    · rw [hvms] at hq hq'
      rcases List.mem_append.mp hq with hq | hq <;> rcases List.mem_append.mp hq' with hq' | hq'
      · exact h.once q hq q' hq' heq
      · rw [List.mem_singleton.mp hq'] at heq
        exact absurd (hold q hq) (by omega)
      · rw [List.mem_singleton.mp hq] at heq
        exact absurd (hold q' hq') (by omega)
      · rw [List.mem_singleton.mp hq, List.mem_singleton.mp hq']
    · rw [hborn] at hn
      by_cases hr : r < s.numbers.length
      · rw [List.getElem?_append_left hr] at hn
        rw [hgrown.old r (hlen ▸ hr)]
        exact h.addresses r n hn
      · have hlt := (List.getElem?_eq_some_iff.mp hn).1
        rw [List.length_append, List.length_singleton] at hlt
        obtain rfl : r = s.numbers.length := by omega
        rw [List.getElem?_concat_length] at hn
        obtain rfl := Option.some.inj hn
        rw [hlen, hgrown.new, host, if_neg (by have := h.fleet; omega)]
  · rw [hborn, List.append_nil]
    exact ⟨h.length.trans hsettled.length.symm, h.fleet,
      fun q hq => hsettled.length.symm ▸ h.registered q (hsettled.vms hq),
      fun q hq q' hq' => h.once q (hsettled.vms hq) q' (hsettled.vms hq'),
      fun r n hn => (hsettled.addresses r).trans (h.addresses r n hn)⟩

/-- The provider does not depend on the numbers. -/
theorem run_provider (s : Census) (es : List Event) :
    Machine.run Fleet.step s.provider es = (Machine.run step s es).map provider := by
  induction es generalizing s with
  | nil => rfl
  | cons e es ih =>
    rw [run_cons, run_cons, step]
    cases Fleet.step s.provider e with
    | none => rfl
    | some p => exact ih ⟨p, s.numbers ++ born s.provider e⟩

/-- The size of a fleet is not the number of one of the hosts written by hand. -/
theorem host_ne {r m n : ℕ} (hn : 0 < n) (hm : m ≠ n) : host r m ≠ 20 + n := by
  rw [host]
  split <;> omega

/-- The addresses of a machine with another number than a new one. -/
theorem Counted.addresses_ne (h : s.Counted) {n : ℕ} (hn : 0 < n) {q : String × ℕ}
    (hq : q ∈ s.provider.vms) (hfree : s.numbers[q.2]? ≠ some n) {a : String × String}
    (ha : s.provider.addresses q.2 = some a) : a.1 ≠ macOf n ∧ a.2 ≠ hostIP (20 + n) := by
  obtain ⟨m, hm, haddr⟩ := h.number hq
  obtain rfl := Option.some.inj (ha.symm.trans haddr)
  have hmn : m ≠ n := by
    rintro rfl
    exact hfree hm
  exact ⟨fun heq => hmn (macOf_injective heq), fun heq => host_ne hn hmn (hostIP_injective heq)⟩

/-- A machine with a number that fits. -/
theorem Counted.unique_grown (h : s.Counted) (hu : s.provider.Unique) {p : Provider}
    (hgrown : Grown s.provider p) (hle : s.provider.vms.length + 1 ≤ 235)
    (hfree : ∀ q ∈ s.provider.vms, s.numbers[q.2]? ≠ some (s.provider.vms.length + 1)) :
    p.Unique := by
  obtain ⟨id, _, hvms⟩ := hgrown.fresh
  have hnew := hgrown.new
  have hold {q : String × ℕ} (hq : q ∈ s.provider.vms) {a : String × String}
      (ha : p.addresses q.2 = some a) : s.provider.addresses q.2 = some a :=
    (hgrown.old q.2 (h.registered q hq)).symm.trans ha
  have hne {q : String × ℕ} (hq : q ∈ s.provider.vms) {a : String × String}
      (ha : p.addresses q.2 = some a) :=
    h.addresses_ne (Nat.succ_pos _) hq (hfree q hq) (hold hq ha)
  refine ⟨fun q hq q' hq' hqq a a' ha ha' => ?_, fun q hq a ha => ?_⟩
  · rw [hvms] at hq hq'
    rcases List.mem_append.mp hq with hq | hq <;> rcases List.mem_append.mp hq' with hq' | hq'
    · exact hu.apart q hq q' hq' hqq a a' (hold hq ha) (hold hq' ha')
    · rw [List.mem_singleton.mp hq', hnew] at ha'
      cases ha'
      exact hne hq ha
    · rw [List.mem_singleton.mp hq, hnew] at ha
      cases ha
      exact (hne hq' ha').imp Ne.symm Ne.symm
    · rw [List.mem_singleton.mp hq, List.mem_singleton.mp hq'] at hqq
      exact absurd rfl hqq
  · rw [hvms] at hq
    rcases List.mem_append.mp hq with hq | hq
    · exact hu.valid q hq a (hold hq ha)
    · rw [List.mem_singleton.mp hq, hnew] at ha
      cases ha
      exact (isSome_parse_host _).mpr (by omega)

/-- A machine with a number that does not fit. -/
theorem Counted.not_unique_grown (h : s.Counted) {p : Provider} (hgrown : Grown s.provider p)
    (hu : p.Unique) : s.provider.vms.length + 1 ≤ 235 ∧
      ∀ q ∈ s.provider.vms, s.numbers[q.2]? ≠ some (s.provider.vms.length + 1) := by
  obtain ⟨id, hfresh, hvms⟩ := hgrown.fresh
  have hmem : (id, s.provider.heap.length) ∈ p.vms := by
    rw [hvms]
    exact List.mem_append_right _ (List.mem_singleton_self _)
  constructor
  · have hvalid := hu.valid _ hmem _ hgrown.new
    have hle := (isSome_parse_host _).mp hvalid
    omega
  · intro q hq hnumber
    have hname : q.1 ≠ id := by
      rintro rfl
      exact absurd (List.lookup_eq_none_iff.mp hfresh q hq) (by simp)
    have haddr := (hgrown.old q.2 (h.registered q hq)).trans (h.addresses q.2 _ hnumber)
    have hmem' : q ∈ p.vms := by
      rw [hvms]
      exact List.mem_append_left _ hq
    exact (hu.apart q hmem' _ hmem hname _ _ haddr hgrown.new).1 rfl

/-- **One step** keeps the addresses distinct and valid exactly when the number of a new machine
fits. -/
theorem unique_step (h : s.Counted) (hu : s.provider.Unique) :
    (∀ s', s.step e = some s' → s'.provider.Unique) ↔ s.Fits e := by
  cases hp : Fleet.step s.provider e with
  | none =>
    have hborn : born s.provider e = [] := by
      cases e with
      | wake i => rfl
      | call c => cases hp
    refine iff_of_true (fun s' hstep => ?_) fun n hn => ?_
    · rw [step, hp] at hstep
      cases hstep
    · rw [hborn] at hn
      cases hn
  | some p =>
    have hstep : s.step e = some ⟨p, s.numbers ++ born s.provider e⟩ := by rw [step, hp]; rfl
    have hall : (∀ s', s.step e = some s' → s'.provider.Unique) ↔ p.Unique := by
      rw [hstep]
      exact ⟨fun hs => hs _ rfl, fun hs s' hs' => by cases hs'; exact hs⟩
    rw [hall, Fits]
    rcases addresses_step hp with ⟨hborn, hgrown⟩ | ⟨hborn, hsettled⟩
    · rw [hborn]
      constructor
      · intro hp n hn
        rw [List.mem_singleton.mp hn]
        exact h.not_unique_grown hgrown hp
      · intro hfits
        obtain ⟨hle, hfree⟩ := hfits _ (List.mem_singleton_self _)
        exact h.unique_grown hu hgrown hle hfree
    · rw [hborn]
      exact iff_of_true (hsettled.unique hu) nofun

/-- **Addresses**: in every state of a run the addresses of the machines are distinct and valid
exactly when the number of each machine, when it is created, is not above 235 and not that of a
machine that is there. -/
theorem unique_iff (now : ℤ) (es : List Event) :
    (∀ pre p, pre <+: es → Machine.run Fleet.step (new now) pre = some p → p.Unique) ↔
      Along step Fits (start now) es := by
  have hstep (s : Census) (e : Event) (s' : Census) (hI : s.Counted ∧ s.provider.Unique)
      (hfits : s.Fits e) (hs : s.step e = some s') : s'.Counted ∧ s'.provider.Unique :=
    ⟨counted_step hI.1 hs, (unique_step hI.1 hI.2).mpr hfits s' hs⟩
  have hstart : (start now).Counted ∧ (start now).provider.Unique :=
    ⟨counted_start now, unique_new now⟩
  rw [along_iff_of_inv (fun s e hI => (unique_step hI.1 hI.2).symm) hstep hstart]
  constructor
  · intro h
    refine along_of_prefixes fun pre e post s hes hr s' hs => ?_
    refine h (pre ++ [e]) s'.provider ⟨post, by rw [hes, List.append_assoc]; rfl⟩ ?_
    have hrun : Machine.run step (start now) (pre ++ [e]) = some s' := by
      rw [run_append, hr, Option.bind_some, run_cons, hs]
      rfl
    exact (run_provider (start now) (pre ++ [e])).trans (congrArg (Option.map provider) hrun)
  · rintro h pre p ⟨post, rfl⟩ hr
    obtain ⟨s, hs, rfl⟩ := Option.map_eq_some_iff.mp ((run_provider (start now) pre).symm.trans hr)
    exact run_inv (I := fun s => s.provider.Unique)
      (G := fun s e => ∀ s', s.step e = some s' → s'.provider.Unique)
      (fun _ _ s' _ hQ hs => hQ s' hs) hstart.2 h.left hs

end Census

/-! ### A machine that is deleted -/

/-- A request for a machine of this name, which is not started. -/
def small (name : String) : VirtualMachineCreate where
  disk := ⟨none, "default", 10737418240⟩
  isoId := none
  memoryBytes := 1073741824
  name := name
  networkId := none
  nicModel := none
  osType := none
  start := none
  vcpus := 1
  virtioDriversIsoId := none

/-- The first of two machines is deleted before a third one is created. -/
def createAgain : List Event :=
  [.call (.create 0 (small "a")), .call (.create 0 (small "b")), .call (.delete "a" true),
    .call (.create 0 (small "c"))]

/-- Two machines have the addresses for a fleet of six. -/
theorem not_unique : ∃ p, Machine.run step (new 0) createAgain = some p ∧ ¬ p.Unique := by
  refine ⟨_, rfl, fun h => ?_⟩
  have hapart := h.apart ("b", 5) (by decide) ("c", 6) (by decide) (by decide) _ _ rfl rfl
  exact hapart.1 rfl

end Ultrav.Fleet
