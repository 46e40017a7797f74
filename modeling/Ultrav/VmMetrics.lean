import Mathlib.Algebra.Ring.Int.Defs
import Mathlib.Algebra.Ring.Nat
import Mathlib.Data.List.AList
import Mathlib.Data.List.Forall2
import Ultrav.Machine

/-!
# Utilization of running domains

libvirt has counters that only grow. From two readings of them the provider makes rates; of a
reading it keeps only the sum over the interfaces that answered.

* `sampleMetrics` / `forgetSamples` — the functions of the provider.
* `Monitor.step` — polls of domains one after the other, with what their interfaces had really
  counted.
* `RatesSound` — a rate that is reported is not above the real traffic.
* `ratesSound_iff` — the runs in which every rate is.
-/

namespace Ultrav

namespace Metrics

/-! ## The provider -/

/-- `int64` arithmetic. -/
def int64 (x : ℤ) : ℤ := x.bmod (2 ^ 64)

/-- What is counted. -/
inductive Direction where
  | rx
  | tx
  deriving DecidableEq, Repr

/-- An interface of the domain at the time of a poll. -/
structure Interface where
  /-- `Target.Dev` -/
  dev : String
  /-- The bytes so far. -/
  rx : ℤ
  tx : ℤ
  /-- Whether `InterfaceStats` answers. -/
  answers : Bool
  deriving DecidableEq, Repr

def Interface.bytes (n : Interface) : Direction → ℤ
  | .rx => n.rx
  | .tx => n.tx

/-- `dom.InterfaceStats` -/
def Interface.interfaceStats (n : Interface) : Option (ℤ × ℤ) :=
  if n.answers then some (n.rx, n.tx) else none

/-- `libvirt.DomainMemoryStatTags`, as far as they are read. -/
inductive MemoryStatTag where
  | available
  | unused
  | rss
  | other
  deriving DecidableEq, Repr

structure MemoryStat where
  tag : MemoryStatTag
  val : ℕ
  deriving DecidableEq, Repr

/-- What `dom.GetInfo` answers. -/
structure DomainInfo where
  cpuTime : ℕ
  nrVirtCpu : ℕ
  deriving DecidableEq, Repr

/-- What a poll of a domain finds, with times in nanoseconds. -/
structure Poll where
  now : ℤ
  info : Option DomainInfo
  nics : List Interface
  memoryStats : Option (List MemoryStat)
  memTotal : ℤ
  deriving DecidableEq, Repr

/-- `vmSample` -/
structure VmSample where
  time : ℤ
  cpuTime : ℕ
  rx : ℤ
  tx : ℤ
  deriving DecidableEq, Repr

def VmSample.bytes (s : VmSample) : Direction → ℤ
  | .rx => s.rx
  | .tx => s.tx

/-- `types.VmMetrics` -/
structure VmMetrics where
  sampledAt : ℤ
  cpuPercent : Option Rat
  memoryUsedBytes : Option ℤ
  networkRxBytesPerSecond : Option ℤ
  networkTxBytesPerSecond : Option ℤ
  deriving DecidableEq, Repr

def VmMetrics.rate (m : VmMetrics) : Direction → Option ℤ
  | .rx => m.networkRxBytesPerSecond
  | .tx => m.networkTxBytesPerSecond

abbrev Samples : Type := AList fun _ : String => VmSample

/-- One interface of the loop in `sampleMetrics`. -/
def VmSample.add (s : VmSample) (n : Interface) : VmSample :=
  if n.dev = "" then s
  else
    match n.interfaceStats with
    | none => s
    | some (rx, tx) => { s with rx := int64 (s.rx + rx), tx := int64 (s.tx + tx) }

/-- The current reading. -/
def Poll.sample (p : Poll) (info : DomainInfo) : VmSample :=
  p.nics.foldl .add { time := p.now, cpuTime := info.cpuTime, rx := 0, tx := 0 }

/-- `swapSample` -/
def swapSample (samples : Samples) (name : String) (cur : VmSample) : Option VmSample × Samples :=
  (samples.lookup name, samples.insert name cur)

/-- The last statistic with a tag, in bytes. -/
def statBytes (stats : List MemoryStat) (tag : MemoryStatTag) : Option ℤ :=
  ((stats.filter (·.tag = tag)).getLast?).map fun s => int64 (int64 s.val * 1024)

/-- `memoryUsedBytes` -/
def memoryUsedBytes (stats : Option (List MemoryStat)) (memTotal : ℤ) : Option ℤ :=
  match stats with
  | none => none
  | some stats =>
    let rss :=
      match statBytes stats .rss with
      | some rss => if rss > 0 then some rss else none
      | none => none
    match statBytes stats .unused with
    | none => rss
    | some unused =>
      let total :=
        match statBytes stats .available with
        | some available => if available > 0 then available else memTotal
        | none => memTotal
      if total > 0 then
        let used := int64 (total - unused)
        some (if used < 0 then 0 else used)
      else rss

/-- `clampPercent` -/
def clampPercent (v : Rat) : Rat := if v.blt 0 then 0 else if Rat.blt 100 v then 100 else v

/-- `ratePerSecond`: the time between the readings is in nanoseconds, and the quotient is cut. -/
def ratePerSecond (cur prev elapsed : ℤ) : ℤ :=
  let delta := int64 (cur - prev)
  if delta < 0 then 0 else delta * 10 ^ 9 / elapsed

/-- `sampleMetrics` -/
def sampleMetrics (samples : Samples) (name : String) (p : Poll) : Option VmMetrics × Samples :=
  match p.info with
  | none => (none, samples)
  | some info =>
    let cur := p.sample info
    let (prev, samples) := swapSample samples name cur
    let m : VmMetrics :=
      { sampledAt := p.now
        cpuPercent := none
        memoryUsedBytes := memoryUsedBytes p.memoryStats p.memTotal
        networkRxBytesPerSecond := none
        networkTxBytesPerSecond := none }
    match prev with
    | none => (some m, samples)
    | some prev =>
      let elapsed := p.now - prev.time
      if elapsed ≤ 0 then (some m, samples)
      else
        let pct :=
          if info.nrVirtCpu > 0 ∧ cur.cpuTime ≥ prev.cpuTime then
            some (clampPercent (mkRat ((cur.cpuTime - prev.cpuTime) * 100)
              (elapsed.toNat * info.nrVirtCpu)))
          else none
        (some { m with
          cpuPercent := pct
          networkRxBytesPerSecond := some (ratePerSecond cur.rx prev.rx elapsed)
          networkTxBytesPerSecond := some (ratePerSecond cur.tx prev.tx elapsed) }, samples)

/-- `forgetSamples` -/
def forgetSamples (samples : Samples) (running : List String) : Samples :=
  samples.keys.foldl (fun samples name => if name ∈ running then samples else samples.erase name)
    samples

/-! ## Polls one after the other -/

/-- The samples of the provider, and the poll that each was taken in. -/
structure Monitor where
  samples : Samples
  last : String → Option Poll

inductive Event where
  | poll (name : String) (p : Poll)
  | forget (running : List String)

def Monitor.step (m : Monitor) : Event → Option Monitor
  | .poll name p => some
      { samples := (sampleMetrics m.samples name p).2
        last := if p.info.isSome then Function.update m.last name (some p) else m.last }
  | .forget running => some
      { samples := forgetSamples m.samples running
        last := fun name => if name ∈ running then m.last name else none }

/-- Nothing has been polled. -/
def Monitor.idle : Monitor := ⟨∅, fun _ => none⟩

/-! ## What is expected -/

/-- What the interfaces have received or sent together between two polls. -/
def traffic (d : Direction) : List Interface → List Interface → ℤ
  | q :: qs, p :: ps => p.bytes d - q.bytes d + traffic d qs ps
  | _, _ => 0

/-- The same interfaces at a later time. -/
structure Later (q p : Poll) : Prop where
  time : q.now < p.now
  counters : List.Forall₂ (fun a b : Interface => ∀ d, a.bytes d ≤ b.bytes d) q.nics p.nics

/-- Time goes on, and counters do not decrease. -/
def Steady (m : Monitor) : Event → Prop
  | .poll name p => ∀ q, m.last name = some q → Later q p
  | .forget _ => True

/-- A rate that is reported, times the time since the sample before, is between nothing and the
real traffic since then. -/
def RatesSound (m : Monitor) : Event → Prop
  | .poll name p => ∀ metrics, (sampleMetrics m.samples name p).1 = some metrics →
      ∀ d r, metrics.rate d = some r → ∃ q, m.last name = some q ∧
        0 ≤ r * (p.now - q.now) ∧ r * (p.now - q.now) ≤ traffic d q.nics p.nics * 10 ^ 9
  | .forget _ => True

/-- The interface is counted. -/
def Interface.heard (n : Interface) : Bool := n.dev ≠ "" && n.answers

/-- What is counted beyond the real traffic: all that an interface which answers again had counted
before, less what those that do not answer have. -/
def misread (d : Direction) : List Interface → List Interface → ℤ
  | q :: qs, p :: ps =>
    (match q.heard, p.heard with
      | true, true => 0
      | false, true => q.bytes d
      | true, false => -p.bytes d
      | false, false => q.bytes d - p.bytes d) + misread d qs ps
  | _, _ => 0

/-- What it takes: what seems to have been counted is not enough for another byte per second. -/
def RateHolds (d : Direction) (q p : Poll) : Prop :=
  int64 (traffic d q.nics p.nics + misread d q.nics p.nics) * 10 ^ 9 <
    (traffic d q.nics p.nics * 10 ^ 9 / (p.now - q.now) + 1) * (p.now - q.now)

instance (d : Direction) (q p : Poll) : Decidable (RateHolds d q p) := Int.decLt _ _

def RatesHold (m : Monitor) : Event → Prop
  | .poll name p => ∀ q, m.last name = some q → p.info.isSome → ∀ d, RateHolds d q p
  | .forget _ => True

/-! ## A reading -/

/-- The bytes of the interfaces that are counted. -/
def heardBytes (d : Direction) : List Interface → ℤ
  | [] => 0
  | n :: ns => (if n.heard then n.bytes d else 0) + heardBytes d ns

theorem VmSample.bytes_add (s : VmSample) (n : Interface) (d : Direction) :
    (s.add n).bytes d = if n.heard then int64 (s.bytes d + n.bytes d) else s.bytes d := by
  rw [add, Interface.heard, Interface.interfaceStats]
  by_cases hdev : n.dev = ""
  · simp [hdev]
  · cases hanswers : n.answers with
    | false => simp [hdev]
    | true => cases d <;> simp [hdev, bytes, Interface.bytes]

theorem VmSample.time_add (s : VmSample) (n : Interface) : (s.add n).time = s.time := by
  rw [add]
  split
  · rfl
  · split <;> rfl

theorem int64_add (x y : ℤ) : int64 (int64 x + y) = int64 (x + y) := Int.bmod_add_bmod ..

theorem int64_sub (x y : ℤ) : int64 (int64 x - int64 y) = int64 (x - y) := by
  rw [int64, int64, int64, Int.sub_bmod_bmod, Int.bmod_sub_bmod, int64]

theorem bytes_foldl_add {d : Direction} {ns : List Interface} {s : VmSample} {x : ℤ}
    (hs : s.bytes d = int64 x) :
    (ns.foldl VmSample.add s).bytes d = int64 (x + heardBytes d ns) := by
  induction ns generalizing s x with
  | nil => rw [heardBytes, Int.add_zero, ← hs, List.foldl_nil]
  | cons n ns ih =>
    rw [List.foldl_cons, heardBytes]
    cases hn : n.heard with
    | false =>
      rw [ih (x := x) (by rw [VmSample.bytes_add, hn]; exact hs)]
      simp
    | true =>
      rw [ih (x := x + n.bytes d) (by rw [VmSample.bytes_add, hn, if_pos rfl, hs, int64_add])]
      simp [Int.add_assoc]

/-- **A reading** is the sum over the interfaces that are counted. -/
theorem bytes_sample (p : Poll) (info : DomainInfo) (d : Direction) :
    (p.sample info).bytes d = int64 (heardBytes d p.nics) := by
  rw [Poll.sample, bytes_foldl_add (x := 0) (by cases d <;> rfl), Int.zero_add]

theorem time_sample (p : Poll) (info : DomainInfo) : (p.sample info).time = p.now := by
  have htime : ∀ (ns : List Interface) (s : VmSample), (ns.foldl .add s).time = s.time := by
    intro ns
    induction ns with
    | nil => exact fun s => rfl
    | cons n ns ih => exact fun s => (ih (s.add n)).trans (s.time_add n)
  exact htime ..

/-- **What is counted between two readings** is the traffic and what is misread. -/
theorem heardBytes_sub {d : Direction} {qs ps : List Interface}
    (h : List.Forall₂ (fun a b : Interface => ∀ d, a.bytes d ≤ b.bytes d) qs ps) :
    heardBytes d ps - heardBytes d qs = traffic d qs ps + misread d qs ps := by
  induction h with
  | nil => rfl
  | @cons q p qs ps _ _ ih =>
    rw [heardBytes, heardBytes, traffic, misread]
    cases q.heard <;> cases p.heard <;> simp only [Bool.false_eq_true, if_true, if_false] <;> omega

theorem traffic_nonneg {d : Direction} {qs ps : List Interface}
    (h : List.Forall₂ (fun a b : Interface => ∀ d, a.bytes d ≤ b.bytes d) qs ps) :
    0 ≤ traffic d qs ps := by
  induction h with
  | nil => exact Int.le_refl 0
  | cons hle _ ih =>
    rw [traffic]
    have hd := hle d
    omega

/-! ## A rate -/

/-- **One rate** is sound when the difference does not reach the next byte per second. -/
theorem ratePerSecond_sound_iff {cur prev elapsed real : ℤ} (helapsed : 0 < elapsed)
    (hreal : 0 ≤ real) :
    0 ≤ ratePerSecond cur prev elapsed * elapsed ∧
        ratePerSecond cur prev elapsed * elapsed ≤ real * 10 ^ 9 ↔
      int64 (cur - prev) * 10 ^ 9 < (real * 10 ^ 9 / elapsed + 1) * elapsed := by
  have hquot : 0 ≤ real * 10 ^ 9 / elapsed :=
    Int.ediv_nonneg (Int.mul_nonneg hreal (by decide)) (Int.le_of_lt helapsed)
  have hnext : 0 < (real * 10 ^ 9 / elapsed + 1) * elapsed :=
    Int.mul_pos (Int.lt_add_one_of_le hquot) helapsed
  rw [ratePerSecond]
  generalize int64 (cur - prev) = delta
  split
  · refine iff_of_true ?_ ?_
    · rw [Int.zero_mul]
      exact ⟨Int.le_refl 0, Int.mul_nonneg hreal (by decide)⟩
    · omega
  · have hrate : 0 ≤ delta * 10 ^ 9 / elapsed := Int.ediv_nonneg (by omega) (Int.le_of_lt helapsed)
    rw [and_iff_right (Int.mul_nonneg hrate (Int.le_of_lt helapsed)),
      ← Int.le_ediv_iff_mul_le helapsed, ← Int.ediv_lt_iff_lt_mul helapsed, Int.lt_add_one_iff]

/-- **What is reported** are the rates between the current reading and the one before. -/
theorem rate_sampleMetrics {samples : Samples} {name : String} {p : Poll} {d : Direction} {r : ℤ} :
    (∃ metrics, (sampleMetrics samples name p).1 = some metrics ∧ metrics.rate d = some r) ↔
      ∃ info prev, p.info = some info ∧ samples.lookup name = some prev ∧ prev.time < p.now ∧
        ratePerSecond ((p.sample info).bytes d) (prev.bytes d) (p.now - prev.time) = r := by
  rw [sampleMetrics]
  cases p.info with
  | none => simp
  | some info =>
    simp only [swapSample]
    cases samples.lookup name with
    | none => cases d <;> simp [VmMetrics.rate]
    | some prev =>
      by_cases htime : p.now - prev.time ≤ 0
      · have hnot : ¬ prev.time < p.now := by omega
        cases d <;> simp [VmMetrics.rate, htime, hnot]
      · have hlt : prev.time < p.now := by omega
        cases d <;> simp [VmMetrics.rate, htime, hlt, VmSample.bytes]

theorem samples_sampleMetrics (samples : Samples) (name : String) (p : Poll) :
    (sampleMetrics samples name p).2 =
      match p.info with
      | none => samples
      | some info => samples.insert name (p.sample info) := by
  rw [sampleMetrics]
  cases p.info with
  | none => rfl
  | some info =>
    simp only [swapSample]
    split
    · rfl
    · split <;> rfl

theorem lookup_forgetSamples (samples : Samples) (running : List String) (name : String) :
    (forgetSamples samples running).lookup name =
      if name ∈ running then samples.lookup name else none := by
  have hfold : ∀ (names : List String) (samples : Samples),
      (names.foldl (fun samples n => if n ∈ running then samples else samples.erase n)
        samples).lookup name =
        if name ∈ names ∧ name ∉ running then none else samples.lookup name := by
    intro names
    induction names with
    | nil => simp
    | cons n names ih =>
      intro samples
      rw [List.foldl_cons, ih]
      by_cases hn : n ∈ running
      · have hne : name ∉ running → name ≠ n := fun h heq => h (heq ▸ hn)
        rw [if_pos hn]
        refine if_congr (and_congr_left fun h => ?_) rfl rfl
        simp [hne h]
      · rw [if_neg hn]
        by_cases hname : name = n
        · subst hname
          simp [hn]
        · simp [hname]
  rw [forgetSamples, hfold]
  by_cases hname : name ∈ running
  · simp [hname]
  · cases hlookup : samples.lookup name with
    | none => simp
    | some s =>
      have hmem : name ∈ samples.keys := AList.lookup_isSome.mp (by rw [hlookup]; rfl)
      simp [hname, hmem]

theorem rate_holds_iff {q p : Poll} {d : Direction} (h : Later q p) (qinfo info : DomainInfo) :
    0 ≤ ratePerSecond ((p.sample info).bytes d) ((q.sample qinfo).bytes d) (p.now - q.now) *
          (p.now - q.now) ∧
        ratePerSecond ((p.sample info).bytes d) ((q.sample qinfo).bytes d) (p.now - q.now) *
          (p.now - q.now) ≤ traffic d q.nics p.nics * 10 ^ 9 ↔
      RateHolds d q p := by
  rw [ratePerSecond_sound_iff (Int.sub_pos_of_lt h.time) (traffic_nonneg h.counters),
    bytes_sample, bytes_sample, int64_sub, heardBytes_sub h.counters, RateHolds]

theorem misread_of_same {d : Direction} {qs ps : List Interface}
    (h : List.Forall₂ (fun a b : Interface => ∀ d, a.bytes d ≤ b.bytes d) qs ps)
    (hsame : List.Forall₂ (fun a b : Interface => a.heard = b.heard) qs ps) :
    misread d qs ps ≤ 0 ∧ 0 ≤ traffic d qs ps + misread d qs ps := by
  induction h with
  | nil => exact ⟨Int.le_refl 0, Int.le_refl 0⟩
  | @cons q p qs ps hle _ ih =>
    obtain ⟨hheard, hrest⟩ := List.forall₂_cons.mp hsame
    obtain ⟨hmisread, hcounted⟩ := ih hrest
    have hd := hle d
    rw [traffic, misread, hheard]
    cases p.heard with
    | true => dsimp only; constructor <;> omega
    | false => dsimp only; constructor <;> omega

/-- **When the same interfaces answer** nothing is misread. -/
theorem rateHolds_of_same {q p : Poll} {d : Direction} (h : Later q p)
    (hsame : List.Forall₂ (fun a b : Interface => a.heard = b.heard) q.nics p.nics)
    (hfit : traffic d q.nics p.nics < 2 ^ 63) : RateHolds d q p := by
  obtain ⟨hmisread, hcounted⟩ := misread_of_same (d := d) h.counters hsame
  have hwrap : int64 (traffic d q.nics p.nics + misread d q.nics p.nics) =
      traffic d q.nics p.nics + misread d q.nics p.nics :=
    Int.bmod_eq_of_le (by omega) (by omega)
  have hnext := Int.lt_ediv_add_one_mul_self (traffic d q.nics p.nics * 10 ^ 9)
    (Int.sub_pos_of_lt h.time)
  rw [RateHolds, hwrap]
  refine Int.lt_of_le_of_lt (Int.mul_le_mul_of_nonneg_right ?_ (by decide)) hnext
  omega

/-! ## Polls -/

/-- The samples are those of the last polls. -/
structure Kept (m : Monitor) : Prop where
  sampled : ∀ name, m.samples.lookup name = (m.last name).bind fun q => q.info.map q.sample
  answered : ∀ name q, m.last name = some q → q.info.isSome = true

theorem Kept.idle : Kept .idle where
  sampled _ := rfl
  answered _ _ h := by cases h

/-- **One step** keeps them so. -/
theorem Kept.step {m m' : Monitor} {e : Event} (h : Kept m) (hs : m.step e = some m') :
    Kept m' := by
  cases e with
  | poll name p =>
    obtain rfl := Option.some.inj hs
    cases hinfo : p.info with
    | none =>
      constructor
      · simp [samples_sampleMetrics, hinfo, h.sampled]
      · simpa [hinfo] using h.answered
    | some info =>
      constructor
      · intro name'
        by_cases hname : name' = name
        · subst hname
          simp [samples_sampleMetrics, hinfo]
        · simp [samples_sampleMetrics, hinfo, hname, h.sampled]
      · intro name' q hq
        by_cases hname : name' = name
        · subst hname
          obtain rfl : p = q := by simpa [hinfo] using hq
          rw [hinfo]
          rfl
        · refine h.answered name' q ?_
          simpa [hinfo, hname] using hq
  | forget running =>
    obtain rfl := Option.some.inj hs
    constructor
    · intro name
      rw [lookup_forgetSamples]
      by_cases hname : name ∈ running <;> simp [hname, h.sampled]
    · intro name q hq
      by_cases hname : name ∈ running
      · exact h.answered name q (by simpa [hname] using hq)
      · simp [hname] at hq

/-- **One poll**: its rates are sound exactly when they hold. -/
theorem Kept.sound_iff_hold {m : Monitor} {e : Event} (h : Kept m) (hsteady : Steady m e) :
    RatesSound m e ↔ RatesHold m e := by
  cases e with
  | forget running => exact Iff.rfl
  | poll name p =>
    constructor
    · intro hsound q hlast hinfo d
      have hlater := hsteady q hlast
      obtain ⟨info, hinfo⟩ := Option.isSome_iff_exists.mp hinfo
      obtain ⟨qinfo, hqinfo⟩ := Option.isSome_iff_exists.mp (h.answered name q hlast)
      have hlookup : m.samples.lookup name = some (q.sample qinfo) := by
        rw [h.sampled, hlast, Option.bind_some, hqinfo, Option.map_some]
      have htime : (q.sample qinfo).time < p.now := time_sample q qinfo ▸ hlater.time
      obtain ⟨metrics, hmetrics, hrate⟩ := rate_sampleMetrics (d := d).mpr
        ⟨info, q.sample qinfo, hinfo, hlookup, htime, rfl⟩
      obtain ⟨q', hq', hbounds⟩ := hsound metrics hmetrics d _ hrate
      obtain rfl : q = q' := Option.some.inj (hlast.symm.trans hq')
      rw [time_sample] at hbounds
      exact (rate_holds_iff hlater qinfo info).mp hbounds
    · intro hhold metrics hmetrics d r hr
      obtain ⟨info, prev, hinfo, hlookup, -, rfl⟩ := rate_sampleMetrics.mp ⟨metrics, hmetrics, hr⟩
      rw [h.sampled] at hlookup
      obtain ⟨q, hlast, hq⟩ := Option.bind_eq_some_iff.mp hlookup
      obtain ⟨qinfo, -, rfl⟩ := Option.map_eq_some_iff.mp hq
      have hholds := hhold q hlast (by rw [hinfo]; rfl) d
      refine ⟨q, hlast, ?_⟩
      rw [time_sample]
      exact (rate_holds_iff (hsteady q hlast) qinfo info).mpr hholds

/-- **Rates that are reported** are not above the real traffic in exactly the runs in which what
is misread is never enough for another byte per second. -/
theorem ratesSound_iff {es : List Event} (hsteady : Machine.Along Monitor.step Steady .idle es) :
    Machine.Along Monitor.step RatesSound .idle es ↔
      Machine.Along Monitor.step RatesHold .idle es := by
  constructor
  · intro h
    exact Machine.along_of_inv (I := Kept) (fun _ _ _ hm _ hs => hm.step hs)
      (fun _ _ hm he => (hm.sound_iff_hold he.1).mp he.2) .idle (hsteady.and h)
  · intro h
    exact Machine.along_of_inv (I := Kept) (fun _ _ _ hm _ hs => hm.step hs)
      (fun _ _ hm he => (hm.sound_iff_hold he.1).mpr he.2) .idle (hsteady.and h)

/-- A poll of a domain with one interface. -/
def pollOne (now rx : ℤ) (answers : Bool) : Poll where
  now := now
  info := some ⟨0, 1⟩
  nics := [⟨"vnet0", rx, 0, answers⟩]
  memoryStats := none
  memTotal := 0

theorem steady_pollOne {now now' rx rx' : ℤ} {answers answers' : Bool} (htime : now < now')
    (hrx : rx ≤ rx') : Machine.Along Monitor.step Steady .idle
      [.poll "vm" (pollOne now rx answers), .poll "vm" (pollOne now' rx' answers')] := by
  refine ⟨fun q hq => (by cases hq), fun m hm => ⟨fun q hq => ?_, fun m hm => trivial⟩⟩
  obtain rfl := Option.some.inj hm
  obtain rfl := Option.some.inj hq
  refine ⟨htime, .cons (fun d => ?_) .nil⟩
  cases d
  · exact hrx
  · exact Int.le_refl 0

theorem ratesSound_pollOne : Machine.Along Monitor.step RatesSound .idle
    [.poll "vm" (pollOne 0 100 true), .poll "vm" (pollOne (10 ^ 9) 150 true)] := by
  refine (ratesSound_iff (steady_pollOne (by decide) (by decide))).mpr ?_
  refine ⟨fun q hq => (by cases hq), fun m hm => ⟨fun q hq _ d => ?_, fun m hm => trivial⟩⟩
  obtain rfl := Option.some.inj hm
  obtain rfl := Option.some.inj hq
  cases d
  · decide
  · decide

/-- An interface that answers again brings all that it ever counted. -/
theorem not_ratesSound : ¬ ∀ es, Machine.Along Monitor.step Steady .idle es →
    Machine.Along Monitor.step RatesSound .idle es := by
  intro h
  have hsteady : Machine.Along Monitor.step Steady .idle
      [.poll "vm" (pollOne 0 100 false), .poll "vm" (pollOne (10 ^ 9) 100 true)] :=
    steady_pollOne (by decide) (by decide)
  have hsound := h _ hsteady
  obtain ⟨q, hq, -, hle⟩ := (hsound.2 _ rfl).1 _ rfl .rx 100 (by decide)
  obtain rfl := Option.some.inj hq
  exact absurd hle (by decide)

end Metrics

end Ultrav
