import Mathlib.Data.Int.Notation
import Mathlib.Data.List.Basic
import Mathlib.Data.List.TakeWhile
import Mathlib.Tactic.Ring
import Ultrav.Decimal

/-!
# Timestamps

Instants, in nanoseconds since 1970, as RFC 3339 text in UTC.

* `Date` / `date` / `Date.number` — the proleptic Gregorian calendar, and days since year 1.
* `format` — with as many digits of a second as it takes; `parse` — with any offset.
* `parse_format` — **round trip**, for the years 0 to 9999.
* `formatIn` — the same on a clock that is ahead of UTC, or behind it; `parse_formatIn`,
  `minutesOf_formatIn` — the instant and the clock are read back.
-/

namespace Ultrav.Rfc3339

open Decimal

/-! ## The calendar -/

def leap (year : ℤ) : Bool := year % 4 = 0 && (year % 100 ≠ 0 || year % 400 = 0)

/-- The days of each month. -/
def months (leap : Bool) : List ℕ :=
  [31, if leap then 29 else 28, 31, 30, 31, 30, 31, 31, 30, 31, 30, 31]

/-- The days of so many months. -/
def daysOf : ℕ → List ℕ → ℕ
  | 0, _ => 0
  | _, [] => 0
  | i + 1, l :: ls => l + daysOf i ls

/-- The month a day is in, and which one of it, both from 0. -/
def monthOf : List ℕ → ℕ → ℕ × ℕ
  | [], r => (0, r)
  | l :: ls, r =>
    if r < l then (0, r) else ((monthOf ls (r - l)).1 + 1, (monthOf ls (r - l)).2)

theorem monthOf_spec {ls : List ℕ} {r : ℕ} (h : r < daysOf ls.length ls) :
    daysOf (monthOf ls r).1 ls + (monthOf ls r).2 = r ∧ (monthOf ls r).1 < ls.length ∧
      (monthOf ls r).2 < ls.getD (monthOf ls r).1 0 := by
  induction ls generalizing r with
  | nil => exact absurd h (Nat.not_lt_zero r)
  | cons l ls ih =>
    rw [monthOf]
    by_cases hr : r < l
    · rw [if_pos hr]
      exact ⟨Nat.zero_add r, Nat.succ_pos _, hr⟩
    · rw [if_neg hr]
      have hrest : r - l < daysOf ls.length ls := by
        rw [List.length_cons, daysOf] at h
        omega
      obtain ⟨hsum, hlt, hday⟩ := ih hrest
      refine ⟨?_, Nat.succ_lt_succ hlt, hday⟩
      rw [daysOf]
      omega

structure Date where
  year : ℤ
  /-- from 1 -/
  month : ℕ
  /-- from 1 -/
  day : ℕ
  deriving DecidableEq, Repr

namespace Date

/-- There is such a date. -/
def valid (d : Date) : Bool :=
  1 ≤ d.month && d.month ≤ 12 && 1 ≤ d.day && d.day ≤ (months (leap d.year)).getD (d.month - 1) 0

/-- The days of the years before one. -/
def yearNumber (year : ℤ) : ℤ :=
  365 * (year - 1) + (year - 1) / 4 - (year - 1) / 100 + (year - 1) / 400

/-- The days from the first one of year 1. -/
def number (d : Date) : ℤ :=
  yearNumber d.year + (daysOf (d.month - 1) (months (leap d.year)) + (d.day - 1) : ℕ)

end Date

/-- Cycles of 400, 100, 4 years and 1 year: each is cut at its last, which is longer. -/
structure Cycles where
  era : ℤ
  century : ℤ
  four : ℤ
  one : ℤ
  /-- the day of the year -/
  rest : ℤ

/-- The cycles of a day. -/
def cycles (n : ℤ) : Cycles :=
  let d := n % 146097
  let century := min (d / 36524) 3
  let d := d - 36524 * century
  let four := d / 1461
  let d := d - 1461 * four
  let one := min (d / 365) 3
  ⟨n / 146097, century, four, one, d - 365 * one⟩

/-- The year of the cycles. -/
def Cycles.year (c : Cycles) : ℤ := 400 * c.era + 100 * c.century + 4 * c.four + c.one + 1

/-- What the cycles of a day are. -/
structure Cycles.Of (c : Cycles) (n : ℤ) : Prop where
  century : 0 ≤ c.century ∧ c.century ≤ 3
  four : 0 ≤ c.four ∧ c.four ≤ 24
  one : 0 ≤ c.one ∧ c.one ≤ 3
  rest : 0 ≤ c.rest ∧ c.rest ≤ 365
  leap : c.rest = 365 → c.one = 3 ∧ (c.four < 24 ∨ c.century = 3)
  sum : 146097 * c.era + 36524 * c.century + 1461 * c.four + 365 * c.one + c.rest = n

theorem cycles_of (n : ℤ) : (cycles n).Of n := by
  refine ⟨?_, ?_, ?_, ?_, ?_, ?_⟩ <;> simp only [cycles] <;> omega

theorem Cycles.Of.yearNumber {c : Cycles} {n : ℤ} (h : c.Of n) :
    Date.yearNumber c.year + c.rest = n := by
  have hc := h.century
  have hf := h.four
  have ho := h.one
  have hs := h.sum
  rw [Date.yearNumber, Cycles.year]
  omega

theorem Cycles.Of.leap_year {c : Cycles} {n : ℤ} (h : c.Of n) (hr : c.rest = 365) :
    Rfc3339.leap c.year = true := by
  have hl := h.leap hr
  have hc := h.century
  have hf := h.four
  have hdiv : c.year % 4 = 0 ∧ (c.year % 100 ≠ 0 ∨ c.year % 400 = 0) := by
    rw [Cycles.year]
    omega
  simpa [Rfc3339.leap] using hdiv

/-- The date of a day. -/
def date (n : ℤ) : Date :=
  let c := cycles n
  let m := monthOf (months (leap c.year)) c.rest.toNat
  ⟨c.year, m.1 + 1, m.2 + 1⟩

/-- A date is one of the calendar, and the day is found again from it. -/
theorem date_spec (n : ℤ) : (date n).valid = true ∧ (date n).number = n := by
  have hof := cycles_of n
  have hrest := hof.rest
  have hday : (cycles n).rest.toNat < daysOf (months (leap (cycles n).year)).length
      (months (leap (cycles n).year)) := by
    cases hl : leap (cycles n).year with
    | true =>
      change _ < 366
      omega
    | false =>
      change _ < 365
      have hne : (cycles n).rest ≠ 365 := fun h => by
        cases hl.symm.trans (hof.leap_year h)
      omega
  obtain ⟨hsum, hmonth, hlt⟩ := monthOf_spec hday
  change _ < 12 at hmonth
  constructor
  · simp only [Date.valid, Bool.and_eq_true, decide_eq_true_eq]
    exact ⟨⟨⟨Nat.succ_pos _, hmonth⟩, Nat.succ_pos _⟩, hlt⟩
  · rw [Date.number, date]
    simp only [Nat.add_sub_cancel]
    rw [hsum, Int.toNat_of_nonneg hrest.1]
    exact hof.yearNumber

/-! ## Text -/

/-- The nanoseconds of a second, and of a day. -/
def second : ℕ := 1000000000

def dayLength : ℕ := 86400 * second

/-- The first day of 1970. -/
def epoch : ℤ := 719162

/-- The digits of a fraction of a second, without zeros at the end. -/
def fraction (nanos : ℕ) : List Char :=
  if nanos = 0 then []
  else '.' :: ((padded 9 nanos).reverse.dropWhile (· = '0')).reverse

/-- The text of an instant; the year has four digits. -/
def format (t : ℤ) : Option (List Char) :=
  let d := date (t / dayLength + epoch)
  let n := (t % dayLength).toNat
  if 0 ≤ d.year ∧ d.year ≤ 9999 then
    some (padded 4 d.year.toNat ++ '-' :: (padded 2 d.month ++ '-' :: (padded 2 d.day ++
      'T' :: (padded 2 (n / (3600 * second)) ++ ':' :: (padded 2 (n / (60 * second) % 60) ++
        ':' :: (padded 2 (n / second % 60) ++ (fraction (n % second) ++ ['Z'])))))))
  else none

/-- A number of so many digits, and what follows it. -/
def field (w : ℕ) (cs : List Char) : Option (ℕ × List Char) :=
  if w ≤ cs.length ∧ (cs.take w).all Char.isDigit then some (value (cs.take w), cs.drop w) else none

/-- What follows a character. -/
def mark (c : Char) : List Char → Option (List Char)
  | [] => none
  | d :: cs => if d = c then some cs else none

/-- A fraction of a second, of which nine digits are read, and what follows it. -/
def readFraction (cs : List Char) : ℕ × List Char :=
  match cs with
  | '.' :: c :: rest =>
    if c.isDigit then
      let ds := ((c :: rest).takeWhile Char.isDigit).take 9
      (value ds * 10 ^ (9 - ds.length), (c :: rest).dropWhile Char.isDigit)
    else (0, cs)
  | _ => (0, cs)

/-- The seconds of an offset. -/
def zone (cs : List Char) : Option ℤ :=
  if cs = ['Z'] then some 0
  else
    match cs with
    | [] => none
    | sign :: cs => do
      let (hour, cs) ← field 2 cs
      let cs ← mark ':' cs
      let (minute, cs) ← field 2 cs
      if cs ≠ [] ∨ 23 < hour ∨ 59 < minute then none
      else if sign = '+' then some ((hour * 60 + minute) * 60 : ℕ)
      else if sign = '-' then some (-((hour * 60 + minute) * 60 : ℕ))
      else none

/-- The instant of a text. -/
def parse (cs : List Char) : Option ℤ := do
  let (year, cs) ← field 4 cs
  let cs ← mark '-' cs
  let (month, cs) ← field 2 cs
  let cs ← mark '-' cs
  let (day, cs) ← field 2 cs
  let cs ← mark 'T' cs
  let (hour, cs) ← field 2 cs
  let cs ← mark ':' cs
  let (minute, cs) ← field 2 cs
  let cs ← mark ':' cs
  let (sec, cs) ← field 2 cs
  let (nanos, cs) := readFraction cs
  let offset ← zone cs
  let d : Date := ⟨year, month, day⟩
  if d.valid ∧ hour ≤ 23 ∧ minute ≤ 59 ∧ sec ≤ 59 then
    some ((d.number - epoch) * dayLength +
      ((hour * 60 + minute) * 60 + sec - offset) * second + nanos)
  else none

/-! ## Round trip -/

theorem length_padded {w n : ℕ} (hw : 0 < w) (h : n < 10 ^ w) : (padded w n).length = w := by
  have hlen := (Nat.length_toDigits_le_iff (b := 10) (by decide) hw).mpr h
  rw [padded, List.length_append, List.length_replicate]
  omega

theorem field_padded {w n : ℕ} (hw : 0 < w) (h : n < 10 ^ w) (cs : List Char) :
    field w (padded w n ++ cs) = some (n, cs) := by
  have hlen := length_padded hw h
  rw [field, List.take_left' hlen, List.drop_left' hlen, value_padded, if_pos]
  refine ⟨?_, List.all_eq_true.mpr fun c hc => isDigit_of_mem_padded hc⟩
  rw [List.length_append, hlen]
  exact Nat.le_add_right _ _

theorem mark_cons (c : Char) (cs : List Char) : mark c (c :: cs) = some cs := if_pos rfl

/-- What is left without the zeros at the end. -/
theorem trimZeros_append (ds : List Char) :
    ∃ k, ds = (ds.reverse.dropWhile (· = '0')).reverse ++ List.replicate k '0' := by
  have hzeros : ∀ cs : List Char, cs.takeWhile (· = '0') =
      List.replicate (cs.takeWhile (· = '0')).length '0' := fun cs =>
    List.eq_replicate_of_mem fun c hc => by simpa using List.mem_takeWhile_imp hc
  refine ⟨(ds.reverse.takeWhile (· = '0')).length, ?_⟩
  have hsplit := List.takeWhile_append_dropWhile (p := (· = '0')) (l := ds.reverse)
  rw [hzeros] at hsplit
  have := congrArg List.reverse hsplit
  rw [List.reverse_append, List.reverse_replicate, List.reverse_reverse] at this
  exact this.symm

theorem value_append_zeros (ds : List Char) (k : ℕ) :
    value (ds ++ List.replicate k '0') = 10 ^ k * value ds := by
  rw [value, Nat.ofDigitChars_append, Nat.ofDigitChars_replicate_zero]
  rfl

theorem readFraction_fraction {n : ℕ} (h : n < second) {z : Char} {zs : List Char}
    (hz : z.isDigit = false) (hdot : z ≠ '.') :
    readFraction (fraction n ++ z :: zs) = (n, z :: zs) := by
  rw [fraction]
  split
  · rename_i hn
    rw [hn, List.nil_append, readFraction]
    exact fun _ _ heq => absurd (List.cons.inj heq).1 hdot
  rename_i hn
  obtain ⟨k, hk⟩ := trimZeros_append (padded 9 n)
  generalize ((padded 9 n).reverse.dropWhile (· = '0')).reverse = ds at hk ⊢
  have hlen : ds.length + k = 9 := by
    have := congrArg List.length hk
    rw [length_padded (by decide) h, List.length_append, List.length_replicate] at this
    exact this.symm
  have hvalue : n = 10 ^ k * value ds := by
    rw [← value_append_zeros, ← hk, value_padded]
  have hdigits : ∀ c ∈ ds, c.isDigit = true := fun c hc =>
    isDigit_of_mem_padded (by rw [hk]; exact List.mem_append_left _ hc)
  cases ds with
  -- a fraction of zeros alone is not written at all
  | nil => exact absurd hvalue hn
  | cons c rest =>
    have hsome : readFraction ('.' :: c :: rest ++ z :: zs) =
        if c.isDigit then
          let ds := ((c :: rest ++ z :: zs).takeWhile Char.isDigit).take 9
          (value ds * 10 ^ (9 - ds.length), (c :: rest ++ z :: zs).dropWhile Char.isDigit)
        else (0, '.' :: c :: rest ++ z :: zs) := rfl
    have htake : (c :: rest).take 9 = c :: rest := List.take_of_length_le (by omega)
    have hk9 : 9 - (c :: rest).length = k := by omega
    rw [hsome, if_pos (hdigits c List.mem_cons_self), List.takeWhile_append_of_pos hdigits,
      List.dropWhile_append_of_pos hdigits, List.takeWhile_cons_of_neg (by simp [hz]),
      List.dropWhile_cons_of_neg (by simp [hz]), List.append_nil]
    dsimp only
    rw [htake, hk9, hvalue, Nat.mul_comm]

/-- The parts of a day. -/
theorem clock (n : ℕ) : ((n / (3600 * second) * 60 + n / (60 * second) % 60) * 60 +
    n / second % 60) * second + n % second = n := by
  simp only [second]
  omega

theorem day_le {d : Date} (h : d.valid = true) : d.month ≤ 12 ∧ d.day ≤ 31 := by
  have hmonths : ∀ l, ∀ i < 12, (months l).getD i 0 ≤ 31 := by decide
  simp only [Date.valid, Bool.and_eq_true, decide_eq_true_eq] at h
  obtain ⟨⟨⟨hpos, hmonth⟩, -⟩, hday⟩ := h
  exact ⟨hmonth, Nat.le_trans hday (hmonths _ _ (by omega))⟩

/-- The text of a day and a nanosecond of it on some clock. -/
def stamp (d : Date) (n : ℕ) (zs : List Char) : List Char :=
  padded 4 d.year.toNat ++ '-' :: (padded 2 d.month ++ '-' :: (padded 2 d.day ++
    'T' :: (padded 2 (n / (3600 * second)) ++ ':' :: (padded 2 (n / (60 * second) % 60) ++
      ':' :: (padded 2 (n / second % 60) ++ (fraction (n % second) ++ zs))))))

/-- A stamp is read as the instant its clock shows there. -/
theorem parse_stamp {d : Date} {n : ℕ} {z : Char} {zs : List Char} {offset : ℤ}
    (hvalid : d.valid = true) (hyear : 0 ≤ d.year ∧ d.year ≤ 9999) (hn : n < dayLength)
    (hz : z.isDigit = false) (hdot : z ≠ '.') (hzone : zone (z :: zs) = some offset) :
    parse (stamp d n (z :: zs)) =
      some ((d.number - epoch) * dayLength + n - offset * second) := by
  have hlt : n < 86400000000000 := hn
  have hclock := clock n
  obtain ⟨hmonth, hdate⟩ := day_le hvalid
  have hhour : n / (3600 * second) ≤ 23 := by
    change n / 3600000000000 ≤ 23
    omega
  have hminute : n / (60 * second) % 60 ≤ 59 := by omega
  have hsec : n / second % 60 ≤ 59 := by omega
  have hyear' : (d.year.toNat : ℤ) = d.year := Int.toNat_of_nonneg hyear.1
  rw [stamp, parse, field_padded (by decide) (by omega), Option.bind_eq_bind, Option.bind_some]
  simp only [mark_cons, Option.bind_eq_bind, Option.bind_some]
  rw [field_padded (by decide) (by omega)]
  simp only [Option.bind_some, mark_cons]
  rw [field_padded (by decide) (by omega)]
  simp only [Option.bind_some, mark_cons]
  rw [field_padded (by decide) (by omega)]
  simp only [Option.bind_some, mark_cons]
  rw [field_padded (by decide) (by omega)]
  simp only [Option.bind_some, mark_cons]
  rw [field_padded (by decide) (by omega)]
  simp only [Option.bind_some,
    readFraction_fraction (Nat.mod_lt n (by decide : 0 < second)) hz hdot]
  have hd : (⟨d.year.toNat, d.month, d.day⟩ : Date) = d := by rw [hyear']
  rw [hzone, Option.bind_some, hd, if_pos ⟨hvalid, hhour, hminute, hsec⟩]
  refine congrArg some ?_
  have hcast : (((n / (3600 * second) : ℕ) * 60 + (n / (60 * second) % 60 : ℕ)) * 60 +
      (n / second % 60 : ℕ)) * (second : ℤ) + (n % second : ℕ) = n := by
    exact_mod_cast hclock
  rw [← hcast]
  ring

/-- The day of an instant, and the nanosecond of the day. -/
theorem day_and_nanos (t : ℤ) : t / dayLength * dayLength + (t % dayLength).toNat = t ∧
    (t % dayLength).toNat < dayLength := by
  have hnonneg : 0 ≤ t % dayLength := Int.emod_nonneg t (by decide)
  have hlt : t % dayLength < dayLength := Int.emod_lt_of_pos t (by decide)
  refine ⟨?_, by omega⟩
  rw [Int.toNat_of_nonneg hnonneg]
  exact Int.ediv_mul_add_emod t dayLength

/-- **Round trip**. -/
theorem parse_format {t : ℤ} {cs : List Char} (h : format t = some cs) : parse cs = some t := by
  obtain ⟨hvalid, hnumber⟩ := date_spec (t / dayLength + epoch)
  obtain ⟨hsplit, hlt⟩ := day_and_nanos t
  rw [format] at h
  split at h
  · rename_i hyear
    cases h
    have hzone : zone ['Z'] = some 0 := rfl
    refine (parse_stamp hvalid hyear hlt (by decide) (by decide) hzone).trans ?_
    rw [hnumber, Int.add_sub_cancel, Int.zero_mul, Int.sub_zero, hsplit]
  · cases h

/-! ## Clocks ahead of UTC -/

/-- The minutes that a clock is ahead of UTC, as text. -/
def zoneText (minutes : ℤ) : List Char :=
  if minutes = 0 then ['Z']
  else (if minutes < 0 then '-' else '+') ::
    (padded 2 (minutes.natAbs / 60) ++ ':' :: padded 2 (minutes.natAbs % 60))

/-- The text of an instant on a clock that is so many minutes ahead; the year there has four
digits, and the minutes are less than a day. -/
def formatIn (minutes t : ℤ) : Option (List Char) :=
  let t := t + minutes * (60 * second : ℕ)
  let d := date (t / dayLength + epoch)
  if 0 ≤ d.year ∧ d.year ≤ 9999 ∧ minutes.natAbs < 24 * 60 then
    some (stamp d (t % dayLength).toNat (zoneText minutes))
  else none

/-- The minutes at the end of a timestamp. -/
def minutesOf (cs : List Char) : ℤ :=
  if cs.getLast? = some 'Z' then 0 else ((zone (cs.drop (cs.length - 6))).getD 0) / 60

/-- The offset of a sign and some minutes. -/
theorem zone_sign {m : ℕ} (h : m < 24 * 60) (sign : Char) :
    zone (sign :: (padded 2 (m / 60) ++ ':' :: padded 2 (m % 60))) =
      if sign = '+' then some ((m * 60 : ℕ) : ℤ)
      else if sign = '-' then some (-((m * 60 : ℕ) : ℤ)) else none := by
  have hfield := field_padded (w := 2) (n := m % 60) (by decide) (by omega) []
  rw [List.append_nil] at hfield
  have hminutes : m / 60 * 60 + m % 60 = m := by omega
  rw [zone, if_neg (by simp)]
  simp only [field_padded (w := 2) (n := m / 60) (by decide) (by omega), mark_cons, hfield,
    Option.bind_eq_bind, Option.bind_some, hminutes]
  rw [if_neg]
  rintro (hne | hlt | hlt)
  · exact hne rfl
  · omega
  · omega

theorem zone_zoneText {minutes : ℤ} (h : minutes.natAbs < 24 * 60) :
    ∃ z zs, zoneText minutes = z :: zs ∧ z.isDigit = false ∧ z ≠ '.' ∧
      zone (z :: zs) = some (minutes * 60) := by
  rcases Int.lt_trichotomy minutes 0 with hneg | rfl | hpos
  · refine ⟨'-', _, by rw [zoneText, if_neg (by omega), if_pos hneg], by decide, by decide, ?_⟩
    rw [zone_sign h, if_neg (by decide), if_pos rfl]
    exact congrArg some (by omega)
  · exact ⟨'Z', [], rfl, by decide, by decide, rfl⟩
  · refine ⟨'+', _, by rw [zoneText, if_neg (by omega), if_neg (by omega)], by decide, by decide,
      ?_⟩
    rw [zone_sign h, if_pos rfl]
    exact congrArg some (by omega)

/-- What `formatIn` writes. -/
theorem formatIn_eq_some {minutes t : ℤ} {cs : List Char} (h : formatIn minutes t = some cs) :
    ∃ d n, cs = stamp d n (zoneText minutes) ∧ d.valid = true ∧ (0 ≤ d.year ∧ d.year ≤ 9999) ∧
      n < dayLength ∧ minutes.natAbs < 24 * 60 ∧
      (d.number - epoch) * dayLength + n = t + minutes * 60 * second := by
  rw [formatIn] at h
  obtain ⟨⟨hlow, hhigh, hminutes⟩, heq⟩ := Option.ite_none_right_eq_some.mp h
  obtain ⟨hvalid, hnumber⟩ := date_spec ((t + minutes * (60 * second : ℕ)) / dayLength + epoch)
  obtain ⟨hsplit, hlt⟩ := day_and_nanos (t + minutes * (60 * second : ℕ))
  refine ⟨_, _, (Option.some.inj heq).symm, hvalid, ⟨hlow, hhigh⟩, hlt, hminutes, ?_⟩
  rw [hnumber, Int.add_sub_cancel, hsplit]
  push_cast
  ring

/-- **Round trip** on any clock. -/
theorem parse_formatIn {minutes t : ℤ} {cs : List Char} (h : formatIn minutes t = some cs) :
    parse cs = some t := by
  obtain ⟨d, n, rfl, hvalid, hyear, hn, hminutes, hinstant⟩ := formatIn_eq_some h
  obtain ⟨z, zs, hzs, hdigit, hdot, hzone⟩ := zone_zoneText hminutes
  rw [hzs, parse_stamp hvalid hyear hn hdigit hdot hzone, hinstant, Int.add_sub_cancel]

theorem length_zoneText {minutes : ℤ} (h : minutes.natAbs < 24 * 60) (hne : minutes ≠ 0) :
    (zoneText minutes).length = 6 := by
  rw [zoneText, if_neg hne, List.length_cons, List.length_append, List.length_cons,
    length_padded (by decide) (by omega), length_padded (by decide) (by omega)]

theorem getLast?_zoneText {minutes : ℤ} (hne : minutes ≠ 0) :
    (zoneText minutes).getLast? ≠ some 'Z' := by
  have hpad : padded 2 (minutes.natAbs % 60) ≠ [] := fun h => by
    have hlen := length_padded (w := 2) (n := minutes.natAbs % 60) (by decide) (by omega)
    rw [h] at hlen
    cases hlen
  have hsplit : zoneText minutes = (if minutes < 0 then '-' else '+') ::
      (padded 2 (minutes.natAbs / 60) ++ [':']) ++ padded 2 (minutes.natAbs % 60) := by
    simp [zoneText, hne]
  rw [hsplit, List.getLast?_append_of_ne_nil _ hpad, List.getLast?_eq_some_getLast hpad]
  intro hlast
  have hdigit := isDigit_of_mem_padded (List.getLast_mem hpad)
  rw [Option.some.inj hlast] at hdigit
  exact absurd hdigit (by decide)

theorem stamp_append (d : Date) (n : ℕ) (zs : List Char) : ∃ body, stamp d n zs = body ++ zs := by
  refine ⟨stamp d n [], ?_⟩
  simp [stamp]

/-- The clock is read back as well. -/
theorem minutesOf_formatIn {minutes t : ℤ} {cs : List Char} (h : formatIn minutes t = some cs) :
    minutesOf cs = minutes := by
  obtain ⟨d, n, rfl, -, -, -, hminutes, -⟩ := formatIn_eq_some h
  obtain ⟨z, zs, hzs, -, -, hzone⟩ := zone_zoneText hminutes
  obtain ⟨body, hbody⟩ := stamp_append d n (zoneText minutes)
  have hlast : (body ++ zoneText minutes).getLast? = (zoneText minutes).getLast? := by
    exact List.getLast?_append_of_ne_nil _ (by rw [hzs]; exact List.cons_ne_nil _ _)
  rw [hbody, minutesOf, hlast]
  by_cases hne : minutes = 0
  · subst hne
    rfl
  · rw [if_neg (getLast?_zoneText hne), List.length_append, length_zoneText hminutes hne,
      Nat.add_sub_cancel, List.drop_left, hzs, hzone, Option.getD_some]
    exact Int.mul_ediv_cancel minutes (by decide)

/-- The characters of a timestamp. -/
def stampChar (c : Char) : Bool :=
  c.isDigit || c = '-' || c = 'T' || c = ':' || c = '.' || c = 'Z'

theorem stampChar_padded {w n : ℕ} : ∀ c ∈ padded w n, stampChar c = true := fun c hc => by
  rw [stampChar, isDigit_of_mem_padded hc]
  rfl

theorem stampChar_fraction (n : ℕ) : ∀ c ∈ fraction n, stampChar c = true := by
  intro c hc
  rw [fraction] at hc
  split at hc
  · cases hc
  · rcases List.mem_cons.mp hc with rfl | hc
    · rfl
    · have hc := (List.dropWhile_sublist _).subset (List.mem_reverse.mp hc)
      exact stampChar_padded c (List.mem_reverse.mp hc)

theorem stampChar_format {t : ℤ} {cs : List Char} (h : format t = some cs) :
    ∀ c ∈ cs, stampChar c = true := by
  rw [format] at h
  split at h
  · cases h
    simp only [List.forall_mem_append, List.forall_mem_cons]
    exact ⟨stampChar_padded, rfl, stampChar_padded, rfl, stampChar_padded, rfl, stampChar_padded,
      rfl, stampChar_padded, rfl, stampChar_padded, stampChar_fraction _, rfl,
      fun _ hc => (by cases hc)⟩
  · cases h

theorem stampChar_formatIn {minutes t : ℤ} {cs : List Char} (h : formatIn minutes t = some cs) :
    ∀ c ∈ cs, stampChar c = true ∨ c = '+' := by
  obtain ⟨d, n, rfl, -⟩ := formatIn_eq_some h
  have hzone : ∀ c ∈ zoneText minutes, stampChar c = true ∨ c = '+' := by
    intro c hc
    rw [zoneText] at hc
    split at hc
    · exact .inl (by rw [List.mem_singleton.mp hc]; rfl)
    · rcases List.mem_cons.mp hc with rfl | hc
      · split
        · exact .inl rfl
        · exact .inr rfl
      · rcases List.mem_append.mp hc with hc | hc
        · exact .inl (stampChar_padded c hc)
        · rcases List.mem_cons.mp hc with rfl | hc
          · exact .inl rfl
          · exact .inl (stampChar_padded c hc)
  simp only [stamp, List.forall_mem_append, List.forall_mem_cons]
  exact ⟨fun c hc => .inl (stampChar_padded c hc), .inl rfl,
    fun c hc => .inl (stampChar_padded c hc), .inl rfl,
    fun c hc => .inl (stampChar_padded c hc), .inl rfl,
    fun c hc => .inl (stampChar_padded c hc), .inl rfl,
    fun c hc => .inl (stampChar_padded c hc), .inl rfl,
    fun c hc => .inl (stampChar_padded c hc),
    fun c hc => .inl (stampChar_fraction _ c hc), hzone⟩

end Ultrav.Rfc3339
