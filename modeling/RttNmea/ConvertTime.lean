import RttNmea.Lib.Calendar
import Mathlib.Data.Rat.Floor
import Mathlib.Tactic.NormNum
import Mathlib.Tactic.Linarith

/-!
# The timestamp of a date and a time

convert_seconds of gps_parse, over exact rationals, with mktime and timegm of the libc layer.
time_t is `long` of the toolchain: a signed integer whose width is a parameter. mktime reads
its argument as local time of the default timezone, and the message has UTC.
-/

namespace RttNmea

open Gregorian

/-! ## time.c -/

/-- struct tm, without tm_isdst: gmtime_r sets it to tz_is_dst(), which is 0, and no function here
reads it. -/
structure Tm where
  sec : Int
  min : Int
  hour : Int
  mday : Int
  mon : Int
  year : Int
  wday : Int
  yday : Int
  deriving DecidableEq, Repr

/-- RT_LIBC_DEFAULT_TIMEZONE. -/
def rtLibcDefaultTimezone : Int := 8

/-- `_current_timezone` has its initial value. -/
def tzGet : Int := rtLibcDefaultTimezone

/-- A value of a signed type of so many bits. -/
def wrap (bits : Nat) (x : Int) : Int := x.bmod (2 ^ bits)

/-- The table `__spm`: the days of a year up to the end of each month, none outside of it. -/
def spm (i : Int) : Option Int :=
  if 0 ≤ i then
    ([0, 31, 59, 90, 120, 151, 181, 212, 243, 273, 304, 334, 365] : List Int)[i.toNat]?
  else none

/-- `__isleap`, 1 or 0. -/
def isleap (year : Int) : Int :=
  if year.tmod 4 = 0 ∧ (year.tmod 100 ≠ 0 ∨ year.tmod 400 = 0) then 1 else 0

/-- The four corrections in front of the loop of timegm. -/
def carry (t : Tm) : Tm :=
  let t := if t.sec > 60 then { t with min := t.min + t.sec.tdiv 60, sec := t.sec.tmod 60 } else t
  let t := if t.min > 60 then { t with hour := t.hour + t.min.tdiv 60, min := t.min.tmod 60 } else t
  let t :=
    if t.hour > 24 then { t with mday := t.mday + t.hour.tdiv 24, hour := t.hour.tmod 24 } else t
  if t.mon > 12 then { t with year := t.year + t.mon.tdiv 12, mon := t.mon.tmod 12 } else t

/-- The body of the loop. It takes off the days up to the month, not those of the month. -/
def nextMonth (t : Tm) : Option Tm := do
  let days ← spm t.mon
  let mday := if t.mon = 1 ∧ isleap (t.year + 1900) = 1 then t.mday - 1 else t.mday
  let t := { t with mday := mday - days, mon := t.mon + 1 }
  return if t.mon > 11 then { t with mon := 0, year := t.year + 1 } else t

/-- `while (t->tm_mday > __spm[1 + t->tm_mon])`. -/
def normalizeDays : Nat → Tm → Option Tm
  | 0, _ => none
  | fuel + 1, t => do
    let limit ← spm (1 + t.mon)
    if t.mday > limit then normalizeDays fuel (← nextMonth t) else return t

/-- The correction for the years from 2101. -/
def centuries (years day : Int) : Int :=
  if years ≥ 131 then
    let years := (years - 131).tdiv 100
    let day := day - (years.fdiv 4 * 3 + 1)
    day - (if years.emod 4 = 3 then 2 else years.emod 4)
  else day

/-- What timegm returns, and what it leaves in the structure. -/
def timegm (bits : Nat) (t : Tm) : Option (Int × Tm) := do
  let years := wrap bits (t.year - 70)
  let t ← normalizeDays (2 * (carry t).mday.toNat + 2) (carry t)
  if t.year < 70 then
    return (-1, t)
  let day := centuries years (wrap bits (years * 365 + (years + 1).tdiv 4))
  let days ← spm t.mon
  let t := { t with
    yday := days + t.mday - 1 + if isleap (t.year + 1900) = 1 ∧ t.mon > 1 then 1 else 0 }
  let day := day + t.yday
  let t := { t with wday := (day + 4).tmod 7 }
  return (wrap bits (((day * 24 + t.hour) * 60 + t.min) * 60 + t.sec), t)

def mktime (bits : Nat) (t : Tm) : Option (Int × Tm) := do
  let (timestamp, t) ← timegm bits t
  return (wrap bits (timestamp - 3600 * tzGet), t)

/-! ## convert_time.c -/

/-- A conversion to an integer type: towards zero. -/
def trunc (x : Rat) : Int := x.num.tdiv x.den

/-- convert_seconds. `dt` is what the structure of that name holds at its declaration. -/
def convertSeconds (bits : Nat) (yymmdd hhmmss : Rat) (dt : Tm) : Option Rat := do
  let tmMsec := hhmmss - trunc hhmmss
  let dt := { dt with
    year := (trunc yymmdd).tmod 100 + 2000 - 1900
    mon := (trunc (yymmdd / 100)).tmod 100 - 1
    mday := (trunc yymmdd).tdiv 10000
    hour := (trunc hhmmss).tdiv 10000
    min := (trunc (hhmmss / 100)).tmod 100
    sec := (trunc hhmmss).tmod 100 }
  let (timestamp, _) ← mktime bits dt
  return timestamp + tmMsec

/-! ## The instant -/

/-- The seconds from 1970-01-01 00:00:00 UTC to a date and a time of day in UTC. -/
def instant (d : Date) (hh mm ss : Nat) : Nat :=
  ((d.daysSince 1970 * 24 + hh) * 60 + mm) * 60 + ss

/-- The number DDMMYY. -/
def ddmmyy (d : Date) : Nat := d.day * 10000 + d.month * 100 + d.year % 100

/-- The number hhmmss. -/
def hhmmssOf (hh mm ss : Nat) : Nat := hh * 10000 + mm * 100 + ss

/-! ## Numbers -/

theorem wrap_eq {bits : Nat} (hbits : 32 ≤ bits) {x : Int} (hlow : -2 ^ 31 ≤ x)
    (hhigh : x < 2 ^ 31) : wrap bits x = x := by
  have hpow : 2 ^ 32 ≤ 2 ^ bits := Nat.pow_le_pow_right (by decide) hbits
  unfold wrap
  apply Int.bmod_eq_of_le
  · omega
  · omega

theorem wrap_wrap_sub (bits : Nat) (x y : Int) :
    wrap bits (wrap bits x - y) = wrap bits (x - y) := by
  exact Int.bmod_sub_bmod

/-- A number that is no multiple of the modulus is not wrapped away. -/
theorem wrap_sub_ne {bits : Nat} {x y : Int} (h : ¬ (2 ^ bits : Int) ∣ y) :
    wrap bits (x - y) ≠ x := by
  intro heq
  apply h
  have hdvd := Int.dvd_bmod_sub_self (x := x - y) (m := 2 ^ bits)
  unfold wrap at heq
  rw [heq] at hdvd
  have hsub : x - (x - y) = y := by omega
  rw [hsub] at hdvd
  exact_mod_cast hdvd

/-- The truncation of a number from `n` up to the next one. -/
theorem trunc_eq {x : Rat} {n : Nat} (hlow : (n : Rat) ≤ x) (hhigh : x < n + 1) :
    trunc x = n := by
  have hnum : 0 ≤ x.num := Rat.num_nonneg.2 (le_trans (Nat.cast_nonneg n) hlow)
  unfold trunc
  rw [Int.tdiv_eq_ediv_of_nonneg hnum, ← Rat.floor_def', Int.floor_eq_iff]
  exact ⟨by exact_mod_cast hlow, by exact_mod_cast hhigh⟩

/-- A packed number keeps its digits in front of a fraction. -/
theorem trunc_add {n : Nat} {f : Rat} (hlow : 0 ≤ f) (hhigh : f < 1) :
    trunc (n + f) = n := by
  apply trunc_eq
  · linarith
  · linarith

theorem trunc_div_hundred {n : Nat} {f : Rat} (hlow : 0 ≤ f) (hhigh : f < 1) :
    trunc ((n + f) / 100) = (n / 100 : Nat) := by
  have hle : (n / 100) * 100 ≤ n := Nat.div_mul_le_self n 100
  have hlt : n + 1 ≤ (n / 100 + 1) * 100 := by omega
  have hle : ((n / 100 : Nat) : Rat) * 100 ≤ n := by exact_mod_cast hle
  have hlt : (n : Rat) + 1 ≤ (((n / 100 : Nat) : Rat) + 1) * 100 := by exact_mod_cast hlt
  apply trunc_eq
  · rw [le_div_iff₀ (by norm_num)]
    linarith
  · rw [div_lt_iff₀ (by norm_num)]
    linarith

/-! ## timegm of a valid date -/

theorem isleap_eq (year : Nat) : isleap (year : Int) = if Leap year then 1 else 0 := by
  have hiff : ((year : Int).tmod 4 = 0 ∧
      ((year : Int).tmod 100 ≠ 0 ∨ (year : Int).tmod 400 = 0)) ↔ Leap year := by
    simp only [Int.tmod_eq_emod_of_nonneg (Int.natCast_nonneg year)]
    unfold Leap
    omega
  unfold isleap
  simp only [hiff]

/-- struct tm of a date and a time of day. -/
def tmOf (d : Date) (hh mm ss : Nat) (wday yday : Int) : Tm where
  sec := ss
  min := mm
  hour := hh
  mday := d.day
  mon := d.month - 1
  year := d.year - 1900
  wday := wday
  yday := yday

variable {d : Date} {hh mm ss : Nat} {wday yday : Int}

theorem carry_eq_self {t : Tm} (hsec : ¬ t.sec > 60) (hmin : ¬ t.min > 60)
    (hhour : ¬ t.hour > 24) (hmon : ¬ t.mon > 12) : carry t = t := by
  unfold carry
  simp only [if_neg hsec, if_neg hmin, if_neg hhour, if_neg hmon]

theorem carry_tmOf (hhour : hh < 24) (hmin : mm < 60) (hsec : ss < 60) :
    carry (tmOf d hh mm ss wday yday) = tmOf d hh mm ss wday yday := by
  have hmon := d.month_le
  apply carry_eq_self
  all_goals
    simp only [tmOf]
    omega

/-- The table up to a month of a date, and through it. -/
theorem spm_tmOf (d : Date) :
    spm ((d.month : Int) - 1) = some (commonSum d.month : Int) ∧
      ∃ limit, spm (1 + ((d.month : Int) - 1)) = some limit ∧ (31 : Int) ≤ limit := by
  have hpos := d.month_pos
  have hle := d.month_le
  generalize d.month = month at hpos hle
  interval_cases month <;> exact ⟨rfl, _, rfl, by decide⟩

/-- The day lies inside the first month that the loop looks at. -/
theorem normalizeDays_tmOf (fuel : Nat) :
    normalizeDays (fuel + 1) (tmOf d hh mm ss wday yday) =
      some (tmOf d hh mm ss wday yday) := by
  obtain ⟨_, limit, hlimit, hle⟩ := spm_tmOf d
  have hday := d.day_le.trans (monthDays_le d.year d.month)
  have hmon : (tmOf d hh mm ss wday yday).mon = (d.month : Int) - 1 := rfl
  have hmday : (tmOf d hh mm ss wday yday).mday = d.day := rfl
  unfold normalizeDays
  rw [hmon, hlimit]
  simp only [Option.bind_eq_bind, Option.bind_some]
  rw [if_neg (by rw [hmday]; omega)]
  rfl

/-- The day number of timegm is the count of the calendar. -/
theorem days_eq (hlow : 2000 ≤ d.year) (hhigh : d.year ≤ 2099) :
    ((d.year : Int) - 1970) * 365 + ((d.year : Int) - 1970 + 1) / 4 +
        (commonSum d.month + (d.day : Int) - 1 +
          if isleap d.year = 1 ∧ (d.month : Int) - 1 > 1 then 1 else 0) =
      d.daysSince 1970 := by
  have hyears := yearsSum_eq 1970 d.year (by decide) (by omega) (by omega)
  have hmonths := monthsSum_eq d.year d.month d.month_pos d.month_le
  have hday := d.day_pos
  have hcond : (isleap d.year = 1 ∧ (d.month : Int) - 1 > 1) ↔ (Leap d.year ∧ 2 < d.month) := by
    rw [isleap_eq]
    by_cases hleap : Leap d.year
    · rw [if_pos hleap]
      simp only [hleap, true_and]
      omega
    · simp [hleap]
  simp only [hcond]
  unfold Date.daysSince
  rw [hmonths]
  by_cases h : Leap d.year ∧ 2 < d.month
  · simp only [if_pos h]
    omega
  · simp only [if_neg h]
    omega

theorem timegm_tmOf {bits : Nat} (hbits : 32 ≤ bits) (hlow : 2000 ≤ d.year)
    (hhigh : d.year ≤ 2099) (hhour : hh < 24) (hmin : mm < 60) (hsec : ss < 60) :
    ∃ t, timegm bits (tmOf d hh mm ss wday yday) =
      some (wrap bits (instant d hh mm ss), t) := by
  have hyear : (tmOf d hh mm ss wday yday).year = (d.year : Int) - 1900 := rfl
  have hsum := days_eq hlow hhigh
  obtain ⟨hspm, -⟩ := spm_tmOf d
  unfold timegm
  rw [carry_tmOf hhour hmin hsec, normalizeDays_tmOf]
  simp only [Option.bind_eq_bind, Option.bind_some, Option.pure_def]
  rw [if_neg (by rw [hyear]; omega)]
  have hmon : (tmOf d hh mm ss wday yday).mon = (d.month : Int) - 1 := rfl
  rw [hmon, hspm, hyear]
  simp only [Option.bind_some, Option.some.injEq, Prod.mk.injEq]
  refine ⟨_, ?_, rfl⟩
  have hyears : wrap bits ((d.year : Int) - 1900 - 70) = (d.year : Int) - 1970 := by
    rw [wrap_eq hbits (by omega) (by omega)]
    omega
  have hdiv : ((d.year : Int) - 1970 + 1).tdiv 4 = ((d.year : Int) - 1970 + 1) / 4 :=
    Int.tdiv_eq_ediv_of_nonneg (by omega)
  have hback : (d.year : Int) - 1900 + 1900 = d.year := by omega
  have hday : wrap bits (((d.year : Int) - 1970) * 365 + ((d.year : Int) - 1970 + 1) / 4) =
      ((d.year : Int) - 1970) * 365 + ((d.year : Int) - 1970 + 1) / 4 :=
    wrap_eq hbits (by omega) (by omega)
  rw [hyears, hdiv, hback, hday]
  unfold centuries
  rw [if_neg (by omega)]
  change wrap bits ((((_ + ((commonSum d.month : Int) + (d.day : Int) - 1 + _)) * 24 + (hh : Int))
    * 60 + (mm : Int)) * 60 + (ss : Int)) = _
  rw [hsum]
  unfold instant
  push_cast
  rfl

theorem mktime_tmOf {bits : Nat} (hbits : 32 ≤ bits) (hlow : 2000 ≤ d.year)
    (hhigh : d.year ≤ 2099) (hhour : hh < 24) (hmin : mm < 60) (hsec : ss < 60) :
    ∃ t, mktime bits (tmOf d hh mm ss wday yday) =
      some (wrap bits (instant d hh mm ss - 28800), t) := by
  obtain ⟨t, ht⟩ : ∃ t, timegm bits (tmOf d hh mm ss wday yday) = _ :=
    timegm_tmOf hbits hlow hhigh hhour hmin hsec
  refine ⟨t, ?_⟩
  unfold mktime
  rw [ht]
  have htz : 3600 * tzGet = 28800 := rfl
  simp only [Option.bind_eq_bind, Option.bind_some, Option.pure_def, htz, wrap_wrap_sub]

/-! ## The loop of timegm ends -/

theorem spm_isSome {i : Int} (hlow : 0 ≤ i) (hhigh : i ≤ 12) :
    ∃ days, spm i = some days ∧ (i = 0 ∨ 31 ≤ days) := by
  interval_cases i
  case «0» => exact ⟨_, rfl, Or.inl rfl⟩
  all_goals exact ⟨_, rfl, Or.inr (by decide)⟩

/-- A month other than January takes days off. -/
theorem nextMonth_spec {t : Tm} (hlow : 0 ≤ t.mon) (hhigh : t.mon ≤ 11) :
    ∃ u, nextMonth t = some u ∧ 0 ≤ u.mon ∧ u.mon ≤ 11 ∧
      (t.mon = 0 ∧ u.mon = 1 ∧ u.mday = t.mday ∨ t.mon ≠ 0 ∧ u.mday + 31 ≤ t.mday) := by
  obtain ⟨days, hdays, hbig⟩ := spm_isSome hlow (by omega)
  have hjan : t.mon = 0 → days = 0 := by
    intro h
    rw [h] at hdays
    exact (Option.some.inj hdays).symm
  unfold nextMonth
  rw [hdays]
  simp only [Option.bind_eq_bind, Option.bind_some, Option.pure_def, Option.some.injEq,
    exists_eq_left']
  split <;> split <;> grind

/-- The fuel of timegm lasts: only a turn in January takes no days off, and none follows another. -/
theorem normalizeDays_ends (fuel : Nat) (t : Tm) (hlow : 0 ≤ t.mon) (hhigh : t.mon ≤ 11)
    (hfuel : 2 * t.mday.toNat + (if t.mon = 0 then 1 else 0) < fuel) :
    (normalizeDays fuel t).isSome := by
  induction fuel generalizing t with
  | zero => omega
  | succ fuel ih =>
    obtain ⟨limit, hlimit, hbig⟩ := spm_isSome (i := 1 + t.mon) (by omega) (by omega)
    unfold normalizeDays
    rw [hlimit]
    simp only [Option.bind_eq_bind, Option.bind_some]
    split
    case isTrue hmore =>
      obtain ⟨u, hu, humin, humax, hless⟩ := nextMonth_spec hlow hhigh
      rw [hu]
      apply ih u humin humax
      split at hfuel <;> split <;> omega
    case isFalse => rfl

/-! ## convert_seconds -/

theorem tmod_hundred (n : Nat) : (n : Int).tmod 100 = (n % 100 : Nat) := by
  rw [Int.tmod_eq_emod_of_nonneg (Int.natCast_nonneg n)]
  omega

theorem tdiv_ten_thousand (n : Nat) : (n : Int).tdiv 10000 = (n / 10000 : Nat) := by
  rw [Int.tdiv_eq_ediv_of_nonneg (Int.natCast_nonneg n)]
  omega

/-- The digits that convert_seconds takes out of its two numbers are those packed into them. -/
theorem convertSeconds_fields (bits : Nat) (hlow : 2000 ≤ d.year) (hhigh : d.year ≤ 2099)
    (hmin : mm < 60) (hsec : ss < 60) {f : Rat} (hf0 : 0 ≤ f) (hf1 : f < 1) (dt : Tm) :
    convertSeconds bits (ddmmyy d) (hhmmssOf hh mm ss + f) dt =
      (mktime bits (tmOf d hh mm ss dt.wday dt.yday)).map fun r => (r.1 : Rat) + f := by
  have hmonth := d.month_le
  have hdate : trunc (ddmmyy d : Rat) = (ddmmyy d : Nat) := by
    simpa using trunc_add (n := ddmmyy d) (f := 0) le_rfl one_pos
  have hmonths : trunc ((ddmmyy d : Rat) / 100) = (ddmmyy d / 100 : Nat) := by
    simpa using trunc_div_hundred (n := ddmmyy d) (f := 0) le_rfl one_pos
  have hyear : ddmmyy d % 100 = d.year - 2000 := by
    unfold ddmmyy
    omega
  have hmon : ddmmyy d / 100 % 100 = d.month := by
    unfold ddmmyy
    omega
  have hmday : ddmmyy d / 10000 = d.day := by
    unfold ddmmyy
    omega
  have hhours : hhmmssOf hh mm ss / 10000 = hh := by
    unfold hhmmssOf
    omega
  have hmins : hhmmssOf hh mm ss / 100 % 100 = mm := by
    unfold hhmmssOf
    omega
  have hsecs : hhmmssOf hh mm ss % 100 = ss := by
    unfold hhmmssOf
    omega
  have hrest : (hhmmssOf hh mm ss + f : Rat) - (hhmmssOf hh mm ss : Nat) = f := by ring
  unfold convertSeconds
  rw [hdate, hmonths, trunc_add hf0 hf1, trunc_div_hundred hf0 hf1]
  simp only [tmod_hundred, tdiv_ten_thousand, hyear, hmon, hmday, hhours, hmins, hsecs,
    Int.cast_natCast, hrest]
  have htm : ((d.year - 2000 : Nat) : Int) + 2000 - 1900 = (d.year : Int) - 1900 := by omega
  rw [htm]
  unfold tmOf
  cases mktime bits _ <;> rfl

/-- No instant of the century is returned: mktime takes off the eight hours of the default
timezone, from a date and a time that are UTC already. -/
theorem convertSeconds_early {bits : Nat} (hbits : 32 ≤ bits) (hlow : 2000 ≤ d.year)
    (hhigh : d.year ≤ 2099) (hhour : hh < 24) (hmin : mm < 60) (hsec : ss < 60)
    {f : Rat} (hf0 : 0 ≤ f) (hf1 : f < 1) (dt : Tm) :
    ∃ r, convertSeconds bits (ddmmyy d) (hhmmssOf hh mm ss + f) dt = some r ∧
      r ≠ instant d hh mm ss + f ∧
      (instant d hh mm ss < 2 ^ (bits - 1) → r = instant d hh mm ss + f - 28800) := by
  obtain ⟨t, ht⟩ : ∃ t, mktime bits (tmOf d hh mm ss dt.wday dt.yday) = _ :=
    mktime_tmOf hbits hlow hhigh hhour hmin hsec
  rw [convertSeconds_fields bits hlow hhigh hmin hsec hf0 hf1, ht]
  refine ⟨_, rfl, ?_, ?_⟩
  case refine_1 =>
    intro heq
    have hne : wrap bits ((instant d hh mm ss : Int) - 28800) ≠ instant d hh mm ss := by
      apply wrap_sub_ne
      intro hdvd
      have hpow : (2 : Int) ^ 32 ∣ 2 ^ bits := pow_dvd_pow 2 hbits
      have hbad : ¬ (2 : Int) ^ 32 ∣ 28800 := by decide
      exact hbad (hpow.trans hdvd)
    apply hne
    have hcast := add_right_cancel heq
    exact_mod_cast hcast
  case refine_2 =>
    intro hfits
    have hyears := yearsSum_eq 1970 d.year (by decide) (by omega) (by omega)
    have hlate : 28800 ≤ instant d hh mm ss := by
      unfold instant Date.daysSince
      omega
    have hdouble : 2 ^ bits = 2 * 2 ^ (bits - 1) := by
      rw [← pow_succ', Nat.sub_add_cancel (by omega)]
    have hwrap : wrap bits ((instant d hh mm ss : Int) - 28800) =
        (instant d hh mm ss : Int) - 28800 := by
      unfold wrap
      rw [hdouble]
      apply Int.bmod_eq_of_le
      · omega
      · omega
    simp only [hwrap]
    push_cast
    ring

/-- The last half second of a leap day. -/
theorem convertSeconds_leap_day :
    ∃ r, convertSeconds 64 (ddmmyy ⟨2024, 2, 29, by decide, by decide, by decide, by decide⟩)
        (hhmmssOf 23 59 59 + 1 / 2) ⟨0, 0, 0, 0, 0, 0, 0, 0⟩ = some r ∧
      r ≠ instant ⟨2024, 2, 29, by decide, by decide, by decide, by decide⟩ 23 59 59 + 1 / 2 ∧
      (instant ⟨2024, 2, 29, by decide, by decide, by decide, by decide⟩ 23 59 59 < 2 ^ (64 - 1) →
        r = instant ⟨2024, 2, 29, by decide, by decide, by decide, by decide⟩ 23 59 59 + 1 / 2 -
          28800) :=
  convertSeconds_early (by decide) (by decide) (by decide) (by decide) (by decide) (by decide)
    (by norm_num) (by norm_num) _

/-- The first second of 2000 in UTC comes out as 16:00 of the day before. -/
theorem convertSeconds_millennium :
    convertSeconds 64 (ddmmyy ⟨2000, 1, 1, by decide, by decide, by decide, by decide⟩)
        (hhmmssOf 0 0 0 + 0) ⟨0, 0, 0, 0, 0, 0, 0, 0⟩ = some 946656000 ∧
      (instant ⟨2000, 1, 1, by decide, by decide, by decide, by decide⟩ 0 0 0 : Rat) + 0 =
        946684800 := by
  decide +kernel

end RttNmea
