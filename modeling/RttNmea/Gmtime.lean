import RttNmea.ConvertTime

/-!
# Times and calendars

gmtime_r and localtime_r of the libc layer, and that timegm and mktime lead back from them. A time
in front of 1970 is left in January of that year, with what is missing as negative members.
-/

namespace RttNmea

open Gregorian

/-! ## The functions -/

/-- The loop over the years. `work` is what is left of the days, `i` goes to `__isleap` as int. -/
def gmYears : Nat → Int → Int → Option (Int × Int)
  | 0, _, _ => none
  | fuel + 1, i, work =>
    let k := if isleap (wrap 32 i) = 1 then 366 else 365
    if work ≥ k then gmYears fuel (i + 1) (work - k) else some (i, work)

/-- `for (i = 11; i && (__spm[i] > work); --i)`. -/
def gmMonths (work : Int) : Nat → Option Nat
  | 0 => some 0
  | i + 1 => do
    let days ← spm (i + 1)
    if days > work then gmMonths work i else return i + 1

/-- gmtime_r, but for tm_isdst = tz_is_dst(). A quotient by 365 bounds the turns. -/
def gmtimeR (timep : Int) : Option Tm := do
  let work := timep.tmod 86400
  let sec := work.tmod 60
  let work := work.tdiv 60
  let min := work.tmod 60
  let hour := work.tdiv 60
  let work := timep.tdiv 86400
  let wday := (4 + work).tmod 7
  let (i, work) ← gmYears (work.toNat / 365 + 1) 1970 work
  let year := wrap 32 (i - 1900)
  let yday := wrap 32 work
  let late := isleap (wrap 32 i) = 1 ∧ work > 58
  let mday := if late ∧ work = 59 then 2 else 1
  let work := if late then work - 1 else work
  let i ← gmMonths work 11
  let days ← spm i
  return {
    sec := sec, min := min, hour := hour, mday := wrap 32 (mday + (work - days)), mon := i
    year := year, wday := wday, yday := yday }

def localtimeR (bits : Nat) (t : Int) : Option Tm := gmtimeR (wrap bits (t + tzGet * 3600))

/-! ## The loops -/

/-- The years that are passed are those in front of the day. -/
theorem gmYears_spec (fuel i work : Nat) (hlow : 1970 ≤ i) (hfuel : work / 365 < fuel)
    (hhigh : i + work / 365 < 2 ^ 31) :
    ∃ j r : Nat, gmYears fuel i work = some ((j : Int), (r : Int)) ∧ i ≤ j ∧ j < 2 ^ 31 ∧
      r < yearDays j ∧ yearsSum 1970 i + work = yearsSum 1970 j + r := by
  induction fuel generalizing i work with
  | zero => omega
  | succ fuel ih =>
    have hk : (if isleap (wrap 32 i) = 1 then 366 else 365 : Int) = yearDays i := by
      rw [wrap_eq (Nat.le_refl 32) (by omega) (by omega), isleap_eq]
      unfold yearDays
      split
      · rfl
      · rfl
    have hdays : 365 ≤ yearDays i := by
      unfold yearDays
      split <;> omega
    rw [gmYears, hk]
    by_cases hmore : (work : Int) ≥ yearDays i
    · obtain ⟨j, r, hrun, hle, hj, hr, hsum⟩ := ih (i + 1) (work - yearDays i) (by omega)
        (by omega) (by omega)
      have hnext : yearsSum 1970 (i + 1) = yearsSum 1970 i + yearDays i :=
        Finset.sum_Ico_succ_top hlow _
      have hleft : ((work - yearDays i : Nat) : Int) = work - yearDays i := by omega
      refine ⟨j, r, ?_, by omega, hj, hr, by omega⟩
      rw [if_pos hmore, ← hrun, hleft, Nat.cast_succ]
    · refine ⟨i, work, if_neg hmore, Nat.le_refl i, by omega, by omega, rfl⟩

/-- The month is the last one that begins by the day. -/
theorem gmMonths_spec (work : Nat) (n : Nat) (hn : n ≤ 11)
    (hwork : ∃ limit, spm (n + 1 : Nat) = some limit ∧ (work : Int) < limit) :
    ∃ i ≤ n, gmMonths work n = some i ∧ ∃ days limit, spm i = some days ∧
      spm (i + 1 : Nat) = some limit ∧ days ≤ work ∧ (work : Int) < limit := by
  induction n with
  | zero =>
    obtain ⟨limit, hlimit, hlt⟩ := hwork
    exact ⟨0, Nat.le_refl 0, rfl, 0, limit, rfl, hlimit, by omega, hlt⟩
  | succ n ih =>
    obtain ⟨days, hdays, -⟩ := spm_isSome (i := (n + 1 : Nat)) (by omega) (by omega)
    have hcast : ((n : Int) + 1) = (n + 1 : Nat) := rfl
    rw [gmMonths, hcast, hdays]
    simp only [Option.bind_eq_bind, Option.bind_some]
    by_cases hbefore : days > work
    · rw [if_pos hbefore]
      obtain ⟨i, hi, hrest⟩ := ih (by omega) ⟨days, hdays, hbefore⟩
      exact ⟨i, by omega, hrest⟩
    · rw [if_neg hbefore]
      obtain ⟨limit, hlimit, hlt⟩ := hwork
      exact ⟨n + 1, Nat.le_refl _, rfl, days, limit, hdays, hlimit, by omega, hlt⟩

/-! ## Every time has a structure -/

theorem gmYears_ends (fuel : Nat) (i work : Int) (hfuel : work.toNat / 365 < fuel) :
    (gmYears fuel i work).isSome := by
  induction fuel generalizing i work with
  | zero => omega
  | succ fuel ih =>
    rw [gmYears]
    split
    all_goals
      split
      · apply ih
        omega
      · rfl

theorem gmMonths_isSome (work : Int) {n : Nat} (hn : n ≤ 11) :
    ∃ i days, gmMonths work n = some i ∧ spm i = some days := by
  induction n with
  | zero => exact ⟨0, 0, rfl, rfl⟩
  | succ n ih =>
    obtain ⟨days, hdays, -⟩ := spm_isSome (i := (n : Int) + 1) (by omega) (by omega)
    rw [gmMonths, hdays]
    simp only [Option.bind_eq_bind, Option.bind_some]
    by_cases hbefore : days > work
    · rw [if_pos hbefore]
      exact ih (by omega)
    · rw [if_neg hbefore]
      exact ⟨n + 1, days, rfl, hdays⟩

/-- gmtime_r returns for every time_t. -/
theorem gmtimeR_isSome (timep : Int) : (gmtimeR timep).isSome := by
  have hyears := gmYears_ends ((timep.tdiv 86400).toNat / 365 + 1) 1970 (timep.tdiv 86400)
    (Nat.lt_succ_self _)
  obtain ⟨⟨i, work⟩, hrun⟩ := Option.isSome_iff_exists.mp hyears
  unfold gmtimeR
  simp only [Option.bind_eq_bind]
  rw [hrun, Option.bind_some]
  dsimp only
  obtain ⟨month, days, hmonths, hdays⟩ := gmMonths_isSome
    (if isleap (wrap 32 i) = 1 ∧ work > 58 then work - 1 else work) (Nat.le_refl 11)
  rw [hmonths, Option.bind_some, hdays]
  rfl

/-! ## The date of a day -/

/-- The day after the leap day, or before it, is looked up in the table of other years. -/
theorem gmMonths_date (year : Nat) {work : Nat} (h : work < 365) :
    ∃ (d : Date) (i : Nat) (days : Int), gmMonths work 11 = some i ∧ spm i = some days ∧
      d.year = year ∧ (i : Int) = d.month - 1 ∧ 1 + (work - days) = d.day ∧
      d.ofYear = work + if Leap year ∧ 59 ≤ work then 1 else 0 := by
  obtain ⟨i, hi, hrun, days, limit, hdays, hlimit, hle, hlt⟩ :=
    gmMonths_spec work 11 (Nat.le_refl 11) ⟨365, rfl, by omega⟩
  have hmonth : days = commonSum (i + 1) ∧ limit ≤ days + monthDays year (i + 1) ∧
      (i + 1 ≤ 2 ∧ limit ≤ 59 ∨ 2 < i + 1 ∧ 59 ≤ days) := by
    have hfeb : 28 ≤ monthDays year 2 := by
      show 28 ≤ if Leap year then 29 else 28
      split <;> decide
    clear hrun
    interval_cases i <;> cases hdays <;> cases hlimit <;> simp only [Nat.reduceAdd]
    case «1» => exact ⟨rfl, by omega, .inl ⟨by decide, by decide⟩⟩
    case «0» => exact ⟨rfl, by simp [monthDays], .inl ⟨by decide, by decide⟩⟩
    all_goals exact ⟨rfl, by simp [monthDays], .inr ⟨by decide, by decide⟩⟩
  obtain ⟨hcommon, hlength, hside⟩ := hmonth
  obtain ⟨n, hn⟩ : ∃ n : Nat, days + n = work := ⟨(work - days).toNat, by omega⟩
  refine ⟨⟨year, i + 1, n + 1, by omega, by omega, by omega, by omega⟩, i, days, hrun, hdays, rfl,
    ?_, ?_, ?_⟩
  · push_cast
    omega
  · push_cast
    omega
  · show monthsSum year (i + 1) + (n + 1 - 1) = _
    rw [monthsSum_eq year (i + 1) (by omega) (by omega)]
    by_cases hleap : Leap year
    · simp only [hleap, true_and]
      split <;> split <;> omega
    · simp only [hleap, false_and, if_false]
      omega

/-- Of a day of a year, the member of the month and that of the day. -/
theorem gmDay_date {year r : Nat} (h : r < yearDays year) :
    ∃ (d : Date) (i : Nat) (days : Int),
      let late := isleap year = 1 ∧ (r : Int) > 58
      let mday : Int := if late ∧ (r : Int) = 59 then 2 else 1
      let work : Int := if late then r - 1 else r
      gmMonths work 11 = some i ∧ spm i = some days ∧ d.year = year ∧ (i : Int) = d.month - 1 ∧
        mday + (work - days) = d.day ∧ d.ofYear = r := by
  have hleap : isleap year = 1 ↔ Leap year := by
    rw [isleap_eq]
    split <;> simp_all
  unfold yearDays at h
  simp only [hleap]
  by_cases hlate : Leap year ∧ (r : Int) > 58
  · rw [if_pos hlate.1] at h
    simp only [hlate, true_and]
    by_cases hday : r = 59
    · -- the leap day is looked up as the day in front of it
      subst hday
      have hlast : 29 ≤ monthDays year 2 := by
        show 29 ≤ if Leap year then 29 else 28
        rw [if_pos hlate.1]
      exact ⟨⟨year, 2, 29, by decide, by decide, by decide, hlast⟩, 1, 31, rfl, rfl, rfl, rfl, rfl,
        rfl⟩
    · obtain ⟨d, i, days, hrun, hdays, hyear, hmonth, hd, hof⟩ :=
        gmMonths_date year (show r - 1 < 365 by omega)
      have hcast : ((r - 1 : Nat) : Int) = r - 1 := by omega
      rw [hcast] at hrun hd
      rw [if_pos ⟨hlate.1, by omega⟩] at hof
      have hother : ¬ (r : Int) = 59 := by omega
      refine ⟨d, i, days, hrun, hdays, hyear, hmonth, ?_, by omega⟩
      rw [if_neg hother]
      exact hd
  · have hfew : r < 365 := by
      by_cases hl : Leap year
      · have hearly : ¬ (r : Int) > 58 := fun hr => hlate ⟨hl, hr⟩
        omega
      · rw [if_neg hl] at h
        exact h
    obtain ⟨d, i, days, hrun, hdays, hyear, hmonth, hd, hof⟩ := gmMonths_date year hfew
    simp only [hlate, false_and, if_false]
    refine ⟨d, i, days, hrun, hdays, hyear, hmonth, hd, ?_⟩
    rw [hof, if_neg fun hboth => hlate ⟨hboth.1, by omega⟩, Nat.add_zero]

/-! ## The date of a time -/

theorem tdiv_cast (m n : Nat) : (m : Int).tdiv (no_index (OfNat.ofNat n)) = (m / n : Nat) := by
  rw [Int.tdiv_eq_ediv_of_nonneg (Int.natCast_nonneg m)]
  exact (Int.natCast_ediv m n).symm

theorem tmod_cast (m n : Nat) : (m : Int).tmod (no_index (OfNat.ofNat n)) = (m % n : Nat) := by
  rw [Int.tmod_eq_emod_of_nonneg (Int.natCast_nonneg m)]
  exact (Int.natCast_emod m n).symm

/-- **From 1970 on, gmtime_r gives the Gregorian date and the time of day.** -/
theorem gmtime_calendar {t : Nat} (hhigh : t < 2 ^ 55) :
    ∃ (d : Date) (hh mm ss : Nat), 1970 ≤ d.year ∧ d.year < 2 ^ 31 ∧ hh < 24 ∧ mm < 60 ∧ ss < 60 ∧
      instant d hh mm ss = t ∧
      gmtimeR t = some (tmOf d hh mm ss ((4 + d.daysSince 1970) % 7 : Nat) d.ofYear) := by
  obtain ⟨year, r, hyears, hlow, hyear, hr, hsum⟩ :=
    gmYears_spec (t / 86400 / 365 + 1) 1970 (t / 86400) (Nat.le_refl _) (Nat.lt_succ_self _)
      (by omega)
  have hint : ∀ x : Int, -1900 ≤ x → x < 2 ^ 31 → wrap 32 x = x := fun x hlow hhigh =>
    wrap_eq (Nat.le_refl 32) (by omega) hhigh
  have hleap : wrap 32 (year : Int) = year := hint _ (by omega) (by omega)
  have hfields : wrap 32 ((year : Int) - 1900) = year - 1900 := hint _ (by omega) (by omega)
  have hyday : wrap 32 (r : Int) = r := by
    have hfew : yearDays year ≤ 366 := by
      unfold yearDays
      split <;> decide
    exact hint _ (by omega) (by omega)
  obtain ⟨d, i, days, hmonths, hdays, rfl, hmonth, hday, hof⟩ := gmDay_date hr
  have hmday : wrap 32 (d.day : Int) = d.day := by
    have hle := d.day_le.trans (monthDays_le d.year d.month)
    exact hint _ (Int.le_trans (by decide) (Int.natCast_nonneg _)) (by clear hday; omega)
  have hstart : yearsSum 1970 1970 = 0 := by simp [yearsSum]
  have hsince : d.daysSince 1970 = t / 86400 := by
    rw [d.daysSince_eq, hof]
    omega
  refine ⟨d, t % 86400 / 60 / 60, t % 86400 / 60 % 60, t % 86400 % 60, hlow, hyear, by omega,
    by omega, by omega, ?_, ?_⟩
  · unfold instant
    rw [hsince]
    omega
  · have hfirst : ((1970 : Nat) : Int) = 1970 := rfl
    rw [hfirst] at hyears
    have hwday : (4 + ((t / 86400 : Nat) : Int)).tmod 7 = ((4 + t / 86400) % 7 : Nat) :=
      tmod_cast (4 + t / 86400) 7
    unfold gmtimeR
    simp only [tdiv_cast, tmod_cast, hwday, Int.toNat_natCast, Option.bind_eq_bind]
    rw [hyears, Option.bind_some]
    dsimp only
    rw [hleap, hfields, hyday, hmonths, Option.bind_some, hdays, Option.bind_some, hday, hmday, hmonth, hof, hsince]
    rfl

/-- A second of a leap day. -/
theorem gmtime_calendar_leap :
    ∃ (d : Date) (hh mm ss : Nat), 1970 ≤ d.year ∧ d.year < 2 ^ 31 ∧ hh < 24 ∧ mm < 60 ∧ ss < 60 ∧
      instant d hh mm ss = 951827696 ∧ gmtimeR (951827696 : Nat) =
        some (tmOf d hh mm ss ((4 + d.daysSince 1970) % 7 : Nat) d.ofYear) :=
  gmtime_calendar (by decide)

/-! ## timegm of any date from 1970 -/

theorem wrap_fits {bits : Nat} (hbits : 32 ≤ bits) {x : Int} (hlow : -2 ^ (bits - 1) ≤ x)
    (hhigh : x < 2 ^ (bits - 1)) : wrap bits x = x := by
  have hpow : (2 : Int) ^ bits = 2 ^ (bits - 1) * 2 := by
    rw [← pow_succ, Nat.sub_add_cancel (by omega)]
  unfold wrap
  apply Int.bmod_eq_of_le <;> push_cast <;> omega

/-- The corrections for the centuries leave the days of the years. -/
theorem centuries_eq {year : Nat} (hlow : 1970 ≤ year) :
    centuries ((year : Int) - 1970) (((year : Int) - 1970) * 365 + ((year : Int) - 1970 + 1) / 4) =
      yearsSum 1970 year := by
  have hsum := yearsSum_leaps 1970 year (by decide) hlow
  have hstart : leaps (1970 - 1) = 477 := by decide
  rw [hstart] at hsum
  unfold leaps at hsum
  unfold centuries
  by_cases hlate : (year : Int) - 1970 ≥ 131
  · have htdiv : ((year : Int) - 1970 - 131).tdiv 100 = ((year : Int) - 1970 - 131) / 100 :=
      Int.tdiv_eq_ediv_of_nonneg (by omega)
    have hfdiv : (((year : Int) - 1970 - 131) / 100).fdiv 4 =
        ((year : Int) - 1970 - 131) / 100 / 4 := Int.fdiv_eq_ediv_of_nonneg _ (by decide)
    have hemod : (((year : Int) - 1970 - 131) / 100).emod 4 =
        ((year : Int) - 1970 - 131) / 100 % 4 := rfl
    rw [if_pos hlate]
    dsimp only
    rw [htdiv, hfdiv, hemod]
    split <;> omega
  · rw [if_neg hlate]
    omega

theorem yday_eq (d : Date) :
    (commonSum d.month : Int) + d.day - 1 +
      (if isleap d.year = 1 ∧ (d.month : Int) - 1 > 1 then 1 else 0) = d.ofYear := by
  have hday := d.day_pos
  have hcond : (isleap d.year = 1 ∧ (d.month : Int) - 1 > 1) ↔ (Leap d.year ∧ 2 < d.month) := by
    rw [isleap_eq]
    by_cases hleap : Leap d.year
    · rw [if_pos hleap]
      simp only [hleap, true_and]
      omega
    · simp [hleap]
  simp only [hcond]
  unfold Date.ofYear
  rw [monthsSum_eq d.year d.month d.month_pos d.month_le]
  split <;> omega

/-- timegm of a date is its instant, and the two members it fills in are those of the date. -/
theorem timegm_date {bits : Nat} (hbits : 32 ≤ bits) (hlow : 1970 ≤ d.year)
    (hhigh : d.year < 2 ^ 31) (hhour : hh < 24) (hmin : mm < 60) (hsec : ss < 60)
    (hfits : instant d hh mm ss < 2 ^ (bits - 1)) :
    timegm bits (tmOf d hh mm ss wday yday) = some ((instant d hh mm ss : Int),
      tmOf d hh mm ss ((4 + d.daysSince 1970) % 7 : Nat) d.ofYear) := by
  have hyear : (tmOf d hh mm ss wday yday).year = (d.year : Int) - 1900 := rfl
  have hmon : (tmOf d hh mm ss wday yday).mon = (d.month : Int) - 1 := rfl
  have hmday : (tmOf d hh mm ss wday yday).mday = d.day := rfl
  obtain ⟨hspm, -⟩ := spm_tmOf d
  have hpow : (2 : Int) ^ 31 ≤ 2 ^ (bits - 1) := by
    exact_mod_cast Nat.pow_le_pow_right (n := 2) (by decide) (by omega : 31 ≤ bits - 1)
  have hsince : (instant d hh mm ss : Int) =
      (((yearsSum 1970 d.year + d.ofYear : Nat) * 24 + hh) * 60 + mm) * 60 + ss := by
    unfold instant
    rw [d.daysSince_eq]
    push_cast
    rfl
  have hfits : (instant d hh mm ss : Int) < 2 ^ (bits - 1) := by exact_mod_cast hfits
  have hcount := yearsSum_leaps 1970 d.year (by decide) hlow
  have hyears : wrap bits ((d.year : Int) - 1900 - 70) = (d.year : Int) - 1970 := by
    rw [wrap_fits hbits (by omega) (by omega)]
    omega
  have hdiv : ((d.year : Int) - 1970 + 1).tdiv 4 = ((d.year : Int) - 1970 + 1) / 4 :=
    Int.tdiv_eq_ediv_of_nonneg (by omega)
  have hday : wrap bits (((d.year : Int) - 1970) * 365 + ((d.year : Int) - 1970 + 1) / 4) =
      ((d.year : Int) - 1970) * 365 + ((d.year : Int) - 1970 + 1) / 4 := by
    unfold leaps at hcount
    apply wrap_fits hbits <;> omega
  have hback : (d.year : Int) - 1900 + 1900 = d.year := by omega
  unfold timegm
  rw [carry_tmOf hhour hmin hsec, normalizeDays_tmOf]
  simp only [Option.bind_eq_bind, Option.bind_some, Option.pure_def]
  rw [if_neg (by rw [hyear]; omega), hmon, hspm, hyear, hyears, hdiv, hday, centuries_eq hlow,
    hback, hmday]
  simp only [Option.bind_some, yday_eq]
  have hwday : ((yearsSum 1970 d.year : Int) + d.ofYear + 4).tmod 7 =
      ((4 + d.daysSince 1970) % 7 : Nat) := by
    have hsum : ((yearsSum 1970 d.year : Int) + d.ofYear + 4) = (4 + d.daysSince 1970 : Nat) := by
      rw [d.daysSince_eq]
      omega
    rw [hsum]
    exact tmod_cast (4 + d.daysSince 1970) 7
  refine congrArg some (Prod.ext ?_ ?_)
  · show wrap bits (((((yearsSum 1970 d.year : Int) + d.ofYear) * 24 + hh) * 60 + mm) * 60 + ss) = _
    rw [← Nat.cast_add, ← hsince]
    exact wrap_fits hbits (by omega) hfits
  · dsimp only
    rw [hwday]
    rfl

/-! ## In front of 1970 -/

/-- In front of 1970 the day of January is what is left. -/
theorem gmMonths_early {work : Int} (hwork : work ≤ 0) (n : Nat) (hn : n ≤ 11) :
    gmMonths work n = some 0 := by
  induction n with
  | zero => rfl
  | succ n ih =>
    obtain ⟨days, hdays, hbig⟩ := spm_isSome (i := (n : Int) + 1) (by omega) (by omega)
    rw [gmMonths, hdays]
    simp only [Option.bind_eq_bind, Option.bind_some]
    rw [if_pos (by omega), ih (by omega)]

theorem gmtime_early {t : Nat} (hhigh : t ≤ 2 ^ 47) :
    gmtimeR (-(t : Int)) = some {
      sec := -(t % 86400 % 60 : Nat), min := -(t % 86400 / 60 % 60 : Nat)
      hour := -(t % 86400 / 60 / 60 : Nat), mday := 1 + -((t / 86400 : Nat) : Int), mon := 0, year := 70
      wday := (4 + -((t / 86400 : Nat) : Int) : Int).tmod 7, yday := -((t / 86400 : Nat) : Int) } := by
  have hint : ∀ x : Int, -2 ^ 31 ≤ x → x ≤ 70 → wrap 32 x = x := fun x hlow hhigh =>
    wrap_eq (Nat.le_refl 32) hlow (by omega)
  have hyears : gmYears ((-((t / 86400 : Nat) : Int)).toNat / 365 + 1) 1970 (-((t / 86400 : Nat) : Int)) =
      some (1970, -((t / 86400 : Nat) : Int)) := by
    have hzero : (-((t / 86400 : Nat) : Int)).toNat = 0 := by omega
    rw [hzero]
    have hk : ¬ (-((t / 86400 : Nat) : Int)) ≥ if isleap (wrap 32 1970) = 1 then 366 else 365 := by
      split <;> omega
    exact if_neg hk
  have hlate : ¬ (isleap (wrap 32 1970) = 1 ∧ (-((t / 86400 : Nat) : Int)) > 58) := by
    rintro ⟨-, hmore⟩
    omega
  have hmonths := gmMonths_early (show -((t / 86400 : Nat) : Int) ≤ 0 by omega) 11 (Nat.le_refl 11)
  have hzero : spm (0 : Nat) = some 0 := rfl
  have hwork : (-(t : Int)).tmod 86400 = -(t % 86400 : Nat) := by
    rw [Int.neg_tmod, tmod_cast]
  unfold gmtimeR
  simp only [hwork, Int.neg_tdiv, Int.neg_tmod, tdiv_cast, tmod_cast, Option.bind_eq_bind]
  rw [hyears, Option.bind_some]
  dsimp only
  rw [if_neg hlate, if_neg fun h => hlate h.1, hmonths, Option.bind_some, hzero, Option.bind_some,
    hint (1970 - 1900) (by decide) (by decide), hint (-((t / 86400 : Nat) : Int)) (by omega) (by omega),
    Int.sub_zero, hint (1 + -((t / 86400 : Nat) : Int)) (by omega) (by omega)]
  rfl

theorem timegm_early (bits : Nat) {sec min hour day wday yday : Int} (hsec : sec ≤ 60)
    (hmin : min ≤ 60) (hhour : hour ≤ 24) (hday : day ≤ 30) :
    timegm bits ⟨sec, min, hour, 1 + day, 0, 70, wday, yday⟩ =
      some (wrap bits (((day * 24 + hour) * 60 + min) * 60 + sec),
        ⟨sec, min, hour, 1 + day, 0, 70, (day + 4).tmod 7, day⟩) := by
  let t : Tm := ⟨sec, min, hour, 1 + day, 0, 70, wday, yday⟩
  have hcarry : carry t = t := by
    apply carry_eq_self
    · exact Int.not_lt.mpr hsec
    · exact Int.not_lt.mpr hmin
    · exact Int.not_lt.mpr hhour
    · exact Int.not_lt.mpr (show (0 : Int) ≤ 12 by decide)
  have hloop : normalizeDays (2 * t.mday.toNat + 2) t = some t := by
    have hlimit : spm (1 + t.mon) = some 31 := rfl
    rw [normalizeDays, hlimit]
    simp only [Option.bind_eq_bind, Option.bind_some]
    rw [if_neg (show ¬ (1 + day : Int) > 31 by omega)]
    rfl
  have hyears : wrap bits ((70 : Int) - 70) = 0 := Int.zero_bmod
  have hstart : centuries 0 (wrap bits (0 * 365 + (0 + 1 : Int).tdiv 4)) = 0 := by
    have hzero : wrap bits (0 * 365 + (0 + 1 : Int).tdiv 4) = 0 := Int.zero_bmod
    rw [hzero]
    rfl
  have hspm : spm t.mon = some 0 := rfl
  have hyday : (0 : Int) + (1 + day) - 1 + (if isleap (70 + 1900) = 1 ∧ (0 : Int) > 1 then 1 else 0) =
      day := by
    rw [if_neg fun h => absurd h.2 (by decide)]
    omega
  show timegm bits t = _
  unfold timegm
  rw [hcarry, hloop]
  simp only [Option.bind_eq_bind, Option.bind_some, Option.pure_def]
  rw [if_neg (show ¬ (70 : Int) < 70 by decide), hspm]
  dsimp only [t, Option.bind_some]
  rw [hyears, hstart, hyday, Int.zero_add]

/-! ## There and back -/

/-- The bounds inside of which both ways go through: the days and the years fit an int. -/
structure TimeFits (bits : Nat) (t : Int) : Prop where
  low : -2 ^ 47 ≤ t
  high : t < 2 ^ 55
  fits : -2 ^ (bits - 1) ≤ t ∧ t < 2 ^ (bits - 1)

theorem timegm_gmtime {bits : Nat} (hbits : 32 ≤ bits) {t : Int} (h : TimeFits bits t) :
    ∃ u, gmtimeR t = some u ∧ timegm bits u = some (t, u) := by
  obtain ⟨hlow, hhigh, hfits⟩ := h
  rcases Int.le_total 0 t with hpos | hneg
  · obtain ⟨n, rfl⟩ := Int.eq_ofNat_of_zero_le hpos
    obtain ⟨d, hh, mm, ss, hyear, hlast, hhour, hmin, hsec, hinstant, hrun⟩ :=
      gmtime_calendar (t := n) (by omega)
    refine ⟨_, hrun, ?_⟩
    have hroom : instant d hh mm ss < 2 ^ (bits - 1) := by
      rw [hinstant]
      exact_mod_cast hfits.2
    rw [timegm_date hbits hyear hlast hhour hmin hsec hroom, hinstant]
  · obtain ⟨n, hn⟩ := Int.eq_ofNat_of_zero_le (Int.neg_nonneg_of_nonpos hneg)
    have ht : t = -(n : Int) := by omega
    subst ht
    refine ⟨_, gmtime_early (by omega), ?_⟩
    rw [timegm_early bits (by omega) (by omega) (by omega) (by omega)]
    have htime : ((-((n / 86400 : Nat) : Int) * 24 + -((n % 86400 / 60 / 60 : Nat) : Int)) * 60 +
        -((n % 86400 / 60 % 60 : Nat) : Int)) * 60 + -((n % 86400 % 60 : Nat) : Int) = -n := by
      omega
    rw [htime, wrap_fits hbits hfits.1 hfits.2, Int.add_comm _ 4]

/-- **Every time comes back**: from gmtime_r through timegm, and from localtime_r through mktime,
which leave the structure as it is. -/
theorem time_roundtrip {bits : Nat} (hbits : 32 ≤ bits) {t : Int} (h : TimeFits bits t)
    (hlocal : TimeFits bits (t + 28800)) :
    (∃ u, gmtimeR t = some u ∧ timegm bits u = some (t, u)) ∧
      ∃ u, localtimeR bits t = some u ∧ mktime bits u = some (t, u) := by
  refine ⟨timegm_gmtime hbits h, ?_⟩
  obtain ⟨u, hrun, hback⟩ := timegm_gmtime hbits hlocal
  have htz : t + tzGet * 3600 = t + 28800 := rfl
  have hsub : 3600 * tzGet = 28800 := rfl
  refine ⟨u, ?_, ?_⟩
  · rw [localtimeR, htz, wrap_fits hbits hlocal.fits.1 hlocal.fits.2, hrun]
  · unfold mktime
    rw [hback]
    simp only [Option.bind_eq_bind, Option.bind_some, Option.pure_def]
    rw [hsub, Int.add_sub_cancel, wrap_fits hbits h.fits.1 h.fits.2]

/-- The last second of 1969 in UTC, which is 1970 in the default timezone. -/
theorem time_roundtrip_early :
    (∃ u, gmtimeR (-1) = some u ∧ timegm 64 u = some (-1, u)) ∧
      ∃ u, localtimeR 64 (-1) = some u ∧ mktime 64 u = some (-1, u) :=
  time_roundtrip (by decide) ⟨by decide, by decide, by decide⟩ ⟨by decide, by decide, by decide⟩

/-- **Every date comes back**: timegm of a date from 1970 is its instant, from which gmtime_r makes
the structure that timegm left. -/
theorem date_roundtrip {bits : Nat} (hbits : 32 ≤ bits) (hlow : 1970 ≤ d.year) (hhour : hh < 24)
    (hmin : mm < 60) (hsec : ss < 60) (hhigh : instant d hh mm ss < 2 ^ 55)
    (hfits : instant d hh mm ss < 2 ^ (bits - 1)) :
    let u := tmOf d hh mm ss ((4 + d.daysSince 1970) % 7 : Nat) d.ofYear
    timegm bits (tmOf d hh mm ss wday yday) = some ((instant d hh mm ss : Int), u) ∧
      gmtimeR (instant d hh mm ss) = some u := by
  obtain ⟨e, h', m', s', heyear, helast, hhour', hmin', hsec', hinstant, hrun⟩ :=
    gmtime_calendar hhigh
  have hsame : e.daysSince 1970 = d.daysSince 1970 ∧ h' = hh ∧ m' = mm ∧ s' = ss := by
    unfold instant at hinstant
    omega
  obtain ⟨hdays, rfl, rfl, rfl⟩ := hsame
  obtain rfl := Date.daysSince_inj heyear hlow hdays
  exact ⟨timegm_date hbits hlow helast hhour hmin hsec hfits, hrun⟩

/-- The leap day of 2400, behind the three centuries without one. -/
theorem date_roundtrip_leap :
    let d : Date := ⟨2400, 2, 29, by decide, by decide, by decide, by decide⟩
    let u := tmOf d 23 59 59 ((4 + d.daysSince 1970) % 7 : Nat) d.ofYear
    timegm 64 (tmOf d 23 59 59 0 0) = some ((instant d 23 59 59 : Int), u) ∧
      gmtimeR (instant d 23 59 59) = some u :=
  date_roundtrip (by decide) (by decide) (by decide) (by decide) (by decide) (by decide +kernel)
    (by decide +kernel)

end RttNmea
