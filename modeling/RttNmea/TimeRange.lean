import RttNmea.Grammar
import Mathlib.Tactic.IntervalCases

/-!
# What accepted times and dates mean

nmea_time_t documents the range of each member, and hsec as hundredths of a second. "%2d" and "%d"
read whatever strtol reads, in any range, and the fraction is taken as a number whatever its
length. Here are exactly the texts of accepted sentences for which the members mean what is
documented.
-/

namespace RttNmea

open CText

variable {D : Type} [CDouble D] {abi : Abi}

/-! ## Numbers of a few characters -/

/-- The number in a text behind its blanks, with its sign. -/
def signedDec (s : List Byte) : Int :=
  if (splitSign s).1 then -(leadingNat 10 (splitSign s).2 : Int) else leadingNat 10 (splitSign s).2

theorem isDigitOf_ten (b : Byte) : isDigitOf 10 b = isDigit b := by
  have table : ∀ k < 256, isDigitOf 10 (UInt8.ofNat k) = isDigit (UInt8.ofNat k) := by
    decide +kernel
  have := table b.toNat b.toNat_lt
  rwa [UInt8.ofNat_toNat] at this

/-- Nothing saturates. -/
theorem strtol_few (abi : Abi) {m : List Byte} (hlen : m.length ≤ 3) :
    strtol abi 10 m = signedDec ((text m).dropWhile isSpace) := by
  have hsmall : leadingNat 10 (splitSign ((text m).dropWhile isSpace)).2 < 1000 := by
    have hlt := @leadingNat_lt 10 (by decide) (splitSign ((text m).dropWhile isSpace)).2
    have hdigits := Nat.pow_le_pow_right (show 0 < 10 by decide)
      (Nat.le_trans (length_signText m) hlen)
    omega
  have hpow := abi.pow_long_ge
  have hten : (10 : Nat) ≠ 16 := by omega
  simp only [strtol, if_neg hten, longMin, longMax, signedDec]
  split <;> omega

/-- A digit counts, and nothing else does. -/
def digitOf (b : Byte) : Nat := if isDigit b then b.toNat - 48 else 0

theorem digitOf_le (b : Byte) : digitOf b ≤ 9 := by
  unfold digitOf isDigit
  split
  · rename_i h
    simp only [Bool.and_eq_true, decide_eq_true_eq] at h
    omega
  · omega

theorem signedDec_single (b : Byte) :
    signedDec ((text [b]).dropWhile isSpace) = digitOf b ∧ leadingNat 10 (text [b]) = digitOf b := by
  have table : ∀ k < 256,
      signedDec ((text [UInt8.ofNat k]).dropWhile isSpace) = digitOf (UInt8.ofNat k) ∧
        leadingNat 10 (text [UInt8.ofNat k]) = digitOf (UInt8.ofNat k) := by decide +kernel
  have := table b.toNat b.toNat_lt
  rwa [UInt8.ofNat_toNat] at this

/-- The number that strtol reads in two bytes. -/
def pairValue (a b : Byte) : Int :=
  if isDigit a then
    if isDigit b then 10 * digitOf a + digitOf b else digitOf a
  else if isSpace a ∨ a = ascii '+' then digitOf b
  else if a = ascii '-' then -(digitOf b : Int)
  else 0

theorem leadingNat_pair {a : Byte} (ha : isDigit a = true) (b : Byte) :
    leadingNat 10 (a :: text [b]) =
      if isDigit b then 10 * digitOf a + digitOf b else digitOf a := by
  have hval := digitVal_of_isDigit ha
  have hfirst : digitOf a = a.toNat - 48 := if_pos ha
  by_cases hb : isDigit b = true
  · have hb0 : b ≠ 0 := digit_ne (isSome_digitVal hb) (by decide)
    have hsecond : digitOf b = b.toNat - 48 := if_pos hb
    have htext : text [b] = [b] := by
      rw [text_cons hb0]
      rfl
    rw [if_pos hb, htext, hfirst, hsecond]
    simp [leadingNat, isDigitOf_ten, ha, hb, hval, digitVal_of_isDigit hb]
    omega
  · have hstop : (text [b]).takeWhile (isDigitOf 10) = [] := by
      by_cases h0 : b = 0
      · subst h0
        rfl
      · simp [text_cons h0, isDigitOf_ten, hb]
    rw [if_neg hb, hfirst]
    simp [leadingNat, isDigitOf_ten, ha, hval, hstop]

theorem strtol_pair (abi : Abi) (a b : Byte) : strtol abi 10 [a, b] = pairValue a b := by
  obtain ⟨hskip, hsign⟩ := signedDec_single b
  rw [strtol_few abi (by simp)]
  unfold pairValue
  by_cases ha : isDigit a = true
  · have hdigit := isSome_digitVal ha
    have ha0 : a ≠ 0 := digit_ne hdigit (by decide)
    have hplain := splitSign_plain (digit_ne hdigit (by decide)) (digit_ne hdigit (by decide))
      (text [b])
    rw [if_pos ha, text_cons ha0, List.dropWhile_cons, not_isSpace_of_digit hdigit]
    have hread := leadingNat_pair ha b
    simp only [Bool.false_eq_true, ↓reduceIte, signedDec, hplain, hread]
    split <;> rfl
  · rw [if_neg ha]
    by_cases ha0 : a = 0
    · subst ha0
      rfl
    · rw [text_cons ha0, List.dropWhile_cons]
      by_cases hspace : isSpace a = true
      · rw [if_pos hspace, hskip, if_pos (.inl hspace)]
      · rw [if_neg hspace]
        by_cases hminus : a = ascii '-'
        · have hnot : ¬ (isSpace a = true ∨ a = ascii '+') := by
            rw [hminus]
            decide
          rw [if_neg hnot, if_pos hminus, hminus, ← hsign]
          rfl
        · by_cases hplus : a = ascii '+'
          · rw [if_pos (.inr hplus), hplus, ← hsign]
            rfl
          · have hnot : ¬ (isSpace a = true ∨ a = ascii '+') := by
              rintro (h | h)
              · exact hspace h
              · exact hplus h
            have hstop : isDigitOf 10 a = false := by
              rw [isDigitOf_ten]
              simpa using ha
            rw [if_neg hnot, if_neg hminus, signedDec, splitSign_plain hminus hplus,
              leadingNat_stop hstop]
            rfl

/-- Two characters that are not above a number when both are digits, and not a minus and a digit
other than 0. -/
structure UpTo (most : Nat) (a b : Byte) : Prop where
  digits : isDigit a = true → isDigit b = true → 10 * digitOf a + digitOf b ≤ most
  minus : a = ascii '-' → digitOf b = 0

/-- They write a number from 1 on, alone or behind a blank or a plus. -/
def Positive (a b : Byte) : Prop :=
  if isDigit a then 0 < digitOf a ∨ 0 < digitOf b
  else (isSpace a = true ∨ a = ascii '+') ∧ 0 < digitOf b

instance (most : Nat) (a b : Byte) : Decidable (UpTo most a b) :=
  decidable_of_iff ((isDigit a = true → isDigit b = true → 10 * digitOf a + digitOf b ≤ most) ∧
      (a = ascii '-' → digitOf b = 0))
    ⟨fun h => ⟨h.1, h.2⟩, fun h => ⟨h.digits, h.minus⟩⟩

instance (a b : Byte) : Decidable (Positive a b) := by
  unfold Positive
  infer_instance

theorem digitOf_none {b : Byte} (h : ¬ isDigit b = true) : digitOf b = 0 := if_neg h

theorem pairValue_upTo {most : Nat} (hnine : 9 ≤ most) (a b : Byte) :
    0 ≤ pairValue a b ∧ pairValue a b ≤ most ↔ UpTo most a b := by
  have ha := digitOf_le a
  have hb := digitOf_le b
  unfold pairValue
  by_cases hdigit : isDigit a = true
  · have hminus : a ≠ ascii '-' := digit_ne (isSome_digitVal hdigit) (by decide)
    rw [if_pos hdigit]
    by_cases hboth : isDigit b = true
    · rw [if_pos hboth]
      constructor
      · intro h
        exact ⟨fun _ _ => by omega, fun e => absurd e hminus⟩
      · intro h
        have := h.digits hdigit hboth
        omega
    · rw [if_neg hboth]
      refine iff_of_true (by omega) ⟨fun _ h => absurd h hboth, fun e => absurd e hminus⟩
  · rw [if_neg hdigit]
    by_cases hskip : isSpace a = true ∨ a = ascii '+'
    · have hminus : a ≠ ascii '-' := by
        rintro rfl
        exact absurd hskip (by decide)
      rw [if_pos hskip]
      exact iff_of_true (by omega) ⟨fun h => absurd h hdigit, fun e => absurd e hminus⟩
    · rw [if_neg hskip]
      by_cases hminus : a = ascii '-'
      · rw [if_pos hminus]
        constructor
        · intro h
          exact ⟨fun h => absurd h hdigit, fun _ => by omega⟩
        · intro h
          have := h.minus hminus
          omega
      · rw [if_neg hminus]
        exact iff_of_true (by omega) ⟨fun h => absurd h hdigit, fun e => absurd e hminus⟩

theorem pairValue_pos (a b : Byte) : 1 ≤ pairValue a b ↔ Positive a b := by
  unfold pairValue Positive
  by_cases hdigit : isDigit a = true
  · rw [if_pos hdigit, if_pos hdigit]
    by_cases hboth : isDigit b = true
    · rw [if_pos hboth]
      omega
    · have hnone := digitOf_none hboth
      rw [if_neg hboth]
      omega
  · rw [if_neg hdigit, if_neg hdigit]
    by_cases hskip : isSpace a = true ∨ a = ascii '+'
    · rw [if_pos hskip]
      simp only [hskip, true_and]
      omega
    · rw [if_neg hskip]
      split <;> simp only [hskip, false_and, iff_false] <;> omega

/-- The number is from 1 to another. -/
structure FromOne (most : Nat) (a b : Byte) : Prop extends UpTo most a b where
  positive : Positive a b

theorem pairValue_fromOne {most : Nat} (hnine : 9 ≤ most) (a b : Byte) :
    1 ≤ pairValue a b ∧ pairValue a b ≤ most ↔ FromOne most a b := by
  constructor
  · rintro ⟨hlow, hhigh⟩
    exact ⟨(pairValue_upTo hnine a b).mp ⟨by omega, hhigh⟩, (pairValue_pos a b).mp hlow⟩
  · intro h
    exact ⟨(pairValue_pos a b).mpr h.positive, ((pairValue_upTo hnine a b).mpr h.toUpTo).2⟩

/-! ## The fraction -/

/-- hsec is the number of hundredths in the fraction, cut off. -/
structure Hundredths (frac : List Byte) (hsec : Int) : Prop where
  range : 0 ≤ hsec ∧ hsec ≤ 99
  value : (∀ b ∈ frac, isDigit b = true) → hsec = leadingNat 10 frac * 100 / 10 ^ frac.length

/-- Two digits, or zeros, or a text with something else in it whose number is not negative. -/
def FractionOk (frac : List Byte) : Prop :=
  if frac.all isDigit then frac.length = 2 ∨ leadingNat 10 frac = 0
  else ∀ rest, frac.dropWhile isSpace = ascii '-' :: rest → leadingNat 10 rest = 0

theorem leadingNat_digits (s : List Byte) :
    leadingNat 10 s < 10 ^ (s.takeWhile isDigit).length := by
  have hten : isDigitOf 10 = isDigit := funext isDigitOf_ten
  have hsame : leadingNat 10 (s.takeWhile isDigit) = leadingNat 10 s := by
    unfold leadingNat
    rw [hten, List.takeWhile_takeWhile]
    simp
  rw [← hsame]
  exact leadingNat_lt (by decide) _

theorem splitSign_suffix (s : List Byte) : (splitSign s).2 <:+ s := by
  cases s with
  | nil => exact List.suffix_refl _
  | cons b s =>
    rw [splitSign]
    split
    · exact List.suffix_cons b s
    · split
      · exact List.suffix_cons b s
      · exact List.suffix_refl _

/-- A text of three characters that are not all digits has at most two digits in a row. -/
theorem signedDec_le {frac : List Byte} (hlen : frac.length ≤ 3)
    (hother : ¬ ∀ b ∈ frac, isDigit b = true) :
    leadingNat 10 (splitSign (frac.dropWhile isSpace)).2 ≤ 99 := by
  have hbound := leadingNat_digits (splitSign (frac.dropWhile isSpace)).2
  have htwo : ((splitSign (frac.dropWhile isSpace)).2.takeWhile isDigit).length ≤ 2 := by
    have hprefix := (@List.takeWhile_prefix _ (splitSign (frac.dropWhile isSpace)).2 isDigit).length_le
    have hsign := splitSign_length (frac.dropWhile isSpace)
    have hspace := (@List.dropWhile_suffix _ frac isSpace).length_le
    by_contra hthree
    -- then nothing was taken off, and all of it are digits
    apply hother
    have hdrop : frac.dropWhile isSpace = frac :=
      (@List.dropWhile_suffix _ frac isSpace).eq_of_length (by omega)
    have hsplit : (splitSign frac).2 = frac := by
      rw [hdrop] at hprefix hthree
      exact (splitSign_suffix frac).eq_of_length (by have := (splitSign_suffix frac).length_le; omega)
    rw [hdrop, hsplit] at hprefix hthree
    have hall : frac.takeWhile isDigit = frac :=
      (List.takeWhile_prefix isDigit).eq_of_length (by omega)
    exact List.takeWhile_eq_self_iff.mp hall
  have hpow := Nat.pow_le_pow_right (show 0 < 10 by decide) htwo
  omega

theorem hundredths_digits {v n : Nat} (hv : v < 10 ^ n) (hn : n ≤ 3) :
    (0 ≤ (v : Int) ∧ (v : Int) ≤ 99) ∧ (v : Int) = v * 100 / 10 ^ n ↔ n = 2 ∨ v = 0 := by
  interval_cases n <;> omega

theorem signedDec_nonneg (s : List Byte) :
    0 ≤ signedDec s ↔ ∀ rest, s = ascii '-' :: rest → leadingNat 10 rest = 0 := by
  cases s with
  | nil => exact iff_of_true (by decide) nofun
  | cons b s =>
    by_cases hminus : b = ascii '-'
    · simp only [signedDec, splitSign, if_pos hminus, ↓reduceIte]
      constructor
      · intro h rest heq
        cases heq
        omega
      · intro h
        have := h s (by rw [hminus])
        omega
    · refine iff_of_true ?_ fun rest heq => absurd (List.cons.inj heq).1 hminus
      simp only [signedDec, splitSign, if_neg hminus]
      split
      · exact Int.natCast_nonneg _
      · exact Int.natCast_nonneg _

/-- **hsec is the number of hundredths exactly if the fraction is as it should be.** -/
theorem hundredths_iff (abi : Abi) {frac : List Byte} (hlen : frac.length ≤ 3)
    (hnul : (0 : Byte) ∉ frac) : Hundredths frac (strtol abi 10 frac) ↔ FractionOk frac := by
  unfold FractionOk
  by_cases hdigits : ∀ b ∈ frac, isDigit b = true
  · have hbound := @leadingNat_lt 10 (by decide) frac
    have hread : strtol abi 10 frac = leadingNat 10 frac := by
      have hpow := Nat.pow_le_pow_right (show 0 < 10 by decide) hlen
      exact strtol_digits abi hdigits (by omega)
    rw [if_pos (List.all_eq_true.mpr hdigits), hread, ← hundredths_digits hbound hlen]
    exact ⟨fun h => ⟨h.range, h.value hdigits⟩, fun h => ⟨h.1, fun _ => h.2⟩⟩
  · have hmost := signedDec_le hlen hdigits
    rw [if_neg (mt List.all_eq_true.mp hdigits), strtol_few abi hlen, text_of_not_mem hnul,
      ← signedDec_nonneg]
    constructor
    · exact fun h => h.range.1
    · intro h
      refine ⟨⟨h, ?_⟩, fun hall => absurd hall hdigits⟩
      unfold signedDec
      split <;> omega

/-! ## The members -/

/-- The time members mean what nmea_time_t documents. -/
structure ClockMeans (t : List Byte) (utc : Time) : Prop where
  hour : 0 ≤ utc.hour.toInt ∧ utc.hour.toInt ≤ 23
  min : 0 ≤ utc.min.toInt ∧ utc.min.toInt ≤ 59
  sec : 0 ≤ utc.sec.toInt ∧ utc.sec.toInt ≤ 59
  hsec : Hundredths (t.drop 7) utc.hsec.toInt

/-- And so do those of the date. -/
structure DateMeans (utc : Time) : Prop where
  mon : 0 ≤ utc.mon.toInt ∧ utc.mon.toInt ≤ 11
  day : 1 ≤ utc.day.toInt ∧ utc.day.toInt ≤ 31

/-- A time text with numbers in range and a fraction of hundredths. -/
structure ClockInRange (t : List Byte) : Prop where
  hour : UpTo 23 (t.getD 0 0) (t.getD 1 0)
  min : UpTo 59 (t.getD 2 0) (t.getD 3 0)
  sec : UpTo 59 (t.getD 4 0) (t.getD 5 0)
  frac : FractionOk (t.drop 7)

/-- The first four of the six bytes of the date: day and month. -/
structure DateInRange (date : List Byte) : Prop where
  day : FromOne 31 (date.getD 0 0) (date.getD 1 0)
  mon : FromOne 12 (date.getD 2 0) (date.getD 3 0)

theorem take_two {t : List Byte} {i : Nat} (hi : i + 2 ≤ t.length) :
    (t.drop i).take 2 = [t.getD i 0, t.getD (i + 1) 0] := by
  have h0 : i < t.length := by omega
  have h1 : i + 1 < t.length := by omega
  have hget : ∀ {k}, (hk : k < t.length) → t.getD k 0 = t[k] := by
    intro k hk
    rw [List.getD_eq_getElem?_getD, List.getElem?_eq_getElem hk]
    rfl
  rw [List.drop_eq_getElem_cons h0, List.drop_eq_getElem_cons h1, hget h0, hget h1]
  rfl

theorem pairValue_bounds (a b : Byte) : -9 ≤ pairValue a b ∧ pairValue a b ≤ 99 := by
  have ha := digitOf_le a
  have hb := digitOf_le b
  unfold pairValue
  split
  · split <;> omega
  · split
    · omega
    · split <;> omega

/-- "%2d" reads the value of its two bytes. -/
theorem toInt_pairAt (abi : Abi) {t : List Byte} {i : Nat} (hi : i + 2 ≤ t.length) :
    (pairAt abi t i).toInt = pairValue (t.getD i 0) (t.getD (i + 1) 0) := by
  obtain ⟨hlow, hhigh⟩ := pairValue_bounds (t.getD i 0) (t.getD (i + 1) 0)
  have hshort : [t.getD i 0, t.getD (i + 1) 0].length < nmeaConvStrBuf :=
    (by decide : 2 < nmeaConvStrBuf)
  unfold pairAt
  rw [take_two hi, nmeaAtoi, if_pos hshort, strtol_pair]
  exact Int32.toInt_ofInt_of_le (by omega) (by omega)

theorem TimeText.bounds {t : List Byte} (h : TimeText t) : 6 ≤ t.length ∧ (t.drop 7).length ≤ 3 := by
  rw [List.length_drop]
  rcases h with h | h <;> omega

theorem strtol_few_bounds (abi : Abi) {m : List Byte} (hlen : m.length ≤ 3) :
    -1000 < strtol abi 10 m ∧ strtol abi 10 m < 1000 := by
  have hlt := @leadingNat_lt 10 (by decide) (splitSign ((text m).dropWhile isSpace)).2
  have hpow := Nat.pow_le_pow_right (show 0 < 10 by decide) (Nat.le_trans (length_signText m) hlen)
  rw [strtol_few abi hlen]
  unfold signedDec
  split <;> omega

theorem toInt_hsec (abi : Abi) {t : List Byte} (h : TimeText t) :
    (timeRead abi t {}).hsec.toInt = strtol abi 10 (t.drop 7) := by
  obtain ⟨hmin, hfrac⟩ := h.bounds
  have hshort : (t.drop 7).length < nmeaConvStrBuf := Nat.lt_of_le_of_lt hfrac (by decide)
  show (if t.length = 6 then (0 : Int32) else nmeaAtoi abi (t.drop 7) 10).toInt = _
  split
  · rename_i hsix
    have hnone : t.drop 7 = [] := List.drop_eq_nil_of_le (by omega)
    have hzero := @strtol_digits abi [] (fun b hb => absurd hb List.not_mem_nil) (by decide)
    rw [hnone, hzero]
    rfl
  · obtain ⟨hlow, hhigh⟩ := strtol_few_bounds abi hfrac
    rw [nmeaAtoi, if_pos hshort]
    exact Int32.toInt_ofInt_of_le (by omega) (by omega)

/-- **The members read from a time text mean what they should exactly if it is in range.** -/
theorem clockMeans_iff (abi : Abi) {t : List Byte} (h : TimeText t) (hnul : (0 : Byte) ∉ t)
    {utc : Time} (hhour : utc.hour = pairAt abi t 0) (hmin : utc.min = pairAt abi t 2)
    (hsec : utc.sec = pairAt abi t 4) (hhsec : utc.hsec = (timeRead abi t {}).hsec) :
    ClockMeans t utc ↔ ClockInRange t := by
  obtain ⟨hlen, hfrac⟩ := h.bounds
  have hhour' := pairValue_upTo (by decide : 9 ≤ 23) (t.getD 0 0) (t.getD 1 0)
  have hmin' := pairValue_upTo (by decide : 9 ≤ 59) (t.getD 2 0) (t.getD 3 0)
  have hsec' := pairValue_upTo (by decide : 9 ≤ 59) (t.getD 4 0) (t.getD 5 0)
  have hhsec' := hundredths_iff abi hfrac fun h0 => hnul (List.mem_of_mem_drop h0)
  rw [← toInt_pairAt abi (by omega), ← hhour] at hhour'
  rw [← toInt_pairAt abi (by omega), ← hmin] at hmin'
  rw [← toInt_pairAt abi (by omega), ← hsec] at hsec'
  rw [← toInt_hsec abi h, ← hhsec] at hhsec'
  constructor
  · intro hm
    exact ⟨hhour'.mp hm.hour, hmin'.mp hm.min, hsec'.mp hm.sec, hhsec'.mp hm.hsec⟩
  · intro hr
    exact ⟨hhour'.mpr hr.hour, hmin'.mpr hr.min, hsec'.mpr hr.sec, hhsec'.mpr hr.frac⟩

/-! ## Accepted sentences -/

/-- The text behind a number of commas. -/
def behindCommas : Nat → List Byte → List Byte
  | 0, s => s
  | n + 1, s => behindCommas n ((s.dropWhile (· ≠ comma)).drop 1)

/-- The text the time is read from: the first field, or what the stack holds if that is null. -/
def timeField (tb buff : List Byte) : List Byte :=
  let f := (buff.drop 7).takeWhile (· ≠ comma)
  text (if f = [] then tb else f)

/-- The six bytes the date is read from. -/
def dateField (buff : List Byte) : List Byte := (behindCommas 8 (buff.drop 7)).take 6

theorem takeWhile_comma {f : List Byte} (hf : comma ∉ f) (rest : List Byte) :
    (f ++ comma :: rest).takeWhile (· ≠ comma) = f ∧
      ((f ++ comma :: rest).dropWhile (· ≠ comma)).drop 1 = rest := by
  have hall : ∀ b ∈ f, decide (b ≠ comma) = true := by
    intro b hb
    simpa using fun h : b = comma => hf (h ▸ hb)
  constructor
  · rw [takeWhile_stop (by decide), List.takeWhile_eq_self_iff]
    exact hall
  · rw [dropWhile_stop (by decide), List.dropWhile_eq_nil_iff.mpr hall]
    rfl

theorem behindCommas_fields {fs : List (List Byte)} (hfs : ∀ f ∈ fs, comma ∉ f) (rest : List Byte) :
    behindCommas fs.length (commaText fs ++ rest) = rest := by
  induction fs with
  | nil => rfl
  | cons f fs ih =>
    have htext : commaText (f :: fs) ++ rest = f ++ comma :: (commaText fs ++ rest) := by
      simp [commaText]
    rw [htext, List.length_cons, behindCommas, (takeWhile_comma (hfs f List.mem_cons_self) _).2]
    exact ih fun g hg => hfs g (List.mem_cons_of_mem _ hg)

/-- The time text is what the first argument leaves in time_buff. -/
theorem text_timeField {args : List (Option (Stored D))} {f rest : List Byte} (hf : comma ∉ f)
    {head : List Byte} (hhead : head.length = 7)
    (hargs : args.head? = some (stores abi .str f)) (tb : List Byte) :
    text (timeBuffAfter tb args) = timeField tb (head ++ (f ++ comma :: rest)) := by
  have hfield : ((head ++ (f ++ comma :: rest)).drop 7).takeWhile (· ≠ comma) = f := by
    rw [← hhead, List.drop_left]
    exact (takeWhile_comma hf rest).1
  have hcut : ∀ m, text (f ++ 0 :: m) = text f := fun m => takeWhile_stop (by decide) f m
  unfold timeField timeBuffAfter
  rw [hfield, hargs, stores, stored]
  dsimp only
  by_cases hnull : f = []
  · rw [if_pos hnull, if_pos hnull]
  · rw [if_neg hnull, if_neg hnull]
    exact hcut _

theorem text_no_nul (m : List Byte) : (0 : Byte) ∉ text m := by
  intro h
  have := List.mem_takeWhile_imp h
  simp at this

/-- A row that starts with a time: where it is read from, and what is behind the fields. -/
theorem row_time {head : List Byte} (hhead : head.length = 7) {ks : List Conv} {items : List Item}
    {buff : List Byte} (h : ks.length + 2 ≤ (scanItems abi
      (head.map Item.lit ++ (commaItems (.str :: ks) ++ items)) buff :
        Nat × List (Option (Stored D))).1) (tb : List Byte) :
    text (timeBuffAfter tb (scanItems (D := D) abi
        (head.map Item.lit ++ (commaItems (.str :: ks) ++ items)) buff).2) = timeField tb buff := by
  have hpos : (scanItems abi (head.map Item.lit ++ (commaItems (.str :: ks) ++ items)) buff :
      Nat × List (Option (Stored D))).1 ≠ 0 := by omega
  obtain ⟨behind, rfl⟩ := scan_lits_inv hpos
  rw [scan_lits] at h ⊢
  have hge : (.str :: ks : List Conv).length + 1 ≤ (scanItems (D := D) abi
      (commaItems (.str :: ks) ++ items) behind).1 := h
  obtain ⟨fs, rest, hfs, rfl, -⟩ := (scan_commas_ge Nat.one_pos items behind).mp hge
  obtain ⟨f, fs', hf, -, rfl⟩ := List.forall₂_cons_left_iff.mp hfs
  have htext : commaText (f :: fs') ++ rest = f ++ comma :: (commaText fs' ++ rest) := by
    simp [commaText]
  rw [scan_commas hfs, htext]
  exact text_timeField hf.no_comma hhead rfl tb

/-- The time of an accepted GGA sentence. -/
theorem gga_time {tb buff : List Byte} {pack : Gga D} (h : nmeaParseGga abi tb buff = (1, pack)) :
    TimeText (timeField tb buff) ∧ pack.utc = timeRead abi (timeField tb buff) {} := by
  have hr : success (ggaBody abi tb buff : Bool × Gga D) = (1, pack) := h
  have hcode : (success (ggaBody abi tb buff : Bool × Gga D)).1 = 1 := congrArg Prod.fst hr
  have hpack : (ggaBody abi tb buff : Bool × Gga D).2 = pack := congrArg Prod.snd hr
  rw [success_iff] at hcode
  unfold ggaBody at hcode hpack
  dsimp only at hcode hpack
  by_cases hcount : (nmeaScanf abi buff ggaFormat : Nat × List (Option (Stored D))).1 = 14
  case neg =>
    rw [if_pos hcount] at hcode
    exact absurd hcode Bool.noConfusion
  case pos =>
    rw [if_neg (not_not.mpr hcount)] at hcode hpack
    have htime : text (timeBuffAfter tb (nmeaScanf abi buff ggaFormat :
        Nat × List (Option (Stored D))).2) = timeField tb buff := by
      have hrow : ggaRow = (cstr "$GPGGA,").map Item.lit ++
        (commaItems (.str :: ggaInit.tail) ++ [.field .int, .lit star]) := rfl
      rw [scanf_gga, hrow] at hcount ⊢
      have hge : ggaInit.tail.length + 2 ≤ (scanItems (D := D) abi ((cstr "$GPGGA,").map Item.lit ++
          (commaItems (.str :: ggaInit.tail) ++ [.field .int, .lit star])) buff).1 :=
        Nat.le_of_eq hcount.symm
      exact row_time (by decide) hge tb
    rw [htime] at hcode hpack
    obtain ⟨hiff, hread⟩ := @parseTime_iff D _ abi (timeField tb buff) {}
    have htext := hiff.mp (beq_iff_eq.mp hcode)
    rw [hread htext] at hpack
    exact ⟨htext, congrArg Gga.utc hpack.symm⟩

def rmcInit : List Conv := [.str, .chr, .dbl, .chr, .dbl, .chr, .dbl, .dbl]

theorem rmc_timeField {buff : List Byte}
    (hcount : 13 ≤ (nmeaScanf abi buff rmcFormat : Nat × List (Option (Stored D))).1)
    (tb : List Byte) :
    text (timeBuffAfter tb (nmeaScanf abi buff rmcFormat : Nat × List (Option (Stored D))).2) =
      timeField tb buff := by
  have hrow : rmcRow = (cstr "$GPRMC,").map Item.lit ++
    (commaItems (.str :: rmcInit.tail) ++ dateItems) := rfl
  rw [scanf_rmc, hrow] at hcount ⊢
  have hge : rmcInit.tail.length + 2 ≤ (scanItems (D := D) abi ((cstr "$GPRMC,").map Item.lit ++
      (commaItems (.str :: rmcInit.tail) ++ dateItems)) buff).1 :=
    Nat.le_trans (by decide) hcount
  exact row_time (by decide) hge tb

/-- The time of an accepted RMC sentence could be parsed. -/
theorem rmc_timeText {tb buff : List Byte} {pack : Rmc D}
    (h : nmeaParseRmc abi tb buff = (1, pack)) : TimeText (timeField tb buff) := by
  have hcode : (success (rmcBody abi tb buff : Bool × Rmc D)).1 = 1 := congrArg Prod.fst h
  obtain ⟨hcount, -⟩ := rmc_accepted h
  rw [success_iff] at hcode
  unfold rmcBody at hcode
  dsimp only at hcode
  rw [rmc_timeField hcount] at hcode
  split at hcode
  · exact absurd hcode Bool.noConfusion
  · split at hcode
    · exact absurd hcode Bool.noConfusion
    · rename_i hparse
      exact (parseTime_iff abi (timeField tb buff) _).1.mp (not_not.mp hparse)

/-- The time and the date of an accepted RMC sentence. -/
theorem rmc_time {tb buff : List Byte} {pack : Rmc D} (h : nmeaParseRmc abi tb buff = (1, pack)) :
    TimeText (timeField tb buff) ∧ (dateField buff).length = 6 ∧
      pack.utc =
        { timeRead abi (timeField tb buff) {} with
          day := pairAt abi (dateField buff) 0
          mon := pairAt abi (dateField buff) 2 - 1
          year := yearOf (pairAt abi (dateField buff) 4) } := by
  have htext := rmc_timeText h
  obtain ⟨hcount, hpack⟩ := rmc_accepted h
  have hpos : (scanItems (D := D) abi rmcRow buff).1 ≠ 0 := by
    rw [scanf_rmc] at hcount
    omega
  obtain ⟨behind, rfl⟩ := scan_lits_inv hpos
  obtain ⟨fs, date, declination, rest, hfs, hdate, hdecl, rfl⟩ := scan_accepted_shape hcount
  have hfield : dateField (cstr "$GPRMC," ++
      (commaText fs ++ (date ++ comma :: (declination ++ comma :: rest)))) = date := by
    have hdrop : (cstr "$GPRMC," ++ (commaText fs ++
        (date ++ comma :: (declination ++ comma :: rest)))).drop 7 =
        commaText fs ++ (date ++ comma :: (declination ++ comma :: rest)) := rfl
    have height : fs.length = 8 := hfs.length_eq.symm
    unfold dateField
    rw [hdrop, ← height, behindCommas_fields (no_commas hfs), ← hdate, List.take_left]
  rw [hfield] at *
  refine ⟨htext, hdate, ?_⟩
  obtain ⟨hiff, hread⟩ := @parseTime_iff D _ abi (timeField tb (cstr "$GPRMC," ++
    (commaText fs ++ (date ++ comma :: (declination ++ comma :: rest))))) {}
  rw [rmc_timeField hcount, hread htext, scan_accepted hfs hdate hdecl] at hpack
  obtain ⟨time, status, lat, ns, lon, ewLon, speed, direction, rfl⟩ :=
    eight_fields hfs.length_eq.symm
  rw [hpack]
  rfl

theorem dateMeans_iff (abi : Abi) {date : List Byte} (hlen : date.length = 6) {utc : Time}
    (hday : utc.day = pairAt abi date 0) (hmon : utc.mon = pairAt abi date 2 - 1) :
    DateMeans utc ↔ DateInRange date := by
  have hday' := pairValue_fromOne (by decide : 9 ≤ 31) (date.getD 0 0) (date.getD 1 0)
  have hmon' := pairValue_fromOne (by decide : 9 ≤ 12) (date.getD 2 0) (date.getD 3 0)
  have hmonth : (pairAt abi date 2).toInt = pairValue (date.getD 2 0) (date.getD 3 0) :=
    toInt_pairAt abi (by omega : 2 + 2 ≤ date.length)
  obtain ⟨hlow, hhigh⟩ := pairValue_bounds (date.getD 2 0) (date.getD 3 0)
  have hbefore : utc.mon.toInt = (pairAt abi date 2).toInt - 1 := by
    have hone : (1 : Int32).toInt = 1 := by decide
    rw [hmon, Int32.toInt_sub, hone]
    exact Int.bmod_eq_of_le (by omega) (by omega)
  rw [← toInt_pairAt abi (by omega), ← hday] at hday'
  constructor
  · intro hm
    have hrange := hm.mon
    exact ⟨hday'.mp hm.day, hmon'.mp (by omega)⟩
  · intro hr
    have hrange := hmon'.mpr hr.mon
    exact ⟨by omega, hday'.mpr hr.day⟩

/-- **The time and the date of an accepted sentence mean what is documented exactly if their texts
are in range.** -/
theorem clock_documented_iff (abi : Abi) (tb buff : List Byte) :
    (∀ pack : Gga D, nmeaParseGga abi tb buff = (1, pack) →
      (ClockMeans (timeField tb buff) pack.utc ↔ ClockInRange (timeField tb buff))) ∧
    ∀ pack : Rmc D, nmeaParseRmc abi tb buff = (1, pack) →
      (ClockMeans (timeField tb buff) pack.utc ∧ DateMeans pack.utc ↔
        ClockInRange (timeField tb buff) ∧ DateInRange (dateField buff)) := by
  have hnul : (0 : Byte) ∉ timeField tb buff := text_no_nul _
  constructor
  · intro pack h
    obtain ⟨htext, hutc⟩ := gga_time h
    rw [hutc]
    exact clockMeans_iff abi htext hnul rfl rfl rfl rfl
  · intro pack h
    obtain ⟨htext, hdate, hutc⟩ := rmc_time h
    have hclock : ClockMeans (timeField tb buff) pack.utc ↔ ClockInRange (timeField tb buff) := by
      rw [hutc]
      exact clockMeans_iff abi htext hnul rfl rfl rfl rfl
    have hday : pack.utc.day = pairAt abi (dateField buff) 0 := by rw [hutc]
    have hmon : pack.utc.mon = pairAt abi (dateField buff) 2 - 1 := by rw [hutc]
    have hdates := dateMeans_iff abi hdate hday hmon
    rw [hclock, hdates]

/-- An RMC sentence with hundredths of a second. -/
theorem clock_documented_test :
    let sentence := cstr "$GPRMC,213916.19,A,4221.49,N,7102.5,W,0.0,0.0,290109,0.0,E,A*4E\r\n"
    let r : Int32 × Rmc Decimal := nmeaParseRmc ⟨false, 32, le_rfl⟩ [] sentence
    r.1 = 1 ∧ (ClockMeans (timeField [] sentence) r.2.utc ∧ DateMeans r.2.utc ↔
      ClockInRange (timeField [] sentence) ∧ DateInRange (dateField sentence)) := by
  intro sentence r
  have hcode : r.1 = 1 := by decide +kernel
  have haccepted : nmeaParseRmc ⟨false, 32, le_rfl⟩ [] sentence = (1, r.2) := by
    rw [← hcode]
  exact ⟨hcode, (clock_documented_iff ⟨false, 32, le_rfl⟩ [] sentence).2 r.2 haccepted⟩

/-- Half a second is stored as 5, and hour 99 as 99. -/
theorem half_second_stored :
    let abi : Abi := ⟨false, 32, le_rfl⟩
    let sentence := cstr "$GPGGA,996199.5,5001.27,N,3613.06,E,3,08,0.0,10.2,M,0.0,M,0.0,0000*70\r\n"
    let r : Int32 × Gga Decimal := nmeaParseGga abi [] sentence
    r.1 = 1 ∧ r.2.utc.hsec = 5 ∧ r.2.utc.hour = 99 ∧ timeField [] sentence = cstr "996199.5" ∧
      ¬ ClockMeans (timeField [] sentence) r.2.utc := by
  intro abi sentence r
  have hread : r.1 = 1 ∧ r.2.utc.hsec = 5 ∧ r.2.utc.hour = 99 ∧
      timeField [] sentence = cstr "996199.5" := by decide +kernel
  obtain ⟨hcode, hhsec, hhour, hfield⟩ := hread
  refine ⟨hcode, hhsec, hhour, hfield, fun h => ?_⟩
  have hrange := h.hour.2
  rw [hhour] at hrange
  exact absurd hrange (by decide)

end RttNmea
