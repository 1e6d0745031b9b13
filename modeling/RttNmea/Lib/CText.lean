import Mathlib.Data.List.Basic
import Mathlib.Data.List.TakeWhile
import Mathlib.Algebra.Order.Ring.Int

/-!
# C strings

Text as a C program sees it: a run of bytes that ends at the first NUL, and the library
functions `isdigit`, `isspace` and `strtol` (in the "C" locale). `Abi` holds
what the C standard leaves to the platform.
-/

namespace CText

abbrev Byte := UInt8

/-- What differs between the targets: whether plain `char` is signed, and the width of
`long`, which C puts at 32 bits or more. -/
structure Abi where
  charSigned : Bool
  longBits : Nat
  longBits_ge : 32 ≤ longBits

/-- The code of an ASCII character. -/
def ascii (c : Char) : Byte := UInt8.ofNat c.toNat

/-- The bytes of a string literal, without its NUL. -/
def cstr (s : String) : List Byte := s.toList.map ascii

/-- The text that starts at memory `m`: everything before the first NUL. -/
def text (m : List Byte) : List Byte := m.takeWhile (· ≠ 0)

def isDigit (b : Byte) : Bool := 48 ≤ b.toNat && b.toNat ≤ 57

def isSpace (b : Byte) : Bool := b.toNat == 32 || (9 ≤ b.toNat && b.toNat ≤ 13)

/-- The value of a digit of some radix up to 36, letters in either case. -/
def digitVal (b : Byte) : Option Nat :=
  if 48 ≤ b.toNat ∧ b.toNat ≤ 57 then some (b.toNat - 48)
  else if 65 ≤ b.toNat ∧ b.toNat ≤ 90 then some (b.toNat - 55)
  else if 97 ≤ b.toNat ∧ b.toNat ≤ 122 then some (b.toNat - 87)
  else none

/-- `b` is a digit of the given radix. -/
def isDigitOf (radix : Nat) (b : Byte) : Bool := (digitVal b).any (· < radix)

/-- The number written by the digits at the front of `s`, 0 if there are none. -/
def leadingNat (radix : Nat) (s : List Byte) : Nat :=
  ((s.takeWhile (isDigitOf radix)).filterMap digitVal).foldl (fun v d => v * radix + d) 0

/-- An optional sign: whether it is a minus, and the text after it. -/
def splitSign : List Byte → Bool × List Byte
  | [] => (false, [])
  | b :: s =>
    if b = ascii '-' then (true, s)
    else if b = ascii '+' then (false, s)
    else (false, b :: s)

/-- In radix 16 a leading `0x` or `0X` is skipped, when a digit follows it. -/
def skipHexPrefix : List Byte → List Byte
  | z :: x :: d :: s =>
    if z = ascii '0' ∧ (x = ascii 'x' ∨ x = ascii 'X') ∧ isDigitOf 16 d then d :: s
    else z :: x :: d :: s
  | s => s

/-- The least and the greatest `long`. -/
def longMin (abi : Abi) : Int := -(2 ^ (abi.longBits - 1))

def longMax (abi : Abi) : Int := 2 ^ (abi.longBits - 1) - 1

/-- `strtol(m, &end, radix)`: blanks, a sign, digits; out of range it saturates. -/
def strtol (abi : Abi) (radix : Nat) (m : List Byte) : Int :=
  let (neg, s) := splitSign ((text m).dropWhile isSpace)
  let v : Int := leadingNat radix (if radix = 16 then skipHexPrefix s else s)
  max (longMin abi) (min (longMax abi) (if neg then -v else v))

/-! ## Text -/

theorem text_cons_zero (m : List Byte) : text (0 :: m) = [] := by simp [text]

theorem text_append_zero {s : List Byte} (hs : 0 ∉ s) (m : List Byte) :
    text (s ++ 0 :: m) = s := by
  induction s with
  | nil => exact text_cons_zero m
  | cons b s ih =>
    have hb : b ≠ 0 := fun h => hs (h ▸ List.mem_cons_self)
    have := ih fun h => hs (List.mem_cons_of_mem _ h)
    simp only [text, List.cons_append, List.takeWhile_cons, ne_eq, hb, not_false_eq_true,
      decide_true, ↓reduceIte, List.cons.injEq, true_and] at this ⊢
    exact this

theorem text_of_not_mem {s : List Byte} (hs : 0 ∉ s) : text s = s := by
  rw [text, List.takeWhile_eq_self_iff]
  intro b hb
  simpa using fun h : b = 0 => hs (h ▸ hb)

theorem text_replicate_zero (n : Nat) : text (List.replicate n 0) = [] := by
  cases n with
  | zero => rfl
  | succ n => exact text_cons_zero _

/-! ## Digits -/

theorem digitVal_of_isDigit {b : Byte} (h : isDigit b = true) :
    digitVal b = some (b.toNat - 48) := by
  simp only [isDigit, Bool.and_eq_true, decide_eq_true_eq] at h
  simp [digitVal, h]

theorem not_isSpace_of_digit {b : Byte} (h : (digitVal b).isSome) : isSpace b = false := by
  unfold digitVal at h
  simp only [isSpace, Bool.or_eq_false_iff, Bool.and_eq_false_iff, decide_eq_false_iff_not,
    beq_eq_false_iff_ne]
  split at h
  · omega
  · split at h
    · omega
    · split at h
      · omega
      · cases h

theorem digit_ne {b c : Byte} (h : (digitVal b).isSome) (hc : digitVal c = none) : b ≠ c := by
  rintro rfl
  simp [hc] at h

/-- A byte at which every number ends: no digit, no sign, no blank, no NUL. -/
structure Stops (radix : Nat) (c : Byte) : Prop where
  digit : isDigitOf radix c = false
  space : isSpace c = false
  minus : c ≠ ascii '-'
  plus : c ≠ ascii '+'
  nul : c ≠ 0

theorem takeWhile_stop {p : Byte → Bool} {c : Byte} (hc : p c = false) (s m : List Byte) :
    (s ++ c :: m).takeWhile p = s.takeWhile p := by
  induction s with
  | nil => simp [hc]
  | cons b s ih =>
    cases hb : p b
    · simp [hb]
    · simp [hb, ih]

theorem dropWhile_stop {p : Byte → Bool} {c : Byte} (hc : p c = false) (s m : List Byte) :
    (s ++ c :: m).dropWhile p = s.dropWhile p ++ c :: m := by
  induction s with
  | nil => simp [hc]
  | cons b s ih =>
    cases hb : p b
    · simp [hb]
    · simp [hb, ih]

/-- The first `c` splits a text in one way. -/
theorem split_at_first {c : Byte} {xs ys us vs : List Byte} (hx : c ∉ xs) (hy : c ∉ ys)
    (h : xs ++ c :: us = ys ++ c :: vs) : xs = ys ∧ us = vs := by
  have front : ∀ {zs ws : List Byte}, c ∉ zs → (zs ++ c :: ws).takeWhile (· ≠ c) = zs := by
    intro zs ws hz
    rw [takeWhile_stop (by simp), List.takeWhile_eq_self_iff]
    intro b hb
    simpa using fun e : b = c => hz (e ▸ hb)
  have hxs : xs = ys := by rw [← @front xs us hx, h, front hy]
  subst hxs
  exact ⟨rfl, List.tail_eq_of_cons_eq (List.append_cancel_left h)⟩

theorem splitSign_stop {radix : Nat} {c : Byte} (hc : Stops radix c) (s m : List Byte) :
    splitSign (s ++ c :: m) = ((splitSign s).1, (splitSign s).2 ++ c :: m) := by
  cases s with
  | nil => simp [splitSign, hc.minus, hc.plus]
  | cons b s =>
    simp only [List.cons_append, splitSign]
    split
    · rfl
    · split <;> rfl

/-- What follows a byte that ends numbers is not read. -/
theorem strtol_stop (abi : Abi) {radix : Nat} (hr : radix ≠ 16) {c : Byte}
    (hc : Stops radix c) (s m : List Byte) :
    strtol abi radix (s ++ c :: m) = strtol abi radix s := by
  by_cases h0 : (0 : Byte) ∈ s
  · have htext : text (s ++ c :: m) = text s := by
      obtain ⟨a, b, rfl⟩ := List.append_of_mem h0
      simp only [text, List.append_assoc, List.cons_append]
      rw [takeWhile_stop (by simp), takeWhile_stop (by simp)]
    simp only [strtol, htext]
  · have hs : ∀ b ∈ s, decide (b ≠ 0) = true := by
      intro b hb
      simpa using fun h : b = 0 => h0 (h ▸ hb)
    have htext : text (s ++ c :: m) = s ++ c :: text m := by
      rw [text, List.takeWhile_append_of_pos hs]
      simp [hc.nul, text]
    simp only [strtol, htext, text_of_not_mem h0, hr, ↓reduceIte, dropWhile_stop hc.space,
      splitSign_stop hc, leadingNat, takeWhile_stop hc.digit]

/-- A `long` holds what an `int` holds. -/
theorem Abi.pow_long_ge (abi : Abi) : (2 : Int) ^ 31 ≤ 2 ^ (abi.longBits - 1) := by
  have hbits := abi.longBits_ge
  exact pow_le_pow_right₀ (by omega) (by omega)

/-- Two hexadecimal digits are read as the byte they write. -/
theorem strtol_hex_pair (abi : Abi) {a b : Byte} {x y : Nat}
    (ha : digitVal a = some x) (hb : digitVal b = some y) (hx : x < 16) (hy : y < 16) :
    strtol abi 16 [a, b] = 16 * x + y := by
  have hda : (digitVal a).isSome := by simp [ha]
  have hdb : (digitVal b).isSome := by simp [hb]
  have hdz : digitVal 0 = none := by decide
  have ha0 : a ≠ 0 := digit_ne hda hdz
  have hb0 : b ≠ 0 := digit_ne hdb hdz
  have htext : text [a, b] = [a, b] := by simp [text, ha0, hb0]
  have hminus : a ≠ ascii '-' := digit_ne hda (by decide)
  have hplus : a ≠ ascii '+' := digit_ne hda (by decide)
  have hpow := abi.pow_long_ge
  have hval : leadingNat 16 [a, b] = x * 16 + y := by
    simp [leadingNat, isDigitOf, ha, hb, hx, hy]
  simp only [strtol, htext, List.dropWhile_cons, not_isSpace_of_digit hda, splitSign, hminus,
    hplus, ↓reduceIte, skipHexPrefix, hval, longMin, longMax, Bool.false_eq_true]
  push_cast
  omega

/-- What some digits write is below the power of the radix that their number gives. -/
theorem leadingNat_lt {radix : Nat} (hr : 0 < radix) (s : List Byte) :
    leadingNat radix s < radix ^ s.length := by
  have digits : ∀ (ds : List Byte) (v : Nat), (∀ b ∈ ds, isDigitOf radix b = true) →
      (ds.filterMap digitVal).foldl (fun v d => v * radix + d) v < (v + 1) * radix ^ ds.length := by
    intro ds
    induction ds with
    | nil => simp
    | cons b ds ih =>
      intro v hds
      obtain ⟨x, hx, hlt⟩ := (Option.any_eq_true _ _).mp (hds b List.mem_cons_self)
      have hlt : x < radix := of_decide_eq_true hlt
      rw [List.filterMap_cons, hx, List.foldl_cons, List.length_cons]
      calc _ < (v * radix + x + 1) * radix ^ ds.length :=
            ih _ fun c hc => hds c (List.mem_cons_of_mem _ hc)
        _ ≤ ((v + 1) * radix) * radix ^ ds.length := by
            apply Nat.mul_le_mul_right
            rw [Nat.add_mul]
            omega
        _ = (v + 1) * radix ^ (ds.length + 1) := by
            rw [Nat.pow_succ, Nat.mul_assoc, Nat.mul_comm radix]
  have hfront := digits (s.takeWhile (isDigitOf radix)) 0 fun b hb => List.mem_takeWhile_imp hb
  rw [Nat.zero_add, Nat.one_mul] at hfront
  apply Nat.lt_of_lt_of_le hfront
  exact Nat.pow_le_pow_right hr (List.takeWhile_prefix _).length_le

theorem isSome_digitVal {b : Byte} (h : isDigit b = true) : (digitVal b).isSome := by
  rw [digitVal_of_isDigit h]
  rfl

/-- Decimal digits are read as the number they write, up to the greatest `long`. -/
theorem strtol_decimal (abi : Abi) {ds : List Byte} (hd : ∀ b ∈ ds, isDigit b = true) :
    strtol abi 10 ds = min (longMax abi) (leadingNat 10 ds) := by
  have hdz : digitVal 0 = none := by decide
  have htext : text ds = ds := by
    apply text_of_not_mem
    intro h0
    exact digit_ne (isSome_digitVal (hd 0 h0)) hdz rfl
  have hspace : ds.dropWhile isSpace = ds := by
    cases ds with
    | nil => rfl
    | cons b ds =>
      rw [List.dropWhile_cons, not_isSpace_of_digit (isSome_digitVal (hd b List.mem_cons_self))]
      rfl
  have hsign : splitSign ds = (false, ds) := by
    cases ds with
    | nil => rfl
    | cons b ds =>
      have hb := isSome_digitVal (hd b List.mem_cons_self)
      rw [splitSign, if_neg (digit_ne hb (by decide)), if_neg (digit_ne hb (by decide))]
  have hpow := abi.pow_long_ge
  have hten : (10 : Nat) ≠ 16 := by omega
  simp only [strtol, htext, hspace, hsign, if_neg hten, Bool.false_eq_true, ↓reduceIte, longMin,
    longMax]
  omega

/-- A number that every `long` holds is read as it is. -/
theorem strtol_digits (abi : Abi) {ds : List Byte} (hd : ∀ b ∈ ds, isDigit b = true)
    (hsmall : leadingNat 10 ds < 2 ^ 31) : strtol abi 10 ds = leadingNat 10 ds := by
  have hpow := abi.pow_long_ge
  rw [strtol_decimal abi hd, longMax]
  omega

theorem splitSign_length (s : List Byte) : (splitSign s).2.length ≤ s.length := by
  cases s with
  | nil => exact Nat.le_refl _
  | cons b s =>
    rw [splitSign, List.length_cons]
    split
    · exact Nat.le_succ _
    · split
      · exact Nat.le_succ _
      · exact Nat.le_refl _

theorem length_signText (m : List Byte) :
    (splitSign ((text m).dropWhile isSpace)).2.length ≤ m.length := by
  have hsign := splitSign_length ((text m).dropWhile isSpace)
  have hspace := (@List.dropWhile_suffix _ (text m) isSpace).length_le
  have htext := (@List.takeWhile_prefix _ m (fun b : Byte => decide (b ≠ 0))).length_le
  exact Nat.le_trans hsign (Nat.le_trans hspace htext)

/-- A text of at most two bytes is read as a number of at most two digits. -/
theorem strtol_two (abi : Abi) {m : List Byte} (h : m.length ≤ 2) :
    -99 ≤ strtol abi 10 m ∧ strtol abi 10 m ≤ 99 := by
  let s := (splitSign ((text m).dropWhile isSpace)).2
  have hlen : s.length ≤ 2 := Nat.le_trans (length_signText m) h
  have hvalue : leadingNat 10 s < 100 := by
    have hlt := @leadingNat_lt 10 (by decide) s
    have hpow : 10 ^ s.length ≤ 10 ^ 2 := Nat.pow_le_pow_right (by decide) hlen
    omega
  have hten : (10 : Nat) ≠ 16 := by omega
  have hpow := abi.pow_long_ge
  have hrun : strtol abi 10 m = max (longMin abi) (min (longMax abi)
      (if (splitSign ((text m).dropWhile isSpace)).1 then -(leadingNat 10 s : Int)
        else leadingNat 10 s)) := by
    simp only [strtol, if_neg hten, s]
  rw [hrun, longMin, longMax]
  split <;> omega

/-! ## Two bytes that are not both digits -/

theorem leadingNat_stop {radix : Nat} {b : Byte} (h : isDigitOf radix b = false) (s : List Byte) :
    leadingNat radix (b :: s) = 0 := by
  simp [leadingNat, h]

theorem isSome_of_isDigitOf {radix : Nat} {b : Byte} (h : isDigitOf radix b = true) :
    (digitVal b).isSome := by
  obtain ⟨x, hx, -⟩ := (Option.any_eq_true _ _).mp h
  simp [hx]

theorem skipHexPrefix_short {s : List Byte} (h : s.length ≤ 2) : skipHexPrefix s = s := by
  rcases s with _ | ⟨a, _ | ⟨b, _ | ⟨c, s⟩⟩⟩
  · rfl
  · rfl
  · rfl
  · simp at h

/-- The number at the front of `s` in radix 16, with its sign. -/
def signedHex (s : List Byte) : Int :=
  if (splitSign s).1 then -(leadingNat 16 (splitSign s).2 : Int) else leadingNat 16 (splitSign s).2

/-- `strtol` in radix 16 on at most two bytes. -/
theorem strtol_short (abi : Abi) {m : List Byte} (hlen : m.length ≤ 2) :
    strtol abi 16 m = signedHex ((text m).dropWhile isSpace) := by
  have hslen : (splitSign ((text m).dropWhile isSpace)).2.length ≤ 2 :=
    Nat.le_trans (length_signText m) hlen
  have hsmall : leadingNat 16 (splitSign ((text m).dropWhile isSpace)).2 < 256 := by
    have hlt := @leadingNat_lt 16 (by decide) (splitSign ((text m).dropWhile isSpace)).2
    have hpow := Nat.pow_le_pow_right (show 0 < 16 by decide) hslen
    omega
  have hpow := abi.pow_long_ge
  simp only [strtol, ↓reduceIte, skipHexPrefix_short hslen, longMin, longMax, signedHex]
  split <;> omega

theorem splitSign_plain {a : Byte} (hminus : a ≠ ascii '-') (hplus : a ≠ ascii '+')
    (s : List Byte) : splitSign (a :: s) = (false, a :: s) := by
  rw [splitSign, if_neg hminus, if_neg hplus]

theorem signedHex_single (b : Byte) : signedHex [b] = leadingNat 16 [b] := by
  have hsigns : isDigitOf 16 (ascii '-') = false ∧ isDigitOf 16 (ascii '+') = false := by decide
  unfold signedHex
  by_cases hminus : b = ascii '-'
  · rw [hminus, leadingNat_stop hsigns.1]
    rfl
  · by_cases hplus : b = ascii '+'
    · rw [hplus, leadingNat_stop hsigns.2]
      rfl
    · rw [splitSign_plain hminus hplus]
      rfl

theorem text_cons {a : Byte} (ha : a ≠ 0) (s : List Byte) : text (a :: s) = a :: text s := by
  simp [text, ha]

/-- One byte counts if it is a digit, whatever `strtol` may skip. -/
theorem leadingNat_text (b : Byte) : leadingNat 16 (text [b]) = leadingNat 16 [b] := by
  by_cases h0 : b = 0
  · subst h0
    rfl
  · rw [text_cons h0]
    rfl

theorem signedHex_text (b : Byte) :
    signedHex ((text [b]).dropWhile isSpace) = leadingNat 16 [b] := by
  by_cases h0 : b = 0
  · subst h0
    rfl
  · rw [text_cons h0, List.dropWhile_cons]
    split
    · rename_i hspace
      have hdigit : isDigitOf 16 b = false := by
        by_contra hdigit
        have hno := not_isSpace_of_digit (isSome_of_isDigitOf (by simpa using hdigit))
        rw [hspace] at hno
        cases hno
      rw [leadingNat_stop hdigit]
      rfl
    · exact signedHex_single b

/-- The number `strtol` reads in two bytes that are not both digits: that of a digit in
front, or that of a digit behind a blank or a sign, or 0. -/
def looseHex (a b : Byte) : Int :=
  if isDigitOf 16 a then leadingNat 16 [a]
  else if isSpace a ∨ a = ascii '+' then leadingNat 16 [b]
  else if a = ascii '-' then -(leadingNat 16 [b] : Int)
  else 0

theorem strtol_loose (abi : Abi) {a b : Byte}
    (h : ¬ (isDigitOf 16 a = true ∧ isDigitOf 16 b = true)) :
    strtol abi 16 [a, b] = looseHex a b := by
  rw [strtol_short abi (by simp)]
  unfold looseHex
  by_cases ha : isDigitOf 16 a = true
  · have hb : isDigitOf 16 b = false := by
      simpa using fun hb => h ⟨ha, hb⟩
    have hdigit := isSome_of_isDigitOf ha
    have ha0 : a ≠ 0 := digit_ne hdigit (by decide)
    have hsign := splitSign_plain (digit_ne hdigit (by decide)) (digit_ne hdigit (by decide))
      (text [b])
    have hstop : (text [b]).takeWhile (isDigitOf 16) = [] := by
      by_cases h0 : b = 0
      · subst h0
        rfl
      · simp [text_cons h0, hb]
    rw [if_pos ha, text_cons ha0, List.dropWhile_cons, not_isSpace_of_digit hdigit]
    simp [signedHex, hsign, leadingNat, ha, hstop]
  · rw [if_neg ha]
    by_cases ha0 : a = 0
    · subst ha0
      rfl
    · rw [text_cons ha0, List.dropWhile_cons]
      by_cases hspace : isSpace a = true
      · rw [if_pos hspace, signedHex_text, if_pos (.inl hspace)]
      · rw [if_neg hspace]
        by_cases hminus : a = ascii '-'
        · have hnot : ¬ (isSpace a = true ∨ a = ascii '+') := by
            rw [hminus]
            decide
          rw [if_neg hnot, if_pos hminus, hminus, ← leadingNat_text]
          rfl
        · by_cases hplus : a = ascii '+'
          · rw [if_pos (.inr hplus), hplus, ← leadingNat_text]
            rfl
          · have hnot : ¬ (isSpace a = true ∨ a = ascii '+') := by
              rintro (h | h)
              · exact hspace h
              · exact hplus h
            rw [if_neg hnot, if_neg hminus, signedHex, splitSign_plain hminus hplus]
            simp [leadingNat_stop (by simpa using ha)]

/-- It is small. -/
theorem looseHex_lt (a b : Byte) : -16 < looseHex a b ∧ looseHex a b < 16 := by
  have hdigit : ∀ c : Byte, leadingNat 16 [c] < 16 := fun c => leadingNat_lt (by decide) [c]
  have ha := hdigit a
  have hb := hdigit b
  unfold looseHex
  split
  · omega
  · split
    · omega
    · split
      · omega
      · omega

end CText
