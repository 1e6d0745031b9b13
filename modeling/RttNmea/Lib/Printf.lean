import RttNmea.Lib.CText

/-!
# printf

The text that C99's `vsnprintf` has to write for a format, and what `strtol` reads of the numbers
in it. Modelled are %d and %x with the flag '0' and a minimal width, %f with a precision, too, and
the plain %C. How a `double` is written is a parameter.
-/

namespace CText

/-- The digits of a number, at least one, letters in lower case. -/
def digitsText (radix n : Nat) : List Byte := (Nat.toDigits radix n).map ascii

/-- Zeros in front, up to a width. -/
def zeroFill (width : Nat) (s : List Byte) : List Byte :=
  List.replicate (width - s.length) (ascii '0') ++ s

/-- A number filled up to a width, with zeros behind the sign or with blanks in front of it. -/
def padded (zero : Bool) (width : Nat) (neg : Bool) (ds : List Byte) : List Byte :=
  let sign := if neg then [ascii '-'] else []
  if zero then sign ++ zeroFill (width - sign.length) ds
  else List.replicate (width - (sign ++ ds).length) (ascii ' ') ++ (sign ++ ds)

/-- %d. -/
def printfD (zero : Bool) (width : Nat) (x : Int32) : List Byte :=
  padded zero width (x < 0) (digitsText 10 x.toInt.natAbs)

/-- %x, of the bits of an `int`. -/
def printfX (zero : Bool) (width : Nat) (x : Int32) : List Byte :=
  padded zero width false (digitsText 16 x.toUInt32.toNat)

/-- Why a format has no text. -/
inductive PrintfError
  /-- `vsnprintf` fails: a wide character has no multibyte form. -/
  | encoding
  /-- A conversion is not modelled, or its argument does not go with it. -/
  | unmodelled
  deriving DecidableEq, Repr

/-- %C, which converts a wide character: in the "C" locale only ASCII can be. For L'\0' the C
libraries write a NUL. -/
def printfC (c : Byte) : Except PrintfError (List Byte) :=
  if c < 128 then .ok [c] else .error .encoding

/-- %f: the text of a `double` with a number of decimals, with or without the flag '0'. -/
class FixedPoint (D : Type) where
  printfF : Bool → Nat → Nat → D → List Byte

/-! ## Formats -/

/-- What stands between '%' and the letter of a conversion. -/
structure Spec where
  zero : Bool := false
  width : Nat := 0
  prec : Option Nat := none
  deriving DecidableEq, Repr

/-- A byte to copy, or a conversion. -/
inductive Piece
  | lit (c : Byte)
  | conv (s : Spec) (letter : Byte)
  deriving DecidableEq, Repr

/-- A format cut into pieces; inside a conversion, what was read of it. -/
def formatPieces : Option Spec → List Byte → List Piece
  | none, [] => []
  | some s, [] => [.conv s 0]
  | none, c :: format =>
    if c = ascii '%' then formatPieces (some {}) format else .lit c :: formatPieces none format
  | some s, c :: format =>
    if isDigit c then
      let d := c.toNat - 48
      match s.prec with
      | some p => formatPieces (some { s with prec := some (10 * p + d) }) format
      | none =>
        if d = 0 ∧ s.width = 0 then formatPieces (some { s with zero := true }) format
        else formatPieces (some { s with width := 10 * s.width + d }) format
    else if c = ascii '.' ∧ s.prec = none then formatPieces (some { s with prec := some 0 }) format
    else .conv s c :: formatPieces none format

/-- An argument. -/
inductive Arg (D : Type)
  | int (x : Int32)
  | dbl (x : D)
  | chr (c : Byte)

/-- What a conversion makes of its argument. -/
def convText {D : Type} [FixedPoint D] (s : Spec) (letter : Byte) :
    Arg D → Except PrintfError (List Byte)
  | .int x =>
    if letter = ascii 'd' ∧ s.prec = none then .ok (printfD s.zero s.width x)
    else if letter = ascii 'x' ∧ s.prec = none then .ok (printfX s.zero s.width x)
    else .error .unmodelled
  | .dbl x =>
    if letter = ascii 'f' then .ok (FixedPoint.printfF s.zero s.width (s.prec.getD 6) x)
    else .error .unmodelled
  | .chr c => if letter = ascii 'C' ∧ s = {} then printfC c else .error .unmodelled

/-- The text of a format and its arguments. -/
def render {D : Type} [FixedPoint D] :
    List Piece → List (Arg D) → Except PrintfError (List Byte)
  | [], _ => .ok []
  | .lit c :: ps, args => (render ps args).map (c :: ·)
  | .conv _ _ :: _, [] => .error .unmodelled
  | .conv s letter :: ps, a :: args =>
    (convText s letter a).bind fun t => (render ps args).map (t ++ ·)

def printfText {D : Type} [FixedPoint D] (format : List Byte) (args : List (Arg D)) :
    Except PrintfError (List Byte) :=
  render (formatPieces none format) args

/-- `vsnprintf` into `buff`, once the text is converted: as much of it as there is room for,
and a NUL. -/
def snprintf (buff s : List Byte) : List Byte :=
  if buff = [] then []
  else s.take (buff.length - 1) ++ 0 :: buff.drop (min s.length (buff.length - 1) + 1)

/-! ## Digits -/

theorem digitVal_digitChar {d : Nat} (hd : d < 16) : digitVal (ascii d.digitChar) = some d := by
  have table : ∀ d < 16, digitVal (ascii (Nat.digitChar d)) = some d := by decide
  exact table d hd

theorem isDigitOf_digitChar {radix d : Nat} (hr : radix ≤ 16) (hd : d < radix) :
    isDigitOf radix (ascii d.digitChar) = true := by
  rw [isDigitOf, digitVal_digitChar (Nat.lt_of_lt_of_le hd hr)]
  exact decide_eq_true hd

/-- The last digit comes off the end. -/
theorem digitsText_eq {radix : Nat} (hr : 1 < radix) (n : Nat) :
    digitsText radix n =
      (if n < radix then [] else digitsText radix (n / radix)) ++
        [ascii (n % radix).digitChar] := by
  unfold digitsText
  rw [Nat.toDigits_eq_if hr]
  split
  · rename_i hn
    rw [Nat.mod_eq_of_lt hn]
    rfl
  · rw [List.map_append]
    rfl

/-- Along the digits of a number. -/
theorem digits_induction {radix : Nat} (hr : 1 < radix) {P : Nat → Prop}
    (last : ∀ n, n < radix → P n) (more : ∀ n, radix ≤ n → P (n / radix) → P n) (n : Nat) :
    P n := by
  induction n using Nat.strongRecOn with
  | ind n ih =>
    by_cases hn : n < radix
    · exact last n hn
    · have hle : radix ≤ n := Nat.not_lt.mp hn
      exact more n hle (ih _ (Nat.div_lt_self (by omega) hr))

theorem digitsText_digits {radix : Nat} (hr : 1 < radix) (hr16 : radix ≤ 16) (n : Nat) :
    ∀ b ∈ digitsText radix n, isDigitOf radix b = true := by
  have hlast : ∀ n, isDigitOf radix (ascii (n % radix).digitChar) = true := fun n =>
    isDigitOf_digitChar hr16 (Nat.mod_lt n (by omega))
  induction n using digits_induction hr with
  | last n hn =>
    intro b hb
    rw [digitsText_eq hr, if_pos hn, List.nil_append, List.mem_singleton] at hb
    rw [hb]
    exact hlast n
  | more n hn ih =>
    intro b hb
    rw [digitsText_eq hr, if_neg (Nat.not_lt.mpr hn), List.mem_append, List.mem_singleton] at hb
    rcases hb with hb | rfl
    · exact ih b hb
    · exact hlast n

theorem digitsText_ne_nil {radix : Nat} (hr : 1 < radix) (n : Nat) : digitsText radix n ≠ [] := by
  rw [digitsText_eq hr]
  exact List.append_ne_nil_of_right_ne_nil _ (List.cons_ne_nil _ _)

theorem length_digitsText_le {radix : Nat} (hr : 1 < radix) {n k : Nat} (hk : 1 ≤ k)
    (hn : n < radix ^ k) : (digitsText radix n).length ≤ k := by
  induction k, hk using Nat.le_induction generalizing n with
  | base =>
    rw [pow_one] at hn
    rw [digitsText_eq hr, if_pos hn]
    exact Nat.le_refl 1
  | succ k hk ih =>
    rw [digitsText_eq hr, List.length_append, List.length_singleton]
    split
    · exact Nat.le_add_left 1 k
    · rw [pow_succ] at hn
      have hdiv := ih (Nat.div_lt_of_lt_mul (by rwa [Nat.mul_comm] at hn))
      omega

theorem length_digitsText_gt {radix : Nat} (hr : 1 < radix) {n k : Nat} (hn : radix ^ k ≤ n) :
    k < (digitsText radix n).length := by
  induction k generalizing n with
  | zero => exact List.length_pos_iff.mpr (digitsText_ne_nil hr n)
  | succ k ih =>
    rw [pow_succ] at hn
    have hle : radix ≤ n := Nat.le_trans (Nat.le_mul_of_pos_left radix (Nat.pow_pos (by omega))) hn
    have hdiv := ih ((Nat.le_div_iff_mul_le (by omega)).mpr hn)
    rw [digitsText_eq hr, if_neg (Nat.not_lt.mpr hle), List.length_append, List.length_singleton]
    omega

/-! ## Reading them back -/

theorem leadingNat_snoc {radix d : Nat} {s : List Byte} {b : Byte}
    (hs : ∀ c ∈ s, isDigitOf radix c = true) (hb : digitVal b = some d) (hd : d < radix) :
    leadingNat radix (s ++ [b]) = leadingNat radix s * radix + d := by
  have hb' : isDigitOf radix b = true := by
    rw [isDigitOf, hb]
    exact decide_eq_true hd
  have hall : ∀ c ∈ s ++ [b], isDigitOf radix c = true := by
    intro c hc
    rcases List.mem_append.mp hc with hc | hc
    · exact hs c hc
    · exact List.mem_singleton.mp hc ▸ hb'
  unfold leadingNat
  rw [List.takeWhile_eq_self_iff.mpr hall, List.takeWhile_eq_self_iff.mpr hs, List.filterMap_append,
    List.foldl_append]
  simp [hb]

/-- The digits of a number are read as the number. -/
theorem leadingNat_digitsText {radix : Nat} (hr : 1 < radix) (hr16 : radix ≤ 16) (n : Nat) :
    leadingNat radix (digitsText radix n) = n := by
  have hmod : ∀ n, n % radix < radix := fun n => Nat.mod_lt n (by omega)
  have hval : ∀ n, digitVal (ascii (n % radix).digitChar) = some (n % radix) := fun n =>
    digitVal_digitChar (Nat.lt_of_lt_of_le (hmod n) hr16)
  induction n using digits_induction hr with
  | last n hn =>
    rw [digitsText_eq hr, if_pos hn, leadingNat_snoc (fun c hc => absurd hc List.not_mem_nil)
      (hval n) (hmod n)]
    have hnil : leadingNat radix [] = 0 := rfl
    rw [hnil, Nat.zero_mul, Nat.zero_add, Nat.mod_eq_of_lt hn]
  | more n hn ih =>
    rw [digitsText_eq hr, if_neg (Nat.not_lt.mpr hn),
      leadingNat_snoc (digitsText_digits hr hr16 _) (hval n) (hmod n), ih]
    exact Nat.div_add_mod' n radix

theorem length_zeroFill (width : Nat) (s : List Byte) :
    (zeroFill width s).length = max width s.length := by
  rw [zeroFill, List.length_append, List.length_replicate]
  omega

theorem zeroFill_digits {radix width : Nat} {s : List Byte} (hr : 0 < radix)
    (hs : ∀ b ∈ s, isDigitOf radix b = true) : ∀ b ∈ zeroFill width s, isDigitOf radix b = true := by
  intro b hb
  rcases List.mem_append.mp hb with hb | hb
  · have hzero : digitVal (ascii '0') = some 0 := by decide
    rw [List.eq_of_mem_replicate hb, isDigitOf, hzero]
    exact decide_eq_true hr
  · exact hs b hb

theorem leadingNat_zeroFill {radix : Nat} (hr : 0 < radix) (width : Nat) (s : List Byte) :
    leadingNat radix (zeroFill width s) = leadingNat radix s := by
  have hval : digitVal (ascii '0') = some 0 := by decide
  have hzero : isDigitOf radix (ascii '0') = true := by
    rw [isDigitOf, hval]
    exact decide_eq_true hr
  unfold zeroFill
  induction width - s.length with
  | zero => rfl
  | succ k ih =>
    rw [← ih, List.replicate_succ, List.cons_append]
    unfold leadingNat
    rw [List.takeWhile_cons, if_pos hzero, List.filterMap_cons, hval, List.foldl_cons]
    simp

theorem isDigit_of_ten {b : Byte} (h : isDigitOf 10 b = true) : isDigit b = true := by
  obtain ⟨d, hd, hlt⟩ := (Option.any_eq_true _ _).mp h
  have hlt := of_decide_eq_true hlt
  unfold digitVal at hd
  unfold isDigit
  split at hd
  · simp only [Bool.and_eq_true, decide_eq_true_eq]
    assumption
  · split at hd
    · cases hd
      omega
    · split at hd
      · cases hd
        omega
      · cases hd

/-- A minus and digits are read as the negative number. -/
theorem strtol_minus (abi : Abi) {ds : List Byte} (hd : ∀ b ∈ ds, isDigit b = true)
    (hsmall : leadingNat 10 ds ≤ 2 ^ 31) :
    strtol abi 10 (ascii '-' :: ds) = -(leadingNat 10 ds : Int) := by
  have hdz : digitVal 0 = none := by decide
  have hnul : (0 : Byte) ∉ ascii '-' :: ds := by
    intro h0
    rcases List.mem_cons.mp h0 with h | h
    · cases h
    · exact digit_ne (isSome_digitVal (hd 0 h)) hdz rfl
  have hspace : (ascii '-' :: ds).dropWhile isSpace = ascii '-' :: ds := rfl
  have hsign : splitSign (ascii '-' :: ds) = (true, ds) := by rw [splitSign, if_pos rfl]
  have hpow := abi.pow_long_ge
  have hten : (10 : Nat) ≠ 16 := by omega
  simp only [strtol, text_of_not_mem hnul, hspace, hsign, if_neg hten, ↓reduceIte, longMin,
    longMax]
  omega

theorem digitsText_isDigit (n : Nat) : ∀ b ∈ digitsText 10 n, isDigit b = true := fun b hb =>
  isDigit_of_ten (digitsText_digits (by decide) (by decide) n b hb)

theorem zeroFill_isDigit {s : List Byte} (width : Nat) (hs : ∀ b ∈ s, isDigit b = true) :
    ∀ b ∈ zeroFill width s, isDigit b = true := by
  intro b hb
  rcases List.mem_append.mp hb with hb | hb
  · rw [List.eq_of_mem_replicate hb]
    decide
  · exact hs b hb

/-- Only zeros are filled in: the flag '0' is set, or the width makes no difference. -/
def ZeroFilled (zero : Bool) (width : Nat) : Prop := zero = true ∨ width ≤ 1

instance (zero : Bool) (width : Nat) : Decidable (ZeroFilled zero width) :=
  inferInstanceAs (Decidable (_ ∨ _))

theorem ZeroFilled.flag (width : Nat) : ZeroFilled true width := .inl rfl
theorem ZeroFilled.one : ZeroFilled false 1 := .inr (Nat.le_refl 1)
theorem ZeroFilled.none : ZeroFilled false 0 := .inr (Nat.zero_le 1)

/-- Then a number is an optional minus and digits. -/
theorem padded_zeros {zero : Bool} {width : Nat} (h : ZeroFilled zero width) (neg : Bool)
    {ds : List Byte} (hne : ds ≠ []) :
    ∃ w, padded zero width neg ds = (if neg then [ascii '-'] else []) ++ zeroFill w ds := by
  have hpos := List.length_pos_iff.mpr hne
  cases zero with
  | true => exact ⟨_, rfl⟩
  | false =>
    refine ⟨0, ?_⟩
    have hwidth : width ≤ 1 := h.resolve_left Bool.false_ne_true
    have hnone : width - ((if neg = true then [ascii '-'] else []) ++ ds).length = 0 := by
      rw [List.length_append]
      omega
    rw [padded, if_neg Bool.false_ne_true, hnone, zeroFill, Nat.zero_sub]
    rfl

/-- **What %d writes is read back as the number.** -/
theorem strtol_printfD (abi : Abi) {zero : Bool} {width : Nat} (h : ZeroFilled zero width)
    (x : Int32) : strtol abi 10 (printfD zero width x) = x.toInt := by
  have hlow := x.le_toInt
  have hhigh := x.toInt_lt
  have hzero : (0 : Int32).toInt = 0 := by decide
  obtain ⟨w, hw⟩ := padded_zeros h (x < 0) (digitsText_ne_nil (show 1 < 10 by decide) x.toInt.natAbs)
  have hvalue : leadingNat 10 (zeroFill w (digitsText 10 x.toInt.natAbs)) = x.toInt.natAbs := by
    rw [leadingNat_zeroFill (by decide), leadingNat_digitsText (by decide) (by decide)]
  have hdigits := zeroFill_isDigit w (digitsText_isDigit x.toInt.natAbs)
  rw [printfD, hw]
  by_cases hneg : x < 0
  · rw [decide_eq_true hneg, if_pos rfl, List.singleton_append,
      strtol_minus abi hdigits (by rw [hvalue]; omega), hvalue]
    rw [Int32.lt_iff_toInt_lt, hzero] at hneg
    omega
  · rw [decide_eq_false hneg, if_neg Bool.false_ne_true, List.nil_append]
    rw [Int32.lt_iff_toInt_lt, hzero] at hneg
    rw [strtol_digits abi hdigits (by rw [hvalue]; omega), hvalue]
    omega

/-! ## The characters and their number -/

/-- A character of a printed number. -/
def NumberByte (b : Byte) : Prop := isDigit b = true ∨ b = ascii '-' ∨ b = ascii '.'

instance (b : Byte) : Decidable (NumberByte b) := inferInstanceAs (Decidable (_ ∨ _))

theorem padded_bytes {zero : Bool} {width : Nat} (h : ZeroFilled zero width) (neg : Bool)
    {ds : List Byte} (hne : ds ≠ []) (hds : ∀ b ∈ ds, NumberByte b) :
    ∀ b ∈ padded zero width neg ds, NumberByte b := by
  intro b hb
  obtain ⟨w, hw⟩ := padded_zeros h neg hne
  rw [hw, zeroFill] at hb
  rcases List.mem_append.mp hb with hb | hb
  · split at hb
    · exact .inr (.inl (List.mem_singleton.mp hb))
    · exact absurd hb List.not_mem_nil
  · rcases List.mem_append.mp hb with hb | hb
    · rw [List.eq_of_mem_replicate hb]
      exact .inl (by decide)
    · exact hds b hb

theorem padded_ne_nil {zero : Bool} {width : Nat} (neg : Bool) {ds : List Byte} (hne : ds ≠ []) :
    padded zero width neg ds ≠ [] := by
  unfold padded
  cases zero with
  | true => exact List.append_ne_nil_of_right_ne_nil _ (List.append_ne_nil_of_right_ne_nil _ hne)
  | false => exact List.append_ne_nil_of_right_ne_nil _ (List.append_ne_nil_of_right_ne_nil _ hne)

theorem printfD_bytes {zero : Bool} {width : Nat} (h : ZeroFilled zero width) (x : Int32) :
    ∀ b ∈ printfD zero width x, NumberByte b :=
  padded_bytes h _ (digitsText_ne_nil (by decide) _) fun b hb => .inl (digitsText_isDigit _ b hb)

theorem printfD_ne_nil (zero : Bool) (width : Nat) (x : Int32) : printfD zero width x ≠ [] :=
  padded_ne_nil _ (digitsText_ne_nil (show 1 < 10 by decide) _)

theorem length_padded (zero : Bool) (width : Nat) (neg : Bool) (ds : List Byte) :
    (padded zero width neg ds).length = max width ((if neg then 1 else 0) + ds.length) := by
  unfold padded
  cases zero <;> cases neg <;> simp [length_zeroFill] <;> omega

/-- No `int` takes more than eleven characters. -/
theorem length_printfD_le (zero : Bool) {width : Nat} (hwidth : width ≤ 11) (x : Int32) :
    (printfD zero width x).length ≤ 11 := by
  have hlow := x.le_toInt
  have hhigh := x.toInt_lt
  have hten := length_digitsText_le (show 1 < 10 by decide) (show 1 ≤ 10 by decide)
    (show x.toInt.natAbs < 10 ^ 10 by omega)
  rw [printfD, length_padded]
  split <;> omega

/-- %02d takes `k` characters at most, if the number has `k` digits, its sign counted as one. -/
theorem length_printfD {k : Nat} (hk : 2 ≤ k) (x : Int32) :
    (printfD true 2 x).length ≤ k ↔ -10 ^ (k - 1) < x.toInt ∧ x.toInt < 10 ^ k := by
  have hzero : (0 : Int32).toInt = 0 := by decide
  rw [printfD, length_padded]
  have digits : ∀ j, 1 ≤ j → ((digitsText 10 x.toInt.natAbs).length ≤ j ↔
      (x.toInt.natAbs : Int) < 10 ^ j) := by
    intro j hj
    constructor
    · intro hlen
      by_contra hge
      have := length_digitsText_gt (show 1 < 10 by decide) (n := x.toInt.natAbs) (k := j)
        (by exact_mod_cast Int.not_lt.mp hge)
      omega
    · intro hlt
      exact length_digitsText_le (by decide) hj (by exact_mod_cast hlt)
  have hpow : (0 : Int) < 10 ^ k := Int.pow_pos (by decide)
  have hpow' : (0 : Int) < 10 ^ (k - 1) := Int.pow_pos (by decide)
  by_cases hneg : x < 0
  · have hk1 := digits (k - 1) (by omega)
    rw [decide_eq_true hneg, if_pos rfl]
    rw [Int32.lt_iff_toInt_lt, hzero] at hneg
    omega
  · have hk0 := digits k (by omega)
    rw [decide_eq_false hneg, if_neg Bool.false_ne_true]
    rw [Int32.lt_iff_toInt_lt, hzero] at hneg
    omega

theorem two_le_length_printfD (x : Int32) : 2 ≤ (printfD true 2 x).length := by
  rw [printfD, length_padded]
  exact Nat.le_max_left _ _

/-- "%02x" of a byte: its two digits. -/
theorem printfX_byte {x : Nat} (hx : x < 256) :
    printfX true 2 (Int32.ofNat x) = [ascii (x / 16).digitChar, ascii (x % 16).digitChar] := by
  have hbits : (Int32.ofNat x).toUInt32.toNat = x := by
    have htoNat : (UInt32.ofNat x).toNat = x := by
      rw [UInt32.toNat_ofNat']
      exact Nat.mod_eq_of_lt (by omega)
    exact htoNat
  have hhigh : x / 16 < 16 := by omega
  unfold printfX
  rw [hbits, digitsText_eq (by decide)]
  split
  · rename_i hlt
    have hzero : x / 16 = 0 := by omega
    rw [hzero]
    rfl
  · rw [digitsText_eq (by decide), if_pos hhigh, Nat.mod_eq_of_lt hhigh]
    rfl

/-- "%02x" of a negative number: eight digits. -/
theorem printfX_neg {x : Int32} (hx : x < 0) : 3 ≤ (printfX true 2 x).length := by
  have hzero : (0 : Int32).toInt = 0 := by decide
  rw [Int32.lt_iff_toInt_lt, hzero] at hx
  have hlow := x.le_toInt
  have hbits : (x.toUInt32.toNat : Int) = x.toInt + 2 ^ 32 := by
    have hmod : x.toInt = (x.toUInt32.toNat : Int).bmod (2 ^ 32) := by
      rw [← Int32.toInt_toBitVec]
      exact BitVec.toInt_eq_toNat_bmod _
    have hlt : x.toUInt32.toNat < 2 ^ 32 := x.toUInt32.toNat_lt
    rw [Int.bmod_def] at hmod
    omega
  have hgt := length_digitsText_gt (show 1 < 16 by decide) (n := x.toUInt32.toNat) (k := 2) (by omega)
  rw [printfX, length_padded]
  omega

theorem printfX_digits (width : Nat) (x : Int32) :
    ∀ b ∈ printfX true width x, isDigitOf 16 b = true :=
  zeroFill_digits (by decide) (digitsText_digits (by decide) (by decide) _)

/-- However it is printed, a `double` is written as a number: it is no infinity and no NaN. -/
def PrintsNumber {D : Type} [FixedPoint D] (x : D) : Prop :=
  ∀ zero width prec, ZeroFilled zero width →
    FixedPoint.printfF zero width prec x ≠ [] ∧
      ∀ b ∈ FixedPoint.printfF zero width prec x, NumberByte b

/-! ## Formats piece by piece -/

section

variable {D : Type} [FixedPoint D]

/-- These pieces take these arguments and write this text, whatever follows them. -/
def Renders (ps : List Piece) (args : List (Arg D)) (s : List Byte) : Prop :=
  ∀ qs more, render (ps ++ qs) (args ++ more) = (render qs more).map (s ++ ·)

theorem Renders.text {ps : List Piece} {args : List (Arg D)} {s : List Byte}
    (h : Renders ps args s) : render ps args = .ok s := by
  have hend := h [] []
  rw [List.append_nil, List.append_nil] at hend
  rw [hend]
  show Except.ok (s ++ []) = .ok s
  rw [List.append_nil]

theorem renders_nil : Renders [] ([] : List (Arg D)) [] := by
  intro qs more
  show render qs more = (render qs more).map id
  rw [Except.map_id]
  rfl

theorem Renders.append {ps qs : List Piece} {as bs : List (Arg D)} {s t : List Byte}
    (h : Renders ps as s) (h' : Renders qs bs t) : Renders (ps ++ qs) (as ++ bs) (s ++ t) := by
  intro rest more
  rw [List.append_assoc, List.append_assoc, h, h']
  cases render rest more with
  | error e => rfl
  | ok u => exact congrArg Except.ok (List.append_assoc s t u).symm

theorem renders_lit (c : Byte) : Renders [.lit c] ([] : List (Arg D)) [c] := fun _ _ => rfl

theorem renders_lits (s : List Byte) : Renders (s.map Piece.lit) ([] : List (Arg D)) s := by
  induction s with
  | nil => exact renders_nil
  | cons c s ih => exact (renders_lit c).append ih

theorem renders_conv {s : Spec} {letter : Byte} {a : Arg D} {t : List Byte}
    (h : convText s letter a = .ok t) : Renders [.conv s letter] [a] t := by
  intro qs more
  show (convText s letter a).bind _ = _
  rw [h]
  rfl

end

/-! ## Exact fractions -/

/-- Rounded to the nearest integer, a tie to the even one. -/
def roundEven (x : Rat) : Int :=
  let n := x.floor
  if x - n < 1 / 2 then n else if 1 / 2 < x - n then n + 1 else if n % 2 = 0 then n else n + 1

/-- The digits of an unsigned decimal with a point in front of the last `prec`. -/
def pointText (prec n : Nat) : List Byte :=
  let ds := zeroFill (prec + 1) (digitsText 10 n)
  if prec = 0 then ds
  else ds.take (ds.length - prec) ++ ascii '.' :: ds.drop (ds.length - prec)

instance : FixedPoint Rat where
  printfF zero width prec x :=
    padded zero width (x < 0) (pointText prec (roundEven ((if x < 0 then -x else x) * 10 ^ prec)).toNat)

theorem pointText_bytes (prec n : Nat) : ∀ b ∈ pointText prec n, NumberByte b := by
  have hds := zeroFill_isDigit (prec + 1) (digitsText_isDigit n)
  intro b hb
  unfold pointText at hb
  dsimp only at hb
  split at hb
  · exact .inl (hds b hb)
  · rcases List.mem_append.mp hb with hb | hb
    · exact .inl (hds b (List.mem_of_mem_take hb))
    · rcases List.mem_cons.mp hb with rfl | hb
      · exact .inr (.inr rfl)
      · exact .inl (hds b (List.mem_of_mem_drop hb))

theorem pointText_ne_nil (prec n : Nat) : pointText prec n ≠ [] := by
  unfold pointText
  dsimp only
  split
  · exact List.append_ne_nil_of_right_ne_nil _ (digitsText_ne_nil (by decide) n)
  · exact List.append_ne_nil_of_right_ne_nil _ (List.cons_ne_nil _ _)

theorem printsNumber_rat (x : Rat) : PrintsNumber x := fun _ _ _ h =>
  ⟨padded_ne_nil _ (pointText_ne_nil _ _), padded_bytes h _ (pointText_ne_nil _ _) (pointText_bytes _ _)⟩

end CText
