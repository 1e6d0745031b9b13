import RttNmea.Fields

/-!
# Time and date fields

What a receiver writes into the time and date fields, and what _nmea_parse_time and "%2d"
make of it.
-/

namespace RttNmea

open CText

variable {D : Type} [CDouble D] {abi : Abi}

/-- Two decimal digits. -/
structure Pair where
  tens : Byte
  ones : Byte
  tens_digit : isDigit tens = true
  ones_digit : isDigit ones = true

def Pair.text (d : Pair) : List Byte := [d.tens, d.ones]

/-- The number they write. -/
def Pair.value (d : Pair) : Nat := leadingNat 10 d.text

/-- hhmmss, or hhmmss and a fraction of up to three digits. -/
structure Clock where
  hour : Pair
  min : Pair
  sec : Pair
  frac : List Byte
  frac_digits : ∀ b ∈ frac, isDigit b = true
  frac_short : frac.length ≤ 3

def Clock.text (c : Clock) : List Byte :=
  c.hour.text ++ (c.min.text ++ (c.sec.text ++ if c.frac = [] then [] else ascii '.' :: c.frac))

/-- The members of a time that a time field writes; hsec is the number behind the point. -/
def Clock.set (c : Clock) (res : Time) : Time :=
  { res with
    hour := Int32.ofNat c.hour.value
    min := Int32.ofNat c.min.value
    sec := Int32.ofNat c.sec.value
    hsec := if c.frac = [] then res.hsec else Int32.ofNat (leadingNat 10 c.frac) }

/-- ddmmyy. -/
structure Date where
  day : Pair
  mon : Pair
  year : Pair

def Date.text (d : Date) : List Byte := d.day.text ++ (d.mon.text ++ d.year.text)

/-- The members of a time that a date field writes: years from 1900, months from 0. -/
def Date.set (d : Date) (res : Time) : Time :=
  { res with
    day := Int32.ofNat d.day.value
    mon := Int32.ofNat d.mon.value - 1
    year := Int32.ofNat (if d.year.value < 90 then d.year.value + 100 else d.year.value) }

/-! ## Reading them -/

theorem Pair.digits (d : Pair) : ∀ b ∈ d.text, isDigit b = true := by
  intro b hb
  rcases List.mem_cons.mp hb with rfl | hb
  · exact d.tens_digit
  · rw [List.mem_singleton.mp hb]
    exact d.ones_digit

theorem Pair.value_lt (d : Pair) : d.value < 100 := leadingNat_lt (by decide) d.text

/-- "%2d" on two digits. -/
theorem scan_two (items : List Item) (d : Pair) (rest : List Byte) :
    (scanItems abi (.two :: items) (d.text ++ rest) : Nat × List (Option (Stored D))) =
      ((scanItems (D := D) abi items rest).1 + 1,
        some (.int (Int32.ofNat d.value)) :: (scanItems abi items rest).2) := by
  have hvalue := d.value_lt
  have hatoi : nmeaAtoi abi d.text 10 = Int32.ofNat d.value :=
    atoi_digits (by simp [Pair.text, nmeaConvStrBuf]) d.digits (by unfold Pair.value at hvalue; omega)
  have hlong : ¬ (d.text ++ rest).length < 2 := by simp [Pair.text]
  have htake : (d.text ++ rest).take 2 = d.text := rfl
  have hdrop : (d.text ++ rest).drop 2 = rest := rfl
  have hstored : (stored abi (ascii 'd') d.text : Option (Stored D)) =
      some (.int (Int32.ofNat d.value)) := hatoi ▸ rfl
  rw [scanItems, if_neg hlong, htake, hdrop, hstored]

/-- _nmea_parse_time reads every time field that is not null. -/
theorem parseTime_clock (c : Clock) (res : Time) :
    nmeaParseTime D abi c.text res = (0, c.set res) := by
  by_cases hfrac : c.frac = []
  · have hlen : c.text.length = 6 := by simp [Clock.text, Pair.text, hfrac]
    have hformat : cstr "%2d%2d%2d" = formatOf [.two, .two, .two] := by decide
    have hscan : (nmeaScanf abi c.text (cstr "%2d%2d%2d") : Nat × List (Option (Stored D))) =
        (3, [some (.int (Int32.ofNat c.hour.value)), some (.int (Int32.ofNat c.min.value)),
          some (.int (Int32.ofNat c.sec.value))]) := by
      rw [hformat, scanf_items (by decide), Clock.text, scan_two, scan_two, scan_two]
      rfl
    unfold nmeaParseTime
    rw [if_pos hlen, hscan, Clock.set, if_pos hfrac]
    rfl
  · have hpos : 0 < c.frac.length := List.length_pos_iff.mpr hfrac
    have hshort := c.frac_short
    have hlen : c.text.length = 7 + c.frac.length := by
      simp [Clock.text, Pair.text, hfrac]
      omega
    have hsix : c.text.length ≠ 6 := by omega
    have hlong : c.text.length = 8 ∨ c.text.length = 9 ∨ c.text.length = 10 := by omega
    have hformat : cstr "%2d%2d%2d.%d" =
        formatOf [.two, .two, .two, .lit (ascii '.'), .field .int] := by decide
    have hatoi : nmeaAtoi abi c.frac 10 = Int32.ofNat (leadingNat 10 c.frac) := by
      apply atoi_digits
      · unfold nmeaConvStrBuf
        omega
      · exact c.frac_digits
      · have hlt := @leadingNat_lt 10 (by decide) c.frac
        have hpow : 10 ^ c.frac.length ≤ 10 ^ 3 := Nat.pow_le_pow_right (by decide) hshort
        omega
    have hlast : (scanItems abi [.field .int] c.frac : Nat × List (Option (Stored D))) =
        (1, [some (.int (Int32.ofNat (leadingNat 10 c.frac)))]) := by
      have hsize : fieldSize .int ((formatOf []).headD 0) c.frac = c.frac.length := rfl
      have hstored : (stored abi Conv.int.letter c.frac : Option (Stored D)) =
          some (.int (Int32.ofNat (leadingNat 10 c.frac))) := by
        rw [stored, if_neg hfrac, ← hatoi]
        rfl
      rw [scanItems, if_neg hfrac, hsize]
      dsimp only
      rw [List.take_length, hstored]
      rfl
    have hscan : (nmeaScanf abi c.text (cstr "%2d%2d%2d.%d") : Nat × List (Option (Stored D))) =
        (4, [some (.int (Int32.ofNat c.hour.value)), some (.int (Int32.ofNat c.min.value)),
          some (.int (Int32.ofNat c.sec.value)),
          some (.int (Int32.ofNat (leadingNat 10 c.frac)))]) := by
      rw [hformat, scanf_items (by decide), Clock.text, scan_two, scan_two, scan_two, if_neg hfrac,
        scan_lit, hlast]
    unfold nmeaParseTime
    rw [if_neg hsix, if_pos hlong, hscan, Clock.set, if_neg hfrac]
    rfl

/-- A time field is a text without NUL. -/
theorem Clock.no_nul (c : Clock) : (0 : Byte) ∉ c.text := by
  have digit : ∀ b, isDigit b = true → (0 : Byte) ≠ b := by
    rintro b hb rfl
    cases hb
  have pair : ∀ d : Pair, (0 : Byte) ∉ d.text := fun d h0 => digit 0 (d.digits 0 h0) rfl
  have hfrac : (0 : Byte) ∉ (if c.frac = [] then [] else ascii '.' :: c.frac) := by
    split
    · exact List.not_mem_nil
    · intro h0
      rcases List.mem_cons.mp h0 with h | h
      · cases h
      · exact digit 0 (c.frac_digits 0 h) rfl
  unfold Clock.text
  simp only [List.mem_append, not_or]
  exact ⟨pair _, pair _, pair _, hfrac⟩

/-! ## Reading something else -/

theorem atoi_two {tok : List Byte} (h : tok.length ≤ 2) : nmeaAtoi abi tok 10 ≠ -100 := by
  have hshort : tok.length < nmeaConvStrBuf := Nat.lt_of_le_of_lt h (by decide)
  obtain ⟨hlow, hhigh⟩ := strtol_two abi h
  rw [nmeaAtoi, if_pos hshort]
  intro heq
  have hint := congrArg Int32.toInt heq
  rw [Int32.toInt_ofInt_of_le (by omega) (by omega)] at hint
  have h100 : (-100 : Int32).toInt = -100 := by decide
  omega

/-- Whatever two bytes "%2d" takes, it does not read -100 of them. -/
theorem scan_two_bound (items : List Item) (buff : List Byte) :
    intAt (scanItems (D := D) abi (.two :: items) buff).2 0 0 ≠ -100 := by
  have h0 : (0 : Int32) ≠ -100 := by decide
  rw [scanItems]
  split
  · exact h0
  · show intAt (stored abi (ascii 'd') (buff.take 2) :: _) 0 0 ≠ -100
    unfold stored
    split
    · exact h0
    · exact atoi_two (List.length_take_le _ _)

/-- Behind "%2d" the rest of the format goes on, or nothing is stored any more. -/
theorem scan_two_later {items : List Item} {n : Int32} {i : Nat} (h0 : (0 : Int32) ≠ n)
    (later : ∀ buff, intAt (scanItems (D := D) abi items buff).2 i 0 ≠ n) (buff : List Byte) :
    intAt (scanItems (D := D) abi (.two :: items) buff).2 (i + 1) 0 ≠ n := by
  rw [scanItems]
  split
  · exact h0
  · exact later _

end RttNmea
