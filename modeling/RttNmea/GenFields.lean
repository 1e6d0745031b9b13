import RttNmea.Forms
import RttNmea.GenLine

/-!
# Printed fields

Lines of fields as nmea_gen_* print them, and what nmea_scanf and _nmea_parse_time read of one
field.
-/

namespace RttNmea

open CText Framing

variable {D : Type} [CPrint D] {abi : Abi}

/-! ## Fields -/

/-- A byte that may stand in a field. -/
structure Safe (b : Byte) : Prop where
  seven_bit : b < 128
  no_comma : b ≠ comma
  no_star : b ≠ star
  no_dollar : b ≠ dollar

instance (b : Byte) : Decidable (Safe b) :=
  decidable_of_iff (b < 128 ∧ b ≠ comma ∧ b ≠ star ∧ b ≠ dollar)
    ⟨fun h => ⟨h.1, h.2.1, h.2.2.1, h.2.2.2⟩,
      fun h => ⟨h.seven_bit, h.no_comma, h.no_star, h.no_dollar⟩⟩

theorem safe_of_digit {b : Byte} (h : isDigit b = true) : Safe b := by
  have hb : 48 ≤ b.toNat ∧ b.toNat ≤ 57 := by
    simpa only [isDigit, Bool.and_eq_true, decide_eq_true_eq] using h
  have hne : ∀ c : Byte, c.toNat < 48 → b ≠ c := by
    rintro c hc rfl
    omega
  refine ⟨?_, hne _ (by decide), hne _ (by decide), hne _ (by decide)⟩
  rw [UInt8.lt_iff_toNat_lt]
  exact Nat.lt_of_le_of_lt hb.2 (by decide)

theorem safe_of_number {b : Byte} (h : NumberByte b) : Safe b := by
  rcases h with h | rfl | rfl
  · exact safe_of_digit h
  · decide
  · decide

/-- Some conversions of a format, their arguments and the text they write, which a conversion of
nmea_scanf is to read. -/
structure Printed (D : Type) [FixedPoint D] where
  pieces : List Piece
  args : List (Arg D)
  text : List Byte
  kind : Conv
  renders : Renders pieces args text
  safe : ∀ b ∈ text, Safe b
  single : kind = .chr → text.length ≤ 1

namespace Printed

/-- %0{w}d, or %1d. -/
def int (zero : Bool) (width : Nat) (h : ZeroFilled zero width) (x : Int32) : Printed D where
  pieces := [.conv { zero, width } (ascii 'd')]
  args := [.int x]
  text := printfD zero width x
  kind := .int
  renders := renders_conv rfl
  safe b hb := safe_of_number (printfD_bytes h x b hb)
  single := Conv.noConfusion

/-- %0{w}.{p}f, or %.{p}f. -/
def dbl (zero : Bool) (width prec : Nat) (h : ZeroFilled zero width) (x : D)
    (hx : PrintsNumber x) : Printed D where
  pieces := [.conv { zero, width, prec := some prec } (ascii 'f')]
  args := [.dbl x]
  text := FixedPoint.printfF zero width prec x
  kind := .dbl
  renders := renders_conv rfl
  safe b hb := safe_of_number ((hx zero width prec h).2 b hb)
  single := Conv.noConfusion

theorem printfC_safe {c : Byte} (h : Safe c) : printfC c = .ok [c] := if_pos h.seven_bit

/-- %C. -/
def chr (c : Byte) (h : Safe c) : Printed D where
  pieces := [.conv {} (ascii 'C')]
  args := [.chr c]
  text := [c]
  kind := .chr
  renders := renders_conv (printfC_safe h)
  safe _ hb := List.mem_singleton.mp hb ▸ h
  single _ := Nat.le_refl 1

def lit (c : Byte) (h : Safe c) : Printed D where
  pieces := [.lit c]
  args := []
  text := [c]
  kind := .str
  renders := renders_lit c
  safe _ hb := List.mem_singleton.mp hb ▸ h
  single := Conv.noConfusion

def append (f g : Printed D) : Printed D where
  pieces := f.pieces ++ g.pieces
  args := f.args ++ g.args
  text := f.text ++ g.text
  kind := .str
  renders := f.renders.append g.renders
  safe b hb := (List.mem_append.mp hb).elim (f.safe b) (g.safe b)
  single := Conv.noConfusion

theorem point : Safe (ascii '.') := by decide

/-- %02d. -/
def two (x : Int32) : Printed D := .int true 2 (.flag 2) x

/-- %02d%02d%02d.%02d. -/
def time (t : Time) : Printed D :=
  .append (.append (two t.hour) (.append (two t.min) (two t.sec)))
    (.append (.lit (ascii '.') point) (two t.hsec))

/-- %02d%02d%02d. -/
def date (t : Time) : Printed D :=
  .append (two t.day) (.append (two (t.mon + 1)) (two (t.year - 100)))

end Printed

/-! ## Lines of fields -/

/-- The pieces of a format with commas between its fields. -/
def joinPieces : List (List Piece) → List Piece
  | [] => []
  | [f] => f
  | f :: fs => f ++ .lit comma :: joinPieces fs

theorem renders_joined (fs : List (Printed D)) :
    Renders (joinPieces (fs.map Printed.pieces)) (fs.flatMap Printed.args)
      (joined (fs.map Printed.text)) := by
  induction fs with
  | nil => exact renders_nil
  | cons f fs ih =>
    cases fs with
    | nil =>
      rw [List.flatMap_singleton]
      exact f.renders
    | cons g fs => exact f.renders.append ((renders_lit comma).append ih)

theorem printfText_fields {format head : List Byte} (fs : List (Printed D))
    (h : formatPieces none format = head.map .lit ++ joinPieces (fs.map Printed.pieces)) :
    printfText format (fs.flatMap Printed.args) = .ok (head ++ joined (fs.map Printed.text)) := by
  rw [printfText, h]
  exact ((renders_lits head).append (renders_joined fs)).text

/-- A header and the comma behind it. -/
def headerOf : PackType → List Byte
  | .gpnon => []
  | .gpgga => cstr "GPGGA,"
  | .gpgsa => cstr "GPGSA,"
  | .gpgsv => cstr "GPGSV,"
  | .gprmc => cstr "GPRMC,"
  | .gpvtg => cstr "GPVTG,"

theorem header_plain (t : PackType) :
    ∀ b ∈ headerOf t, b < 128 ∧ b ≠ star ∧ b ≠ dollar := by
  have table : (headerOf t).all fun b => b < 128 ∧ b ≠ star ∧ b ≠ dollar := by
    cases t <;> decide
  exact fun b hb => of_decide_eq_true (List.all_eq_true.mp table b hb)

theorem joined_plain {fs : List (List Byte)} (h : ∀ f ∈ fs, ∀ b ∈ f, Safe b) :
    ∀ b ∈ joined fs, b < 128 ∧ b ≠ star ∧ b ≠ dollar := by
  have hcomma : comma < 128 ∧ comma ≠ star ∧ comma ≠ dollar := by decide
  have hsafe : ∀ b, Safe b → b < 128 ∧ b ≠ star ∧ b ≠ dollar := fun b hb =>
    ⟨hb.seven_bit, hb.no_star, hb.no_dollar⟩
  induction fs with
  | nil => exact fun b hb => absurd hb List.not_mem_nil
  | cons f fs ih =>
    have hf : ∀ b ∈ f, b < 128 ∧ b ≠ star ∧ b ≠ dollar := fun b hb =>
      hsafe b (h f List.mem_cons_self b hb)
    cases fs with
    | nil => exact hf
    | cons g fs =>
      intro b hb
      rcases List.mem_append.mp hb with hb | hb
      · exact hf b hb
      · rcases List.mem_cons.mp hb with rfl | hb
        · exact hcomma
        · exact ih (fun f hm => h f (List.mem_cons_of_mem _ hm)) b hb

theorem line_plain (t : PackType) (fs : List (Printed D)) :
    ∀ b ∈ headerOf t ++ joined (fs.map Printed.text), b < 128 ∧ b ≠ star ∧ b ≠ dollar := by
  intro b hb
  rcases List.mem_append.mp hb with hb | hb
  · exact header_plain t b hb
  · refine joined_plain ?_ b hb
    intro f hf
    obtain ⟨p, -, rfl⟩ := List.mem_map.mp hf
    exact p.safe

def lineOf (t : PackType) (fs : List (Printed D)) : Line where
  body := headerOf t ++ joined (fs.map Printed.text)
  no_dollar hm := (line_plain t fs _ hm).2.2 rfl
  no_star hm := (line_plain t fs _ hm).2.1 rfl
  seven_bit b hb := (line_plain t fs b hb).1

theorem lineOf_bytes (t : PackType) (fs : List (Printed D)) :
    (lineOf t fs).frame.bytes = sentenceOf (dollar :: headerOf t) (fs.map Printed.text)
      (lineOf t fs).frame.h1 (lineOf t fs).frame.h2 := by
  show dollar :: (headerOf t ++ joined _) ++ _ = dollar :: headerOf t ++ (joined _ ++ _)
  rw [← List.cons_append, List.append_assoc]

/-! ## Reading a printed field -/

theorem nmeaAtoi_printfD {zero : Bool} {width : Nat} (h : ZeroFilled zero width)
    (hwidth : width ≤ 11) (x : Int32) : nmeaAtoi abi (printfD zero width x) 10 = x := by
  have hlen : (printfD zero width x).length < nmeaConvStrBuf :=
    Nat.lt_of_le_of_lt (length_printfD_le zero hwidth x) (by decide)
  rw [nmeaAtoi, if_pos hlen, strtol_printfD abi h]
  exact Int32.ofInt_toInt x

theorem intField_printfD {zero : Bool} {width : Nat} (h : ZeroFilled zero width)
    (hwidth : width ≤ 11) (x : Int32) : intField abi (printfD zero width x) = x := by
  rw [intField, if_neg (printfD_ne_nil _ _ _), nmeaAtoi_printfD h hwidth]

/-- What a printed `double` is read as. -/
def reread (zero : Bool) (width prec : Nat) (x : D) : D :=
  nmeaAtof (FixedPoint.printfF zero width prec x)

theorem dblField_printfF {zero : Bool} {width prec : Nat} (h : ZeroFilled zero width) {x : D}
    (hx : PrintsNumber x) :
    dblField (FixedPoint.printfF zero width prec x) = reread zero width prec x := by
  rw [dblField, if_neg (hx zero width prec h).1, reread]

theorem Printed.fieldText (f : Printed D) : FieldText f.kind f.text where
  no_comma hm := (f.safe _ hm).no_comma rfl
  single := f.single
  no_star hm := (f.safe _ hm).no_star rfl

section

variable {args : List (Option (Stored D))} {i : Nat}

theorem intAt_printed {zero : Bool} {width : Nat} {x : Int32}
    (hi : args[i]? = some (stores abi .int (printfD zero width x)))
    (h : ZeroFilled zero width) (hwidth : width ≤ 11) : intAt args i 0 = x :=
  (intAt_stores hi).trans (intField_printfD h hwidth x)

theorem dblAt_printed {zero : Bool} {width prec : Nat} {x : D}
    (hi : args[i]? = some (stores abi .dbl (FixedPoint.printfF zero width prec x)))
    (h : ZeroFilled zero width) (hx : PrintsNumber x) :
    dblAt args i = reread zero width prec x :=
  (dblAt_stores hi).trans (dblField_printfF h hx)

theorem chrAt_printed {c : Byte}
    (hi : args[i]? = some (stores abi .chr [c])) : chrAt args i = c :=
  chrAt_stores hi

end

theorem fieldTexts (fs : List (Printed D)) :
    List.Forall₂ FieldText (fs.map Printed.kind) (fs.map Printed.text) := by
  induction fs with
  | nil => exact .nil
  | cons f fs ih => exact .cons f.fieldText ih

/-! ## Time -/

/-- The columns of a time: two characters each, and up to three for the fraction. -/
structure ClockFits (t : Time) : Prop where
  hour : -10 < t.hour.toInt ∧ t.hour.toInt < 100
  min : -10 < t.min.toInt ∧ t.min.toInt < 100
  sec : -10 < t.sec.toInt ∧ t.sec.toInt < 100
  hsec : -100 < t.hsec.toInt ∧ t.hsec.toInt < 1000

instance (t : Time) : Decidable (ClockFits t) :=
  decidable_of_iff ((-10 < t.hour.toInt ∧ t.hour.toInt < 100) ∧
      (-10 < t.min.toInt ∧ t.min.toInt < 100) ∧ (-10 < t.sec.toInt ∧ t.sec.toInt < 100) ∧
      (-100 < t.hsec.toInt ∧ t.hsec.toInt < 1000))
    ⟨fun h => ⟨h.1, h.2.1, h.2.2.1, h.2.2.2⟩, fun h => ⟨h.hour, h.min, h.sec, h.hsec⟩⟩

theorem length_two (x : Int32) : (printfD true 2 x).length = 2 ↔ -10 < x.toInt ∧ x.toInt < 100 := by
  have hlen := length_printfD (Nat.le_refl 2) x
  have hge := two_le_length_printfD x
  have hlow : (-10 ^ (2 - 1) : Int) = -10 := rfl
  have hhigh : (10 ^ 2 : Int) = 100 := rfl
  rw [hlow, hhigh] at hlen
  rw [← hlen]
  omega

theorem length_three (x : Int32) :
    (printfD true 2 x).length ≤ 3 ↔ -100 < x.toInt ∧ x.toInt < 1000 := by
  have hlen := length_printfD (show 2 ≤ 3 by decide) x
  have hlow : (-10 ^ (3 - 1) : Int) = -100 := rfl
  have hhigh : (10 ^ 3 : Int) = 1000 := rfl
  rwa [hlow, hhigh] at hlen

/-- "%2d" on a printed number of two characters. -/
theorem scan_two_printed (items : List Item) {x : Int32} (hx : (printfD true 2 x).length = 2)
    (rest : List Byte) :
    (scanItems abi (.two :: items) (printfD true 2 x ++ rest) : Nat × List (Option (Stored D))) =
      ((scanItems (D := D) abi items rest).1 + 1,
        some (.int x) :: (scanItems abi items rest).2) := by
  have hlong : ¬ (printfD true 2 x ++ rest).length < 2 := by
    rw [List.length_append]
    omega
  have hstored : (stored abi (ascii 'd') (printfD true 2 x) : Option (Stored D)) =
      some (.int x) := by
    have hatoi := @nmeaAtoi_printfD abi true 2 (.flag 2) (by decide) x
    rw [stored, if_neg (printfD_ne_nil _ _ _)]
    exact congrArg (fun n => some (Stored.int n)) hatoi
  rw [scanItems, if_neg hlong, List.take_left' hx, List.drop_left' hx, hstored]

/-- The bytes of a printed number hold no '.'. -/
theorem printfD_no_point (x : Int32) : ascii '.' ∉ printfD true 2 x := by
  intro hm
  obtain ⟨w, hw⟩ := padded_zeros (.flag 2) (x < 0)
    (digitsText_ne_nil (show 1 < 10 by decide) x.toInt.natAbs)
  rw [printfD, hw] at hm
  have hminus : ascii '.' ≠ ascii '-' := by decide
  have hdigit : isDigit (ascii '.') = false := by decide
  rcases List.mem_append.mp hm with hm | hm
  · split at hm
    · exact hminus (List.mem_singleton.mp hm)
    · exact absurd hm List.not_mem_nil
  · have := zeroFill_isDigit w (digitsText_isDigit x.toInt.natAbs) _ hm
    rw [hdigit] at this
    cases this

theorem Printed.time_text (t : Time) :
    (Printed.time t : Printed D).text = (printfD true 2 t.hour ++ (printfD true 2 t.min ++
      printfD true 2 t.sec)) ++ ascii '.' :: printfD true 2 t.hsec := rfl

theorem Printed.time_bytes (t : Time) : ∀ b ∈ (Printed.time t : Printed D).text, NumberByte b := by
  have two : ∀ x, ∀ b ∈ printfD true 2 x, NumberByte b := printfD_bytes (.flag 2)
  intro b hb
  rw [Printed.time_text] at hb
  rcases List.mem_append.mp hb with hb | hb
  · rcases List.mem_append.mp hb with hb | hb
    · exact two _ b hb
    · exact (List.mem_append.mp hb).elim (two _ b) (two _ b)
  · rcases List.mem_cons.mp hb with rfl | hb
    · exact .inr (.inr rfl)
    · exact two _ b hb

/-- The members of a time that a time field sets. -/
def clockOf (t res : Time) : Time :=
  { res with hour := t.hour, min := t.min, sec := t.sec, hsec := t.hsec }

/-- **_nmea_parse_time reads a printed time back exactly if it fits its columns.** -/
theorem parseTime_printed (abi : Abi) (t res : Time) :
    ((nmeaParseTime D abi (Printed.time t : Printed D).text res).1 = 0 ↔ ClockFits t) ∧
      (ClockFits t →
        (nmeaParseTime D abi (Printed.time t : Printed D).text res).2 = clockOf t res) := by
  have hh := two_le_length_printfD t.hour
  have hm := two_le_length_printfD t.min
  have hs := two_le_length_printfD t.sec
  have hf := two_le_length_printfD t.hsec
  have hlen : (Printed.time t : Printed D).text.length = (printfD true 2 t.hour).length +
      (printfD true 2 t.min).length + (printfD true 2 t.sec).length + 1 +
        (printfD true 2 t.hsec).length := by
    rw [Printed.time_text]
    simp only [List.length_append, List.length_cons]
    omega
  have hsix : ¬ (Printed.time t : Printed D).text.length = 6 := by omega
  have hfits : ClockFits t ↔ (printfD true 2 t.hour).length = 2 ∧
      (printfD true 2 t.min).length = 2 ∧ (printfD true 2 t.sec).length = 2 ∧
        (printfD true 2 t.hsec).length ≤ 3 := by
    rw [length_two, length_two, length_two, length_three]
    exact ⟨fun h => ⟨h.hour, h.min, h.sec, h.hsec⟩, fun h => ⟨h.1, h.2.1, h.2.2.1, h.2.2.2⟩⟩
  have hformat : cstr "%2d%2d%2d.%d" =
      formatOf [.two, .two, .two, .lit (ascii '.'), .field .int] := by decide
  have hplain : Plain [.two, .two, .two, .lit (ascii '.'), .field .int] := by decide
  by_cases hfit : ClockFits t
  · obtain ⟨lh, lm, ls, lf⟩ := hfits.mp hfit
    have hlong : (Printed.time t : Printed D).text.length = 8 ∨
        (Printed.time t : Printed D).text.length = 9 ∨
          (Printed.time t : Printed D).text.length = 10 := by omega
    have hlast : (scanItems abi [.field .int] (printfD true 2 t.hsec) :
        Nat × List (Option (Stored D))) = (1, [some (.int t.hsec)]) := by
      have hne := printfD_ne_nil true 2 t.hsec
      have hatoi := @nmeaAtoi_printfD abi true 2 (.flag 2) (by decide) t.hsec
      have hsize : fieldSize .int ((formatOf []).headD 0) (printfD true 2 t.hsec) =
          (printfD true 2 t.hsec).length := rfl
      have hstored : (stored abi Conv.int.letter (printfD true 2 t.hsec) : Option (Stored D)) =
          some (.int t.hsec) := by
        rw [stored, if_neg hne]
        exact congrArg (fun n => some (Stored.int n)) hatoi
      rw [scanItems, if_neg hne, hsize]
      dsimp only
      rw [List.take_length, hstored]
      rfl
    have hscan : (nmeaScanf abi (Printed.time t : Printed D).text (cstr "%2d%2d%2d.%d") :
        Nat × List (Option (Stored D))) =
        (4, [some (.int t.hour), some (.int t.min), some (.int t.sec), some (.int t.hsec)]) := by
      rw [hformat, scanf_items hplain, Printed.time_text, List.append_assoc, List.append_assoc,
        scan_two_printed _ lh, scan_two_printed _ lm, scan_two_printed _ ls, scan_lit, hlast]
    unfold nmeaParseTime
    rw [if_neg hsix, if_pos hlong, hscan]
    exact ⟨iff_of_true rfl hfit, fun _ => rfl⟩
  · refine ⟨iff_of_false ?_ hfit, fun h => absurd h hfit⟩
    intro hok
    unfold nmeaParseTime at hok
    rw [if_neg hsix] at hok
    split at hok
    · rename_i hlong
      -- four conversions: there are six bytes in front of a '.'
      have hfour : 4 ≤ (scanItems (D := D) abi [.two, .two, .two, .lit (ascii '.'), .field .int]
          (Printed.time t : Printed D).text).1 := by
        rw [hformat, scanf_items hplain] at hok
        by_contra hless
        have hne : (scanItems (D := D) abi [.two, .two, .two, .lit (ascii '.'), .field .int]
            (Printed.time t : Printed D).text).1 ≠ 4 := fun h => hless (Nat.le_of_eq h.symm)
        dsimp only at hok
        rw [if_neg hne] at hok
        exact absurd hok (by decide)
      obtain ⟨t1, r1, l1, e1, h1⟩ := (scan_two_ge _ _).mp hfour
      obtain ⟨t2, r2, l2, e2, h2⟩ := (scan_two_ge _ _).mp h1
      obtain ⟨t3, r3, l3, e3, h3⟩ := (scan_two_ge _ _).mp h2
      obtain ⟨rest, e4, -⟩ := (scan_lit_ge (Nat.succ_pos 0) _ _ _).mp h3
      have hpoint : (Printed.time t : Printed D).text[6]? = some (ascii '.') := by
        rw [e1, e2, e3, e4, ← List.append_assoc, ← List.append_assoc,
          List.getElem?_append_right (by simp [l1, l2, l3])]
        simp [l1, l2, l3]
      have hfront : (printfD true 2 t.hour ++ (printfD true 2 t.min ++
          printfD true 2 t.sec)).length ≤ 6 := by
        by_contra hlt
        rw [Printed.time_text, List.getElem?_append_left (by omega)] at hpoint
        have hmem := List.mem_of_getElem? hpoint
        rcases List.mem_append.mp hmem with hmem | hmem
        · exact printfD_no_point _ hmem
        · rcases List.mem_append.mp hmem with hmem | hmem
          · exact printfD_no_point _ hmem
          · exact printfD_no_point _ hmem
      rw [List.length_append, List.length_append] at hfront
      exact hfit (hfits.mpr (by omega))
    · have hminus : (-1 : Int32) ≠ 0 := by decide
      exact hminus hok

/-- What the field parsers read of a printed time, whatever the stack held. -/
theorem time_stored (t : Time) (timeBuff : List Byte) {args : List (Option (Stored D))}
    (hargs : args.head? = some (stores abi .str (Printed.time t : Printed D).text)) :
    text (timeBuffAfter timeBuff args) = (Printed.time t : Printed D).text := by
  have hne : (Printed.time t : Printed D).text ≠ [] := by
    rw [Printed.time_text]
    simp
  have hstored : (stores abi .str (Printed.time t : Printed D).text : Option (Stored D)) =
      some (.str (Printed.time t : Printed D).text) := by
    rw [stores, stored]
    exact if_neg hne
  have hnul : (0 : Byte) ∉ (Printed.time t : Printed D).text := fun h0 =>
    absurd (Printed.time_bytes t 0 h0) (by decide)
  unfold timeBuffAfter
  rw [hargs, hstored]
  exact text_append_zero hnul _

end RttNmea
