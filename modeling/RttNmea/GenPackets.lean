import RttNmea.GenFields
import RttNmea.RmcShift

/-!
# Packets and their sentences

A packet whose characters are ASCII and no separators and whose doubles are numbers is printed as
a line of fields. Its field parser reads it back: every `int` and every character as it was, the
doubles as they were printed. It refuses only a time or a date that does not fit its columns, and
a VTG packet with other letters than its own.
-/

namespace RttNmea

open CText Framing

variable {D : Type} [CPrint D] {abi : Abi}

/-! ## The shapes of the formats -/

def intPiece (zero : Bool) (width : Nat) : List Piece := [.conv { zero, width } (ascii 'd')]

def dblPiece (zero : Bool) (width prec : Nat) : List Piece :=
  [.conv { zero, width, prec := some prec } (ascii 'f')]

def chrPiece : List Piece := [.conv {} (ascii 'C')]

def datePieces : List Piece := intPiece true 2 ++ (intPiece true 2 ++ intPiece true 2)

def timePieces : List Piece := datePieces ++ ([.lit (ascii '.')] ++ intPiece true 2)

/-! ## GGA -/

structure Gga.Printable (p : Gga D) : Prop where
  lat : PrintsNumber p.lat
  ns : Safe p.ns
  lon : PrintsNumber p.lon
  ew : Safe p.ew
  hdop : PrintsNumber p.hdop
  elv : PrintsNumber p.elv
  elvUnits : Safe p.elvUnits
  diff : PrintsNumber p.diff
  diffUnits : Safe p.diffUnits
  dgpsAge : PrintsNumber p.dgpsAge

namespace Gga

def printed (p : Gga D) (h : p.Printable) : List (Printed D) :=
  [.time p.utc, .dbl true 7 4 (.flag 7) p.lat h.lat, .chr p.ns h.ns,
    .dbl true 7 4 (.flag 7) p.lon h.lon, .chr p.ew h.ew, .int false 1 .one p.sig, .two p.satinuse,
    .dbl true 3 1 (.flag 3) p.hdop h.hdop, .dbl true 3 1 (.flag 3) p.elv h.elv,
    .chr p.elvUnits h.elvUnits, .dbl true 3 1 (.flag 3) p.diff h.diff,
    .chr p.diffUnits h.diffUnits, .dbl true 3 1 (.flag 3) p.dgpsAge h.dgpsAge,
    .int true 4 (.flag 4) p.dgpsSid]

def line (p : Gga D) (h : p.Printable) : Line := lineOf .gpgga (p.printed h)

def shape : List (List Piece) :=
  [timePieces, dblPiece true 7 4, chrPiece, dblPiece true 7 4, chrPiece, intPiece false 1,
    intPiece true 2, dblPiece true 3 1, dblPiece true 3 1, chrPiece, dblPiece true 3 1, chrPiece,
    dblPiece true 3 1, intPiece true 4]

theorem gen (p : Gga D) (h : p.Printable) (buff : List Byte) :
    nmeaGenGpgga abi buff p = (p.line h).put buff := by
  have hshape : formatPieces none (cstr
      "$GPGGA,%02d%02d%02d.%02d,%07.4f,%C,%07.4f,%C,%1d,%02d,%03.1f,%03.1f,%C,%03.1f,%C," ++
      cstr "%03.1f,%04d") = (cstr "$GPGGA,").map .lit ++ joinPieces shape := by decide
  apply Line.printf
  exact printfText_fields (p.printed h) hshape

/-- The packet with its doubles as they were printed, and of its date nothing. -/
def reread (p : Gga D) : Gga D :=
  { p with
    utc := clockOf p.utc {}
    lat := RttNmea.reread true 7 4 p.lat
    lon := RttNmea.reread true 7 4 p.lon
    hdop := RttNmea.reread true 3 1 p.hdop
    elv := RttNmea.reread true 3 1 p.elv
    diff := RttNmea.reread true 3 1 p.diff
    dgpsAge := RttNmea.reread true 3 1 p.dgpsAge }

theorem parse (abi : Abi) (p : Gga D) (h : p.Printable) (timeBuff : List Byte) :
    ((nmeaParseGga abi timeBuff (p.line h).frame.bytes : Int32 × Gga D).1 =
        if ClockFits p.utc then 1 else 0) ∧
      (ClockFits p.utc →
        (nmeaParseGga abi timeBuff (p.line h).frame.bytes : Int32 × Gga D).2 = p.reread) := by
  let args : List (Option (Stored D)) :=
    List.zipWith (stores abi) GgaFields.kinds ((p.printed h).map Printed.text)
  have hscan : nmeaScanf abi (p.line h).frame.bytes ggaFormat = (14, args) := by
    rw [line, lineOf_bytes, scanf_gga]
    exact scan_row (fieldTexts (p.printed h)) _ _
  have htime : text (timeBuffAfter timeBuff args) = (Printed.time p.utc : Printed D).text :=
    time_stored p.utc timeBuff rfl
  obtain ⟨hok, hvalue⟩ := parseTime_printed (D := D) abi p.utc {}
  have hcount : ¬ (14 ≠ 14) := fun h => h rfl
  unfold nmeaParseGga ggaBody
  simp only [hscan, if_neg hcount, htime, success]
  by_cases hfits : ClockFits p.utc
  · rw [if_pos hfits, hok.mpr hfits, hvalue hfits]
    refine ⟨rfl, fun _ => ?_⟩
    rw [reread, Gga.mk.injEq]
    exact ⟨rfl, dblAt_printed rfl (.flag 7) h.lat, chrAt_printed rfl,
      dblAt_printed rfl (.flag 7) h.lon, chrAt_printed rfl, intAt_printed rfl .one (by decide),
      intAt_printed rfl (.flag 2) (by decide), dblAt_printed rfl (.flag 3) h.hdop,
      dblAt_printed rfl (.flag 3) h.elv, chrAt_printed rfl, dblAt_printed rfl (.flag 3) h.diff,
      chrAt_printed rfl, dblAt_printed rfl (.flag 3) h.dgpsAge,
      intAt_printed rfl (.flag 4) (by decide)⟩
  · have hbad : ¬ (nmeaParseTime D abi (Printed.time p.utc : Printed D).text {}).1 = 0 :=
      fun h0 => hfits (hok.mp h0)
    rw [if_neg hfits, beq_false_of_ne hbad]
    exact ⟨rfl, fun h => absurd h hfits⟩

end Gga

/-! ## GSA -/

theorem two_pieces (xs : List Int32) :
    (xs.map (Printed.two (D := D))).map Printed.pieces =
      List.replicate xs.length (intPiece true 2) := by
  rw [List.map_map]
  exact List.map_eq_replicate_iff.mpr fun _ _ => rfl

theorem two_kinds (xs : List Int32) :
    (xs.map (Printed.two (D := D))).map Printed.kind = List.replicate xs.length .int := by
  rw [List.map_map]
  exact List.map_eq_replicate_iff.mpr fun _ _ => rfl

theorem two_args (xs : List Int32) :
    (xs.map (Printed.two (D := D))).flatMap Printed.args = xs.map .int := by
  induction xs with
  | nil => rfl
  | cons x xs ih => exact congrArg (Arg.int x :: ·) ih

structure Gsa.Printable (p : Gsa D) : Prop where
  fixMode : Safe p.fixMode
  pdop : PrintsNumber p.pdop
  hdop : PrintsNumber p.hdop
  vdop : PrintsNumber p.vdop

namespace Gsa

def printed (p : Gsa D) (h : p.Printable) : List (Printed D) :=
  .chr p.fixMode h.fixMode :: .int false 1 .one p.fixType :: (p.satPrn.toList.map .two ++
    [.dbl true 3 1 (.flag 3) p.pdop h.pdop, .dbl true 3 1 (.flag 3) p.hdop h.hdop,
      .dbl true 3 1 (.flag 3) p.vdop h.vdop])

def line (p : Gsa D) (h : p.Printable) : Line := lineOf .gpgsa (p.printed h)

def shape : List (List Piece) :=
  chrPiece :: intPiece false 1 :: (List.replicate 12 (intPiece true 2) ++
    List.replicate 3 (dblPiece true 3 1))

theorem gen (p : Gsa D) (h : p.Printable) (buff : List Byte) :
    nmeaGenGpgsa abi buff p = (p.line h).put buff := by
  have hshape : formatPieces none (cstr
      "$GPGSA,%C,%1d,%02d,%02d,%02d,%02d,%02d,%02d,%02d,%02d,%02d,%02d,%02d,%02d,%03.1f," ++
      cstr "%03.1f,%03.1f") = (cstr "$GPGSA,").map .lit ++ joinPieces shape := by decide
  have hpieces : (p.printed h).map Printed.pieces = shape := by
    rw [printed, List.map_cons, List.map_cons, List.map_append, two_pieces, Vector.length_toList]
    rfl
  have hargs : (p.printed h).flatMap Printed.args =
      [.chr p.fixMode, .int p.fixType] ++ p.satPrn.toList.map .int ++
        [.dbl p.pdop, .dbl p.hdop, .dbl p.vdop] := by
    rw [printed, List.flatMap_cons, List.flatMap_cons, List.flatMap_append, two_args]
    rfl
  rw [← hpieces] at hshape
  have htext := printfText_fields _ hshape
  rw [hargs] at htext
  exact Line.printf htext buff

/-- The packet with its doubles as they were printed. -/
def reread (p : Gsa D) : Gsa D :=
  { p with
    pdop := RttNmea.reread true 3 1 p.pdop
    hdop := RttNmea.reread true 3 1 p.hdop
    vdop := RttNmea.reread true 3 1 p.vdop }

/-- The fields of the sentence. -/
def texts (p : Gsa D) : GsaFields where
  fixMode := [p.fixMode]
  fixType := printfD false 1 p.fixType
  satPrn := p.satPrn.map (printfD true 2)
  pdop := FixedPoint.printfF true 3 1 p.pdop
  hdop := FixedPoint.printfF true 3 1 p.hdop
  vdop := FixedPoint.printfF true 3 1 p.vdop

theorem texts_fields (p : Gsa D) (h : p.Printable) :
    (p.printed h).map Printed.text = p.texts.fields := by
  rw [printed, List.map_cons, List.map_cons, List.map_append, List.map_map, GsaFields.fields, texts,
    Vector.toList_map]
  rfl

theorem parse (abi : Abi) (p : Gsa D) (h : p.Printable) :
    (nmeaParseGsa abi (p.line h).frame.bytes : Int32 × Gsa D) = (1, p.reread) := by
  have hkinds : (p.printed h).map Printed.kind = GsaFields.kinds := by
    rw [printed, List.map_cons, List.map_cons, List.map_append, two_kinds, Vector.length_toList]
    rfl
  have hwell : p.texts.WellFormed := by
    have hfields := fieldTexts (p.printed h)
    rwa [hkinds, texts_fields] at hfields
  have hprn : p.texts.satPrn.map (intField abi) = p.satPrn := by
    apply Vector.ext
    intro i hi
    rw [Vector.getElem_map, texts, Vector.getElem_map, intField_printfD (.flag 2) (by decide)]
  rw [line, lineOf_bytes, texts_fields]
  refine (GsaFields.parse hwell _ _).trans ?_
  rw [GsaFields.packet, hprn, texts, reread, intField_printfD .one (by decide),
    dblField_printfF (.flag 3) h.pdop, dblField_printfF (.flag 3) h.hdop,
    dblField_printfF (.flag 3) h.vdop]
  rfl

end Gsa

/-! ## GSV -/

namespace Gsv

def printed (D : Type) [CPrint D] (p : Gsv) : List (Printed D) :=
  [.int false 1 .one p.packCount, .int false 1 .one (p.packIndex + 1), .two p.satCount] ++
    p.satData.toList.flatMap fun s =>
      [.two s.id, .two s.elv, .int true 3 (.flag 3) s.azimuth, .two s.sig]

def line (D : Type) [CPrint D] (p : Gsv) : Line := lineOf .gpgsv (p.printed D)

/-- The four satellites written out. -/
theorem satData_eq (p : Gsv) : p.satData.toList =
    [p.satData[0], p.satData[1], p.satData[2], p.satData[3]] := by
  apply List.ext_getElem
  · rw [Vector.length_toList]
    rfl
  · intro i hi hi'
    rw [Vector.getElem_toList]
    match i, hi' with
    | 0, _ | 1, _ | 2, _ | 3, _ => rfl

def shape : List (List Piece) :=
  [intPiece false 1, intPiece false 1, intPiece true 2] ++
    (List.replicate 4 [intPiece true 2, intPiece true 2, intPiece true 3, intPiece true 2]).flatten

theorem gen (p : Gsv) (buff : List Byte) :
    nmeaGenGpgsv D abi buff p = (p.line D).put buff := by
  have hshape : formatPieces none (cstr "$GPGSV,%1d,%1d,%02d," ++ cstr "%02d,%02d,%03d,%02d," ++
      cstr "%02d,%02d,%03d,%02d," ++ cstr "%02d,%02d,%03d,%02d," ++ cstr "%02d,%02d,%03d,%02d") =
      (cstr "$GPGSV,").map .lit ++ joinPieces shape := by decide
  have hpieces : (p.printed D).map Printed.pieces = shape := by
    rw [printed, satData_eq]
    rfl
  have hargs : (p.printed D).flatMap Printed.args =
      [.int p.packCount, .int (p.packIndex + 1), .int p.satCount] ++
        p.satData.toList.flatMap fun s => [.int s.id, .int s.elv, .int s.azimuth, .int s.sig] := by
    rw [printed, satData_eq]
    rfl
  rw [← hpieces] at hshape
  have htext := printfText_fields _ hshape
  rw [hargs] at htext
  exact Line.printf htext buff

/-- The number of sentences goes on from 1, and in_use is not printed. -/
def reread (p : Gsv) : Gsv :=
  { p with
    packIndex := p.packIndex + 1
    satData := p.satData.map fun s => { s with inUse := 0 } }

/-- The code's test of the number of fields. -/
def Counted (p : Gsv) : Prop := ¬ 19 < gsvNsat (p.packIndex + 1) p.satCount * 4 + 3

instance (p : Gsv) : Decidable p.Counted := inferInstanceAs (Decidable (¬ _))

/-- The fields of one satellite. -/
def satTexts (s : Satellite) : List (List Byte) :=
  [printfD true 2 s.id, printfD true 2 s.elv, printfD true 3 s.azimuth, printfD true 2 s.sig]

theorem texts_eq (D : Type) [CPrint D] (p : Gsv) : (p.printed D).map Printed.text =
    [printfD false 1 p.packCount, printfD false 1 (p.packIndex + 1), printfD true 2 p.satCount] ++
      (satTexts p.satData[0] ++ (satTexts p.satData[1] ++ (satTexts p.satData[2] ++
        satTexts p.satData[3]))) := by
  rw [printed, satData_eq]
  rfl

theorem parse (abi : Abi) (p : Gsv) :
    nmeaParseGsv D abi (p.line D).frame.bytes = (if p.Counted then 1 else 0, p.reread) := by
  let args : List (Option (Stored D)) :=
    List.zipWith (stores abi) (List.replicate 18 .int ++ [.int]) ((p.printed D).map Printed.text)
  have hkinds : (p.printed D).map Printed.kind = List.replicate 18 .int ++ [.int] := by
    rw [printed, satData_eq]
    rfl
  have hscan : nmeaScanf abi (p.line D).frame.bytes gsvFormat = (19, args) := by
    have hfields := fieldTexts (p.printed D)
    rw [hkinds] at hfields
    rw [line, lineOf_bytes, scanf_gsv]
    exact scan_row hfields _ _
  have hargs : args = List.zipWith (stores abi) (List.replicate 18 .int ++ [.int]) _ :=
    congrArg (List.zipWith (stores abi) _) (texts_eq D p)
  have hcount : intAt args 0 0 = p.packCount := by
    rw [hargs]
    exact intAt_printed rfl .one (by decide)
  have hindex : intAt args 1 0 = p.packIndex + 1 := by
    rw [hargs]
    exact intAt_printed rfl .one (by decide)
  have hview : intAt args 2 0 = p.satCount := by
    rw [hargs]
    exact intAt_printed rfl (.flag 2) (by decide)
  have hsats : (Vector.ofFn fun i : Fin nmeaSatInPack =>
      ({ id := intAt args (3 + 4 * i) 0, elv := intAt args (4 + 4 * i) 0
         azimuth := intAt args (5 + 4 * i) 0, sig := intAt args (6 + 4 * i) 0 } : Satellite)) =
      p.satData.map fun s => { s with inUse := 0 } := by
    apply Vector.ext
    intro i hi
    rw [Vector.getElem_ofFn, Vector.getElem_map, hargs, Satellite.mk.injEq]
    match i, hi with
    | 0, _ | 1, _ | 2, _ | 3, _ =>
      exact ⟨intAt_printed rfl (.flag 2) (by decide), rfl, intAt_printed rfl (.flag 2) (by decide),
        intAt_printed rfl (.flag 3) (by decide), intAt_printed rfl (.flag 2) (by decide)⟩
  unfold nmeaParseGsv gsvBody
  simp only [hscan, hcount, hindex, hview, hsats]
  rw [success, reread]
  have hnat : Int32.ofNat 19 = 19 := rfl
  by_cases hcounted : p.Counted
  · rw [if_pos hcounted]
    unfold Counted at hcounted
    rw [hnat]
    simp [hcounted]
  · rw [if_neg hcounted]
    unfold Counted at hcounted
    rw [hnat]
    simp [not_not.mp hcounted]

end Gsv

/-! ## VTG -/

structure Vtg.Printable (p : Vtg D) : Prop where
  dir : PrintsNumber p.dir
  dirT : Safe p.dirT
  dec : PrintsNumber p.dec
  decM : Safe p.decM
  spn : PrintsNumber p.spn
  spnN : Safe p.spnN
  spk : PrintsNumber p.spk
  spkK : Safe p.spkK

/-- The letters nmea_parse_vtg asks for. -/
def Vtg.Lettered (p : Vtg D) : Prop :=
  p.dirT = ascii 'T' ∧ p.decM = ascii 'M' ∧ p.spnN = ascii 'N' ∧ p.spkK = ascii 'K'

instance (p : Vtg D) : Decidable p.Lettered := inferInstanceAs (Decidable (_ ∧ _))

namespace Vtg

def printed (p : Vtg D) (h : p.Printable) : List (Printed D) :=
  [.dbl false 0 1 .none p.dir h.dir, .chr p.dirT h.dirT, .dbl false 0 1 .none p.dec h.dec,
    .chr p.decM h.decM, .dbl false 0 1 .none p.spn h.spn, .chr p.spnN h.spnN,
    .dbl false 0 1 .none p.spk h.spk, .chr p.spkK h.spkK]

def line (p : Vtg D) (h : p.Printable) : Line := lineOf .gpvtg (p.printed h)

def shape : List (List Piece) := (List.replicate 4 [dblPiece false 0 1, chrPiece]).flatten

theorem gen (p : Vtg D) (h : p.Printable) (buff : List Byte) :
    nmeaGenGpvtg abi buff p = (p.line h).put buff := by
  have hshape : formatPieces none (cstr "$GPVTG,%.1f,%C,%.1f,%C,%.1f,%C,%.1f,%C") =
      (cstr "$GPVTG,").map .lit ++ joinPieces shape := by decide
  apply Line.printf
  exact printfText_fields (p.printed h) hshape

/-- The packet with its doubles as they were printed. -/
def reread (p : Vtg D) : Vtg D :=
  { p with
    dir := RttNmea.reread false 0 1 p.dir
    dec := RttNmea.reread false 0 1 p.dec
    spn := RttNmea.reread false 0 1 p.spn
    spk := RttNmea.reread false 0 1 p.spk }

def vtgRow : List Item := rowOf (cstr "$GPVTG,") [.dbl, .chr, .dbl, .chr, .dbl, .chr, .dbl] .chr

theorem parse (abi : Abi) (p : Vtg D) (h : p.Printable) :
    (nmeaParseVtg abi (p.line h).frame.bytes : Int32 × Vtg D) =
      (if p.Lettered then 1 else 0, p.reread) := by
  let args : List (Option (Stored D)) :=
    List.zipWith (stores abi) ([.dbl, .chr, .dbl, .chr, .dbl, .chr, .dbl] ++ [.chr])
      ((p.printed h).map Printed.text)
  have hformat : vtgFormat = formatOf vtgRow := by decide
  have hscan : nmeaScanf abi (p.line h).frame.bytes vtgFormat = (8, args) := by
    rw [line, lineOf_bytes, hformat, scanf_items (by decide)]
    exact scan_row (fieldTexts (p.printed h)) _ _
  have hpack : ({ dir := dblAt args 0, dirT := chrAt args 1, dec := dblAt args 2
                  decM := chrAt args 3, spn := dblAt args 4, spnN := chrAt args 5
                  spk := dblAt args 6, spkK := chrAt args 7 } : Vtg D) = p.reread := by
    rw [reread, Vtg.mk.injEq]
    exact ⟨dblAt_printed rfl .none h.dir, chrAt_printed rfl, dblAt_printed rfl .none h.dec,
      chrAt_printed rfl, dblAt_printed rfl .none h.spn, chrAt_printed rfl,
      dblAt_printed rfl .none h.spk, chrAt_printed rfl⟩
  have hcount : ¬ (8 ≠ 8) := fun h => h rfl
  unfold nmeaParseVtg vtgBody
  have h1 : chrAt args 1 = p.dirT := chrAt_printed rfl
  have h3 : chrAt args 3 = p.decM := chrAt_printed rfl
  have h5 : chrAt args 5 = p.spnN := chrAt_printed rfl
  have h7 : chrAt args 7 = p.spkK := chrAt_printed rfl
  have htest : (!(decide (p.dirT ≠ ascii 'T') || decide (p.decM ≠ ascii 'M') ||
      decide (p.spnN ≠ ascii 'N') || decide (p.spkK ≠ ascii 'K'))) = decide p.Lettered := by
    by_cases hletters : p.Lettered
    · obtain ⟨hT, hM, hN, hK⟩ := hletters
      simp [Lettered, hT, hM, hN, hK]
    · rw [decide_eq_false hletters, Bool.eq_false_iff]
      intro hgood
      simp only [ne_eq, decide_not, Bool.not_or, Bool.not_not, Bool.and_eq_true,
        decide_eq_true_eq] at hgood
      exact hletters ⟨hgood.1.1.1, hgood.1.1.2, hgood.1.2, hgood.2⟩
  simp only [hscan, if_neg hcount, success, h1, h3, h5, h7, htest, decide_eq_true_eq]
  rw [← hpack, h1, h3, h5, h7]

end Vtg

/-! ## RMC -/

structure Rmc.Printable (p : Rmc D) : Prop where
  status : Safe p.status
  lat : PrintsNumber p.lat
  ns : Safe p.ns
  lon : PrintsNumber p.lon
  ew : Safe p.ew
  speed : PrintsNumber p.speed
  direction : PrintsNumber p.direction
  declination : PrintsNumber p.declination
  declinEw : Safe p.declinEw
  mode : Safe p.mode

/-- The columns of a date, of two characters each. -/
structure DateFits (t : Time) : Prop where
  day : -10 < t.day.toInt ∧ t.day.toInt < 100
  mon : -10 < (t.mon + 1).toInt ∧ (t.mon + 1).toInt < 100
  year : -10 < (t.year - 100).toInt ∧ (t.year - 100).toInt < 100

instance (t : Time) : Decidable (DateFits t) :=
  decidable_of_iff ((-10 < t.day.toInt ∧ t.day.toInt < 100) ∧
      (-10 < (t.mon + 1).toInt ∧ (t.mon + 1).toInt < 100) ∧
      (-10 < (t.year - 100).toInt ∧ (t.year - 100).toInt < 100))
    ⟨fun h => ⟨h.1, h.2.1, h.2.2⟩, fun h => ⟨h.day, h.mon, h.year⟩⟩

theorem Printed.date_text (t : Time) :
    (Printed.date t : Printed D).text =
      printfD true 2 t.day ++ (printfD true 2 (t.mon + 1) ++ printfD true 2 (t.year - 100)) := rfl

theorem dateFits_iff (t : Time) :
    DateFits t ↔ (Printed.date t : Printed D).text.length = 6 := by
  have hd := two_le_length_printfD t.day
  have hm := two_le_length_printfD (t.mon + 1)
  have hy := two_le_length_printfD (t.year - 100)
  have hfits : DateFits t ↔ (printfD true 2 t.day).length = 2 ∧
      (printfD true 2 (t.mon + 1)).length = 2 ∧ (printfD true 2 (t.year - 100)).length = 2 := by
    rw [length_two, length_two, length_two]
    exact ⟨fun h => ⟨h.day, h.mon, h.year⟩, fun h => ⟨h.1, h.2.1, h.2.2⟩⟩
  rw [hfits, Printed.date_text, List.length_append, List.length_append]
  omega

/-- As many fields without commas, each with its comma, stand in front of two texts that are the
same. -/
theorem commaText_inj {fs gs : List (List Byte)} {xs ys : List Byte} (hfs : ∀ f ∈ fs, comma ∉ f)
    (hgs : ∀ g ∈ gs, comma ∉ g) (hlen : fs.length = gs.length)
    (h : commaText fs ++ xs = commaText gs ++ ys) : xs = ys := by
  induction fs generalizing gs with
  | nil =>
    have hnil : gs = [] := List.length_eq_zero_iff.mp hlen.symm
    rw [hnil] at h
    exact h
  | cons f fs ih =>
    cases gs with
    | nil => cases hlen
    | cons g gs =>
      have hcons : ∀ (f : List Byte) (fs : List (List Byte)) (xs : List Byte),
          commaText (f :: fs) ++ xs = f ++ comma :: (commaText fs ++ xs) := by
        intro f fs xs
        simp [commaText]
      rw [hcons, hcons] at h
      obtain ⟨-, hnext⟩ := split_at_first (hfs f List.mem_cons_self) (hgs g List.mem_cons_self) h
      exact ih (fun x hx => hfs x (List.mem_cons_of_mem _ hx))
        (fun x hx => hgs x (List.mem_cons_of_mem _ hx)) (Nat.succ.inj hlen) hnext

namespace Rmc

/-- The fields in front of the date, and those behind it. -/
def front (p : Rmc D) (h : p.Printable) : List (Printed D) :=
  [.time p.utc, .chr p.status h.status, .dbl true 7 4 (.flag 7) p.lat h.lat, .chr p.ns h.ns,
    .dbl true 7 4 (.flag 7) p.lon h.lon, .chr p.ew h.ew, .dbl true 3 1 (.flag 3) p.speed h.speed,
    .dbl true 3 1 (.flag 3) p.direction h.direction]

def back (p : Rmc D) (h : p.Printable) : List (Printed D) :=
  [.dbl true 3 1 (.flag 3) p.declination h.declination, .chr p.declinEw h.declinEw,
    .chr p.mode h.mode]

def printed (p : Rmc D) (h : p.Printable) : List (Printed D) :=
  p.front h ++ .date p.utc :: p.back h

def line (p : Rmc D) (h : p.Printable) : Line := lineOf .gprmc (p.printed h)

def shape : List (List Piece) :=
  [timePieces, chrPiece, dblPiece true 7 4, chrPiece, dblPiece true 7 4, chrPiece,
    dblPiece true 3 1, dblPiece true 3 1, datePieces, dblPiece true 3 1, chrPiece, chrPiece]

theorem gen (p : Rmc D) (h : p.Printable) (buff : List Byte) :
    nmeaGenGprmc abi buff p = (p.line h).put buff := by
  have hshape : formatPieces none (cstr
      "$GPRMC,%02d%02d%02d.%02d,%C,%07.4f,%C,%07.4f,%C,%03.1f,%03.1f,%02d%02d%02d,%03.1f," ++
      cstr "%C,%C") = (cstr "$GPRMC,").map .lit ++ joinPieces shape := by decide
  apply Line.printf
  exact printfText_fields (p.printed h) hshape

/-- The packet with its doubles as they were printed and the year of its two digits: 90 to 99 stand
for the last years of the 20th century. -/
def reread (p : Rmc D) : Rmc D :=
  { p with
    utc := { p.utc with year := yearOf (p.utc.year - 100) }
    lat := RttNmea.reread true 7 4 p.lat
    lon := RttNmea.reread true 7 4 p.lon
    speed := RttNmea.reread true 3 1 p.speed
    direction := RttNmea.reread true 3 1 p.direction
    declination := RttNmea.reread true 3 1 p.declination }

/-- The kinds of the fields in front of the date. -/
abbrev frontKinds : List Conv := [.str, .chr, .dbl, .chr, .dbl, .chr, .dbl, .dbl]

theorem front_fields (p : Rmc D) (h : p.Printable) :
    List.Forall₂ CommaField frontKinds ((p.front h).map Printed.text) :=
  FieldText.commaFields (fieldTexts (p.front h))

/-- The sentence around its date. -/
theorem line_text (p : Rmc D) (h : p.Printable) :
    ∃ h1 h2, isDigitOf 16 h1 = true ∧ isDigitOf 16 h2 = true ∧
      (p.line h).frame.bytes = cstr "$GPRMC," ++ (commaText ((p.front h).map Printed.text) ++
        ((Printed.date p.utc : Printed D).text ++ comma ::
          (FixedPoint.printfF true 3 1 p.declination ++ comma ::
            ([p.declinEw] ++ comma :: ([p.mode] ++ star :: [h1, h2, cr, lf]))))) := by
  refine ⟨_, _, (p.line h).frame.hex1, (p.line h).frame.hex2, ?_⟩
  have hmap : (p.printed h).map Printed.text = (p.front h).map Printed.text ++
      (Printed.date p.utc : Printed D).text :: (p.back h).map Printed.text := by
    rw [printed, List.map_append, List.map_cons]
  rw [line, lineOf_bytes, hmap, sentenceOf, joined_append _ (List.cons_ne_nil _ _)]
  simp only [back, List.map_cons, List.map_nil, joined, List.append_assoc, List.cons_append]
  rfl

/-- A date of six characters: the date is read as three numbers, and all the rest is counted. -/
theorem scan_fits (p : Rmc D) (h : p.Printable) (hfits : DateFits p.utc) :
    (nmeaScanf abi (p.line h).frame.bytes rmcFormat : Nat × List (Option (Stored D))) =
      (14, List.zipWith (stores abi) frontKinds ((p.front h).map Printed.text) ++
        [some (.int p.utc.day), some (.int (p.utc.mon + 1)), some (.int (p.utc.year - 100)),
          stores abi .dbl (FixedPoint.printfF true 3 1 p.declination),
          stores abi .chr [p.declinEw], stores abi .chr [p.mode]]) := by
  have hsix := (dateFits_iff (D := D) p.utc).mp hfits
  have hday := (length_two p.utc.day).mpr hfits.day
  have hmon := (length_two (p.utc.mon + 1)).mpr hfits.mon
  have hyear := (length_two (p.utc.year - 100)).mpr hfits.year
  have hatoi : ∀ x : Int32, nmeaAtoi abi (printfD true 2 x) 10 = x := fun x =>
    nmeaAtoi_printfD (.flag 2) (by decide) x
  have htwo : ∀ {x : Int32} {rest : List Byte}, (printfD true 2 x).length = 2 →
      (printfD true 2 x ++ rest).take 2 = printfD true 2 x ∧
        (printfD true 2 x ++ rest).drop 2 = rest := fun hx =>
    ⟨List.take_left' hx, List.drop_left' hx⟩
  have hd1 : (Printed.date p.utc : Printed D).text.take 2 = printfD true 2 p.utc.day :=
    (htwo hday).1
  have hd2 : ((Printed.date p.utc : Printed D).text.drop 2).take 2 =
      printfD true 2 (p.utc.mon + 1) := by
    rw [Printed.date_text, (htwo hday).2, (htwo hmon).1]
  have hd3 : ((Printed.date p.utc : Printed D).text.drop 4).take 2 =
      printfD true 2 (p.utc.year - 100) := by
    rw [Printed.date_text, show 4 = 2 + 2 from rfl, ← List.drop_drop, (htwo hday).2, (htwo hmon).2,
      List.take_of_length_le (Nat.le_of_eq hyear)]
  obtain ⟨h1, h2, -, -, htext⟩ := line_text p h
  have hdecl : comma ∉ FixedPoint.printfF true 3 1 p.declination :=
    (Printed.dbl true 3 1 (.flag 3) p.declination h.declination).fieldText.no_comma
  have hew : FieldText .chr [p.declinEw] := (Printed.chr p.declinEw h.declinEw : Printed D).fieldText
  have hmode : FieldText .chr [p.mode] := (Printed.chr p.mode h.mode : Printed D).fieldText
  have hlast : ∀ tail : List Byte, (scanItems abi [.field .chr, .lit comma, .field .chr, .lit star]
      ([p.declinEw] ++ comma :: ([p.mode] ++ star :: tail)) : Nat × List (Option (Stored D))) =
      (2, [stores abi .chr [p.declinEw], stores abi .chr [p.mode]]) := by
    intro tail
    rw [scan_field (c := comma) _ rfl hew.no_comma (by decide) hew.single, scan_lit,
      scan_last hmode]
  rw [htext, scan_accepted (front_fields p h) hsix hdecl, hlast, hd1, hd2, hd3, hatoi, hatoi, hatoi]
  rfl

/-- A longer date is not followed by its comma, and the scan ends there. -/
theorem scan_long (abi : Abi) (p : Rmc D) (h : p.Printable) (hfits : ¬ DateFits p.utc) :
    (nmeaScanf abi (p.line h).frame.bytes rmcFormat : Nat × List (Option (Stored D))).1 < 13 := by
  by_contra hcount
  obtain ⟨h1, h2, hex1, hex2, htext⟩ := line_text p h
  rw [htext] at hcount
  obtain ⟨fs, date, declination, rest, hfs, hdate, -, hbuff⟩ :=
    scan_accepted_shape (Nat.not_lt.mp hcount)
  have hfront := front_fields p h
  have hnext := commaText_inj (no_commas hfront) (no_commas hfs)
    (hfront.length_eq.symm.trans hfs.length_eq) hbuff
  have hlong : 6 < (Printed.date p.utc : Printed D).text.length := by
    have hne : (Printed.date p.utc : Printed D).text.length ≠ 6 := fun h =>
      hfits ((dateFits_iff p.utc).mpr h)
    have hd := two_le_length_printfD p.utc.day
    have hm := two_le_length_printfD (p.utc.mon + 1)
    have hy := two_le_length_printfD (p.utc.year - 100)
    rw [Printed.date_text, List.length_append, List.length_append] at hne ⊢
    omega
  have hcomma : (Printed.date p.utc : Printed D).text[6]? = some comma := by
    have hright : (date ++ comma :: (declination ++ comma :: rest))[6]? = some comma := by
      rw [List.getElem?_append_right (by omega), hdate]
      rfl
    rwa [← hnext, List.getElem?_append_left hlong] at hright
  have hsafe := (Printed.date p.utc : Printed D).safe _ (List.mem_of_getElem? hcomma)
  exact hsafe.no_comma rfl

/-- **A printed RMC sentence is refused exactly if its time or its date does not fit.** -/
theorem parse (abi : Abi) (p : Rmc D) (h : p.Printable) (timeBuff : List Byte) :
    ((nmeaParseRmc abi timeBuff (p.line h).frame.bytes : Int32 × Rmc D).1 =
        if ClockFits p.utc ∧ DateFits p.utc then 1 else 0) ∧
      (ClockFits p.utc ∧ DateFits p.utc →
        (nmeaParseRmc abi timeBuff (p.line h).frame.bytes : Int32 × Rmc D).2 = p.reread) := by
  by_cases hdate : DateFits p.utc
  · let args : List (Option (Stored D)) :=
      List.zipWith (stores abi) frontKinds ((p.front h).map Printed.text) ++
        [some (.int p.utc.day), some (.int (p.utc.mon + 1)), some (.int (p.utc.year - 100)),
          stores abi .dbl (FixedPoint.printfF true 3 1 p.declination),
          stores abi .chr [p.declinEw],
          stores abi .chr [p.mode]]
    have hscan : (nmeaScanf abi (p.line h).frame.bytes rmcFormat : Nat × List (Option (Stored D))) =
        (14, args) := scan_fits p h hdate
    have htime : text (timeBuffAfter timeBuff args) = (Printed.time p.utc : Printed D).text :=
      time_stored p.utc timeBuff rfl
    have hday : intAt args 8 0 = p.utc.day := rfl
    have hmon : intAt args 9 0 = p.utc.mon + 1 := rfl
    have hyear : intAt args 10 0 = p.utc.year - 100 := rfl
    obtain ⟨hok, hvalue⟩ := parseTime_printed (D := D) abi p.utc
      { day := p.utc.day, mon := p.utc.mon + 1, year := p.utc.year - 100 }
    have hcount : ¬ (14 ≠ 13 ∧ 14 ≠ 14) := fun h => h.2 rfl
    unfold nmeaParseRmc rmcBody
    simp only [hscan, if_neg hcount, htime, hday, hmon, hyear, success]
    by_cases hclock : ClockFits p.utc
    · have hgood : ¬ (nmeaParseTime D abi (Printed.time p.utc : Printed D).text
          { day := p.utc.day, mon := p.utc.mon + 1, year := p.utc.year - 100 }).1 ≠ 0 :=
        not_not.mpr (hok.mpr hclock)
      have hboth : ClockFits p.utc ∧ DateFits p.utc := ⟨hclock, hdate⟩
      rw [if_pos hboth, if_neg hgood, hvalue hclock]
      refine ⟨rfl, fun _ => ?_⟩
      have hprev : p.utc.mon + 1 - 1 = p.utc.mon := Int32.add_sub_cancel _ _
      rw [reread, Rmc.mk.injEq]
      refine ⟨?_, chrAt_printed rfl, dblAt_printed rfl (.flag 7) h.lat, chrAt_printed rfl,
        dblAt_printed rfl (.flag 7) h.lon, chrAt_printed rfl, dblAt_printed rfl (.flag 3) h.speed,
        dblAt_printed rfl (.flag 3) h.direction, dblAt_printed rfl (.flag 3) h.declination,
        chrAt_printed rfl, chrAt_printed rfl⟩
      rw [clockOf, hprev]
      rfl
    · have hbad : (nmeaParseTime D abi (Printed.time p.utc : Printed D).text
          { day := p.utc.day, mon := p.utc.mon + 1, year := p.utc.year - 100 }).1 ≠ 0 :=
        fun h0 => hclock (hok.mp h0)
      have hrefused : ¬ (ClockFits p.utc ∧ DateFits p.utc) := fun h => hclock h.1
      rw [if_neg hrefused, if_pos hbad]
      exact ⟨rfl, fun h => absurd h hrefused⟩
  · have hfew := scan_long abi p h hdate
    have hcount : (nmeaScanf abi (p.line h).frame.bytes rmcFormat :
        Nat × List (Option (Stored D))).1 ≠ 13 ∧
        (nmeaScanf abi (p.line h).frame.bytes rmcFormat : Nat × List (Option (Stored D))).1 ≠ 14 :=
      ⟨by omega, by omega⟩
    have hrefused : ¬ (ClockFits p.utc ∧ DateFits p.utc) := fun h => hdate h.2
    unfold nmeaParseRmc rmcBody
    rw [if_neg hrefused, if_pos hcount]
    exact ⟨rfl, fun h => absurd h hrefused⟩

end Rmc

/-! ## All types of packet -/

/-- The nmea_gen_* of the packet. -/
def nmeaGen (abi : Abi) (buff : List Byte) : Packet D → Option (Nat × List Byte)
  | .gga p => nmeaGenGpgga abi buff p
  | .gsa p => nmeaGenGpgsa abi buff p
  | .gsv p => nmeaGenGpgsv D abi buff p
  | .rmc p => nmeaGenGprmc abi buff p
  | .vtg p => nmeaGenGpvtg abi buff p

namespace Packet

/-- Its characters are ASCII and no separators, its doubles no infinities and no NaN. -/
def Printable : Packet D → Prop
  | .gga p => p.Printable
  | .gsa p => p.Printable
  | .gsv _ => True
  | .rmc p => p.Printable
  | .vtg p => p.Printable

/-- The line of the packet. -/
def line : (p : Packet D) → p.Printable → Line
  | .gga p, h => p.line h
  | .gsa p, h => p.line h
  | .gsv p, _ => p.line D
  | .rmc p, h => p.line h
  | .vtg p, h => p.line h

/-- Its line is accepted. -/
def Readable : Packet D → Prop
  | .gga p => ClockFits p.utc
  | .gsa _ => True
  | .gsv p => p.Counted
  | .rmc p => ClockFits p.utc ∧ DateFits p.utc
  | .vtg p => p.Lettered

instance : (p : Packet D) → Decidable p.Readable
  | .gga p => inferInstanceAs (Decidable (ClockFits p.utc))
  | .gsa _ => inferInstanceAs (Decidable True)
  | .gsv p => inferInstanceAs (Decidable p.Counted)
  | .rmc p => inferInstanceAs (Decidable (ClockFits p.utc ∧ DateFits p.utc))
  | .vtg p => inferInstanceAs (Decidable p.Lettered)

/-- What its line is read as. -/
def reread : Packet D → Packet D
  | .gga p => .gga p.reread
  | .gsa p => .gsa p.reread
  | .gsv p => .gsv p.reread
  | .rmc p => .rmc p.reread
  | .vtg p => .vtg p.reread

theorem gen (p : Packet D) (h : p.Printable) (buff : List Byte) :
    nmeaGen abi buff p = (p.line h).put buff := by
  cases p with
  | gga p => exact p.gen h buff
  | gsa p => exact p.gen h buff
  | gsv p => exact p.gen buff
  | rmc p => exact p.gen h buff
  | vtg p => exact p.gen h buff

theorem packType_header {t : PackType} (ht : t ≠ .gpnon) (rest : List Byte) :
    nmeaPackType (headerOf t ++ rest) = t := by
  have hlen : 5 ≤ (headerOf t).length := by
    cases t <;> first | exact absurd rfl ht | decide
  have htake : (headerOf t ++ rest).take 5 = (headerOf t).take 5 :=
    List.take_append_of_le_length hlen
  rw [packType_congr htake]
  cases t <;> first | exact absurd rfl ht | decide

theorem packType_line (p : Packet D) (h : p.Printable) :
    nmeaPackType ((p.line h).frame.bytes.drop 1) = p.packType := by
  have hhead : ∀ (t : PackType) (fs : List (Printed D)), t ≠ .gpnon →
      nmeaPackType ((lineOf t fs).frame.bytes.drop 1) = t := by
    intro t fs ht
    have hdrop : (lineOf t fs).frame.bytes.drop 1 = headerOf t ++ (joined (fs.map Printed.text) ++
        [star, (lineOf t fs).frame.h1, (lineOf t fs).frame.h2, cr, lf]) :=
      List.append_assoc _ _ _
    rw [hdrop, packType_header ht]
  cases p with
  | gga p => exact hhead _ _ PackType.noConfusion
  | gsa p => exact hhead _ _ PackType.noConfusion
  | gsv p => exact hhead _ _ PackType.noConfusion
  | rmc p => exact hhead _ _ PackType.noConfusion
  | vtg p => exact hhead _ _ PackType.noConfusion

omit [CPrint D] in
theorem ite_readable {p : Packet D} {c : Prop} [Decidable c] (h : c ↔ p.Readable) :
    (if c then 1 else 0 : Int32) = if p.Readable then 1 else 0 := if_congr h rfl rfl

/-- The field parser on the line of a packet. -/
theorem parse (abi : Abi) (p : Packet D) (h : p.Printable) (timeBuff : List Byte) :
    ∃ q, parsePack abi timeBuff (nmeaPackType ((p.line h).frame.bytes.drop 1))
        (p.line h).frame.bytes = some (if p.Readable then 1 else 0, q) ∧
      (p.Readable → q = p.reread) := by
  rw [packType_line]
  cases p with
  | gga p =>
    have hreadable : ClockFits p.utc ↔ (Packet.gga p).Readable := Iff.rfl
    obtain ⟨hok, hpack⟩ := p.parse abi h timeBuff
    refine ⟨.gga (nmeaParseGga abi timeBuff (p.line h).frame.bytes).2, ?_,
      fun hr => congrArg Packet.gga (hpack hr)⟩
    show some ((nmeaParseGga abi timeBuff (p.line h).frame.bytes).1, _) = _
    rw [hok]
    exact congrArg (fun ok => some (ok, _)) (ite_readable hreadable)
  | gsa p =>
    have hparse := p.parse abi h
    have hreadable : (Packet.gsa p).Readable := trivial
    refine ⟨.gsa p.reread, ?_, fun _ => rfl⟩
    show some ((nmeaParseGsa abi (p.line h).frame.bytes).1,
      Packet.gsa (nmeaParseGsa abi (p.line h).frame.bytes).2) = _
    rw [hparse, if_pos hreadable]
  | gsv p =>
    have hreadable : p.Counted ↔ (Packet.gsv p : Packet D).Readable := Iff.rfl
    have hparse := p.parse (D := D) abi
    refine ⟨.gsv p.reread, ?_, fun _ => rfl⟩
    show some ((nmeaParseGsv D abi (p.line D).frame.bytes).1,
      Packet.gsv (nmeaParseGsv D abi (p.line D).frame.bytes).2) = _
    rw [hparse]
    dsimp only
    rw [ite_readable hreadable]
  | rmc p =>
    have hreadable : ClockFits p.utc ∧ DateFits p.utc ↔ (Packet.rmc p).Readable := Iff.rfl
    obtain ⟨hok, hpack⟩ := p.parse abi h timeBuff
    refine ⟨.rmc (nmeaParseRmc abi timeBuff (p.line h).frame.bytes).2, ?_,
      fun hr => congrArg Packet.rmc (hpack hr)⟩
    show some ((nmeaParseRmc abi timeBuff (p.line h).frame.bytes).1, _) = _
    rw [hok]
    exact congrArg (fun ok => some (ok, _)) (ite_readable hreadable)
  | vtg p =>
    have hreadable : p.Lettered ↔ (Packet.vtg p).Readable := Iff.rfl
    have hparse := p.parse abi h
    refine ⟨.vtg p.reread, ?_, fun _ => rfl⟩
    show some ((nmeaParseVtg abi (p.line h).frame.bytes).1,
      Packet.vtg (nmeaParseVtg abi (p.line h).frame.bytes).2) = _
    rw [hparse]
    exact congrArg (fun ok => some (ok, Packet.vtg p.reread)) (ite_readable hreadable)

end Packet

/-- **A packet that is printed with room to spare is found and read back**, if its time and date
fit their columns, a GSV packet passes the code's count, and a VTG packet has its own letters. -/
theorem generated_read {p : Packet D} (h : p.Printable) {buff out : List Byte} {n : Nat}
    (hgen : nmeaGen abi buff p = some (n, out)) (hroom : n < buff.length) (timeBuff : List Byte) :
    (∃ crc, 0 ≤ crc ∧ nmeaFindTail abi (out.take n) = (n, crc)) ∧
      ∃ ok q, parsePack abi timeBuff (nmeaPackType ((out.take n).drop 1)) (out.take n) =
          some (ok, q) ∧ (ok ≠ 0 ↔ p.Readable) ∧ (p.Readable → q = p.reread) := by
  rw [Packet.gen p h] at hgen
  obtain ⟨rfl, rfl⟩ := Line.put_room hgen hroom
  rw [List.take_left]
  have hfound := @Frame.findTail abi (p.line h).frame []
  rw [List.append_nil] at hfound
  obtain ⟨q, hparse, hpack⟩ := p.parse abi h timeBuff
  refine ⟨⟨_, ((p.line h).verdict_nonneg abi).2, hfound⟩, _, q, hparse, ?_, hpack⟩
  by_cases hr : p.Readable
  · rw [if_pos hr]
    exact iff_of_true (by decide) hr
  · rw [if_neg hr]
    exact iff_of_false (fun h => h rfl) hr

/-- A packet without a zero in it, the NUL of its mode apart. -/
def Rmc.sample : Rmc Rat where
  utc := ⟨108, 5, 23, 17, 38, 43, 50⟩
  status := ascii 'A'
  lat := 3349896 / 1000
  ns := ascii 'N'
  lon := 11808521 / 1000
  ew := ascii 'W'
  speed := 5 / 2
  direction := 360
  declination := 134 / 10
  declinEw := ascii 'E'
  mode := 0

theorem generated_read_rmc :
    let p : Packet Rat := .rmc .sample
    let abi : Abi := ⟨true, 32, le_rfl⟩
    p.Readable ∧ ∃ n out, nmeaGen abi (List.replicate 128 0) p = some (n, out) ∧
      (∃ crc, 0 ≤ crc ∧ nmeaFindTail abi (out.take n) = (n, crc)) ∧
        ∃ ok q, parsePack abi [] (nmeaPackType ((out.take n).drop 1)) (out.take n) =
            some (ok, q) ∧ (ok ≠ 0 ↔ p.Readable) ∧ (p.Readable → q = p.reread) := by
  intro p abi
  have hsize : (nmeaGen abi (List.replicate 128 0) p).map Prod.fst = some 74 := by decide +kernel
  obtain ⟨⟨n, out⟩, hgen, rfl⟩ := Option.map_eq_some_iff.mp hsize
  have hprintable : p.Printable :=
    { lat := printsNumber_rat _, lon := printsNumber_rat _, speed := printsNumber_rat _
      direction := printsNumber_rat _, declination := printsNumber_rat _
      status := by decide, ns := by decide, ew := by decide, declinEw := by decide
      mode := by decide }
  have hroom : 74 < (List.replicate 128 (0 : Byte)).length := by
    rw [List.length_replicate]
    decide
  exact ⟨by decide, _, out, hgen, generated_read hprintable hgen hroom []⟩

end RttNmea
