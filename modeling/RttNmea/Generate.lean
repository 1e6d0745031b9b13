import RttNmea.FindTail
import RttNmea.GpsParse
import RttNmea.Lib.Printf

/-!
# The generator of nmealib: nmea_printf, nmea_gen_*, nmea_info2* and nmea_generate

A buffer is given as the bytes from `buff` on, `buff_sz` of them. Reading or writing behind
them is undefined behaviour, which is `none` here.
-/

namespace RttNmea

open CText

/-- The further `double` operations of the generator. -/
class CPrint (D : Type) extends CArith D, FixedPoint D where
  fabs : D → D
  /-- `x > 0`. -/
  pos : D → Bool

instance : CPrint Rat where
  fabs x := if x < 0 then -x else x
  pos x := decide (0 < x)

variable {D : Type} [CPrint D]

/-! ## nmea_printf -/

def nmeaCalcCrc (abi : Abi) (buff : List Byte) : Int32 :=
  buff.foldl (fun chsum b => chsum ^^^ charToInt abi b) 0

/-- nmea_printf: what it returns, and the buffer after it. NMEA_POSIX(vsnprintf) and
NMEA_POSIX(snprintf) are taken as C99's, which return the length of the whole text, as in every
build but that of MSVC. The checksum is taken from buff + 1 on, retval - 1 bytes, and the tail goes
to buff + retval, also if vsnprintf had no room for the whole text: then both lie outside the
buffer. `none` stands for conversions that are not modelled, too. -/
def nmeaPrintf (abi : Abi) (buff format : List Byte) (args : List (Arg D)) :
    Option (Nat × List Byte) :=
  if buff = [] then some (0, buff)
  else
    match printfText format args with
    | .error .unmodelled => none
    -- vsnprintf returns -1
    | .error .encoding => some (buff.length, List.replicate buff.length (ascii ' '))
    | .ok s =>
      let out := snprintf buff s
      if s = [] then some (0, out)
      else if buff.length < s.length then none
      else
        let crc := nmeaCalcCrc abi ((out.drop 1).take (s.length - 1))
        match printfText (D := D) (cstr "*%02x\r\n") [.int crc] with
        | .error _ => none
        | .ok tail =>
          let out := out.take s.length ++ snprintf (out.drop s.length) tail
          let retval := s.length + tail.length
          if retval > buff.length then
            some (buff.length, List.replicate buff.length (ascii ' '))
          else some (retval, out)

/-! ## nmea_gen_* -/

def nmeaGenGpgga (abi : Abi) (buff : List Byte) (pack : Gga D) : Option (Nat × List Byte) :=
  nmeaPrintf abi buff
    (cstr "$GPGGA,%02d%02d%02d.%02d,%07.4f,%C,%07.4f,%C,%1d,%02d,%03.1f,%03.1f,%C,%03.1f,%C," ++
      cstr "%03.1f,%04d")
    [.int pack.utc.hour, .int pack.utc.min, .int pack.utc.sec, .int pack.utc.hsec,
      .dbl pack.lat, .chr pack.ns, .dbl pack.lon, .chr pack.ew,
      .int pack.sig, .int pack.satinuse, .dbl pack.hdop, .dbl pack.elv, .chr pack.elvUnits,
      .dbl pack.diff, .chr pack.diffUnits, .dbl pack.dgpsAge, .int pack.dgpsSid]

def nmeaGenGpgsa (abi : Abi) (buff : List Byte) (pack : Gsa D) : Option (Nat × List Byte) :=
  nmeaPrintf abi buff
    (cstr "$GPGSA,%C,%1d,%02d,%02d,%02d,%02d,%02d,%02d,%02d,%02d,%02d,%02d,%02d,%02d,%03.1f," ++
      cstr "%03.1f,%03.1f")
    ([.chr pack.fixMode, .int pack.fixType] ++ pack.satPrn.toList.map .int ++
      [.dbl pack.pdop, .dbl pack.hdop, .dbl pack.vdop])

def nmeaGenGpgsv (D : Type) [CPrint D] (abi : Abi) (buff : List Byte) (pack : Gsv) :
    Option (Nat × List Byte) :=
  nmeaPrintf (D := D) abi buff
    (cstr "$GPGSV,%1d,%1d,%02d," ++ cstr "%02d,%02d,%03d,%02d," ++ cstr "%02d,%02d,%03d,%02d," ++
      cstr "%02d,%02d,%03d,%02d," ++ cstr "%02d,%02d,%03d,%02d")
    ([.int pack.packCount, .int (pack.packIndex + 1), .int pack.satCount] ++
      pack.satData.toList.flatMap fun s => [.int s.id, .int s.elv, .int s.azimuth, .int s.sig])

def nmeaGenGprmc (abi : Abi) (buff : List Byte) (pack : Rmc D) : Option (Nat × List Byte) :=
  nmeaPrintf abi buff
    (cstr "$GPRMC,%02d%02d%02d.%02d,%C,%07.4f,%C,%07.4f,%C,%03.1f,%03.1f,%02d%02d%02d,%03.1f," ++
      cstr "%C,%C")
    [.int pack.utc.hour, .int pack.utc.min, .int pack.utc.sec, .int pack.utc.hsec,
      .chr pack.status, .dbl pack.lat, .chr pack.ns, .dbl pack.lon, .chr pack.ew,
      .dbl pack.speed, .dbl pack.direction,
      .int pack.utc.day, .int (pack.utc.mon + 1), .int (pack.utc.year - 100),
      .dbl pack.declination, .chr pack.declinEw, .chr pack.mode]

def nmeaGenGpvtg (abi : Abi) (buff : List Byte) (pack : Vtg D) : Option (Nat × List Byte) :=
  nmeaPrintf abi buff (cstr "$GPVTG,%.1f,%C,%.1f,%C,%.1f,%C,%.1f,%C")
    [.dbl pack.dir, .chr pack.dirT, .dbl pack.dec, .chr pack.decM, .dbl pack.spn, .chr pack.spnN,
      .dbl pack.spk, .chr pack.spkK]

/-! ## nmea_zero_* -/

/-- nmea_zero_GPGGA; `now` is what nmea_time_now gives. -/
def nmeaZeroGpgga (now : Time) : Gga D :=
  { utc := now, lat := CDouble.zero, ns := ascii 'N', lon := CDouble.zero, ew := ascii 'E', sig := 0
    satinuse := 0, hdop := CDouble.zero, elv := CDouble.zero, elvUnits := ascii 'M'
    diff := CDouble.zero, diffUnits := ascii 'M', dgpsAge := CDouble.zero, dgpsSid := 0 }

def nmeaZeroGpgsa : Gsa D :=
  { fixMode := ascii 'A', fixType := nmeaFixBad, satPrn := Vector.replicate _ 0
    pdop := CDouble.zero, hdop := CDouble.zero, vdop := CDouble.zero }

def nmeaZeroGpgsv : Gsv :=
  { packCount := 0, packIndex := 0, satCount := 0, satData := Vector.replicate _ {} }

def nmeaZeroGprmc (now : Time) : Rmc D :=
  { utc := now, status := ascii 'V', lat := CDouble.zero, ns := ascii 'N', lon := CDouble.zero
    ew := ascii 'E', speed := CDouble.zero, direction := CDouble.zero
    declination := CDouble.zero, declinEw := ascii 'E', mode := 0 }

def nmeaZeroGpvtg : Vtg D :=
  { dir := CDouble.zero, dirT := ascii 'T', dec := CDouble.zero, decM := ascii 'M'
    spn := CDouble.zero, spnN := ascii 'N', spk := CDouble.zero, spkK := ascii 'K' }

/-! ## nmea_info2* -/

def nmeaInfo2Gpgga (now : Time) (info : Info D) : Gga D :=
  { (nmeaZeroGpgga now : Gga D) with
    utc := info.utc
    lat := CPrint.fabs info.lat
    ns := if CPrint.pos info.lat then ascii 'N' else ascii 'S'
    lon := CPrint.fabs info.lon
    ew := if CPrint.pos info.lon then ascii 'E' else ascii 'W'
    sig := info.sig
    satinuse := info.satinfo.inuse
    hdop := info.hdop
    elv := info.elv }

def nmeaInfo2Gpgsa (info : Info D) : Gsa D :=
  { (nmeaZeroGpgsa : Gsa D) with
    fixType := info.fix
    pdop := info.pdop
    hdop := info.hdop
    vdop := info.vdop
    satPrn := info.satinfo.sat.map fun s => if s.inUse ≠ 0 then s.id else 0 }

/-- nmea_gsv_npack: sat_count / 4 rounded up, in doubles that hold it exactly, or 1 for 0. -/
def nmeaGsvNpack (satCount : Int32) : Int32 :=
  let packCount := Int32.ofInt (-(-satCount.toInt / 4))
  if packCount = 0 then 1 else packCount

/-- nmea_info2GPGSV, with the four satellites from pack_index * 4 on, a place outside the table
being `none`. -/
def nmeaInfo2Gpgsv (info : Info D) (packIdx : Int32) : Option Gsv :=
  let satCount := if info.satinfo.inview ≤ 12 then info.satinfo.inview else 12
  let npack := nmeaGsvNpack satCount
  let packCount := if npack = 0 then 1 else npack
  let packIndex := if packIdx ≥ packCount then packIdx % packCount else packIdx
  let sit := packIndex * 4
  if 0 ≤ sit ∧ sit.toNatClampNeg + nmeaSatInPack ≤ nmeaMaxSat then
    some { nmeaZeroGpgsv with
      satCount, packCount, packIndex
      satData := Vector.ofFn fun pit => info.satinfo.sat[sit.toNatClampNeg + pit]?.getD {} }
  else none

def nmeaInfo2Gprmc (now : Time) (info : Info D) : Rmc D :=
  { (nmeaZeroGprmc now : Rmc D) with
    utc := info.utc
    status := if 0 < info.sig then ascii 'A' else ascii 'V'
    lat := CPrint.fabs info.lat
    ns := if CPrint.pos info.lat then ascii 'N' else ascii 'S'
    lon := CPrint.fabs info.lon
    ew := if CPrint.pos info.lon then ascii 'E' else ascii 'W'
    speed := CArith.div info.speed CDouble.tudKnots
    direction := info.direction
    declination := info.declination
    declinEw := ascii 'E'
    mode := if 0 < info.sig then ascii 'A' else ascii 'N' }

def nmeaInfo2Gpvtg (info : Info D) : Vtg D :=
  { (nmeaZeroGpvtg : Vtg D) with
    dir := info.direction
    dec := info.declination
    spn := CArith.div info.speed CDouble.tudKnots
    spk := info.speed }

/-! ## nmea_generate -/

/-- gen_count and the whole buffer. -/
structure GenState where
  genCount : Nat
  buff : List Byte
  deriving DecidableEq, Repr

/-- `buff_sz - gen_count <= 0`. -/
def GenState.Full (st : GenState) : Prop := st.buff.length ≤ st.genCount

instance (st : GenState) : Decidable st.Full := inferInstanceAs (Decidable (_ ≤ _))

/-- `gen_count += nmea_gen_*(buff + gen_count, buff_sz - gen_count, &pack)`. -/
def GenState.emit (gen : List Byte → Option (Nat × List Byte)) (st : GenState) :
    Option GenState := do
  let (n, rest) ← gen (st.buff.drop st.genCount)
  return ⟨st.genCount + n, st.buff.take st.genCount ++ rest⟩

/-- The for loop over the GSV packs, `more` turns from gsv_it on. -/
def generateGsv (abi : Abi) (info : Info D) : Nat → Nat → GenState → Option GenState
  | 0, _, st => some st
  | more + 1, gsvIt, st =>
    if st.Full then some st
    else do
      let gsv ← nmeaInfo2Gpgsv info (Int32.ofNat gsvIt)
      let st ← st.emit (nmeaGenGpgsv D abi · gsv)
      generateGsv abi info more (gsvIt + 1) st

/-- The branch of the while loop for one type of packet. -/
def generatePack (abi : Abi) (now : Time) (info : Info D) (st : GenState) :
    PackType → Option GenState
  | .gpnon => some st
  | .gpgga => st.emit (nmeaGenGpgga abi · (nmeaInfo2Gpgga now info))
  | .gpgsa => st.emit (nmeaGenGpgsa abi · (nmeaInfo2Gpgsa info))
  | .gpgsv => generateGsv abi info (nmeaGsvNpack info.satinfo.inview).toNatClampNeg 0 st
  | .gprmc => st.emit (nmeaGenGprmc abi · (nmeaInfo2Gprmc now info))
  | .gpvtg => st.emit (nmeaGenGpvtg abi · (nmeaInfo2Gpvtg info))

/-- The types in the order of the else-if chain. -/
def generateOrder : List PackType := [.gpgga, .gpgsa, .gpgsv, .gprmc, .gpvtg]

/-- The while loop; each turn that goes on clears a bit of pack_mask. -/
def generateLoop (abi : Abi) (now : Time) (info : Info D) :
    Nat → Int32 → GenState → Option GenState
  | 0, _, _ => none
  | fuel + 1, packMask, st =>
    if packMask = 0 then some st
    else
      match generateOrder.find? fun t => packMask &&& t.code != 0 with
      | none => some st
      | some t => do
        let st ← generatePack abi now info st t
        if st.Full then return st
        else generateLoop abi now info fuel (packMask &&& ~~~t.code) st

/-- nmea_generate: gen_count and the buffer after it. -/
def nmeaGenerate (abi : Abi) (now : Time) (buff : List Byte) (info : Info D)
    (generateMask : Int32) : Option GenState :=
  generateLoop abi now info 6 generateMask ⟨0, buff⟩

end RttNmea
