import RttNmea.Types

/-!
# gps_parse

The parser of bsp/stm32l475_nmealib that does not use nmea_scanf. data_conversion cuts a
message at its commas, and each parse function reads the sections it needs by their number.
A pointer into a message is a place in its text. Reading through a NULL pointer, or outside
ptr_section, is undefined behaviour, which is `none` here.
-/

namespace RttNmea

open CText

/-- The further `double` operations gps_parse uses. -/
class CArith (D : Type) extends CDouble D where
  add : D → D → D
  sub : D → D → D
  div : D → D → D
  ofInt : Int → D
  /-- Conversion to `int32_t`. -/
  toInt32 : D → Int32
  /-- Conversion to `float`. -/
  toFloat : D → D

/-- Exact rationals: doubles to compute examples with. -/
instance : CArith Rat where
  zero := 0
  neg := Neg.neg
  mul := HMul.hMul
  tudKnots := 1852 / 1000
  strtod s := (Decimal.read s).mantissa / 10 ^ (Decimal.read s).scale
  add := HAdd.hAdd
  sub := HSub.hSub
  div := HDiv.hDiv
  ofInt n := n
  toInt32 x := Int32.ofInt (x.num.tdiv x.den)
  toFloat := id

def gpsSeparator : Byte := ascii ','
def ggaSectionMax : UInt8 := 14
def rmcSectionMax : UInt8 := 12
def gsvSectionMax : UInt8 := 19
/-- GPS_NMEA_MAX_SVVIEW and MDI_GPS_NMEA_MAX_SVVIEW. -/
def gpsNmeaMaxSvview : Nat := 40
def maxNmeaPackLen : Nat := 200
def parseGgaMessageMaxLen : UInt8 := 8
def parseGsvMessageMaxLen : UInt8 := 7
def parseRmcMessageMaxLen : UInt8 := 9

/-- RT_ERROR, as data_conversion returns it. -/
def rtError : UInt8 := 1

/-- struct NMEA_GGA. -/
structure NmeaGga (D : Type) where
  utcTime : D
  latitude : D
  northSouth : Int8
  longitude : D
  eastWest : Int8
  positionStatus : Int8
  satInView : UInt8
  hdop : D
  altitude : D
  deriving DecidableEq, Repr

/-- struct NMEA_RMC. -/
structure NmeaRmc (D : Type) where
  utcTime : D
  positionStatus : Int8
  latitude : D
  northSouth : Int8
  longitude : D
  eastWest : Int8
  speed : D
  azimuth : D
  utcDate : D
  deriving DecidableEq, Repr

/-- struct NMEA_GSV_SATELITES. -/
structure GsvSatelite where
  prn : UInt8 := 0
  elevation : UInt8 := 0
  azimuth : Int16 := 0
  cnr : UInt8 := 0
  deriving DecidableEq, Repr

/-- struct NMEA_GSV. The defaults are those of rt_memset. -/
structure NmeaGsv where
  satesInView : Int16 := 0
  rsv : Vector GsvSatelite gpsNmeaMaxSvview := Vector.replicate _ {}
  deriving DecidableEq, Repr

/-! ## The C library -/

/-- `strchr(s + start, c)` for a `c` that is not NUL. -/
def strchr (s : List Byte) (start : Nat) (c : Byte) : Option Nat :=
  if c ∈ s.drop start then some (start + (s.drop start).idxOf c) else none

def atoi (abi : Abi) (s : List Byte) : Int32 := Int32.ofInt (strtol abi 10 s)

def atof {D : Type} [CDouble D] (s : List Byte) : D := CDouble.strtod s

/-- Assignment of an `int` to a `uint8_t`. -/
def toUint8 (x : Int32) : UInt8 := x.toUInt32.toUInt8

/-! ## data_conversion -/

/-- The loop of data_conversion: the places it stores in output, one after another. `room` is
section_max_count - count, and `ptr` is at a comma. A section that is empty and followed by a
comma starts at its own comma. -/
def sections (s : List Byte) (ptrEnd : Nat) : Nat → Option Nat → List Nat
  | 0, _ => []
  | _ + 1, none => []
  | room + 1, some ptr =>
    if ptr < ptrEnd then
      (if s[ptr]? = some gpsSeparator ∧ s[ptr + 1]? = some gpsSeparator then ptr else ptr + 1) ::
        sections s ptrEnd room (strchr s (ptr + 1) gpsSeparator)
    else []

/-- data_conversion: what it returns, and the places stored in output[0], output[1], ... -/
def dataConversion (input : Option (List Byte)) (sectionMaxCount : UInt8) : UInt8 × List Nat :=
  match input with
  | none => (rtError, [])
  | some m =>
    let s := text m
    match strchr s 0 gpsSeparator, strchr s 0 (ascii '*') with
    | some ptr, some ptrEnd =>
      if (ptrEnd : Int) - ptr > maxNmeaPackLen then (0, [])
      else
        let output := sections s ptrEnd sectionMaxCount.toNat (some ptr)
        -- count - 1 wraps if nothing was stored
        (UInt8.ofNat output.length - 1, output)
    | _, _ => (0, [])

/-- ptr_section[k], an array of `size` pointers that was zeroed before data_conversion: the
text it points to, `some none` if it is NULL. -/
def ptrSection (size : UInt8) (s : List Byte) (output : List Nat) (k : Nat) :
    Option (Option (List Byte)) :=
  if k < size.toNat then some (output[k]?.map s.drop) else none

/-- The text ptr_section[k] points to. -/
def deref (size : UInt8) (s : List Byte) (output : List Nat) (k : Nat) : Option (List Byte) :=
  (ptrSection size s output k).join

/-! ## GGA and RMC -/

section

variable {D : Type} [CArith D]

def latitudeLongitudeConversion (fData : D) : D :=
  let hundred : D := CArith.ofInt 100
  let i : D := CArith.ofInt (CArith.toInt32 (CArith.div fData hundred)).toInt
  CArith.add i
    (CArith.div (CDouble.mul (CArith.sub (CArith.div fData hundred) i) hundred) (CArith.ofInt 60))

/-- `*ptr == zero ? 0 : *ptr == one ? 1 : -1`. -/
def letterCode (zero one : Char) (s : List Byte) : Int8 :=
  if s.headD 0 = ascii zero then 0 else if s.headD 0 = ascii one then 1 else -1

def coordinate (s : List Byte) : D :=
  CArith.toFloat (latitudeLongitudeConversion (atof s))

/-- parse_gga: false or true, and *pdat. -/
def parseGga (abi : Abi) (input : Option (List Byte)) (pdat : NmeaGga D) :
    Option (Bool × NmeaGga D) :=
  match input with
  | none => some (false, pdat)
  | some m =>
    let r := dataConversion (some m) ggaSectionMax
    if parseGgaMessageMaxLen > r.1 then some (false, pdat)
    else do
      let utcTime ← deref ggaSectionMax (text m) r.2 0
      let latitude ← deref ggaSectionMax (text m) r.2 1
      let northSouth ← deref ggaSectionMax (text m) r.2 2
      let longitude ← deref ggaSectionMax (text m) r.2 3
      let eastWest ← deref ggaSectionMax (text m) r.2 4
      let satInView ← deref ggaSectionMax (text m) r.2 6
      let hdop ← deref ggaSectionMax (text m) r.2 7
      let altitude ← deref ggaSectionMax (text m) r.2 8
      return (true, { pdat with
        utcTime := atof utcTime
        latitude := coordinate latitude
        northSouth := letterCode 'N' 'S' northSouth
        longitude := coordinate longitude
        eastWest := letterCode 'E' 'W' eastWest
        satInView := toUint8 (atoi abi satInView)
        hdop := CArith.toFloat (atof hdop)
        altitude := CArith.toFloat (atof altitude) })

/-- parse_rmc: false or true, and *pdat. -/
def parseRmc (input : Option (List Byte)) (pdat : NmeaRmc D) : Option (Bool × NmeaRmc D) :=
  match input with
  | none => some (false, pdat)
  | some m =>
    let r := dataConversion (some m) rmcSectionMax
    if r.1 < parseRmcMessageMaxLen then some (false, { pdat with positionStatus := -1 })
    else do
      let utcTime ← deref rmcSectionMax (text m) r.2 0
      let positionStatus ← deref rmcSectionMax (text m) r.2 1
      let latitude ← deref rmcSectionMax (text m) r.2 2
      let northSouth ← deref rmcSectionMax (text m) r.2 3
      let longitude ← deref rmcSectionMax (text m) r.2 4
      let eastWest ← deref rmcSectionMax (text m) r.2 5
      let speed ← deref rmcSectionMax (text m) r.2 6
      let azimuth ← deref rmcSectionMax (text m) r.2 7
      let utcDate ← deref rmcSectionMax (text m) r.2 8
      return (true,
        { utcTime := atof utcTime
          positionStatus := letterCode 'V' 'A' positionStatus
          latitude := coordinate latitude
          northSouth := letterCode 'N' 'S' northSouth
          longitude := coordinate longitude
          eastWest := letterCode 'E' 'W' eastWest
          speed := atof speed
          azimuth := CArith.toFloat (atof azimuth)
          utcDate := atof utcDate })

end

/-! ## GSV -/

/-- `ptr_section[k] != NULL ? atoi(ptr_section[k]) : 0`. -/
def sectionInt (abi : Abi) (s : List Byte) (output : List Nat) (k : Nat) : Option Int32 :=
  (ptrSection gsvSectionMax s output k).map fun t => t.elim 0 (atoi abi)

/-- One turn of the loop of parse_gsv: the four sections from `i` on go to rsv[cur_index]. -/
def gsvTurn (abi : Abi) (s : List Byte) (output : List Nat) (i curIndex : Nat)
    (rsv : Vector GsvSatelite gpsNmeaMaxSvview) : Option (Vector GsvSatelite gpsNmeaMaxSvview) := do
  let prn ← sectionInt abi s output i
  let elevation ← sectionInt abi s output (i + 1)
  let azimuth ← sectionInt abi s output (i + 2)
  let cnr ← sectionInt abi s output (i + 3)
  if h : curIndex < gpsNmeaMaxSvview then
    return rsv.set curIndex
      { prn := toUint8 prn, elevation := toUint8 elevation, azimuth := azimuth.toInt16
        cnr := toUint8 cnr }
  else none

/-- The loop. `room` is GPS_NMEA_MAX_SVVIEW - cur_index. -/
def gsvLoop (abi : Abi) (s : List Byte) (output : List Nat) (count : Nat) :
    Nat → Nat → Nat → Vector GsvSatelite gpsNmeaMaxSvview →
      Option (Vector GsvSatelite gpsNmeaMaxSvview)
  | 0, _, _, rsv => some rsv
  | room + 1, i, curIndex, rsv =>
    if i < count then do
      let rsv ← gsvTurn abi s output i curIndex rsv
      gsvLoop abi s output count room (i + 4) (curIndex + 1) rsv
    else some rsv

/-- parse_gsv: false or true, and *pview. -/
def parseGsv (abi : Abi) (input : Option (List Byte)) (pview : NmeaGsv) :
    Option (Bool × NmeaGsv) :=
  match input with
  | none => some (false, pview)
  | some m =>
    let r := dataConversion (some m) gsvSectionMax
    if r.1 < parseGsvMessageMaxLen then some (false, pview)
    else do
      let some total ← ptrSection gsvSectionMax (text m) r.2 0 | return (false, pview)
      let totalNo := toUint8 (atoi abi total)
      let some current ← ptrSection gsvSectionMax (text m) r.2 1 | return (false, pview)
      let curNo := toUint8 (atoi abi current)
      if curNo < 1 then return (false, pview)
      let curIndex := ((curNo - 1) * 4).toNat
      let pview := if curNo = 1 then {} else pview
      let inView ← ptrSection gsvSectionMax (text m) r.2 2
      let pview := inView.elim pview fun t =>
        { pview with satesInView := (atoi abi t).toInt16 }
      let rsv ← gsvLoop abi (text m) r.2 r.1.toNat (gpsNmeaMaxSvview - curIndex) 3 curIndex pview.rsv
      return (!(totalNo < curNo), { pview with rsv })

end RttNmea
