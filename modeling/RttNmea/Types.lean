import RttNmea.Lib.CText

/-!
# The data of nmea_parse.h

Packets, the summary they are merged into, and the C types they are made of: `int` is
`Int32`, a plain `char` is a byte, and `double` stays abstract (`CDouble`), since the code
only stores, negates and scales what `strtod` returns.
-/

namespace RttNmea

open CText

/-- The `double` operations the code uses. `strtod` gets the text before the NUL. -/
class CDouble (D : Type) where
  zero : D
  neg : D → D
  mul : D → D → D
  /-- The constant NMEA_TUD_KNOTS, 1.852. -/
  tudKnots : D
  strtod : List Byte → D

/-- Exact decimal fractions, `mantissa / 10 ^ scale`: doubles to compute examples with. -/
structure Decimal where
  mantissa : Int
  scale : Nat
  deriving DecidableEq, Repr

/-- The decimal at the front of a text, as `strtod` reads it but without exponents. -/
def Decimal.read (s : List Byte) : Decimal :=
  let (neg, s) := splitSign (s.dropWhile isSpace)
  let whole := s.takeWhile isDigit
  let frac := match s.dropWhile isDigit with
    | [] => []
    | b :: s => if b = ascii '.' then s.takeWhile isDigit else []
  let m : Int := leadingNat 10 (whole ++ frac)
  ⟨if neg then -m else m, frac.length⟩

instance : CDouble Decimal where
  zero := ⟨0, 0⟩
  neg x := ⟨-x.mantissa, x.scale⟩
  mul x y := ⟨x.mantissa * y.mantissa, x.scale + y.scale⟩
  tudKnots := ⟨1852, 3⟩
  strtod := Decimal.read

def nmeaSigBad : Int32 := 0
def nmeaSigMid : Int32 := 2
def nmeaFixBad : Int32 := 1
def nmeaFix2d : Int32 := 2
def nmeaFix3d : Int32 := 3
def nmeaMaxSat : Nat := 12
def nmeaSatInPack : Nat := 4
def nmeaConvStrBuf : Nat := 256
def nmeaTimeParseBuf : Nat := 256
def nmeaDefParseBuff : Nat := 1024
def nmeaMinParseBuff : Nat := 256

theorem nmeaMaxSat_pos : 0 < nmeaMaxSat := by decide

/-- enum NMEA_PACK_TYPE. -/
inductive PackType
  | gpnon | gpgga | gpgsa | gpgsv | gprmc | gpvtg
  deriving DecidableEq, Repr

def PackType.code : PackType → Int32
  | .gpnon => 0x0000
  | .gpgga => 0x0001
  | .gpgsa => 0x0002
  | .gpgsv => 0x0004
  | .gprmc => 0x0008
  | .gpvtg => 0x0010

/-- nmea_time_t. The defaults, here and below, are what zeroed memory holds. -/
structure Time where
  year : Int32 := 0
  mon : Int32 := 0
  day : Int32 := 0
  hour : Int32 := 0
  min : Int32 := 0
  sec : Int32 := 0
  hsec : Int32 := 0
  deriving DecidableEq, Repr

/-- nmea_satellite_t. -/
structure Satellite where
  id : Int32 := 0
  inUse : Int32 := 0
  elv : Int32 := 0
  azimuth : Int32 := 0
  sig : Int32 := 0
  deriving DecidableEq, Repr

/-- nmea_sat_info_t. -/
structure SatInfo where
  inuse : Int32 := 0
  inview : Int32 := 0
  sat : Vector Satellite nmeaMaxSat := Vector.replicate _ {}
  deriving DecidableEq, Repr

/-- nmea_info_t. -/
structure Info (D : Type) where
  smask : Int32
  utc : Time
  sig : Int32
  fix : Int32
  pdop : D
  hdop : D
  vdop : D
  lat : D
  lon : D
  elv : D
  speed : D
  direction : D
  declination : D
  satinfo : SatInfo
  deriving DecidableEq, Repr

/-- An nmea_info_t with every byte zero, as the test starts it. -/
def Info.zeroed {D : Type} [CDouble D] : Info D where
  smask := 0
  utc := {}
  sig := 0
  fix := 0
  pdop := CDouble.zero
  hdop := CDouble.zero
  vdop := CDouble.zero
  lat := CDouble.zero
  lon := CDouble.zero
  elv := CDouble.zero
  speed := CDouble.zero
  direction := CDouble.zero
  declination := CDouble.zero
  satinfo := {}

/-- nmea_gga_t. -/
structure Gga (D : Type) where
  utc : Time
  lat : D
  ns : Byte
  lon : D
  ew : Byte
  sig : Int32
  satinuse : Int32
  hdop : D
  elv : D
  elvUnits : Byte
  diff : D
  diffUnits : Byte
  dgpsAge : D
  dgpsSid : Int32
  deriving DecidableEq, Repr

/-- nmea_gsa_t. -/
structure Gsa (D : Type) where
  fixMode : Byte
  fixType : Int32
  satPrn : Vector Int32 nmeaMaxSat
  pdop : D
  hdop : D
  vdop : D
  deriving DecidableEq, Repr

/-- nmea_rmc_t. -/
structure Rmc (D : Type) where
  utc : Time
  status : Byte
  lat : D
  ns : Byte
  lon : D
  ew : Byte
  speed : D
  direction : D
  declination : D
  declinEw : Byte
  mode : Byte
  deriving DecidableEq, Repr

/-- nmea_vtg_t. -/
structure Vtg (D : Type) where
  dir : D
  dirT : Byte
  dec : D
  decM : Byte
  spn : D
  spnN : Byte
  spk : D
  spkK : Byte
  deriving DecidableEq, Repr

/-- nmea_gsv_t. -/
structure Gsv where
  packCount : Int32
  packIndex : Int32
  satCount : Int32
  satData : Vector Satellite nmeaSatInPack
  deriving DecidableEq, Repr

/-- What the `void *pack` of a node points to, by the node's packType. -/
inductive Packet (D : Type)
  | gga (pack : Gga D)
  | gsa (pack : Gsa D)
  | gsv (pack : Gsv)
  | rmc (pack : Rmc D)
  | vtg (pack : Vtg D)
  deriving DecidableEq, Repr

def Packet.packType {D : Type} : Packet D → PackType
  | .gga _ => .gpgga
  | .gsa _ => .gpgsa
  | .gsv _ => .gpgsv
  | .rmc _ => .gprmc
  | .vtg _ => .gpvtg

end RttNmea
