import RttNmea.Packets

/-!
# The nmea_*_info updates

Each packet type is merged into the summary by its own function. The satellite table is an
array of 12: an index outside it is undefined behaviour, which is `none` here. `int`
arithmetic wraps.
-/

namespace RttNmea

open CText

variable {D : Type} [CDouble D]

/-- `(c == positive) ? x : -x`. -/
def signBy (c positive : Byte) (x : D) : D := if c = positive then x else CDouble.neg x

def nmeaGgaInfo (pack : Gga D) (info : Info D) : Info D :=
  { info with
    utc := { info.utc with
      hour := pack.utc.hour, min := pack.utc.min, sec := pack.utc.sec, hsec := pack.utc.hsec }
    sig := pack.sig
    hdop := pack.hdop
    elv := pack.elv
    lat := signBy pack.ns (ascii 'N') pack.lat
    lon := signBy pack.ew (ascii 'E') pack.lon
    smask := info.smask ||| PackType.gpgga.code }

/-- One turn of the inner loop of nmea_gsa_info, at satellite `j`: the table and nuse. The
table is read only when the PRN is not zero. -/
def gsaMark (prn : Int32) (st : Vector Satellite nmeaMaxSat × Int32) (j : Nat) :
    Option (Vector Satellite nmeaMaxSat × Int32) :=
  if prn = 0 then some st
  else if h : j < nmeaMaxSat then
    if prn = st.1[j].id then some (st.1.set j { st.1[j] with inUse := 1 }, st.2 + 1)
    else some st
  else none

/-- The loops of nmea_gsa_info: for each PRN, for (j = 0; j < inview; ++j). -/
def gsaMarkAll (prns : List Int32) (inview : Int32)
    (st : Vector Satellite nmeaMaxSat × Int32) :
    Option (Vector Satellite nmeaMaxSat × Int32) :=
  prns.foldlM (fun st prn => (List.range inview.toNatClampNeg).foldlM (gsaMark prn) st) st

def nmeaGsaInfo (pack : Gsa D) (info : Info D) : Option (Info D) := do
  let (sat, nuse) ← gsaMarkAll pack.satPrn.toList info.satinfo.inview (info.satinfo.sat, 0)
  return { info with
    fix := pack.fixType
    pdop := pack.pdop
    hdop := pack.hdop
    vdop := pack.vdop
    satinfo := { info.satinfo with sat := sat, inuse := nuse }
    smask := info.smask ||| PackType.gpgsa.code }

/-- The sentence is not one of the three that fit the table, and is ignored. -/
def gsvIgnored (pack : Gsv) : Prop := pack.packIndex > pack.packCount ∨ pack.packIndex * 4 > 12

instance (pack : Gsv) : Decidable (gsvIgnored pack) :=
  inferInstanceAs (Decidable (_ ∨ _))

/-- `if (pack->pack_index < 1) pack->pack_index = 1`. -/
def gsvIndex (pack : Gsv) : Int32 := if pack.packIndex < 1 then 1 else pack.packIndex

/-- One turn of the copy loop: satellite `isat` of the packet goes to slot `isi`. -/
def gsvCopy (pack : Gsv) (sat : Vector Satellite nmeaMaxSat) (isat : Nat) :
    Option (Vector Satellite nmeaMaxSat) :=
  let isi := (gsvIndex pack - 1) * 4 + Int32.ofNat isat
  if h : 0 ≤ isi ∧ isi.toNatClampNeg < nmeaMaxSat ∧ isat < nmeaSatInPack then
    let s := pack.satData[isat]
    some (sat.set isi.toNatClampNeg
      { sat[isi.toNatClampNeg] with
        id := s.id, elv := s.elv, azimuth := s.azimuth, sig := s.sig })
  else none

/-- How many satellites nmea_gsv_info copies. -/
def gsvCopied (pack : Gsv) : Int32 := gsvNsat (gsvIndex pack) pack.satCount

def nmeaGsvInfo (pack : Gsv) (info : Info D) : Option (Info D) :=
  if gsvIgnored pack then some info
  else do
    let sat ← (List.range (gsvCopied pack).toNatClampNeg).foldlM (gsvCopy pack) info.satinfo.sat
    return { info with
      satinfo := { info.satinfo with inview := pack.satCount, sat := sat }
      smask := info.smask ||| PackType.gpgsv.code }

def nmeaRmcInfo (pack : Rmc D) (info : Info D) : Info D :=
  let info :=
    if pack.status = ascii 'A' then
      { info with
        sig := if info.sig = nmeaSigBad then nmeaSigMid else info.sig
        fix := if info.fix = nmeaFixBad then nmeaFix2d else info.fix }
    else if pack.status = ascii 'V' then { info with sig := nmeaSigBad, fix := nmeaFixBad }
    else info
  { info with
    utc := pack.utc
    lat := signBy pack.ns (ascii 'N') pack.lat
    lon := signBy pack.ew (ascii 'E') pack.lon
    speed := CDouble.mul pack.speed CDouble.tudKnots
    direction := pack.direction
    smask := info.smask ||| PackType.gprmc.code }

def nmeaVtgInfo (pack : Vtg D) (info : Info D) : Info D :=
  { info with
    direction := pack.dir
    declination := pack.dec
    speed := pack.spk
    smask := info.smask ||| PackType.gpvtg.code }

/-- The switch of nmea_parse: a popped packet is merged into the summary. -/
def packInfo (pack : Packet D) (info : Info D) : Option (Info D) :=
  match pack with
  | .gga p => some (nmeaGgaInfo p info)
  | .gsa p => nmeaGsaInfo p info
  | .gsv p => nmeaGsvInfo p info
  | .rmc p => some (nmeaRmcInfo p info)
  | .vtg p => some (nmeaVtgInfo p info)

end RttNmea
