import RttNmea.Scanf

/-!
# The field parsers and nmea_pack_type

Each nmea_parse_* returns its result code and the packet it filled. The two that read a
time start from whatever their stack buffer holds: `timeBuff` is the memory from
&time_buff[0] on, as the function finds it.
-/

namespace RttNmea

open CText

variable {D : Type} [CDouble D]

/-! ## Reading the stored arguments

A member whose argument was not written keeps the value it had. -/

def intAt (args : List (Option (Stored D))) (i : Nat) (old : Int32) : Int32 :=
  match args[i]? with
  | some (some (.int n)) => n
  | _ => old

def chrAt (args : List (Option (Stored D))) (i : Nat) : Byte :=
  match args[i]? with
  | some (some (.chr b)) => b
  | _ => 0

def dblAt (args : List (Option (Stored D))) (i : Nat) : D :=
  match args[i]? with
  | some (some (.dbl x)) => x
  | _ => CDouble.zero

/-- The memory from &time_buff[0] on, after the first argument was stored there with a NUL
behind it, or left as it was. nmea_scanf does not check the size: a text of 256 bytes or more runs
over the end of time_buff, and what the C code then does is undefined. `StoresFit` says when no
text does. -/
def timeBuffAfter (timeBuff : List Byte) (args : List (Option (Stored D))) : List Byte :=
  match args.head? with
  | some (some (.str s)) => s ++ 0 :: timeBuff.drop (s.length + 1)
  | _ => timeBuff

/-- _nmea_parse_time, with `buff` the bytes buff[0..buff_sz). -/
def nmeaParseTime (D : Type) [CDouble D] (abi : Abi) (buff : List Byte) (res : Time) :
    Int32 × Time :=
  if buff.length = 6 then
    let r : Nat × List (Option (Stored D)) := nmeaScanf abi buff (cstr "%2d%2d%2d")
    (if r.1 = 3 then 0 else -1,
      { res with
        hour := intAt r.2 0 res.hour
        min := intAt r.2 1 res.min
        sec := intAt r.2 2 res.sec })
  else if buff.length = 8 ∨ buff.length = 9 ∨ buff.length = 10 then
    let r : Nat × List (Option (Stored D)) := nmeaScanf abi buff (cstr "%2d%2d%2d.%d")
    (if r.1 = 4 then 0 else -1,
      { res with
        hour := intAt r.2 0 res.hour
        min := intAt r.2 1 res.min
        sec := intAt r.2 2 res.sec
        hsec := intAt r.2 3 res.hsec })
  else (-1, res)

def ggaFormat : List Byte := cstr "$GPGGA,%s,%f,%C,%f,%C,%d,%d,%f,%f,%C,%f,%C,%f,%d*"

def gsaFormat : List Byte :=
  cstr "$GPGSA,%C,%d,%d,%d,%d,%d,%d,%d,%d,%d,%d,%d,%d,%d,%f,%f,%f*"

def gsvFormat : List Byte :=
  cstr "$GPGSV,%d,%d,%d,%d,%d,%d,%d,%d,%d,%d,%d,%d,%d,%d,%d,%d,%d,%d,%d*"

def rmcFormat : List Byte := cstr "$GPRMC,%s,%C,%f,%C,%f,%C,%f,%f,%2d%2d%2d,%f,%C,%C*"

def vtgFormat : List Byte := cstr "$GPVTG,%f,%C,%f,%C,%f,%C,%f,%C*"

/-! ## The bodies

Whether the sentence is accepted, and the packet. The parsers of nmea_parse_lib have the
same bodies with another start of time_buff and other result codes. -/

def ggaBody (abi : Abi) (timeBuff buff : List Byte) : Bool × Gga D :=
  let r := nmeaScanf abi buff ggaFormat
  let a := r.2
  let pack : Gga D :=
    { utc := {}, lat := dblAt a 1, ns := chrAt a 2, lon := dblAt a 3, ew := chrAt a 4
      sig := intAt a 5 0, satinuse := intAt a 6 0, hdop := dblAt a 7, elv := dblAt a 8
      elvUnits := chrAt a 9, diff := dblAt a 10, diffUnits := chrAt a 11
      dgpsAge := dblAt a 12, dgpsSid := intAt a 13 0 }
  if r.1 ≠ 14 then (false, pack)
  else
    let t := nmeaParseTime D abi (text (timeBuffAfter timeBuff a)) pack.utc
    (t.1 == 0, { pack with utc := t.2 })

def gsaBody (abi : Abi) (buff : List Byte) : Bool × Gsa D :=
  let r := nmeaScanf abi buff gsaFormat
  let a := r.2
  (r.1 == 17,
    { fixMode := chrAt a 0, fixType := intAt a 1 0
      satPrn := Vector.ofFn fun i => intAt a (2 + i) 0
      pdop := dblAt a 14, hdop := dblAt a 15, vdop := dblAt a 16 })

/-- The satellites a GSV sentence has to carry, by its first three fields. -/
def gsvNsat (packIndex satCount : Int32) : Int32 :=
  let nsat := (packIndex - 1) * 4
  if nsat + 4 > satCount then satCount - nsat else 4

def gsvBody (D : Type) [CDouble D] (abi : Abi) (buff : List Byte) : Bool × Gsv :=
  let r : Nat × List (Option (Stored D)) := nmeaScanf abi buff gsvFormat
  let a := r.2
  let pack : Gsv :=
    { packCount := intAt a 0 0, packIndex := intAt a 1 0, satCount := intAt a 2 0
      satData := Vector.ofFn fun i =>
        { id := intAt a (3 + 4 * i) 0, elv := intAt a (4 + 4 * i) 0
          azimuth := intAt a (5 + 4 * i) 0, sig := intAt a (6 + 4 * i) 0 } }
  let nsen := Int32.ofNat r.1
  let nsat := gsvNsat pack.packIndex pack.satCount * 4 + 3
  (!(nsen < nsat || nsen > 4 * 4 + 3), pack)

def rmcBody (abi : Abi) (timeBuff buff : List Byte) : Bool × Rmc D :=
  let r := nmeaScanf abi buff rmcFormat
  let a := r.2
  let pack : Rmc D :=
    { utc := { day := intAt a 8 0, mon := intAt a 9 0, year := intAt a 10 0 }
      status := chrAt a 1, lat := dblAt a 2, ns := chrAt a 3, lon := dblAt a 4
      ew := chrAt a 5, speed := dblAt a 6, direction := dblAt a 7
      declination := dblAt a 11, declinEw := chrAt a 12, mode := chrAt a 13 }
  if r.1 ≠ 13 ∧ r.1 ≠ 14 then (false, pack)
  else
    let t := nmeaParseTime D abi (text (timeBuffAfter timeBuff a)) pack.utc
    if t.1 ≠ 0 then (false, { pack with utc := t.2 })
    else
      let year := if t.2.year < 90 then t.2.year + 100 else t.2.year
      (true, { pack with utc := { t.2 with year := year, mon := t.2.mon - 1 } })

def vtgBody (abi : Abi) (buff : List Byte) : Bool × Vtg D :=
  let r := nmeaScanf abi buff vtgFormat
  let a := r.2
  let pack : Vtg D :=
    { dir := dblAt a 0, dirT := chrAt a 1, dec := dblAt a 2, decM := chrAt a 3
      spn := dblAt a 4, spnN := chrAt a 5, spk := dblAt a 6, spkK := chrAt a 7 }
  if r.1 ≠ 8 then (false, pack)
  else
    (!(pack.dirT ≠ ascii 'T' || pack.decM ≠ ascii 'M' || pack.spnN ≠ ascii 'N' ||
      pack.spkK ≠ ascii 'K'), pack)

/-! ## simulator_nmea: 1 is accepted, 0 is not -/

/-- The result code of simulator_nmea's parsers. -/
def success {α : Type} (r : Bool × α) : Int32 × α := (if r.1 then 1 else 0, r.2)

def nmeaParseGga (abi : Abi) (timeBuff buff : List Byte) : Int32 × Gga D :=
  success (ggaBody abi timeBuff buff)

def nmeaParseGsa (abi : Abi) (buff : List Byte) : Int32 × Gsa D := success (gsaBody abi buff)

def nmeaParseGsv (D : Type) [CDouble D] (abi : Abi) (buff : List Byte) : Int32 × Gsv :=
  success (gsvBody D abi buff)

def nmeaParseRmc (abi : Abi) (timeBuff buff : List Byte) : Int32 × Rmc D :=
  success (rmcBody abi timeBuff buff)

def nmeaParseVtg (abi : Abi) (buff : List Byte) : Int32 × Vtg D := success (vtgBody abi buff)

/-! ## nmea_pack_type -/

/-- pheads, with the type each one stands for. -/
def pheads : List (List Byte × PackType) :=
  [(cstr "GPGGA", .gpgga), (cstr "GPGSA", .gpgsa), (cstr "GPGSV", .gpgsv),
    (cstr "GPRMC", .gprmc), (cstr "GPVTG", .gpvtg)]

def nmeaPackType (buff : List Byte) : PackType :=
  if buff.length < 5 then .gpnon
  else
    match pheads.find? (fun h => buff.take 5 == h.1) with
    | some h => h.2
    | none => .gpnon

/-- Only the first five bytes count. -/
theorem packType_congr {xs ys : List Byte} (h : xs.take 5 = ys.take 5) :
    nmeaPackType xs = nmeaPackType ys := by
  have hl : xs.length < 5 ↔ ys.length < 5 := by
    have := congrArg List.length h
    simp only [List.length_take] at this
    omega
  simp only [nmeaPackType, h, hl]

/-- A recognised sentence starts with its header. -/
theorem packType_head {xs : List Byte} (h : nmeaPackType xs ≠ .gpnon) :
    ∃ head, (head, nmeaPackType xs) ∈ pheads ∧ head <+: xs := by
  unfold nmeaPackType at h ⊢
  split
  · rename_i hl
    rw [if_pos hl] at h
    exact absurd rfl h
  · rename_i hl
    rw [if_neg hl] at h
    cases hf : pheads.find? (fun h => xs.take 5 == h.1) with
    | none =>
      rw [hf] at h
      exact absurd rfl h
    | some head =>
      have hm := List.mem_of_find?_eq_some hf
      have he := List.find?_some hf
      simp only [beq_iff_eq] at he
      exact ⟨head.1, hm, he ▸ List.take_prefix _ _⟩

/-- The parser the switch of nmea_parser_real_push calls for a packet type. -/
def parsePack (abi : Abi) (timeBuff : List Byte) (ptype : PackType) (sentence : List Byte) :
    Option (Int32 × Packet D) :=
  match ptype with
  | .gpnon => none
  | .gpgga => let r := nmeaParseGga abi timeBuff sentence; some (r.1, .gga r.2)
  | .gpgsa => let r := nmeaParseGsa abi sentence; some (r.1, .gsa r.2)
  | .gpgsv => let r := nmeaParseGsv D abi sentence; some (r.1, .gsv r.2)
  | .gprmc => let r := nmeaParseRmc abi timeBuff sentence; some (r.1, .rmc r.2)
  | .gpvtg => let r := nmeaParseVtg abi sentence; some (r.1, .vtg r.2)

end RttNmea
