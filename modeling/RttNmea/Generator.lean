import RttNmea.Generate
import RttNmea.Gmtime
import RttNmea.Parser

/-!
# generator.c

The generators that fill in a summary before nmea_generate prints it. They are nodes of the heap,
linked to chains, and each holds the functions that are called on the summary.
-/

namespace RttNmea

open CText

/-! ## nmea_time.c -/

/-- nmea_time_now of the NMEA_UNI build, of what time stored. The NMEA_WIN build asks
GetSystemTime. -/
def nmeaTimeNow (lt : Int) : Option Time := do
  let tt ← gmtimeR lt
  return {
    year := Int32.ofInt tt.year, mon := Int32.ofInt tt.mon, day := Int32.ofInt tt.mday
    hour := Int32.ofInt tt.hour, min := Int32.ofInt tt.min, sec := Int32.ofInt tt.sec
    hsec := 0 }

/-! ## Doubles and math.h -/

/-- The comparisons of doubles. -/
class COrder (D : Type) extends CPrint D where
  lt : D → D → Bool
  le : D → D → Bool

instance : COrder Rat where
  lt x y := decide (x < y)
  le x y := decide (x ≤ y)

/-- The functions of math.h that gmath.c calls. `modf` is the part that modf stores. -/
class CTrig (D : Type) extends COrder D where
  modf : D → D
  sin : D → D
  cos : D → D
  asin : D → D
  atan2 : D → D → D
  isnan : D → Bool

section

variable {D : Type} [CArith D]

/-- An int where a double is needed. -/
def dbl (n : Int) : D := CArith.ofInt n

/-- NMEA_DEF_LAT and NMEA_DEF_LON. -/
def nmeaDefLat : D := CDouble.strtod (cstr "5001.2621")

def nmeaDefLon : D := CDouble.strtod (cstr "3613.0595")

/-- NMEA_PI180. -/
def nmeaPi180 : D := CArith.div (CDouble.strtod (cstr "3.141592653589793")) (dbl 180)

/-! ## gmath.c -/

def nmeaDegree2radian (val : D) : D := CDouble.mul val nmeaPi180

def nmeaRadian2degree (val : D) : D := CArith.div val nmeaPi180

def nmeaNdeg2degree (val : D) : D :=
  let deg : D := dbl (CArith.toInt32 (CArith.div val (dbl 100))).toInt
  CArith.add deg (CArith.div (CArith.sub val (CDouble.mul deg (dbl 100))) (dbl 60))

def nmeaNdeg2radian (val : D) : D := nmeaDegree2radian (nmeaNdeg2degree val)

end

section

variable {D : Type} [CTrig D]

def nmeaDegree2ndeg (val : D) : D :=
  let intPart := CTrig.modf val
  let fraPart := CArith.sub val intPart
  CArith.add (CDouble.mul intPart (dbl 100)) (CDouble.mul fraPart (dbl 60))

def nmeaRadian2ndeg (val : D) : D := nmeaDegree2ndeg (nmeaRadian2degree val)

/-- nmeaPOS. -/
structure Pos (D : Type) where
  lat : D
  lon : D

def nmeaInfo2pos (info : Info D) : Pos D :=
  ⟨nmeaNdeg2radian info.lat, nmeaNdeg2radian info.lon⟩

def nmeaPos2info (pos : Pos D) (info : Info D) : Info D :=
  { info with lat := nmeaRadian2ndeg pos.lat, lon := nmeaRadian2ndeg pos.lon }

/-- nmea_move_horz: what it returns, and the end position. -/
def nmeaMoveHorz (p1 : Pos D) (azimuth distance : D) : Int32 × Pos D :=
  let distance := CArith.div distance (dbl 6378)
  let azimuth := nmeaDegree2radian azimuth
  let lat := CTrig.asin (CArith.add
    (CDouble.mul (CTrig.sin p1.lat) (CTrig.cos distance))
    (CDouble.mul (CDouble.mul (CTrig.cos p1.lat) (CTrig.sin distance)) (CTrig.cos azimuth)))
  let lon := CArith.add p1.lon (CTrig.atan2
    (CDouble.mul (CDouble.mul (CTrig.sin azimuth) (CTrig.sin distance)) (CTrig.cos p1.lat))
    (CArith.sub (CTrig.cos distance) (CDouble.mul (CTrig.sin p1.lat) (CTrig.sin lat))))
  if CTrig.isnan lat || CTrig.isnan lon then (0, ⟨dbl 0, dbl 0⟩) else (1, ⟨lat, lon⟩)

end

/-! ## What is outside -/

/-- The values that rand returns and those that time stores, one after another. -/
structure Outside where
  rand : Nat → Int32
  randMax : Int32
  clock : Nat → Int
  rand_nonneg : ∀ k, 0 ≤ rand k
  rand_le : ∀ k, rand k ≤ randMax
  randMax_pos : 0 < randMax

/-- How many of them were read. -/
structure Reads where
  rands : Nat := 0
  times : Nat := 0
  deriving DecidableEq, Repr

/-- A function that an nmeaGENERATOR points to: what it returns, and the summary. -/
abbrev Call (D : Type) := Outside → Reads → Info D → Option (Int32 × Reads × Info D)

/-- nmea_zero_INFO. -/
def nmeaZeroInfo {D : Type} [CDouble D] : Info D :=
  { Info.zeroed with sig := nmeaSigBad, fix := nmeaFixBad }

def nmeaRandom {D : Type} [CArith D] (o : Outside) (min max : D) : StateM Reads D := fun r =>
  let randMax : D := dbl o.randMax.toInt
  let randVal : D := dbl (o.rand r.rands).toInt
  let bounds := CArith.sub max min
  (CArith.add min (CArith.div (CDouble.mul randVal bounds) randMax),
    { r with rands := r.rands + 1 })

/-! ## NOISE -/

section

variable {D : Type} [CArith D]

def nmeaIgenNoiseInit : Call D := fun _ r info => some (1, r, info)

def noiseSatellite (D : Type) [CArith D] (o : Outside) (it : Nat) : StateM Reads Satellite := do
  let inUse := CArith.toInt32 (← nmeaRandom (D := D) o (dbl 0) (dbl 3))
  let elv := CArith.toInt32 (← nmeaRandom (D := D) o (dbl 0) (dbl 90))
  let azimuth := CArith.toInt32 (← nmeaRandom (D := D) o (dbl 0) (dbl 359))
  let sig ←
    if inUse ≠ 0 then nmeaRandom (D := D) o (dbl 40) (dbl 99) else nmeaRandom o (dbl 0) (dbl 40)
  return ⟨Int32.ofNat it, inUse, elv, azimuth, CArith.toInt32 sig⟩

/-- The body of the loop over the satellites. -/
def noiseStep (D : Type) [CArith D] (o : Outside) (s : SatInfo) (it : Fin nmeaMaxSat) :
    StateM Reads SatInfo := do
  let x ← noiseSatellite D o it
  return {
    inuse := if x.inUse ≠ 0 then s.inuse + 1 else s.inuse
    inview := if x.sig > 0 then s.inview + 1 else s.inview
    sat := s.sat.set it x it.isLt }

def noiseInfo (o : Outside) (info : Info D) : StateM Reads (Info D) := do
  let sig := CArith.toInt32 (← nmeaRandom (D := D) o (dbl 1) (dbl 3))
  let pdop ← nmeaRandom o (dbl 0) (dbl 9)
  let hdop ← nmeaRandom o (dbl 0) (dbl 9)
  let vdop ← nmeaRandom o (dbl 0) (dbl 9)
  let fix := CArith.toInt32 (← nmeaRandom (D := D) o (dbl 2) (dbl 3))
  let lat ← nmeaRandom o (dbl 0) (dbl 100)
  let lon ← nmeaRandom o (dbl 0) (dbl 100)
  let speed ← nmeaRandom o (dbl 0) (dbl 100)
  let direction ← nmeaRandom o (dbl 0) (dbl 360)
  let declination ← nmeaRandom o (dbl 0) (dbl 360)
  let elv := CArith.toInt32 (← nmeaRandom (D := D) o (dbl (-100)) (dbl 100))
  let satinfo ← (List.finRange nmeaMaxSat).foldlM (noiseStep D o)
    { info.satinfo with inuse := 0, inview := 0 }
  return { info with
    sig := sig, pdop := pdop, hdop := hdop, vdop := vdop, fix := fix, lat := lat, lon := lon
    speed := speed, direction := direction, declination := declination, elv := dbl elv.toInt
    satinfo := satinfo }

def nmeaIgenNoiseLoop : Call D := fun o r info =>
  let noise := noiseInfo o info r
  some (1, noise.2, noise.1)

def nmeaIgenNoiseReset : Call D := fun _ r info => some (1, r, info)

/-! ## STATIC -/

/-- nmea_time_now(&info->utc). -/
def tellTime (o : Outside) (r : Reads) (info : Info D) : Option (Reads × Info D) := do
  let utc ← nmeaTimeNow (o.clock r.times)
  return ({ r with times := r.times + 1 }, { info with utc := utc })

def nmeaIgenStaticLoop : Call D := fun o r info => do
  let (r, info) ← tellTime o r info
  return (1, r, info)

def nmeaIgenStaticReset : Call D := fun _ r info =>
  let sat := (((info.satinfo.sat.set 0 ⟨1, 1, 50, 0, 99⟩ nmeaMaxSat_pos).set 1
    ⟨2, 1, 50, 90, 99⟩).set 2 ⟨3, 1, 50, 180, 99⟩).set 3 ⟨4, 1, 50, 270, 99⟩
  some (1, r, { info with satinfo := { inuse := 4, inview := 4, sat := sat } })

def nmeaIgenStaticInit : Call D := fun o r info => do
  let (_, r, info) ← nmeaIgenStaticReset o r { info with sig := 3, fix := 3 }
  return (1, r, info)

end

/-! ## SAT_ROTATE -/

section

variable {D : Type} [COrder D]

/-- The loop of nmea_igen_rotate_loop. Past the table it writes outside of it. -/
def rotateSats (deg : D) : Nat → Nat → D → Vector Satellite nmeaMaxSat →
    Option (Vector Satellite nmeaMaxSat)
  | 0, _, _, sat => some sat
  | left + 1, it, srt, sat =>
    if h : it < nmeaMaxSat then
      let azimuth := CArith.toInt32
        (if COrder.le (dbl 360) srt then CArith.sub srt (dbl 360) else srt)
      rotateSats deg left (it + 1) (CArith.add srt deg)
        (sat.set it { sat[it] with azimuth := azimuth })
    else none

def nmeaIgenRotateLoop : Call D := fun o r info => do
  let count := info.satinfo.inview
  let deg : D := dbl ((360 : Int32) / (if count ≠ 0 then count else 1)).toInt
  let first : Int32 := if count ≠ 0 then (info.satinfo.sat.get ⟨0, nmeaMaxSat_pos⟩).azimuth else 0
  let srt : D := dbl (first + 5).toInt
  let (r, info) ← tellTime o r info
  let sat ← rotateSats deg count.toNatClampNeg 0 srt info.satinfo.sat
  return (1, r, { info with satinfo := { info.satinfo with sat := sat } })

/-- The loop of nmea_igen_rotate_reset. -/
def rotatePlace (deg : D) : Nat → Nat → D → Vector Satellite nmeaMaxSat →
    Option (Vector Satellite nmeaMaxSat)
  | 0, _, _, sat => some sat
  | left + 1, it, srt, sat =>
    if h : it < nmeaMaxSat then
      rotatePlace deg left (it + 1) (CArith.add srt deg)
        (sat.set it ⟨Int32.ofNat it + 1, 1, 5, CArith.toInt32 srt, 80⟩)
    else none

def nmeaIgenRotateReset : Call D := fun _ r info => do
  let deg : D := dbl (360 / 8)
  let sat ← rotatePlace deg 8 0 (dbl 0) info.satinfo.sat
  return (1, r, { info with satinfo := { inuse := 8, inview := 8, sat := sat } })

def nmeaIgenRotateInit : Call D := fun o r info => do
  let (_, r, info) ← nmeaIgenRotateReset o r { info with sig := 3, fix := 3 }
  return (1, r, info)

end

/-! ## POS_RANDMOVE -/

section

variable {D : Type} [CTrig D]

def nmeaIgenPosRmoveInit : Call D := fun _ r info =>
  some (1, r, { info with
    sig := 3, fix := 3, direction := dbl 0, declination := dbl 0, speed := dbl 20 })

/-- The direction and the speed after their random steps. -/
def rmoveSteer (o : Outside) (info : Info D) : StateM Reads (Info D) := do
  let direction := CArith.add info.direction (← nmeaRandom o (dbl (-10)) (dbl 10))
  let speed := CArith.add info.speed (← nmeaRandom o (dbl (-2)) (dbl 3))
  let direction :=
    if COrder.lt direction (dbl 0) then CArith.add (dbl 359) direction else direction
  let direction :=
    if COrder.lt (dbl 359) direction then CArith.sub direction (dbl 359) else direction
  let speed := if COrder.lt (dbl 40) speed then dbl 40 else speed
  let speed := if COrder.lt speed (dbl 1) then dbl 1 else speed
  return { info with direction := direction, speed := speed }

def nmeaIgenPosRmoveLoop : Call D := fun o r info =>
  let steer := rmoveSteer o info r
  let info := steer.1
  let crd := nmeaInfo2pos info
  let crd := (nmeaMoveHorz crd info.direction (CArith.div info.speed (dbl 3600))).2
  let info := nmeaPos2info crd info
  some (1, steer.2, { info with declination := info.direction })

end

/-! ## Chains of generators -/

section

variable {D : Type} [COrder D]

/-- nmeaGENERATOR. The only destroy_call there is touches nothing; it stands for what it returns. -/
structure Generator (D : Type) where
  initCall : Option (Call D) := none
  loopCall : Option (Call D) := none
  resetCall : Option (Call D) := none
  destroyCall : Option Int32 := none
  next : Option Addr := none

/-- A function that may be missing. -/
def callIf (f : Option (Call D)) (retVal : Int32) : Call D := fun o r info =>
  match f with
  | some f => f o r info
  | none => some (retVal, r, info)

/-- The loop of nmea_gen_init. A chain without a cycle is no longer than there are blocks. -/
def genInitFrom (h : Heap (Generator D)) (o : Outside) :
    Nat → Int32 → Option Addr → Reads → Info D → Option (Int32 × Reads × Info D)
  | _, retVal, none, r, info => some (retVal, r, info)
  | 0, _, some _, _, _ => none
  | fuel + 1, retVal, some igen, r, info =>
    if retVal = 0 then some (retVal, r, info)
    else do
      let g ← h.load igen
      let (retVal, r, info) ← callIf g.initCall retVal o r info
      genInitFrom h o fuel retVal g.next r info

/-- The summary that the functions of nmea_gen_init get. -/
def genZero (info : Info D) : Info D :=
  { nmeaZeroInfo with smask := info.smask, lat := nmeaDefLat, lon := nmeaDefLon }

def nmeaGenInit (h : Heap (Generator D)) (o : Outside) (gen : Option Addr) (r : Reads)
    (info : Info D) : Option (Int32 × Reads × Info D) :=
  genInitFrom h o h.live.length 1 gen r (genZero info)

def genLoopFrom (h : Heap (Generator D)) (o : Outside) :
    Nat → Option Addr → Reads → Info D → Option (Int32 × Reads × Info D)
  | 0, _, _, _ => none
  | fuel + 1, gen, r, info => do
    let g ← h.load (← gen)
    let (retVal, r, info) ← callIf g.loopCall 1 o r info
    if retVal ≠ 0 ∧ g.next.isSome then genLoopFrom h o fuel g.next r info
    else return (retVal, r, info)

def nmeaGenLoop (h : Heap (Generator D)) (o : Outside) (gen : Option Addr) (r : Reads)
    (info : Info D) : Option (Int32 × Reads × Info D) :=
  genLoopFrom h o h.live.length gen r info

def nmeaGenReset (h : Heap (Generator D)) (o : Outside) (gen : Option Addr) (r : Reads)
    (info : Info D) : Option (Int32 × Reads × Info D) := do
  let g ← h.load (← gen)
  callIf g.resetCall 1 o r info

def genDestroyFrom : Nat → Heap (Generator D) → Option Addr → Option (Heap (Generator D))
  | 0, _, _ => none
  | fuel + 1, h, gen => do
    let a ← gen
    let g ← h.load a
    let h ←
      if g.next.isSome then do
        let h ← genDestroyFrom fuel h g.next
        h.store a { g with next := none }
      else some h
    h.free a

def nmeaGenDestroy (h : Heap (Generator D)) (gen : Option Addr) : Option (Heap (Generator D)) :=
  genDestroyFrom h.live.length h gen

def genAddFrom (gen : Option Addr) : Nat → Heap (Generator D) → Option Addr →
    Option (Heap (Generator D))
  | 0, _, _ => none
  | fuel + 1, h, dest => do
    let a ← dest
    let g ← h.load a
    if g.next.isSome then genAddFrom gen fuel h g.next else h.store a { g with next := gen }

def nmeaGenAdd (h : Heap (Generator D)) (dest gen : Option Addr) :
    Option (Heap (Generator D)) :=
  genAddFrom gen h.live.length h dest

end

/-! ## Making them -/

section

variable {D : Type} [CTrig D]

/-- enum nmeaGENTYPE. `last` stands for every value that the switch has no case for. -/
inductive GenType
  | noise | static | rotate | satStatic | satRotate | posRandmove | last
  deriving DecidableEq, Repr

/-- The members of a new generator; the type ROTATE has none of its own. -/
def GenType.generator : GenType → Option (Generator D)
  | .noise => some {
      initCall := some nmeaIgenNoiseInit
      loopCall := some nmeaIgenNoiseLoop
      resetCall := some nmeaIgenNoiseReset }
  | .static | .satStatic => some {
      initCall := some nmeaIgenStaticInit
      loopCall := some nmeaIgenStaticLoop
      resetCall := some nmeaIgenStaticReset }
  | .satRotate => some {
      initCall := some nmeaIgenRotateInit
      loopCall := some nmeaIgenRotateLoop
      resetCall := some nmeaIgenRotateReset }
  | .posRandmove => some {
      initCall := some nmeaIgenPosRmoveInit
      loopCall := some nmeaIgenPosRmoveLoop
      destroyCall := some 1 }
  | .rotate | .last => none

/-- The heap, and how often rt_malloc was called. -/
structure GenMem (D : Type) where
  heap : Heap (Generator D)
  mallocs : Nat := 0

/-- One rt_malloc and what is stored in the block. -/
def newGenerator (env : Env) (m : GenMem D) (g : Generator D) : Option Addr × GenMem D :=
  if env.mallocOk m.mallocs then
    let (a, h) := m.heap.alloc env.alloc g
    (some a, ⟨h, m.mallocs + 1⟩)
  else (none, { m with mallocs := m.mallocs + 1 })

/-- A case of `__nmea_create_generator` with a call of rt_malloc. -/
def createOne (env : Env) (type : GenType) (m : GenMem D) : Option Addr × GenMem D :=
  match (type.generator : Option (Generator D)) with
  | some g => newGenerator env m g
  | none => (none, m)

/-- `__nmea_create_generator`. -/
def createGenerator (env : Env) (type : GenType) (m : GenMem D) :
    Option (Option Addr × GenMem D) :=
  if type = .rotate then do
    let (gen, m) := createOne env .satRotate m
    let (move, m) := createOne env .posRandmove m
    let h ← nmeaGenAdd m.heap gen move
    return (gen, { m with heap := h })
  else some (createOne env type m)

/-- nmea_create_generator: the generator, the memory, and the summary. -/
def nmeaCreateGenerator (env : Env) (o : Outside) (type : GenType) (m : GenMem D) (r : Reads)
    (info : Info D) : Option (Option Addr × GenMem D × Reads × Info D) := do
  let (gen, m) ← createGenerator env type m
  if gen.isSome then
    let (_, r, info) ← nmeaGenInit m.heap o gen r info
    return (gen, m, r, info)
  else return (gen, m, r, info)

def nmeaDestroyGenerator (m : GenMem D) (gen : Option Addr) : Option (GenMem D) := do
  let h ← nmeaGenDestroy m.heap gen
  return { m with heap := h }

end

end RttNmea
