import RttNmea.GenPackets

/-!
# nmea_generate

nmea_generate prints the packets of the mask one after another, as far as the buffer goes: a line
whose text does not fit is written behind the buffer, one whose tail does not fit is replaced by
blanks.
-/

namespace RttNmea

open CText Framing

variable {D : Type} [CPrint D] {abi : Abi}

/-! ## Line after line -/

/-- Lines put into the buffer until it is full. -/
def putLines : List Line → GenState → Option GenState
  | [], st => some st
  | l :: ls, st => if st.Full then some st else (st.emit l.put).bind (putLines ls)

/-- The bytes of some lines. -/
def bytesOf (ls : List Line) : List Byte := ls.flatMap fun l => l.frame.bytes

theorem emit_full {st : GenState} (h : st.Full) (l : Line) : st.emit l.put = some st := by
  have hrest : st.buff.drop st.genCount = [] := List.drop_eq_nil_of_le h
  have htake : st.buff.take st.genCount = st.buff := List.take_of_length_le h
  rw [GenState.emit, hrest]
  show some (GenState.mk (st.genCount + 0) (st.buff.take st.genCount ++ [])) = some st
  rw [htake, List.append_nil]
  rfl

theorem putLines_full {st : GenState} (h : st.Full) (ls : List Line) :
    putLines ls st = some st := by
  cases ls with
  | nil => rfl
  | cons l ls => rw [putLines, if_pos h]

theorem putLines_one (l : Line) (st : GenState) : putLines [l] st = st.emit l.put := by
  by_cases h : st.Full
  · rw [putLines_full h, emit_full h]
  · rw [putLines, if_neg h]
    cases st.emit l.put <;> rfl

theorem putLines_cons (l : Line) (ls : List Line) (st : GenState) :
    putLines (l :: ls) st = (st.emit l.put).bind (putLines ls) := by
  by_cases h : st.Full
  · rw [putLines_full h, emit_full h]
    exact (putLines_full h ls).symm
  · rw [putLines, if_neg h]

theorem putLines_append (ls ms : List Line) (st : GenState) :
    putLines (ls ++ ms) st = (putLines ls st).bind (putLines ms) := by
  induction ls generalizing st with
  | nil => rfl
  | cons l ls ih =>
    rw [List.cons_append, putLines_cons, putLines_cons, Option.bind_assoc]
    exact congrArg (Option.bind _) (funext ih)

/-! ## What is generated -/

/-- The satellites of GSV pack number `i`: four of the table, in turn. -/
def gsvOf (info : Info D) (i : Nat) : Gsv :=
  let satCount := if info.satinfo.inview ≤ 12 then info.satinfo.inview else 12
  let packCount := nmeaGsvNpack satCount
  let packIndex := i % packCount.toNatClampNeg
  { satCount, packCount, packIndex := Int32.ofNat packIndex
    satData := Vector.ofFn fun pit => info.satinfo.sat[4 * packIndex + pit]?.getD {} }

/-- The packets of one type. -/
def packetsOf (now : Time) (info : Info D) : PackType → List (Packet D)
  | .gpnon => []
  | .gpgga => [.gga (nmeaInfo2Gpgga now info)]
  | .gpgsa => [.gsa (nmeaInfo2Gpgsa info)]
  | .gpgsv => (List.range (nmeaGsvNpack info.satinfo.inview).toNatClampNeg).map fun i =>
      .gsv (gsvOf info i)
  | .gprmc => [.rmc (nmeaInfo2Gprmc now info)]
  | .gpvtg => [.vtg (nmeaInfo2Gpvtg info)]

/-- The packets of the types whose bit is set. -/
def packetsIn (now : Time) (info : Info D) (mask : Int32) (ts : List PackType) : List (Packet D) :=
  ts.flatMap fun t => if mask &&& t.code != 0 then packetsOf now info t else []

def generated (now : Time) (info : Info D) (mask : Int32) : List (Packet D) :=
  packetsIn now info mask generateOrder

/-- The doubles of the summary, as they are printed, are numbers. -/
structure Info.Printable (info : Info D) : Prop where
  zero : PrintsNumber (CDouble.zero : D)
  lat : PrintsNumber (CPrint.fabs info.lat)
  lon : PrintsNumber (CPrint.fabs info.lon)
  pdop : PrintsNumber info.pdop
  hdop : PrintsNumber info.hdop
  vdop : PrintsNumber info.vdop
  elv : PrintsNumber info.elv
  knots : PrintsNumber (CArith.div info.speed CDouble.tudKnots)
  speed : PrintsNumber info.speed
  direction : PrintsNumber info.direction
  declination : PrintsNumber info.declination

theorem safe_choice (c : Prop) [Decidable c] {a b : Byte} (ha : Safe a) (hb : Safe b) :
    Safe (if c then a else b) := by
  split
  · exact ha
  · exact hb

theorem packetsOf_printable {info : Info D} (h : info.Printable) (now : Time) {t : PackType}
    {p : Packet D} (hp : p ∈ packetsOf now info t) : p.Printable := by
  have hE : Safe (ascii 'E') := by decide
  have hM : Safe (ascii 'M') := by decide
  have hT : Safe (ascii 'T') := by decide
  have hN : Safe (ascii 'N') := by decide
  have hK : Safe (ascii 'K') := by decide
  have hA : Safe (ascii 'A') := by decide
  cases t with
  | gpnon => cases hp
  | gpgga =>
    rw [List.mem_singleton.mp hp]
    exact
      { lat := h.lat, lon := h.lon, hdop := h.hdop, elv := h.elv, diff := h.zero, dgpsAge := h.zero
        ns := safe_choice _ (by decide) (by decide)
        ew := safe_choice _ (by decide) (by decide)
        elvUnits := hM, diffUnits := hM }
  | gpgsa =>
    rw [List.mem_singleton.mp hp]
    exact
      { fixMode := hA, pdop := h.pdop, hdop := h.hdop, vdop := h.vdop }
  | gpgsv =>
    obtain ⟨i, -, rfl⟩ := List.mem_map.mp hp
    trivial
  | gprmc =>
    rw [List.mem_singleton.mp hp]
    exact
      { lat := h.lat, lon := h.lon, speed := h.knots, direction := h.direction
        declination := h.declination
        status := safe_choice _ (by decide) (by decide)
        ns := safe_choice _ (by decide) (by decide)
        ew := safe_choice _ (by decide) (by decide)
        declinEw := hE
        mode := safe_choice _ (by decide) (by decide) }
  | gpvtg =>
    rw [List.mem_singleton.mp hp]
    exact
      { dir := h.direction, dec := h.declination, spn := h.knots, spk := h.speed
        dirT := hT, decM := hM, spnN := hN, spkK := hK }

theorem packetsIn_printable {info : Info D} (h : info.Printable) (now : Time) (mask : Int32)
    (ts : List PackType) : ∀ p ∈ packetsIn now info mask ts, p.Printable := by
  intro p hp
  obtain ⟨t, -, hp⟩ := List.mem_flatMap.mp hp
  split at hp
  · exact packetsOf_printable h now hp
  · cases hp

/-! ## The GSV packs -/

theorem gsvNpack_toInt (n : Int32) :
    (nmeaGsvNpack n).toInt = if -(-n.toInt / 4) = 0 then 1 else -(-n.toInt / 4) := by
  have hlow := n.le_toInt
  have hhigh := n.toInt_lt
  have hzero : (0 : Int32).toInt = 0 := rfl
  have hone : (1 : Int32).toInt = 1 := rfl
  have hcount : (Int32.ofInt (-(-n.toInt / 4))).toInt = -(-n.toInt / 4) :=
    Int32.toInt_ofInt_of_le (by omega) (by omega)
  have hiff : Int32.ofInt (-(-n.toInt / 4)) = 0 ↔ -(-n.toInt / 4) = 0 := by
    rw [← Int32.toInt_inj, hcount, hzero]
  unfold nmeaGsvNpack
  dsimp only
  by_cases hc : -(-n.toInt / 4) = 0
  · rw [if_pos (hiff.mpr hc), if_pos hc, hone]
  · rw [if_neg fun h => hc (hiff.mp h), if_neg hc, hcount]

omit [CPrint D] in
/-- nmea_generate asks for packs only while there are satellites for one. -/
theorem packCount_bounds {info : Info D} {i : Nat}
    (hi : i < (nmeaGsvNpack info.satinfo.inview).toNatClampNeg) :
    1 ≤ (nmeaGsvNpack (gsvOf info i).satCount).toInt ∧
      (nmeaGsvNpack (gsvOf info i).satCount).toInt ≤ 3 := by
  have htwelve : (12 : Int32).toInt = 12 := rfl
  have hview := gsvNpack_toInt info.satinfo.inview
  have hclamp : ((nmeaGsvNpack info.satinfo.inview).toNatClampNeg : Int) =
      max 0 (nmeaGsvNpack info.satinfo.inview).toInt := by
    rw [Int32.toNatClampNeg, Int.toNat_eq_max, Int.max_comm]
  have hcount : (gsvOf info i).satCount.toInt = min info.satinfo.inview.toInt 12 := by
    show (if info.satinfo.inview ≤ 12 then info.satinfo.inview else 12).toInt = _
    split
    · rename_i hle
      rw [Int32.le_iff_toInt_le, htwelve] at hle
      omega
    · rename_i hgt
      rw [Int32.le_iff_toInt_le, htwelve] at hgt
      omega
  rw [gsvNpack_toInt, hcount]
  split at hview <;> split <;> omega

/-- The index stays in range, whatever the number of the pack. -/
theorem packIndex_eq {i : Nat} {packCount : Int32} (hlow : 1 ≤ packCount.toInt)
    (hsmall : i < 2 ^ 31) :
    (if Int32.ofNat i ≥ packCount then Int32.ofNat i % packCount else Int32.ofNat i) =
      Int32.ofNat (i % packCount.toNatClampNeg) := by
  have hi : (Int32.ofNat i).toInt = i := Int32.toInt_ofNat_of_lt hsmall
  have hcount : (packCount.toNatClampNeg : Int) = packCount.toInt :=
    Int.toNat_of_nonneg (by omega)
  have hmod : (Int32.ofNat (i % packCount.toNatClampNeg)).toInt =
      (i % packCount.toNatClampNeg : Nat) :=
    Int32.toInt_ofNat_of_lt (Nat.lt_of_le_of_lt (Nat.mod_le _ _) hsmall)
  apply Int32.toInt_inj.mp
  rw [hmod]
  split
  · rw [Int32.toInt_mod, hi, ← hcount]
    rfl
  · rename_i hless
    rw [ge_iff_le, Int32.le_iff_toInt_le, hi, ← hcount] at hless
    rw [hi, Nat.mod_eq_of_lt (by omega)]

omit [CPrint D] in
theorem info2Gpgsv_eq {info : Info D} {i : Nat}
    (hi : i < (nmeaGsvNpack info.satinfo.inview).toNatClampNeg) :
    nmeaInfo2Gpgsv info (Int32.ofNat i) = some (gsvOf info i) := by
  obtain ⟨hlow, hhigh⟩ := packCount_bounds hi
  have hsmall : i < 2 ^ 31 := Nat.lt_trans hi (Int32.toNatClampNeg_lt _)
  have hne : nmeaGsvNpack (gsvOf info i).satCount ≠ 0 := by
    intro hzero
    rw [hzero] at hlow
    exact absurd hlow (by decide)
  have hindex := packIndex_eq hlow hsmall
  have hthree : i % (nmeaGsvNpack (gsvOf info i).satCount).toNatClampNeg < 3 := by
    have hcount : ((nmeaGsvNpack (gsvOf info i).satCount).toNatClampNeg : Int) =
        (nmeaGsvNpack (gsvOf info i).satCount).toInt := Int.toNat_of_nonneg (by omega)
    exact Nat.lt_of_lt_of_le (Nat.mod_lt i (by omega)) (by omega)
  have hsit : ∀ k < 3, (0 ≤ Int32.ofNat k * 4 ∧
      (Int32.ofNat k * 4).toNatClampNeg + nmeaSatInPack ≤ nmeaMaxSat) ∧
        (Int32.ofNat k * 4).toNatClampNeg = 4 * k := by decide
  obtain ⟨hin, hplace⟩ := hsit _ hthree
  unfold nmeaInfo2Gpgsv
  dsimp only
  have hcount : (if info.satinfo.inview ≤ 12 then info.satinfo.inview else 12) =
      (gsvOf info i).satCount := rfl
  rw [hcount, if_neg hne, hindex, if_pos hin, hplace]
  rfl

/-! ## The branches and the loop -/

section

variable {info : Info D} (hinfo : info.Printable) (now : Time)

/-- The lines of the packets of one type, and of several. -/
def linesOf (t : PackType) : List Line :=
  (packetsOf now info t).pmap Packet.line fun _ hp => packetsOf_printable hinfo now hp

def linesIn (mask : Int32) (ts : List PackType) : List Line :=
  ts.flatMap fun t => if mask &&& t.code != 0 then linesOf hinfo now t else []

theorem generateGsv_lines (abi : Abi) (more gsvIt : Nat) (st : GenState)
    (hmore : gsvIt + more ≤ (nmeaGsvNpack info.satinfo.inview).toNatClampNeg) :
    generateGsv abi info more gsvIt st =
      putLines ((List.range' gsvIt more).map fun i => (gsvOf info i).line D) st := by
  induction more generalizing gsvIt st with
  | zero => rfl
  | succ more ih =>
    rw [generateGsv, List.range'_succ, List.map_cons, putLines]
    by_cases hfull : st.Full
    · rw [if_pos hfull, if_pos hfull]
    · have hgen : (fun buff => nmeaGenGpgsv D abi buff (gsvOf info gsvIt)) =
          ((gsvOf info gsvIt).line D).put := funext fun buff => (gsvOf info gsvIt).gen buff
      rw [if_neg hfull, if_neg hfull, info2Gpgsv_eq (by omega)]
      show (st.emit fun buff => nmeaGenGpgsv D abi buff (gsvOf info gsvIt)).bind
        (fun st => generateGsv abi info more (gsvIt + 1) st) = _
      rw [hgen]
      exact congrArg (Option.bind _) (funext fun st => ih (gsvIt + 1) st (by omega))

theorem emit_line {p : Packet D} (hp : p.Printable) (abi : Abi) (st : GenState) :
    st.emit (fun buff => nmeaGen abi buff p) = putLines [p.line hp] st := by
  rw [putLines_one]
  exact congrArg st.emit (funext fun buff => p.gen hp buff)

theorem generatePack_lines (abi : Abi) (t : PackType) (st : GenState) :
    generatePack abi now info st t = putLines (linesOf hinfo now t) st := by
  have single : ∀ p ∈ packetsOf now info t, p.Printable := fun _ hp =>
    packetsOf_printable hinfo now hp
  cases t with
  | gpnon => rfl
  | gpgga => exact emit_line (single _ List.mem_cons_self) abi st
  | gpgsa => exact emit_line (single _ List.mem_cons_self) abi st
  | gpgsv =>
    have hlines : linesOf hinfo now .gpgsv =
        (List.range' 0 (nmeaGsvNpack info.satinfo.inview).toNatClampNeg).map fun i =>
          (gsvOf info i).line D := by
      rw [← List.range_eq_range']
      exact (List.pmap_map _).trans (List.pmap_eq_map _)
    rw [hlines]
    exact generateGsv_lines abi _ 0 st (Nat.le_of_eq (Nat.zero_add _))
  | gprmc => exact emit_line (single _ List.mem_cons_self) abi st
  | gpvtg => exact emit_line (single _ List.mem_cons_self) abi st

theorem linesIn_cons (mask : Int32) (t : PackType) (ts : List PackType) :
    linesIn hinfo now mask (t :: ts) =
      (if mask &&& t.code != 0 then linesOf hinfo now t else []) ++ linesIn hinfo now mask ts :=
  List.flatMap_cons

/-- Clearing one bit leaves the others. -/
theorem other_bit {t u : PackType} (hne : u ≠ t) (ht : t ≠ .gpnon) (mask : Int32) :
    mask &&& ~~~t.code &&& u.code = mask &&& u.code := by
  have hdisjoint : ~~~t.code &&& u.code = u.code := by
    revert hne ht
    cases t <;> cases u <;> decide
  rw [Int32.and_assoc, hdisjoint]

theorem own_bit (t : PackType) (mask : Int32) : mask &&& ~~~t.code &&& t.code = 0 := by
  have hnone : ~~~t.code &&& t.code = 0 := by cases t <;> decide
  rw [Int32.and_assoc, hnone, Int32.and_zero]

/-- Once the bits of the types in front are clear, the loop puts the lines of the others. -/
theorem generateLoop_lines (abi : Abi) {fuel : Nat} {mask : Int32} {done ts : List PackType}
    (horder : generateOrder = done ++ ts) (hdone : ∀ t ∈ done, mask &&& t.code = 0)
    (hfuel : ts.length < fuel) (st : GenState) :
    generateLoop abi now info fuel mask st = putLines (linesIn hinfo now mask ts) st := by
  induction ts generalizing fuel mask done st with
  | nil =>
    obtain ⟨fuel, rfl⟩ : ∃ f, fuel = f + 1 := ⟨fuel - 1, by omega⟩
    have hnone : generateOrder.find? (fun t => mask &&& t.code != 0) = none := by
      rw [horder, List.append_nil, List.find?_eq_none]
      intro t ht
      simp [hdone t ht]
    rw [generateLoop, hnone]
    split <;> rfl
  | cons t ts ih =>
    have horder' : generateOrder = (done ++ [t]) ++ ts := by
      rw [horder, List.append_assoc]
      rfl
    rw [linesIn_cons]
    by_cases hbit : mask &&& t.code = 0
    · have hskip : (mask &&& t.code != 0) = false := by simp [hbit]
      rw [hskip, if_neg Bool.false_ne_true, List.nil_append]
      refine ih horder' ?_ (Nat.lt_of_succ_lt hfuel) st
      intro u hu
      rcases List.mem_append.mp hu with hu | hu
      · exact hdone u hu
      · rw [List.mem_singleton.mp hu]
        exact hbit
    · obtain ⟨fuel, rfl⟩ : ∃ f, fuel = f + 1 := ⟨fuel - 1, by omega⟩
      have htake : (mask &&& t.code != 0) = true := by simp [hbit]
      have hmask : mask ≠ 0 := by
        rintro rfl
        exact hbit Int32.zero_and
      have hfind : generateOrder.find? (fun t => mask &&& t.code != 0) = some t := by
        have hfront : done.find? (fun t => mask &&& t.code != 0) = none := by
          rw [List.find?_eq_none]
          intro u hu
          simp [hdone u hu]
        have hhead : (t :: ts).find? (fun t => mask &&& t.code != 0) = some t :=
          List.find?_cons_of_pos htake
        rw [horder, List.find?_append, hfront, hhead]
        rfl
      have hnodup : generateOrder.Nodup := by decide
      have hnon : t ≠ .gpnon := by
        have hmem : t ∈ generateOrder := by
          rw [horder]
          exact List.mem_append_right _ List.mem_cons_self
        rintro rfl
        exact absurd hmem (by decide)
      have hother : ∀ u, u ≠ t → mask &&& ~~~t.code &&& u.code = mask &&& u.code := fun u hu =>
        other_bit hu hnon mask
      have hrest : linesIn hinfo now (mask &&& ~~~t.code) ts = linesIn hinfo now mask ts := by
        rw [horder, List.nodup_append] at hnodup
        have hnotin : t ∉ ts := (List.nodup_cons.mp hnodup.2.1).1
        refine List.flatMap_congr fun u hu => ?_
        rw [hother u fun h => hnotin (h ▸ hu)]
      have hclear : ∀ u ∈ done ++ [t], mask &&& ~~~t.code &&& u.code = 0 := by
        intro u hu
        by_cases hut : u = t
        · rw [hut, own_bit]
        · rcases List.mem_append.mp hu with hu | hu
          · rw [hother u hut, hdone u hu]
          · exact absurd (List.mem_singleton.mp hu) hut
      rw [generateLoop, if_neg hmask, hfind, htake, if_pos rfl, putLines_append,
        ← generatePack_lines hinfo now abi t st]
      refine congrArg (Option.bind _) (funext fun st' => ?_)
      by_cases hfull : st'.Full
      · rw [if_pos hfull, putLines_full hfull]
        rfl
      · rw [if_neg hfull, ih horder' hclear (by rw [List.length_cons] at hfuel; omega) st', hrest]

/-- **nmea_generate puts the lines of the packets of the mask, one after another.** -/
theorem generate_lines (abi : Abi) (mask : Int32) (buff : List Byte) :
    nmeaGenerate abi now buff info mask =
      putLines (linesIn hinfo now mask generateOrder) ⟨0, buff⟩ :=
  generateLoop_lines hinfo now abi (List.nil_append _).symm (fun _ h => absurd h List.not_mem_nil)
    (by decide) _

/-- The lines of all that is generated. -/
def generatedLines (mask : Int32) : List Line :=
  (generated now info mask).pmap Packet.line (packetsIn_printable hinfo now mask generateOrder)

theorem linesIn_eq (mask : Int32) (ts : List PackType) :
    linesIn hinfo now mask ts =
      (packetsIn now info mask ts).pmap Packet.line (packetsIn_printable hinfo now mask ts) := by
  induction ts with
  | nil => rfl
  | cons t ts ih =>
    rw [linesIn_cons, ih]
    have hcons : packetsIn now info mask (t :: ts) =
        (if mask &&& t.code != 0 then packetsOf now info t else []) ++ packetsIn now info mask ts :=
      List.flatMap_cons
    have hpmap : ∀ (ps : List (Packet D)) (hps : ∀ p ∈ ps, p.Printable)
        (heq : packetsIn now info mask (t :: ts) = ps),
        (packetsIn now info mask (t :: ts)).pmap Packet.line
          (packetsIn_printable hinfo now mask (t :: ts)) = ps.pmap Packet.line hps := by
      rintro ps hps rfl
      rfl
    by_cases hbit : (mask &&& t.code != 0) = true
    · rw [if_pos hbit] at hcons
      rw [if_pos hbit, hpmap _ (fun p hp => packetsIn_printable hinfo now mask (t :: ts) p
        (hcons ▸ hp)) hcons, List.pmap_append]
      rfl
    · rw [if_neg hbit, List.nil_append] at hcons
      rw [if_neg hbit, List.nil_append, hpmap _ (packetsIn_printable hinfo now mask ts) hcons]

theorem generate_putLines (abi : Abi) (mask : Int32) (buff : List Byte) :
    nmeaGenerate abi now buff info mask =
      putLines (generatedLines hinfo now mask) ⟨0, buff⟩ := by
  rw [generate_lines hinfo, linesIn_eq]
  rfl

end

/-! ## How far the buffer goes -/

/-- A line begins in the buffer, but its text alone is too long for it. -/
def Overruns (size : Nat) (ls : List Line) : Prop :=
  ∃ pre l post, ls = pre ++ l :: post ∧ (bytesOf pre).length < size ∧
    size < (bytesOf pre).length + l.text.length

/-- The lines that get whole into a buffer of `size` bytes, and what stands behind them in the
part that counts as used. -/
inductive PutRun (size : Nat) (ls : List Line) : List Line → List Byte → Prop
  | empty : size = 0 → PutRun size ls [] []
  | all : (bytesOf ls).length < size → PutRun size ls ls []
  /-- The NUL took the place of the last LF. -/
  | exact (pre : List Line) (l : Line) (post : List Line) : ls = pre ++ l :: post →
      size = (bytesOf pre).length + l.frame.bytes.length →
      PutRun size ls pre (l.frame.bytes.dropLast ++ [0])
  | blank (pre : List Line) (l : Line) (post : List Line) : ls = pre ++ l :: post →
      (bytesOf pre).length + l.text.length ≤ size →
      size < (bytesOf pre).length + l.frame.bytes.length →
      PutRun size ls pre (blanks (size - (bytesOf pre).length))

theorem bytesOf_cons (l : Line) (ls : List Line) :
    bytesOf (l :: ls) = l.frame.bytes ++ bytesOf ls :=
  List.flatMap_cons

theorem length_bytesOf_cons (l : Line) (ls : List Line) :
    (bytesOf (l :: ls)).length = l.frame.bytes.length + (bytesOf ls).length := by
  rw [bytesOf_cons, List.length_append]

/-- The first line fits: it is in front of whatever becomes of the others. -/
theorem PutRun.cons {size : Nat} {l : Line} {ls pre : List Line} {rest : List Byte}
    (hroom : l.frame.bytes.length < size) (h : PutRun (size - l.frame.bytes.length) ls pre rest) :
    PutRun size (l :: ls) (l :: pre) rest := by
  have hlen := length_bytesOf_cons l
  cases h with
  | empty hzero => omega
  | all hall =>
    apply PutRun.all
    rw [hlen]
    omega
  | exact _ m post heq hsize =>
    refine .exact (l :: pre) m post (by rw [heq]; rfl) ?_
    rw [hlen]
    omega
  | blank _ m post heq hlow hhigh =>
    have hblank : size - l.frame.bytes.length - (bytesOf pre).length =
        size - (bytesOf (l :: pre)).length := by
      rw [hlen]
      omega
    rw [hblank]
    refine .blank (l :: pre) m post (by rw [heq]; rfl) ?_ ?_ <;> rw [hlen] <;> omega

theorem overruns_cons {size : Nat} {l : Line} {ls : List Line}
    (hroom : l.frame.bytes.length < size) :
    Overruns size (l :: ls) ↔ Overruns (size - l.frame.bytes.length) ls := by
  have hlen := length_bytesOf_cons l
  have htext := l.length_frame
  constructor
  · rintro ⟨pre, m, post, heq, hlow, hhigh⟩
    cases pre with
    | nil =>
      rw [List.nil_append] at heq
      cases heq
      have hnil : (bytesOf []).length = 0 := rfl
      omega
    | cons k pre =>
      cases heq
      have hcons := hlen pre
      exact ⟨pre, m, post, rfl, by omega, by omega⟩
  · rintro ⟨pre, m, post, rfl, hlow, hhigh⟩
    have hcons := hlen pre
    exact ⟨l :: pre, m, post, rfl, by omega, by omega⟩

/-- A buffer without room for the first line with a NUL: nothing gets whole into it. -/
theorem overruns_tight {size : Nat} {l : Line} {ls : List Line}
    (htight : size ≤ l.frame.bytes.length) :
    Overruns size (l :: ls) ↔ 0 < size ∧ size < l.text.length := by
  have hnil : (bytesOf []).length = 0 := rfl
  constructor
  · rintro ⟨pre, m, post, heq, hlow, hhigh⟩
    cases pre with
    | nil =>
      cases heq
      exact ⟨by omega, by omega⟩
    | cons k pre =>
      cases heq
      have hcons := length_bytesOf_cons l pre
      omega
  · rintro ⟨hlow, hhigh⟩
    exact ⟨[], l, ls, rfl, by omega, by omega⟩

section

variable {st : GenState} {l : Line}

theorem room_eq (st : GenState) :
    (st.buff.drop st.genCount).length = st.buff.length - st.genCount :=
  List.length_drop

theorem emit_fault (hroom : st.genCount < st.buff.length)
    (hfault : st.buff.length - st.genCount < l.text.length) : st.emit l.put = none := by
  have hne : st.buff.drop st.genCount ≠ [] := List.length_pos_iff.mp (by rw [room_eq]; omega)
  rw [GenState.emit, Line.put, if_neg hne, room_eq, if_pos hfault]
  rfl

/-- The line does not fit with a NUL behind it: the buffer is full, of blanks or of what there is
of the line. -/
theorem emit_tight (hroom : st.genCount < st.buff.length)
    (hfit : l.text.length ≤ st.buff.length - st.genCount)
    (htight : st.buff.length - st.genCount ≤ l.frame.bytes.length) (ls : List Line) :
    ∃ st' rest, st.emit l.put = some st' ∧ st'.Full ∧ st'.buff.length = st.buff.length ∧
      st'.genCount = st.buff.length ∧ st'.buff = st.buff.take st.genCount ++ rest ∧
      PutRun (st.buff.length - st.genCount) (l :: ls) [] rest := by
  have hne : st.buff.drop st.genCount ≠ [] := List.length_pos_iff.mp (by rw [room_eq]; omega)
  have hcount : (st.buff.take st.genCount).length = st.genCount :=
    List.length_take_of_le (Nat.le_of_lt hroom)
  have hput : ∀ rest : List Byte, rest.length = st.buff.length - st.genCount →
      (st.buff.take st.genCount ++ rest).length = st.buff.length := by
    intro rest hrest
    rw [List.length_append, hcount, hrest]
    omega
  have hnil : (bytesOf []).length = 0 := rfl
  rw [GenState.emit, Line.put, if_neg hne, room_eq, if_neg (by omega)]
  by_cases hblank : st.buff.length - st.genCount < l.frame.bytes.length
  · have hlen := hput (blanks (st.buff.length - st.genCount)) List.length_replicate
    have hend : st.genCount + (st.buff.length - st.genCount) = st.buff.length := by omega
    rw [if_pos hblank]
    exact ⟨_, _, rfl, Nat.le_of_eq (hlen.trans hend.symm), hlen, hend, rfl,
      .blank [] l ls rfl (by omega) (by omega)⟩
  · have hlen := hput (l.frame.bytes.dropLast ++ [0]) (by
      rw [List.length_append, List.length_dropLast, List.length_singleton]
      omega)
    have hend : st.genCount + l.frame.bytes.length = st.buff.length := by omega
    rw [if_neg hblank, snprintf_exact hne (by rw [room_eq]; omega)]
    exact ⟨_, _, rfl, Nat.le_of_eq (hlen.trans hend.symm), hlen, hend, rfl,
      .exact [] l ls rfl (by omega)⟩

/-- The line fits: the next one goes behind it. -/
theorem emit_fits (hroom : l.frame.bytes.length < st.buff.length - st.genCount) :
    ∃ st', st.emit l.put = some st' ∧ st'.buff.length = st.buff.length ∧
      st'.genCount = st.genCount + l.frame.bytes.length ∧
      st'.buff.take st'.genCount = st.buff.take st.genCount ++ l.frame.bytes := by
  have hne : st.buff.drop st.genCount ≠ [] := List.length_pos_iff.mp (by rw [room_eq]; omega)
  have hcount : (st.buff.take st.genCount).length = st.genCount :=
    List.length_take_of_le (by omega)
  have htext := l.length_frame
  rw [GenState.emit, Line.put, if_neg hne, room_eq, if_neg (by omega), if_neg (by omega),
    snprintf_room (by rw [room_eq]; exact hroom)]
  refine ⟨_, rfl, ?_, rfl, ?_⟩
  · rw [List.length_append, hcount, List.length_append, List.length_cons, List.length_drop, room_eq]
    omega
  · rw [← List.append_assoc]
    exact List.take_left' (by rw [List.length_append, hcount])

end

/-- Lines put into the rest of a buffer: where it faults, and what it holds afterwards. -/
theorem putLines_run {ls : List Line} {st : GenState} (hle : st.genCount ≤ st.buff.length) :
    (putLines ls st = none ↔ Overruns (st.buff.length - st.genCount) ls) ∧
      ∀ st', putLines ls st = some st' → st'.buff.length = st.buff.length ∧
        st'.genCount ≤ st.buff.length ∧
        ∃ pre rest, PutRun (st.buff.length - st.genCount) ls pre rest ∧
          st'.buff.take st'.genCount = st.buff.take st.genCount ++ (bytesOf pre ++ rest) := by
  induction ls generalizing st with
  | nil =>
    have hnil : ¬ Overruns (st.buff.length - st.genCount) [] := by
      rintro ⟨pre, l, post, heq, -⟩
      cases pre <;> cases heq
    refine ⟨iff_of_false (Option.some_ne_none _) hnil, ?_⟩
    intro st' h
    cases h
    refine ⟨rfl, hle, [], [], ?_, (List.append_nil _).symm⟩
    by_cases hzero : st.buff.length - st.genCount = 0
    · exact .empty hzero
    · exact .all (Nat.pos_of_ne_zero hzero)
  | cons l ls ih =>
    have htext := l.length_frame
    by_cases hzero : st.buff.length - st.genCount = 0
    · rw [putLines_full (Nat.le_of_sub_eq_zero hzero), overruns_tight (by omega)]
      refine ⟨iff_of_false (Option.some_ne_none _) (by omega), ?_⟩
      intro st' h
      cases h
      exact ⟨rfl, hle, [], [], .empty hzero, (List.append_nil _).symm⟩
    have hpos : st.genCount < st.buff.length := by omega
    rw [putLines_cons]
    by_cases hfault : st.buff.length - st.genCount < l.text.length
    · rw [emit_fault hpos hfault, overruns_tight (by omega)]
      exact ⟨iff_of_true rfl ⟨by omega, hfault⟩, fun st' h => by cases h⟩
    by_cases hfits : l.frame.bytes.length < st.buff.length - st.genCount
    · obtain ⟨next, hemit, hlen, hcount, htake⟩ := emit_fits hfits
      have hleft : next.buff.length - next.genCount =
          st.buff.length - st.genCount - l.frame.bytes.length := by omega
      have hnext : next.genCount ≤ next.buff.length := by omega
      obtain ⟨hnone, hsome⟩ := ih hnext
      rw [hleft] at hnone hsome
      rw [hemit, Option.bind_some, overruns_cons hfits]
      refine ⟨hnone, fun st' h => ?_⟩
      obtain ⟨hlen', hcount', pre, rest, hrun, hbytes⟩ := hsome st' h
      refine ⟨hlen'.trans hlen, hlen ▸ hcount', l :: pre, rest, hrun.cons hfits, ?_⟩
      rw [hbytes, htake, bytesOf_cons, List.append_assoc, List.append_assoc]
    · obtain ⟨full, rest, hemit, hfull, hlen, hcount, hbytes, hrun⟩ :=
        emit_tight hpos (Nat.not_lt.mp hfault) (Nat.not_lt.mp hfits) ls
      rw [hemit, Option.bind_some, putLines_full hfull, overruns_tight (by omega)]
      refine ⟨iff_of_false (Option.some_ne_none _) (by omega), ?_⟩
      intro st' h
      cases h
      refine ⟨hlen, Nat.le_of_eq hcount, [], rest, hrun, ?_⟩
      rw [List.take_of_length_le hfull, hbytes]
      rfl

/-- **nmea_generate leaves its buffer exactly when a line begins in it whose text is too long for
the rest.** Otherwise the bytes it counts are the lines that fit with a NUL behind them, and then
nothing, blanks up to the end of the buffer, or the one line that lost its LF to the NUL. -/
theorem generate_room {info : Info D} (hinfo : info.Printable) (abi : Abi) (now : Time)
    (buff : List Byte) (mask : Int32) :
    (nmeaGenerate abi now buff info mask = none ↔
        Overruns buff.length (generatedLines hinfo now mask)) ∧
      ∀ st, nmeaGenerate abi now buff info mask = some st →
        st.buff.length = buff.length ∧ st.genCount ≤ buff.length ∧
        ∃ pre rest, PutRun buff.length (generatedLines hinfo now mask) pre rest ∧
          st.buff.take st.genCount = bytesOf pre ++ rest := by
  rw [generate_putLines hinfo]
  exact @putLines_run _ ⟨0, buff⟩ (Nat.zero_le _)

/-! ## A summary to try -/

/-- One satellite, in use. -/
def SatInfo.one : SatInfo where
  inuse := 1
  inview := 1
  sat := (Vector.replicate _ {}).set 0 ⟨5, 1, 40, 90, 30⟩

def Info.noon : Info Rat :=
  { Info.zeroed with
    utc := ⟨124, 5, 17, 12, 0, 0, 0⟩
    sig := 1
    fix := 3
    lat := 5001
    lon := -3613
    speed := 10
    satinfo := .one }

theorem noon_printable : Info.noon.Printable :=
  ⟨printsNumber_rat _, printsNumber_rat _, printsNumber_rat _, printsNumber_rat _,
    printsNumber_rat _, printsNumber_rat _, printsNumber_rat _, printsNumber_rat _,
    printsNumber_rat _, printsNumber_rat _, printsNumber_rat _⟩

theorem generate_room_noon :
    let buff : List Byte := List.replicate 100 0
    (nmeaGenerate ⟨true, 32, le_rfl⟩ {} buff Info.noon 0x1f = none ↔
        Overruns buff.length (generatedLines noon_printable {} 0x1f)) ∧
      ∀ st, nmeaGenerate ⟨true, 32, le_rfl⟩ {} buff Info.noon 0x1f = some st →
        st.buff.length = buff.length ∧ st.genCount ≤ buff.length ∧
        ∃ pre rest, PutRun buff.length (generatedLines noon_printable {} 0x1f) pre rest ∧
          st.buff.take st.genCount = bytesOf pre ++ rest :=
  generate_room noon_printable _ {} (List.replicate 100 0) 0x1f

end RttNmea
