import RttNmea.GenCycle
import RttNmea.GsvCycle
import RttNmea.SatUse

/-!
# The summary at the other end

A full cycle carries the whole summary: the parser's summary shows that of the generator, each
double as its text is read back. in_use and inuse are those that GSA finds in the table as it was
before, see `GenFlags`.
-/

namespace RttNmea

open CText Framing

variable {D : Type}

/-! ## The GSV packs of a cycle -/

/-- How many satellites a cycle lists. -/
def SatInfo.listed (s : SatInfo) : Nat :=
  (if s.inview ≤ 12 then s.inview else 12).toNatClampNeg

theorem gsvOf_count {info : Info D} (hview : 0 ≤ info.satinfo.inview) (i : Nat) :
    (gsvOf info i).satCount = Int32.ofNat info.satinfo.listed ∧ info.satinfo.listed ≤ 12 := by
  have hcount : (gsvOf info i).satCount =
      if info.satinfo.inview ≤ 12 then info.satinfo.inview else 12 := rfl
  have hge : 0 ≤ (gsvOf info i).satCount := by
    rw [hcount]
    split
    · exact hview
    · decide
  have hle : (gsvOf info i).satCount ≤ Int32.ofNat 12 := by
    rw [hcount]
    split
    · assumption
    · decide
  obtain ⟨k, hk, heq⟩ := int32_eq_ofNat (n := 12) (by decide) hge hle
  have hlisted : info.satinfo.listed = k := by
    rw [SatInfo.listed, ← hcount, heq]
    exact Int32.toNatClampNeg_ofNat_of_lt (by omega)
  rw [hlisted]
  exact ⟨heq, hk⟩

/-- How many packs they take. -/
def packsFor (n : Nat) : Nat := max 1 ((n + 3) / 4)

def SatInfo.packs (s : SatInfo) : Nat := packsFor s.listed

theorem gsvOf_packs {info : Info D} (hview : 0 ≤ info.satinfo.inview) (i : Nat) :
    (gsvOf info i).packCount = Int32.ofNat (info.satinfo.packs) ∧
      (gsvOf info i).packIndex = Int32.ofNat (i % info.satinfo.packs) := by
  have table : ∀ n ≤ 12, nmeaGsvNpack (Int32.ofNat n) = Int32.ofNat (packsFor n) ∧
      (Int32.ofNat (packsFor n)).toNatClampNeg = packsFor n := by decide
  obtain ⟨hcount, hle⟩ := gsvOf_count hview i
  obtain ⟨hpack, hnat⟩ : nmeaGsvNpack (Int32.ofNat info.satinfo.listed) =
      Int32.ofNat info.satinfo.packs ∧ (Int32.ofNat info.satinfo.packs).toNatClampNeg =
        info.satinfo.packs := table _ hle
  have hpacks : nmeaGsvNpack (gsvOf info i).satCount = Int32.ofNat (info.satinfo.packs) := by
    rw [hcount, hpack]
  have hindex : (gsvOf info i).packIndex =
      Int32.ofNat (i % (nmeaGsvNpack (gsvOf info i).satCount).toNatClampNeg) := rfl
  exact ⟨hpacks, by rw [hindex, hpacks, hnat]⟩

/-- nmea_generate makes at least the packs for them. -/
theorem packsFor_le {info : Info D} (hview : 0 ≤ info.satinfo.inview) :
    info.satinfo.packs ≤ (nmeaGsvNpack info.satinfo.inview).toNatClampNeg := by
  have htwelve : (12 : Int32).toInt = 12 := rfl
  have hzero : (0 : Int32).toInt = 0 := rfl
  rw [Int32.le_iff_toInt_le, hzero] at hview
  have hpacks := gsvNpack_toInt info.satinfo.inview
  have hlisted : info.satinfo.listed = min info.satinfo.inview.toInt.toNat 12 := by
    unfold SatInfo.listed Int32.toNatClampNeg
    split
    · rename_i hle
      rw [Int32.le_iff_toInt_le, htwelve] at hle
      omega
    · rename_i hgt
      rw [Int32.le_iff_toInt_le, htwelve] at hgt
      rw [htwelve]
      omega
  unfold SatInfo.packs packsFor
  rw [hlisted, Int32.toNatClampNeg, hpacks]
  split <;> omega

/-- Satellite `j` of a pack is that of the summary at the place of the pack. -/
theorem gsvOf_data {info : Info D} (hview : 0 ≤ info.satinfo.inview) (i : Nat) {j : Nat}
    (hj : j < nmeaSatInPack) (hq : 4 * (i % info.satinfo.packs) + j < nmeaMaxSat) :
    (gsvOf info i).reread.satData[j]?.getD {} =
      { info.satinfo.sat[4 * (i % info.satinfo.packs) + j] with inUse := 0 } := by
  obtain ⟨hpacks, -⟩ := gsvOf_packs hview i
  have hfew : info.satinfo.packs < 2 ^ 31 := by
    have hle := (gsvOf_count hview i).2
    unfold SatInfo.packs packsFor
    omega
  have hnat : (nmeaGsvNpack (gsvOf info i).satCount).toNatClampNeg = info.satinfo.packs := by
    have hcount : nmeaGsvNpack (gsvOf info i).satCount = Int32.ofNat (info.satinfo.packs) := hpacks
    rw [hcount]
    exact Int32.toNatClampNeg_ofNat_of_lt hfew
  show ((Vector.ofFn fun pit : Fin nmeaSatInPack => info.satinfo.sat[4 *
    (i % (nmeaGsvNpack (gsvOf info i).satCount).toNatClampNeg) + pit]?.getD {}).map
      fun s : Satellite => { s with inUse := 0 })[j]?.getD {} = _
  rw [hnat, Vector.getElem?_eq_getElem hj, Option.getD_some, Vector.getElem_map,
    Vector.getElem_ofFn]
  dsimp only
  rw [Vector.getElem?_eq_getElem hq, Option.getD_some]

theorem gsvOf_counted {info : Info D} (hview : 0 ≤ info.satinfo.inview) (i : Nat) :
    (gsvOf info i).Counted := by
  have table : ∀ n ≤ 12, ∀ k < packsFor n,
      ¬ 19 < gsvNsat (Int32.ofNat k + 1) (Int32.ofNat n) * 4 + 3 := by decide
  obtain ⟨hcount, hle⟩ := gsvOf_count hview i
  obtain ⟨-, hindex⟩ := gsvOf_packs hview i
  have hpos : 0 < info.satinfo.packs := Nat.lt_of_lt_of_le Nat.one_pos (Nat.le_max_left _ _)
  rw [Gsv.Counted, hcount, hindex]
  exact table _ hle _ (Nat.mod_lt i hpos)

/-- A slot of the table lists the satellite of the summary. -/
def Lists (s : SatInfo) (sat : Vector Satellite nmeaMaxSat) (q : Nat) : Prop :=
  ∀ hq : q < nmeaMaxSat, Carries s.sat[q] sat[q]

/-- One pack fills its slots, and no other slot is touched. -/
theorem gsvInfo_lists {info : Info D} (hview : 0 ≤ info.satinfo.inview) (i : Nat) (sum : Info D) :
    ∃ sat, nmeaGsvInfo (gsvOf info i).reread sum = some { sum with
        satinfo := { sum.satinfo with inview := Int32.ofNat info.satinfo.listed, sat := sat }
        smask := sum.smask ||| PackType.gpgsv.code } ∧
      (∀ q < info.satinfo.listed,
        Lists info.satinfo sum.satinfo.sat q ∨ q / 4 = i % info.satinfo.packs →
          Lists info.satinfo sat q) ∧
      ∀ q (hq : q < nmeaMaxSat), sat[q].inUse = sum.satinfo.sat[q].inUse := by
  have table : ∀ n ≤ 12, ∀ k < packsFor n,
      k + 1 ≤ 3 ∧ Int32.ofNat k + 1 = Int32.ofNat (k + 1) ∧
      ¬ (Int32.ofNat (k + 1) > Int32.ofNat (packsFor n) ∨ Int32.ofNat (k + 1) * 4 > 12) ∧
      ¬ Int32.ofNat (k + 1) < 1 ∧
      (gsvNsat (Int32.ofNat (k + 1)) (Int32.ofNat n)).toNatClampNeg = min 4 (n - 4 * k) := by
    decide
  obtain ⟨hcount, hle⟩ := gsvOf_count hview i
  obtain ⟨hpacks, hindex⟩ := gsvOf_packs hview i
  have hpos : 0 < info.satinfo.packs := Nat.lt_of_lt_of_le Nat.one_pos (Nat.le_max_left _ _)
  obtain ⟨hthree, hnext, hread, hone, hnsat⟩ := table _ hle (i % info.satinfo.packs)
    (Nat.mod_lt i hpos)
  have hplace : (gsvOf info i).reread.packIndex =
      Int32.ofNat (i % info.satinfo.packs + 1) := by
    show (gsvOf info i).packIndex + 1 = _
    rw [hindex, hnext]
  have hignored : ¬ gsvIgnored (gsvOf info i).reread := by
    have hall : (gsvOf info i).reread.packCount = Int32.ofNat (info.satinfo.packs) := hpacks
    unfold gsvIgnored
    rw [hplace, hall]
    exact hread
  have hgsv : gsvIndex (gsvOf info i).reread = Int32.ofNat (i % info.satinfo.packs + 1) := by
    unfold gsvIndex
    rw [hplace, if_neg hone]
  have hcopied : (gsvCopied (gsvOf info i).reread).toNatClampNeg =
      min 4 (info.satinfo.listed - 4 * (i % info.satinfo.packs)) := by
    have hsats : (gsvOf info i).reread.satCount = Int32.ofNat info.satinfo.listed := hcount
    rw [gsvCopied, hgsv, hsats, hnsat]
  obtain ⟨sat, hrun, hsat⟩ := copyLoop (Nat.le_add_left 1 _) hthree hgsv
    (k := min 4 (info.satinfo.listed - 4 * (i % info.satinfo.packs))) (Nat.min_le_left _ _)
    sum.satinfo.sat
  rw [Nat.add_sub_cancel] at hsat
  refine ⟨sat, ?_, ?_, ?_⟩
  · have hsats : (gsvOf info i).reread.satCount = Int32.ofNat info.satinfo.listed := hcount
    unfold nmeaGsvInfo
    rw [if_neg hignored, hcopied, hrun, hsats]
    rfl
  · intro q hlow hdone hq
    rw [hsat q hq]
    by_cases hmine : 4 * (i % info.satinfo.packs) ≤ q ∧ q < 4 * (i % info.satinfo.packs) +
        min 4 (info.satinfo.listed - 4 * (i % info.satinfo.packs))
    · -- the satellite of the pack is that of the summary at the same place
      rw [if_pos hmine]
      have hslot : q - 4 * (i % info.satinfo.packs) < nmeaSatInPack := by
        unfold nmeaSatInPack
        omega
      have hdata := gsvOf_data hview i hslot (by rw [Nat.add_sub_cancel' hmine.1]; exact hq)
      simp only [Nat.add_sub_cancel' hmine.1] at hdata
      rw [hdata]
      exact ⟨rfl, rfl, rfl, rfl⟩
    · rw [if_neg hmine]
      rcases hdone with hdone | hposition
      · exact hdone hq
      · omega
  · intro q hq
    rw [hsat q hq]
    split <;> rfl

variable [CPrint D]

/-- All packs one after another: each slot is filled when the pack of its number comes. -/
theorem foldGsv {info : Info D} (hview : 0 ≤ info.satinfo.inview) (is : List Nat)
    (hne : is ≠ []) (sum : Info D) :
    ∃ sat, foldInfo (some sum) (is.map fun i => (Packet.gsv (gsvOf info i).reread : Packet D)) =
        some { sum with
          satinfo := { sum.satinfo with inview := Int32.ofNat info.satinfo.listed, sat := sat }
          smask := sum.smask ||| PackType.gpgsv.code } ∧
      (∀ q < info.satinfo.listed,
        Lists info.satinfo sum.satinfo.sat q ∨ (∃ i ∈ is, q / 4 = i % info.satinfo.packs) →
          Lists info.satinfo sat q) ∧
      ∀ q (hq : q < nmeaMaxSat), sat[q].inUse = sum.satinfo.sat[q].inUse := by
  induction is generalizing sum with
  | nil => exact absurd rfl hne
  | cons i is ih =>
    obtain ⟨sat, hstep, hlists, hkeep⟩ := gsvInfo_lists hview i sum
    have hfirst : foldInfo (some sum)
        ((i :: is).map fun i => (Packet.gsv (gsvOf info i).reread : Packet D)) =
        foldInfo (nmeaGsvInfo (gsvOf info i).reread sum)
          (is.map fun i => (Packet.gsv (gsvOf info i).reread : Packet D)) := rfl
    rw [hfirst, hstep]
    by_cases hlast : is = []
    · subst hlast
      refine ⟨sat, rfl, fun q hq h => hlists q hq ?_, hkeep⟩
      rcases h with h | ⟨j, hj, hjq⟩
      · exact .inl h
      · rw [List.mem_singleton.mp hj] at hjq
        exact .inr hjq
    · obtain ⟨sat', hrun, hlists', hkeep'⟩ := ih hlast { sum with
        satinfo := { sum.satinfo with inview := Int32.ofNat info.satinfo.listed, sat := sat }
        smask := sum.smask ||| PackType.gpgsv.code }
      refine ⟨sat', ?_, ?_, ?_⟩
      · rw [hrun]
        have hmask : sum.smask ||| PackType.gpgsv.code ||| PackType.gpgsv.code =
            sum.smask ||| PackType.gpgsv.code := by
          rw [Int32.or_assoc, Int32.or_self]
        dsimp only
        rw [hmask]
      · intro q hq h
        apply hlists' q hq
        rcases h with h | ⟨j, hj, hjq⟩
        · exact .inl (hlists q hq (.inl h))
        · rcases List.mem_cons.mp hj with rfl | hj
          · exact .inl (hlists q hq (.inr hjq))
          · exact .inr ⟨j, hj, hjq⟩
      · intro q hq
        rw [hkeep' q hq]
        exact hkeep q hq

/-! ## The other packets -/

omit [CPrint D] in
/-- nmea_gsa_info goes through if the satellites in view are in the table. -/
theorem gsaInfo_some (pack : Gsa D) {sum : Info D} (h : InTable (some sum)) :
    ∃ sat nuse, gsaMarkAll pack.satPrn.toList sum.satinfo.inview (sum.satinfo.sat, 0) =
        some (sat, nuse) ∧
      nmeaGsaInfo pack sum = some { sum with
        fix := pack.fixType
        pdop := pack.pdop
        hdop := pack.hdop
        vdop := pack.vdop
        satinfo := { sum.satinfo with sat := sat, inuse := nuse }
        smask := sum.smask ||| PackType.gpgsa.code } := by
  obtain ⟨sum', hsome, -⟩ := gsaInfo_keeps pack h
  unfold nmeaGsaInfo at hsome ⊢
  obtain ⟨⟨sat, nuse⟩, hmark, -⟩ := Option.bind_eq_some_iff.mp hsome
  refine ⟨sat, nuse, hmark, ?_⟩
  rw [hmark]
  rfl

/-- The summary shows another one, as its sentences are read back. -/
structure Shows (info sum : Info D) : Prop where
  utc : sum.utc = { info.utc with year := yearOf (info.utc.year - 100) }
  sig : sum.sig = if 0 < info.sig then info.sig else nmeaSigBad
  fix : sum.fix =
    if 0 < info.sig then (if info.fix = nmeaFixBad then nmeaFix2d else info.fix) else nmeaFixBad
  pdop : sum.pdop = reread true 3 1 info.pdop
  hdop : sum.hdop = reread true 3 1 info.hdop
  vdop : sum.vdop = reread true 3 1 info.vdop
  lat : sum.lat =
    if CPrint.pos info.lat then reread true 7 4 (CPrint.fabs info.lat)
    else CDouble.neg (reread true 7 4 (CPrint.fabs info.lat))
  lon : sum.lon =
    if CPrint.pos info.lon then reread true 7 4 (CPrint.fabs info.lon)
    else CDouble.neg (reread true 7 4 (CPrint.fabs info.lon))
  elv : sum.elv = reread true 3 1 info.elv
  speed : sum.speed = reread false 0 1 info.speed
  direction : sum.direction = reread false 0 1 info.direction
  declination : sum.declination = reread false 0 1 info.declination
  inview : sum.satinfo.inview = Int32.ofNat info.satinfo.listed
  sats : ∀ q < info.satinfo.listed, Lists info.satinfo sum.satinfo.sat q
  smask : ∀ t : PackType, t ≠ .gpnon → sum.smask &&& t.code ≠ 0

/-- A cycle with every type of packet, all of which are read back. -/
structure FullCycle (info : Info D) (mask : Int32) : Prop where
  mask : ∀ t : PackType, t ≠ .gpnon → mask &&& t.code ≠ 0
  clock : ClockFits info.utc
  date : DateFits info.utc

/-- Its packets, as they are read back. -/
theorem rereadAll_full {info : Info D} {mask : Int32} (h : FullCycle info mask)
    (hview : 0 ≤ info.satinfo.inview) (now : Time) :
    rereadAll (generated now info mask) =
      [.gga (nmeaInfo2Gpgga now info).reread, .gsa (nmeaInfo2Gpgsa info).reread] ++
        ((List.range (nmeaGsvNpack info.satinfo.inview).toNatClampNeg).map fun i =>
          .gsv (gsvOf info i).reread) ++
        [.rmc (nmeaInfo2Gprmc now info).reread, .vtg (nmeaInfo2Gpvtg info).reread] := by
  have hbit : ∀ t : PackType, t ≠ .gpnon → (mask &&& t.code != 0) = true := fun t ht => by
    simp [h.mask t ht]
  have hall : generated now info mask =
      [.gga (nmeaInfo2Gpgga now info), .gsa (nmeaInfo2Gpgsa info)] ++
        packetsOf now info .gpgsv ++
        [.rmc (nmeaInfo2Gprmc now info), .vtg (nmeaInfo2Gpvtg info)] := by
    simp only [generated, packetsIn, generateOrder, List.flatMap_cons, List.flatMap_nil,
      hbit .gpgga PackType.noConfusion, hbit .gpgsa PackType.noConfusion,
      hbit .gpgsv PackType.noConfusion, hbit .gprmc PackType.noConfusion,
      hbit .gpvtg PackType.noConfusion, if_true]
    simp [packetsOf]
  have hreadable : ∀ p ∈ generated now info mask, p.Readable := by
    intro p hp
    rw [hall] at hp
    rcases List.mem_append.mp hp with hp | hp
    · rcases List.mem_append.mp hp with hp | hp
      · rcases List.mem_pair.mp hp with rfl | rfl
        · exact h.clock
        · trivial
      · obtain ⟨i, -, rfl⟩ := List.mem_map.mp hp
        exact gsvOf_counted hview i
    · rcases List.mem_pair.mp hp with rfl | rfl
      · exact ⟨h.clock, h.date⟩
      · exact ⟨rfl, rfl, rfl, rfl⟩
  have hfilter : (generated now info mask).filter (fun p => p.Readable) = generated now info mask :=
    List.filter_eq_self.mpr fun p hp => decide_eq_true (hreadable p hp)
  rw [rereadAll, hfilter, hall, List.map_append, List.map_append]
  have hgsv : (packetsOf now info .gpgsv).map Packet.reread =
      (List.range (nmeaGsvNpack info.satinfo.inview).toNatClampNeg).map fun i =>
        .gsv (gsvOf info i).reread := List.map_map
  rw [hgsv]
  rfl

/-! ## A full cycle -/

/-- The table lists every satellite of the summary, whatever it listed before. -/
theorem foldPacks {info : Info D} (hview : 0 ≤ info.satinfo.inview) (sum : Info D) :
    ∃ sat, foldInfo (some sum) ((List.range (nmeaGsvNpack info.satinfo.inview).toNatClampNeg).map
        fun i => (Packet.gsv (gsvOf info i).reread : Packet D)) =
        some { sum with
          satinfo := { sum.satinfo with inview := Int32.ofNat info.satinfo.listed, sat := sat }
          smask := sum.smask ||| PackType.gpgsv.code } ∧
      (∀ q < info.satinfo.listed, Lists info.satinfo sat q) ∧
      ∀ q (hq : q < nmeaMaxSat), sat[q].inUse = sum.satinfo.sat[q].inUse := by
  have hmany := packsFor_le hview
  have hone : 0 < info.satinfo.packs := Nat.lt_of_lt_of_le Nat.one_pos (Nat.le_max_left _ _)
  have hne : List.range (nmeaGsvNpack info.satinfo.inview).toNatClampNeg ≠ [] := by
    rw [Ne, List.range_eq_nil]
    omega
  obtain ⟨sat, hrun, hlists, hkeep⟩ := foldGsv hview _ hne sum
  refine ⟨sat, hrun, fun q hq => hlists q hq (.inr ⟨q / 4, ?_, ?_⟩), hkeep⟩
  · have hpack : q / 4 < info.satinfo.packs := by
      unfold SatInfo.packs packsFor
      omega
    exact List.mem_range.mpr (Nat.lt_of_lt_of_le hpack hmany)
  · refine (Nat.mod_eq_of_lt ?_).symm
    unfold SatInfo.packs packsFor
    omega

/-- What is printed with its side of the equator or of Greenwich gets its sign back. -/
theorem signBy_side (x : D) (c : Bool) {a b : Byte} (hne : b ≠ a) :
    signBy (if c then a else b) a x = if c then x else CDouble.neg x := by
  unfold signBy
  cases c with
  | true => rw [if_pos rfl, if_pos rfl, if_pos rfl]
  | false => rw [if_neg Bool.false_ne_true, if_neg hne, if_neg Bool.false_ne_true]

/-- Behind the GGA and GSA sentences of the same cycle, RMC confirms a fix or withdraws it. -/
theorem rmcInfo_printed (info : Info D) (now : Time) {sum : Info D} (hsig : sum.sig = info.sig)
    (hfix : sum.fix = info.fix) :
    nmeaRmcInfo (nmeaInfo2Gprmc now info).reread sum =
      { sum with
        utc := (nmeaInfo2Gprmc now info).reread.utc
        sig := if 0 < info.sig then info.sig else nmeaSigBad
        fix := if 0 < info.sig then (if info.fix = nmeaFixBad then nmeaFix2d else info.fix)
          else nmeaFixBad
        lat := signBy (nmeaInfo2Gprmc now info).reread.ns (ascii 'N')
          (nmeaInfo2Gprmc now info).reread.lat
        lon := signBy (nmeaInfo2Gprmc now info).reread.ew (ascii 'E')
          (nmeaInfo2Gprmc now info).reread.lon
        speed := CDouble.mul (nmeaInfo2Gprmc now info).reread.speed CDouble.tudKnots
        direction := (nmeaInfo2Gprmc now info).reread.direction
        smask := sum.smask ||| PackType.gprmc.code } := by
  have hstatus : (nmeaInfo2Gprmc now info).reread.status =
      if 0 < info.sig then ascii 'A' else ascii 'V' := rfl
  have hV : ascii 'V' ≠ ascii 'A' := by decide
  unfold nmeaRmcInfo
  rw [hstatus]
  by_cases hgood : 0 < info.sig
  · have hne : ¬ info.sig = nmeaSigBad := by
      intro hbad
      rw [hbad] at hgood
      exact absurd hgood (by decide)
    simp only [if_pos hgood, if_true, hsig, hfix, if_neg hne]
  · simp only [if_neg hgood, if_neg hV, if_true]

/-- After the five packets smask has the bit of every type. -/
theorem all_bits {t : PackType} (ht : t ≠ .gpnon) (mask : Int32) :
    (mask ||| PackType.gpgga.code ||| PackType.gpgsa.code ||| PackType.gpgsv.code |||
      PackType.gprmc.code ||| PackType.gpvtg.code) &&& t.code ≠ 0 := by
  have hown : (PackType.gpgga.code ||| (PackType.gpgsa.code ||| (PackType.gpgsv.code |||
      (PackType.gprmc.code ||| PackType.gpvtg.code)))) &&& t.code ≠ 0 := by
    cases t <;> first | exact absurd rfl ht | decide
  have hdistrib : ∀ x y z : Int32, (x ||| y) &&& z = (x &&& z) ||| (y &&& z) := fun _ _ _ =>
    Int32.toBitVec_inj.mp BitVec.and_or_distrib_right
  simp only [Int32.or_assoc]
  rw [hdistrib, Ne, Int32.or_eq_zero_iff]
  exact fun h => hown h.2

/-- **A full cycle carries the summary over**, and the flags are those that GSA sets in the table as
it was before. -/
theorem full_shows {info : Info D} {mask : Int32} (h : FullCycle info mask)
    (hview : 0 ≤ info.satinfo.inview) (now : Time) {sum : Info D} (hin : InTable (some sum)) :
    ∃ sum' sat, foldInfo (some sum) (rereadAll (generated now info mask)) = some sum' ∧
      Shows info sum' ∧
      gsaMarkAll (nmeaInfo2Gpgsa info).satPrn.toList sum.satinfo.inview (sum.satinfo.sat, 0) =
        some (sat, sum'.satinfo.inuse) ∧
      ∀ q (hq : q < nmeaMaxSat), sum'.satinfo.sat[q].inUse = sat[q].inUse := by
  let s1 : Info D := nmeaGgaInfo (nmeaInfo2Gpgga now info).reread sum
  have hin1 : InTable (some s1) := by
    obtain ⟨i, hi, hlow, hhigh⟩ := hin
    cases hi
    exact ⟨s1, rfl, hlow, hhigh⟩
  obtain ⟨sat, nuse, hmark, hgsa⟩ := gsaInfo_some (nmeaInfo2Gpgsa info).reread hin1
  let s2 : Info D := { s1 with
    fix := info.fix
    pdop := reread true 3 1 info.pdop
    hdop := reread true 3 1 info.hdop
    vdop := reread true 3 1 info.vdop
    satinfo := { s1.satinfo with sat := sat, inuse := nuse }
    smask := s1.smask ||| PackType.gpgsa.code }
  obtain ⟨table, hgsv, hlists, hkeep⟩ := foldPacks hview s2
  let s3 : Info D := { s2 with
    satinfo := { s2.satinfo with inview := Int32.ofNat info.satinfo.listed, sat := table }
    smask := s2.smask ||| PackType.gpgsv.code }
  have hfold : foldInfo (some sum) (rereadAll (generated now info mask)) =
      some (nmeaVtgInfo (nmeaInfo2Gpvtg info).reread
        (nmeaRmcInfo (nmeaInfo2Gprmc now info).reread s3)) := by
    rw [rereadAll_full h hview, foldInfo_append, foldInfo_append]
    have hfront : foldInfo (some sum) [.gga (nmeaInfo2Gpgga now info).reread,
        .gsa (nmeaInfo2Gpgsa info).reread] = some s2 := hgsa
    rw [hfront, hgsv]
    rfl
  have hS : ascii 'S' ≠ ascii 'N' := by decide
  have hW : ascii 'W' ≠ ascii 'E' := by decide
  have hrmc := @rmcInfo_printed D _ info now s3 rfl rfl
  rw [hrmc] at hfold
  refine ⟨_, sat, hfold, ?_, hmark, hkeep⟩
  exact
    { utc := rfl, sig := rfl, fix := rfl, pdop := rfl, hdop := rfl, vdop := rfl
      lat := signBy_side _ _ hS
      lon := signBy_side _ _ hW
      elv := rfl, speed := rfl, direction := rfl, declination := rfl, inview := rfl
      sats := hlists
      smask := fun t ht => all_bits ht _ }

/-! ## Whole runs -/

/-- No packet of a cycle takes the summary out of its table. -/
theorem cycle_packetFits {info : Info D} (hview : 0 ≤ info.satinfo.inview) (now : Time)
    (mask : Int32) : ∀ q ∈ rereadAll (generated now info mask), PacketFits q := by
  have hany : ∀ t, ∀ p ∈ packetsOf now info t, PacketFits p.reread := by
    intro t p hp
    cases t with
    | gpnon => cases hp
    | gpgga | gpgsa | gprmc | gpvtg =>
      rw [List.mem_singleton.mp hp]
      trivial
    | gpgsv =>
      obtain ⟨i, -, rfl⟩ := List.mem_map.mp hp
      have table : ∀ n ≤ 12, (0 : Int32) ≤ Int32.ofNat n ∧ Int32.ofNat n ≤ 12 ∧
          ∀ k < packsFor n, ¬ Int32.ofNat k + 1 < 1 ∧
            0 ≤ (Int32.ofNat k + 1 - 1) * 4 ∧ (Int32.ofNat k + 1 - 1) * 4 ≤ 8 := by decide
      obtain ⟨hcount, hle⟩ := gsvOf_count hview i
      obtain ⟨-, hindex⟩ := gsvOf_packs hview i
      have hpos : 0 < info.satinfo.packs := Nat.lt_of_lt_of_le Nat.one_pos (Nat.le_max_left _ _)
      obtain ⟨hlow, hhigh, hplace⟩ := table _ hle
      refine .inr ⟨?_, ?_, ?_⟩
      · obtain ⟨hone, hfirst⟩ := hplace _ (Nat.mod_lt i hpos)
        have hnext : (gsvOf info i).reread.packIndex =
            Int32.ofNat (i % info.satinfo.packs) + 1 := congrArg (· + 1) hindex
        rw [gsvFirst, gsvIndex, hnext, SatInfo.packs, if_neg hone]
        exact hfirst
      · show 0 ≤ (gsvOf info i).satCount
        rw [hcount]
        exact hlow
      · show (gsvOf info i).satCount ≤ 12
        rw [hcount]
        exact hhigh
  intro q hq
  obtain ⟨p, hp, rfl⟩ := List.mem_map.mp hq
  obtain ⟨t, -, ht⟩ := List.mem_flatMap.mp (List.mem_filter.mp hp).1
  split at ht
  · exact hany t p ht
  · cases ht

theorem cycles_inTable {cycles : List (Cycle D)}
    (hview : ∀ c ∈ cycles, 0 ≤ c.info.satinfo.inview) {sum : Option (Info D)}
    (hin : InTable sum) : InTable (foldInfo sum (rereadAll (cycles.flatMap Cycle.packets))) := by
  refine foldInfo_keeps ?_ hin
  intro q hq
  obtain ⟨p, hp, rfl⟩ := List.mem_map.mp hq
  obtain ⟨hmem, hreadable⟩ := List.mem_filter.mp hp
  obtain ⟨c, hc, hpc⟩ := List.mem_flatMap.mp hmem
  exact cycle_packetFits (hview c hc) c.now c.mask _
    (List.mem_map_of_mem (List.mem_filter.mpr ⟨hpc, hreadable⟩))

/-- **After any run that ends with a full cycle, the parser's summary shows that cycle's.** -/
theorem run_shows {env : Env} {st : ParserState D} (hm : env.MallocSucceeds)
    (hdrained : Drained st.parser) {cycles : List (Cycle D)} {c : Cycle D}
    (hfits : ∀ x ∈ cycles ++ [c], x.Fits st.parser.buffSize)
    (hview : ∀ x ∈ cycles ++ [c], 0 ≤ x.info.satinfo.inview) (hfull : FullCycle c.info c.mask)
    {sum : Option (Info D)} (hin : InTable sum) :
    ∃ n p sum' w, runCycles env st.parser sum st.world (cycles ++ [c]) =
        some (n, p, some sum', w) ∧ Shows c.info sum' ∧ Drained p := by
  obtain ⟨p, w, hrun, -, hdrained'⟩ := cycles_delivered hm hdrained hfits sum
  have hsplit : rereadAll ((cycles ++ [c]).flatMap Cycle.packets) =
      rereadAll (cycles.flatMap Cycle.packets) ++ rereadAll (generated c.now c.info c.mask) := by
    rw [List.flatMap_append, List.flatMap_singleton, rereadAll_append]
    rfl
  obtain ⟨before, hbefore, hlow, hhigh⟩ :=
    cycles_inTable (fun x hx => hview x (List.mem_append_left _ hx)) hin
  obtain ⟨sum', -, hfold, hshows, -, -⟩ := full_shows hfull
    (hview c (List.mem_append_right _ (List.mem_singleton.mpr rfl))) c.now
    (⟨before, rfl, hlow, hhigh⟩ : InTable (some before))
  have hsum : foldInfo sum (rereadAll ((cycles ++ [c]).flatMap Cycle.packets)) = some sum' := by
    rw [hsplit, foldInfo_append, hbefore, hfold]
  rw [hsum] at hrun
  exact ⟨_, p, sum', w, hrun, hshows, hdrained'⟩

theorem noon_full : FullCycle Info.noon 0x1f where
  mask t ht := by cases t <;> first | exact absurd rfl ht | decide
  clock := by decide
  date := by decide

theorem run_shows_noon :
    ∃ n p sum' w, runCycles (.zeroed fun _ => true) ParserState.started.parser (some .zeroed)
        ParserState.started.world ([Cycle.noon] ++ [Cycle.noon]) = some (n, p, some sum', w) ∧
      Shows Info.noon sum' ∧ Drained p := by
  have hview : ∀ c ∈ [Cycle.noon] ++ [Cycle.noon], 0 ≤ c.info.satinfo.inview := by decide
  exact run_shows (c := Cycle.noon) (fun _ => rfl) started_drained noon_fits hview noon_full
    zeroed_inTable

end RttNmea
