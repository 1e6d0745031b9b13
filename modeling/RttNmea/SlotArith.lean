import RttNmea.SatTable
import RttNmea.Lib.CInt

/-!
# The slot arithmetic of GSV

nmea_parse_gsv and nmea_gsv_info compute with the numbers of the sentence before they look
at their size. Here is each `int` operation of the two, and the numbers for which none of
them overflows; those keep the slots inside the table as well.
-/

namespace RttNmea

open CText CInt

variable {D : Type} [CDouble D]

/-! ## The operations -/

/-- nsat = (pack_index - 1) * 4, and the line after it. -/
structure NsatFits (packIndex satCount : Int32) : Prop where
  before : SubFits packIndex 1
  times : MulFits (packIndex - 1) 4
  plus : AddFits ((packIndex - 1) * 4) 4
  rest : (packIndex - 1) * 4 + 4 > satCount → SubFits satCount ((packIndex - 1) * 4)

/-- The `int` operations of nmea_parse_gsv. -/
structure ParseFits (pack : Gsv) : Prop where
  nsat : NsatFits pack.packIndex pack.satCount
  times : MulFits (gsvNsat pack.packIndex pack.satCount) 4
  plus : AddFits (gsvNsat pack.packIndex pack.satCount * 4) 3

/-- The slot nmea_gsv_info copies satellite `isat` of the packet to. -/
def gsvSlot (pack : Gsv) (isat : Nat) : Int32 := (gsvIndex pack - 1) * 4 + Int32.ofNat isat

/-- The `int` operations of one turn of the copy loop. -/
structure TurnFits (pack : Gsv) (isat : Nat) : Prop where
  before : SubFits (gsvIndex pack) 1
  times : MulFits (gsvIndex pack - 1) 4
  slot : AddFits ((gsvIndex pack - 1) * 4) (Int32.ofNat isat)
  next : AddFits (Int32.ofNat isat) 1

/-- The `int` operations of nmea_gsv_info. The product in the guard is computed unless its
first half already holds. -/
structure InfoFits (pack : Gsv) : Prop where
  guard : ¬ pack.packIndex > pack.packCount → MulFits pack.packIndex 4
  nsat : ¬ gsvIgnored pack → NsatFits (gsvIndex pack) pack.satCount
  turn : ¬ gsvIgnored pack → ∀ isat < (gsvCopied pack).toNatClampNeg, TurnFits pack isat

/-- Nothing overflows, and every slot written is one of the table. -/
structure GsvSafe (pack : Gsv) : Prop where
  parse : ParseFits pack
  info : InfoFits pack
  slots : ¬ gsvIgnored pack → ∀ isat < (gsvCopied pack).toNatClampNeg,
    0 ≤ gsvSlot pack isat ∧ gsvSlot pack isat ≤ 11

/-- pack_index is small enough to be multiplied, and sat_count is not too far below. -/
def SmallNumbers (pack : Gsv) : Prop :=
  -2 ^ 29 < pack.packIndex.toInt ∧ pack.packIndex.toInt < 2 ^ 29 ∧
    4 * (pack.packIndex.toInt - 1) - 2 ^ 29 ≤ pack.satCount.toInt

instance (pack : Gsv) : Decidable (SmallNumbers pack) := inferInstanceAs (Decidable (_ ∧ _))

/-- So are the second and the third number that nmea_scanf reads from the text. -/
def SmallText (D : Type) [CDouble D] (abi : Abi) (buff : List Byte) : Prop :=
  let args := (nmeaScanf abi buff gsvFormat : Nat × List (Option (Stored D))).2
  let packIndex := (intAt args 1 0).toInt
  let satCount := (intAt args 2 0).toInt
  packIndex < 2 ^ 29 ∧ -2 ^ 29 < packIndex ∧ 4 * (packIndex - 1) - 2 ^ 29 ≤ satCount

/-! ## nsat -/

theorem toInt_one : (1 : Int32).toInt = 1 := by decide
theorem toInt_three : (3 : Int32).toInt = 3 := by decide
theorem toInt_four : (4 : Int32).toInt = 4 := by decide

variable {packIndex satCount : Int32}

/-- The value of nsat before and after the comparison. -/
theorem NsatFits.toInt (h : NsatFits packIndex satCount) :
    ((packIndex - 1) * 4).toInt = 4 * (packIndex.toInt - 1) ∧
      (gsvNsat packIndex satCount).toInt =
        min 4 (satCount.toInt - 4 * (packIndex.toInt - 1)) := by
  have hbefore := h.before.toInt
  have htimes := h.times.toInt
  have hplus := h.plus.toInt
  rw [toInt_one] at hbefore
  rw [toInt_four, hbefore] at htimes
  rw [toInt_four, htimes] at hplus
  constructor
  · omega
  · unfold gsvNsat
    dsimp only
    split
    · rename_i hlt
      have hrest := (h.rest hlt).toInt
      have hlt := Int32.lt_iff_toInt_lt.mp hlt
      rw [hrest, htimes]
      omega
    · rename_i hge
      have hge := Int32.lt_iff_toInt_lt.not.mp hge
      rw [toInt_four]
      omega

theorem nsatFits_iff : NsatFits packIndex satCount ↔
    -2 ^ 29 < packIndex.toInt ∧ packIndex.toInt < 2 ^ 29 ∧
      4 * (packIndex.toInt - 1) - 2 ^ 31 ≤ satCount.toInt := by
  have hcount := isInt_toInt satCount
  unfold IsInt at hcount
  constructor
  · intro h
    obtain ⟨hvalue, -⟩ := h.toInt
    have hplus := h.plus
    have htimes := isInt_toInt ((packIndex - 1) * 4)
    unfold AddFits IsInt at hplus
    rw [hvalue, toInt_four] at hplus
    rw [hvalue] at htimes
    unfold IsInt at htimes
    refine ⟨by omega, by omega, ?_⟩
    by_cases hlt : (packIndex - 1) * 4 + 4 > satCount
    · have hrest := h.rest hlt
      unfold SubFits IsInt at hrest
      rw [hvalue] at hrest
      omega
    · have hge := Int32.lt_iff_toInt_lt.not.mp hlt
      rw [h.plus.toInt, hvalue, toInt_four] at hge
      omega
  · rintro ⟨hlow, hhigh, hsat⟩
    have hbefore : SubFits packIndex 1 := by
      unfold SubFits IsInt
      rw [toInt_one]
      omega
    have htimes : MulFits (packIndex - 1) 4 := by
      unfold MulFits IsInt
      rw [hbefore.toInt, toInt_one, toInt_four]
      omega
    have hvalue : ((packIndex - 1) * 4).toInt = 4 * (packIndex.toInt - 1) := by
      rw [htimes.toInt, hbefore.toInt, toInt_one, toInt_four]
      omega
    have hplus : AddFits ((packIndex - 1) * 4) 4 := by
      unfold AddFits IsInt
      rw [hvalue, toInt_four]
      omega
    refine ⟨hbefore, htimes, hplus, ?_⟩
    intro hlt
    have hlt := Int32.lt_iff_toInt_lt.mp hlt
    rw [hplus.toInt, hvalue, toInt_four] at hlt
    unfold SubFits IsInt
    rw [hvalue]
    omega

/-! ## The two functions -/

theorem parseFits_iff {pack : Gsv} : ParseFits pack ↔ SmallNumbers pack := by
  constructor
  · intro h
    obtain ⟨hlow, hhigh, -⟩ := nsatFits_iff.mp h.nsat
    obtain ⟨-, hnsat⟩ := h.nsat.toInt
    have htimes := h.times
    unfold MulFits IsInt at htimes
    rw [hnsat, toInt_four] at htimes
    refine ⟨hlow, hhigh, ?_⟩
    omega
  · rintro ⟨hlow, hhigh, hsat⟩
    have hfits : NsatFits pack.packIndex pack.satCount :=
      nsatFits_iff.mpr ⟨hlow, hhigh, by omega⟩
    obtain ⟨-, hnsat⟩ := hfits.toInt
    have htimes : MulFits (gsvNsat pack.packIndex pack.satCount) 4 := by
      unfold MulFits IsInt
      rw [hnsat, toInt_four]
      omega
    refine ⟨hfits, htimes, ?_⟩
    unfold AddFits IsInt
    rw [htimes.toInt, hnsat, toInt_four, toInt_three]
    omega

/-- A packet that passes the guard is one of the three of a full table. -/
theorem SmallNumbers.index {pack : Gsv} (h : SmallNumbers pack) (hread : ¬ gsvIgnored pack) :
    1 ≤ (gsvIndex pack).toInt ∧ (gsvIndex pack).toInt ≤ 3 ∧
      4 * ((gsvIndex pack).toInt - 1) - 2 ^ 31 ≤ pack.satCount.toInt ∧
      MulFits pack.packIndex 4 := by
  obtain ⟨hlow, hhigh, hsat⟩ := h
  have hmul : MulFits pack.packIndex 4 := by
    unfold MulFits IsInt
    rw [toInt_four]
    omega
  have hguard : ¬ pack.packIndex * 4 > 12 := fun hg => hread (.inr hg)
  have hguard := Int32.lt_iff_toInt_lt.not.mp hguard
  have h12 : (12 : Int32).toInt = 12 := by decide
  rw [hmul.toInt, toInt_four, h12] at hguard
  have hcount := isInt_toInt pack.satCount
  unfold IsInt at hcount
  unfold gsvIndex
  split
  · rw [toInt_one]
    exact ⟨by omega, by omega, by omega, hmul⟩
  · rename_i hone
    have hone := Int32.lt_iff_toInt_lt.not.mp hone
    rw [toInt_one] at hone
    exact ⟨by omega, by omega, by omega, hmul⟩

/-- A turn of the copy loop. -/
theorem turnFits {pack : Gsv} {isat : Nat} (hone : 1 ≤ (gsvIndex pack).toInt)
    (hthree : (gsvIndex pack).toInt ≤ 3) (hisat : isat < 4) :
    TurnFits pack isat ∧ 0 ≤ gsvSlot pack isat ∧ gsvSlot pack isat ≤ 11 := by
  have hnat : (Int32.ofNat isat).toInt = isat := Int32.toInt_ofNat_of_lt (by omega)
  have hbefore : SubFits (gsvIndex pack) 1 := by
    unfold SubFits IsInt
    rw [toInt_one]
    omega
  have htimes : MulFits (gsvIndex pack - 1) 4 := by
    unfold MulFits IsInt
    rw [hbefore.toInt, toInt_one, toInt_four]
    omega
  have hslot : AddFits ((gsvIndex pack - 1) * 4) (Int32.ofNat isat) := by
    unfold AddFits IsInt
    rw [htimes.toInt, hbefore.toInt, toInt_one, toInt_four, hnat]
    omega
  have hnext : AddFits (Int32.ofNat isat) 1 := by
    unfold AddFits IsInt
    rw [toInt_one, hnat]
    omega
  have hvalue : (gsvSlot pack isat).toInt = 4 * ((gsvIndex pack).toInt - 1) + isat := by
    unfold gsvSlot
    rw [hslot.toInt, htimes.toInt, hbefore.toInt, toInt_one, toInt_four, hnat]
    omega
  have h0 : (0 : Int32).toInt = 0 := by decide
  have h11 : (11 : Int32).toInt = 11 := by decide
  refine ⟨⟨hbefore, htimes, hslot, hnext⟩, ?_, ?_⟩
  · rw [Int32.le_iff_toInt_le, hvalue, h0]
    omega
  · rw [Int32.le_iff_toInt_le, hvalue, h11]
    omega

theorem SmallNumbers.nsat {pack : Gsv} (h : SmallNumbers pack) (hread : ¬ gsvIgnored pack) :
    NsatFits (gsvIndex pack) pack.satCount := by
  obtain ⟨hone, hthree, hsat, -⟩ := h.index hread
  exact nsatFits_iff.mpr ⟨by omega, by omega, hsat⟩

/-- At most four satellites are copied. -/
theorem SmallNumbers.copied {pack : Gsv} (h : SmallNumbers pack) (hread : ¬ gsvIgnored pack)
    {isat : Nat} (hisat : isat < (gsvCopied pack).toNatClampNeg) : isat < 4 := by
  obtain ⟨-, hcopied⟩ := (h.nsat hread).toInt
  have hisat : isat < (gsvCopied pack).toInt.toNat := hisat
  unfold gsvCopied at hisat
  omega

theorem SmallNumbers.safe {pack : Gsv} (h : SmallNumbers pack) : GsvSafe pack := by
  have hturn : ¬ gsvIgnored pack → ∀ isat < (gsvCopied pack).toNatClampNeg,
      TurnFits pack isat ∧ 0 ≤ gsvSlot pack isat ∧ gsvSlot pack isat ≤ 11 := by
    intro hread isat hisat
    obtain ⟨hone, hthree, -, -⟩ := h.index hread
    exact turnFits hone hthree (h.copied hread hisat)
  refine ⟨parseFits_iff.mpr h, ⟨?_, h.nsat, ?_⟩, ?_⟩
  · intro _
    obtain ⟨hlow, hhigh, -⟩ := h
    unfold MulFits IsInt
    rw [toInt_four]
    omega
  · exact fun hread isat hisat => (hturn hread isat hisat).1
  · exact fun hread isat hisat => (hturn hread isat hisat).2

/-! ## The update -/

/-- Copying one satellite is defined just when its slot and its place in the packet are. -/
theorem gsvCopy_defined (pack : Gsv) (sat : Vector Satellite nmeaMaxSat) (isat : Nat) :
    (∃ sat', gsvCopy pack sat isat = some sat') ↔
      0 ≤ gsvSlot pack isat ∧ (gsvSlot pack isat).toNatClampNeg < nmeaMaxSat ∧
        isat < nmeaSatInPack := by
  constructor
  · rintro ⟨sat', hcopy⟩
    by_contra hout
    have hnone : gsvCopy pack sat isat = none := dif_neg hout
    rw [hnone] at hcopy
    cases hcopy
  · intro hin
    exact ⟨_, dif_pos hin⟩

omit [CDouble D] in
/-- With small numbers nmea_gsv_info stays inside the table, whatever the summary. -/
theorem SmallNumbers.defined {pack : Gsv} (h : SmallNumbers pack) (info : Info D) :
    ∃ info', nmeaGsvInfo pack info = some info' := by
  unfold nmeaGsvInfo
  by_cases hign : gsvIgnored pack
  · exact ⟨info, if_pos hign⟩
  · have hrun : ∃ sat, (List.range (gsvCopied pack).toNatClampNeg).foldlM (gsvCopy pack)
        info.satinfo.sat = some sat := by
      apply foldlM_some
      intro sat isat hi
      have hi := List.mem_range.mp hi
      obtain ⟨hlow, hhigh⟩ := h.safe.slots hign isat hi
      have hhigh := Int32.le_iff_toInt_le.mp hhigh
      have h11 : (11 : Int32).toInt = 11 := by decide
      apply (gsvCopy_defined pack sat isat).mpr
      refine ⟨hlow, ?_, h.copied hign hi⟩
      unfold nmeaMaxSat Int32.toNatClampNeg
      omega
    obtain ⟨sat, hsat⟩ := hrun
    rw [if_neg hign, hsat]
    exact ⟨_, rfl⟩

theorem smallText_iff (abi : Abi) (buff : List Byte) :
    SmallText D abi buff ↔ SmallNumbers (nmeaParseGsv D abi buff).2 := and_left_comm

/-- **What a GSV sentence makes the code compute is safe exactly when its numbers are
small.** -/
theorem gsvSafe_iff (abi : Abi) (buff : List Byte) :
    GsvSafe (nmeaParseGsv D abi buff).2 ↔ SmallText D abi buff := by
  rw [smallText_iff]
  constructor
  · intro h
    exact parseFits_iff.mp h.parse
  · intro h
    exact h.safe

/-- Message 2^29 + 1 of as many: accepted, past the guard, and copied 2^31 slots before the
table. -/
theorem slot_outside :
    let r := nmeaParseGsv Decimal ⟨false, 32, le_rfl⟩ (cstr
      "$GPGSV,536870913,536870913,4,1,2,3,4,5,6,7,8,9,10,11,12,13,14,15,16*7A\r\n")
    r.1 = 1 ∧ gsvSlot r.2 0 = -2147483648 ∧ ¬ GsvSafe r.2 := by
  intro r
  have hr : r.1 = 1 ∧ gsvSlot r.2 0 = -2147483648 ∧ ¬ gsvIgnored r.2 ∧
      (gsvCopied r.2).toNatClampNeg = 4 := by decide +kernel
  obtain ⟨hcode, hslot, hread, hcopied⟩ := hr
  refine ⟨hcode, hslot, ?_⟩
  intro h
  obtain ⟨hlow, -⟩ := h.slots hread 0 (by rw [hcopied]; decide)
  rw [hslot] at hlow
  exact absurd hlow (by decide)

end RttNmea
