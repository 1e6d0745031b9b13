import RttNmea.Sentence

/-!
# What counts as a checksum

nmea_find_tail compares the xor of the bytes, each promoted from plain char, with what strtol
makes of the two bytes behind the '*'. With a signed char a xor from 128 on matches no
digits, and strtol also finds a number where there are no two digits. Otherwise the check
is exact.
-/

namespace RttNmea

open CText

/-- The number two hex digits write. -/
def hexPair (h1 h2 : Byte) : Nat := 16 * (digitVal h1).getD 0 + (digitVal h2).getD 0

def BothHex (h1 h2 : Byte) : Prop := isDigitOf 16 h1 = true ∧ isDigitOf 16 h2 = true

instance (h1 h2 : Byte) : Decidable (BothHex h1 h2) := inferInstanceAs (Decidable (_ ∧ _))

/-- The buffer starts with a sentence whose '*' is at `p`, and its checksum is right: two hex
digits that write the xor of the bytes between the first one and the '*'. -/
structure ChecksumAt (b : List Byte) (p : Nat) : Prop where
  star_at : b[p]? = some star
  first : star ∉ b.take p
  no_dollar : dollar ∉ (b.take p).tail
  fits : p + 5 ≤ b.length
  cr_at : b[p + 3]? = some cr
  lf_at : b[p + 4]? = some lf
  digits : ∃ h1 h2, b[p + 1]? = some h1 ∧ b[p + 2]? = some h2 ∧ BothHex h1 h2 ∧
    hexPair h1 h2 = (xorAll (b.take p).tail).toNat

/-- A crc is reported for a right checksum only, and is then its value. -/
def ChecksumExact (abi : Abi) (b : List Byte) : Prop :=
  (0 ≤ (nmeaFindTail abi b).2 ↔ ∃ p, ChecksumAt b p) ∧
    ∀ p, ChecksumAt b p →
      nmeaFindTail abi b = (p + 5, Int32.ofNat (xorAll (b.take p).tail).toNat)

/-- The two kinds of bytes the check gets wrong: digits that write a xor from 128 on when char
is signed, and bytes that are not both digits but read as the xor. -/
def Misread (abi : Abi) (xor h1 h2 : Byte) : Prop :=
  if BothHex h1 h2 then abi.charSigned = true ∧ 128 ≤ xor.toNat ∧ hexPair h1 h2 = xor.toNat
  else looseHex h1 h2 = xor.toNat

/-- The buffer starts with a sentence, up to its CR LF, of such bytes. -/
def MisreadFront (abi : Abi) (b : List Byte) : Prop :=
  ∃ pre h1 h2 ys, Quiet pre ∧ b = pre ++ star :: h1 :: h2 :: cr :: lf :: ys ∧
    Misread abi (xorAll pre.tail) h1 h2

variable {abi : Abi}

/-! ## The numbers compared -/

theorem sentenceCrc_tail (abi : Abi) (pre : List Byte) :
    sentenceCrc abi pre = charToInt abi (xorAll pre.tail) := by
  cases pre with
  | nil => exact charToInt_zero.symm
  | cons b body => exact sentenceCrc_eq b body

theorem hexPair_lt {h1 h2 : Byte} (h : BothHex h1 h2) : hexPair h1 h2 < 256 := by
  have h1 := digitVal_lt h.1
  have h2 := digitVal_lt h.2
  unfold hexPair
  omega

/-- The number nmea_find_tail reads behind the '*'. -/
theorem toInt_atoi (abi : Abi) (h1 h2 : Byte) :
    (nmeaAtoi abi [h1, h2] 16).toInt =
      if BothHex h1 h2 then (hexPair h1 h2 : Int) else looseHex h1 h2 := by
  by_cases hex : BothHex h1 h2
  · have hlt := hexPair_lt hex
    rw [if_pos hex, atoi_hex hex.1 hex.2]
    exact Int32.toInt_ofNat_of_lt (by unfold hexPair at hlt; omega)
  · obtain ⟨hlow, hhigh⟩ := looseHex_lt h1 h2
    have hshort : [h1, h2].length < nmeaConvStrBuf := by simp [nmeaConvStrBuf]
    rw [if_neg hex, nmeaAtoi, if_pos hshort, strtol_loose abi hex]
    exact Int32.toInt_ofInt_of_le (by omega) (by omega)

/-! ## Sentences up to CR LF -/

theorem ChecksumAt.framed {b : List Byte} {p : Nat} (h : ChecksumAt b p) :
    ∃ h1 h2 ys, Quiet (b.take p) ∧ (b.take p).length = p ∧
      b = b.take p ++ star :: h1 :: h2 :: cr :: lf :: ys := by
  have hfits := h.fits
  obtain ⟨h1, h2, hget1, hget2, -⟩ := h.digits
  refine ⟨h1, h2, b.drop (p + 5), ⟨h.first, h.no_dollar⟩, by simp; omega, ?_⟩
  have next : ∀ {k : Nat} {c : Byte}, b[k]? = some c → b.drop k = c :: b.drop (k + 1) := by
    intro k c hk
    obtain ⟨hlt, hc⟩ := List.getElem?_eq_some_iff.mp hk
    rw [List.drop_eq_getElem_cons hlt, hc]
  rw [← next h.lf_at, ← next h.cr_at, ← next hget2, ← next hget1, ← next h.star_at,
    List.take_append_drop]

/-- The '*' is the one in front of the digits. -/
theorem checksumAt_iff {pre : List Byte} (hq : Quiet pre) {h1 h2 : Byte} {ys : List Byte}
    {p : Nat} :
    ChecksumAt (pre ++ star :: h1 :: h2 :: cr :: lf :: ys) p ↔
      p = pre.length ∧ BothHex h1 h2 ∧ hexPair h1 h2 = (xorAll pre.tail).toNat := by
  have htake : (pre ++ star :: h1 :: h2 :: cr :: lf :: ys).take pre.length = pre := List.take_left
  have hget : ∀ k, (pre ++ star :: h1 :: h2 :: cr :: lf :: ys)[pre.length + k]? =
      (star :: h1 :: h2 :: cr :: lf :: ys)[k]? := by
    intro k
    rw [List.getElem?_append_right (Nat.le_add_right _ _), Nat.add_sub_cancel_left]
  constructor
  · intro h
    have hp : p = pre.length := by
      obtain ⟨g1, g2, zs, hq', hlen, hsplit⟩ := h.framed
      rcases Nat.lt_trichotomy p pre.length with hlt | heq | hgt
      · have hstar := h.star_at
        rw [List.getElem?_append_left hlt] at hstar
        exact absurd (List.mem_of_getElem? hstar) hq.1
      · exact heq
      · have hmem : star ∈ (pre ++ star :: h1 :: h2 :: cr :: lf :: ys).take p := by
          apply List.mem_of_getElem? (i := pre.length)
          rw [List.getElem?_take_of_lt hgt]
          exact hget 0
        exact absurd hmem h.first
    subst hp
    obtain ⟨g1, g2, hget1, hget2, hex, hvalue⟩ := h.digits
    rw [hget 1] at hget1
    rw [hget 2] at hget2
    rw [htake] at hvalue
    cases hget1
    cases hget2
    exact ⟨rfl, hex, hvalue⟩
  · rintro ⟨rfl, hex, hvalue⟩
    constructor
    · exact hget 0
    · rw [htake]
      exact hq.1
    · rw [htake]
      exact hq.2
    · simp
    · exact hget 3
    · exact hget 4
    · refine ⟨h1, h2, hget 1, hget 2, hex, ?_⟩
      rw [htake]
      exact hvalue

/-- Without a sentence up to CR LF in front there is no crc. -/
theorem crc_of_shape {b : List Byte} (h : 0 ≤ (nmeaFindTail abi b).2) :
    ∃ pre h1 h2 ys, Quiet pre ∧ b = pre ++ star :: h1 :: h2 :: cr :: lf :: ys := by
  have hneg : ¬ (0 : Int32) ≤ -1 := by decide
  rcases front_cases b with hq | ⟨pre, rest, hq, hne, rfl⟩ | ⟨pre, rest, hq, rfl⟩
  · rw [findTail_open hq] at h
    exact absurd h hneg
  · rw [findTail_dollar hq hne] at h
    exact absurd h hneg
  · by_cases htail : TailAt rest
    · obtain ⟨h1, h2, ys, rfl⟩ := htail
      exact ⟨pre, h1, h2, ys, hq, rfl⟩
    · rw [findTail_star hq, findTailStar_wait htail] at h
      exact absurd h hneg

/-- The number read behind the '*' is the xor, and no sign extension hides it. -/
def Matches (abi : Abi) (xor h1 h2 : Byte) : Prop :=
  (if BothHex h1 h2 then (hexPair h1 h2 : Int) else looseHex h1 h2) = xor.toNat ∧
    ¬ (abi.charSigned = true ∧ 128 ≤ xor.toNat)

instance (xor h1 h2 : Byte) : Decidable (Matches abi xor h1 h2) :=
  inferInstanceAs (Decidable (_ ∧ _))

/-- The answer for a sentence up to CR LF. -/
theorem findTail_framed (abi : Abi) {pre : List Byte} (hq : Quiet pre) (h1 h2 : Byte)
    (ys : List Byte) :
    let xor := xorAll pre.tail
    let r := nmeaFindTail abi (pre ++ star :: h1 :: h2 :: cr :: lf :: ys)
    if Matches abi xor h1 h2 then
      r = (pre.length + 5, Int32.ofNat xor.toNat) ∧ 0 ≤ r.2
    else r.2 < 0 := by
  intro xor r
  have hr : r = if nmeaAtoi abi [h1, h2] 16 ≠ charToInt abi xor then (pre.length + 5, -1)
      else if nmeaAtoi abi [h1, h2] 16 < 0 then (0, nmeaAtoi abi [h1, h2] 16)
      else (pre.length + 5, nmeaAtoi abi [h1, h2] 16) := by
    rw [← sentenceCrc_tail, ← findTailStar_tail h1 h2 ys, ← findTail_star hq]
  have hatoi : (nmeaAtoi abi [h1, h2] 16).toInt =
      if BothHex h1 h2 then (hexPair h1 h2 : Int) else looseHex h1 h2 := toInt_atoi abi h1 h2
  have hcrc := toInt_charToInt abi xor
  have hxor : xor.toNat < 256 := UInt8.toNat_lt xor
  have h0 : (0 : Int32).toInt = 0 := rfl
  split
  · rename_i hmatch
    obtain ⟨hread, hsigned⟩ := hmatch
    rw [if_neg hsigned] at hcrc
    have hsame : nmeaAtoi abi [h1, h2] 16 = charToInt abi xor := by
      rw [← Int32.toInt_inj, hatoi, hread, hcrc]
    have hvalue : nmeaAtoi abi [h1, h2] 16 = Int32.ofNat xor.toNat := by
      rw [← Int32.toInt_inj, hatoi, hread, Int32.toInt_ofNat_of_lt (by omega)]
    have hnonneg : ¬ nmeaAtoi abi [h1, h2] 16 < 0 := hvalue ▸ ofNat_nonneg hxor
    rw [if_neg (not_not.mpr hsame), if_neg hnonneg] at hr
    rw [hr]
    exact ⟨by rw [hvalue], Int32.not_lt.mp hnonneg⟩
  · rename_i hmiss
    by_cases hsame : nmeaAtoi abi [h1, h2] 16 = charToInt abi xor
    · have hneg : nmeaAtoi abi [h1, h2] 16 < 0 := by
        rw [Int32.lt_iff_toInt_lt, h0, hsame, hcrc]
        split
        · omega
        · rename_i hsigned
          rw [if_neg hsigned, ← hsame, hatoi] at hcrc
          exact absurd ⟨hcrc, hsigned⟩ hmiss
      rw [if_neg (not_not.mpr hsame), if_pos hneg] at hr
      rw [hr]
      exact hneg
    · rw [if_pos hsame] at hr
      have hneg : (-1 : Int32) < 0 := by decide
      rw [hr]
      exact hneg

/-- On a sentence up to CR LF the check is exact if the comparison agrees with the
checksum. -/
theorem checksumExact_framed (abi : Abi) {pre : List Byte} (hq : Quiet pre) (h1 h2 : Byte)
    (ys : List Byte) :
    ChecksumExact abi (pre ++ star :: h1 :: h2 :: cr :: lf :: ys) ↔
      (Matches abi (xorAll pre.tail) h1 h2 ↔
        BothHex h1 h2 ∧ hexPair h1 h2 = (xorAll pre.tail).toNat) := by
  have hanswer := findTail_framed abi hq h1 h2 ys
  have hspec := @checksumAt_iff pre hq h1 h2 ys
  have htake : (pre ++ star :: h1 :: h2 :: cr :: lf :: ys).take pre.length = pre :=
    List.take_left
  have hsome : (∃ p, ChecksumAt (pre ++ star :: h1 :: h2 :: cr :: lf :: ys) p) ↔
      BothHex h1 h2 ∧ hexPair h1 h2 = (xorAll pre.tail).toNat := by
    simp only [hspec, exists_eq_left]
  unfold ChecksumExact
  rw [hsome]
  dsimp only at hanswer
  split at hanswer
  · rename_i hmatch
    constructor
    · rintro ⟨hiff, -⟩
      exact iff_of_true hmatch (hiff.mp hanswer.2)
    · intro hiff
      refine ⟨iff_of_true hanswer.2 (hiff.mp hmatch), ?_⟩
      intro p hp
      obtain ⟨rfl, -⟩ := hspec.mp hp
      rw [htake]
      exact hanswer.1
  · rename_i hmiss
    have hneg := Int32.not_le.mpr hanswer
    constructor
    · rintro ⟨hiff, -⟩
      exact iff_of_false hmiss fun h => hneg (hiff.mpr h)
    · intro hiff
      have hwrong : ¬ (BothHex h1 h2 ∧ hexPair h1 h2 = (xorAll pre.tail).toNat) :=
        fun h => hmiss (hiff.mpr h)
      exact ⟨iff_of_false hneg hwrong, fun p hp => absurd (hspec.mp hp).2 hwrong⟩

/-- Where the comparison and the checksum disagree. -/
theorem matches_iff_spec (abi : Abi) (xor h1 h2 : Byte) :
    (Matches abi xor h1 h2 ↔ BothHex h1 h2 ∧ hexPair h1 h2 = xor.toNat) ↔
      ¬ Misread abi xor h1 h2 := by
  unfold Matches Misread
  by_cases hex : BothHex h1 h2
  · rw [if_pos hex, if_pos hex]
    constructor
    · rintro hiff ⟨hsigned, hhigh, hvalue⟩
      exact (hiff.mpr ⟨hex, hvalue⟩).2 ⟨hsigned, hhigh⟩
    · intro hmis
      constructor
      · rintro ⟨hvalue, -⟩
        exact ⟨hex, by omega⟩
      · rintro ⟨-, hvalue⟩
        exact ⟨by omega, fun h => hmis ⟨h.1, h.2, hvalue⟩⟩
  · rw [if_neg hex, if_neg hex]
    obtain ⟨-, hsmall⟩ := looseHex_lt h1 h2
    constructor
    · intro hiff hvalue
      have hlow : ¬ (abi.charSigned = true ∧ 128 ≤ xor.toNat) := by
        rintro ⟨-, hhigh⟩
        omega
      exact hex (hiff.mp ⟨hvalue, hlow⟩).1
    · intro hmis
      exact iff_of_false (fun h => hmis h.1) (fun h => hex h.1)

/-- **The check is exact on every buffer that does not start with a misread sentence**, and on
no other. -/
theorem checksumExact_iff (abi : Abi) (b : List Byte) :
    ChecksumExact abi b ↔ ¬ MisreadFront abi b := by
  by_cases hshape : ∃ pre h1 h2 ys, Quiet pre ∧ b = pre ++ star :: h1 :: h2 :: cr :: lf :: ys
  · obtain ⟨pre, h1, h2, ys, hq, rfl⟩ := hshape
    have hfront : MisreadFront abi (pre ++ star :: h1 :: h2 :: cr :: lf :: ys) ↔
        Misread abi (xorAll pre.tail) h1 h2 := by
      constructor
      · rintro ⟨pre', g1, g2, zs, hq', hb, hmis⟩
        obtain ⟨rfl, heq⟩ := split_at_first hq.1 hq'.1 hb
        cases heq
        exact hmis
      · exact fun hmis => ⟨pre, h1, h2, ys, hq, rfl, hmis⟩
    rw [hfront, checksumExact_framed abi hq h1 h2 ys]
    exact matches_iff_spec abi _ h1 h2
  · have hnone : ¬ ∃ p, ChecksumAt b p := by
      rintro ⟨p, h⟩
      obtain ⟨h1, h2, ys, hq, -, hb⟩ := h.framed
      exact hshape ⟨_, h1, h2, ys, hq, hb⟩
    have hfront : ¬ MisreadFront abi b := by
      rintro ⟨pre, h1, h2, ys, hq, hb, -⟩
      exact hshape ⟨pre, h1, h2, ys, hq, hb⟩
    refine iff_of_true ⟨?_, ?_⟩ hfront
    · exact iff_of_false (fun h => hshape (crc_of_shape h)) hnone
    · exact fun p h => absurd ⟨p, h⟩ hnone

/-- The sentence "$pu*5G", whose bytes have the xor 5, is accepted; and with a signed char one
of a single byte 128 and the digits 80 is refused. -/
theorem checksum_misread :
    ¬ ChecksumExact ⟨false, 32, le_rfl⟩ (cstr "$pu*5G\r\n") ∧
      ¬ ChecksumExact ⟨true, 32, le_rfl⟩ (dollar :: 128 :: cstr "*80\r\n") := by
  constructor
  · rintro ⟨hiff, -⟩
    have hcrc : nmeaFindTail ⟨false, 32, le_rfl⟩ (cstr "$pu*5G\r\n") = (8, 5) := by decide
    obtain ⟨p, h⟩ := hiff.mp (by rw [hcrc]; decide)
    have hq : Quiet (cstr "$pu") := ⟨by decide, by decide⟩
    have hshape := @checksumAt_iff (cstr "$pu") hq (ascii '5') (ascii 'G') [] p
    exact absurd (hshape.mp h).2.1 (by decide)
  · rintro ⟨hiff, -⟩
    have hcrc : nmeaFindTail ⟨true, 32, le_rfl⟩ (dollar :: 128 :: cstr "*80\r\n") = (7, -1) := by
      decide
    have hq : Quiet [dollar, 128] := ⟨by decide, by decide⟩
    have hshape := @checksumAt_iff [dollar, 128] hq (ascii '8') (ascii '0') [] 2
    have hneg := hiff.mpr ⟨2, hshape.mpr ⟨rfl, by decide, by decide⟩⟩
    rw [hcrc] at hneg
    exact absurd hneg (by decide)

end RttNmea
