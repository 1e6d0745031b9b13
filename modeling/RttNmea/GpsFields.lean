import RttNmea.Sections
import RttNmea.Strtod
import Mathlib.Data.Rat.Floor
import Mathlib.Tactic.Linarith
import Mathlib.Tactic.NormNum
import Mathlib.Tactic.Positivity
import Mathlib.Tactic.Ring

/-!
# The fields gps_parse decodes

parse_gga and parse_rmc count commas and read each member from behind its own. The text is never
cut: a number ends because its conversion stops at the separator, and an empty field is a place
where no number starts.
-/

namespace RttNmea

open CText

/-- The first ',' of the message and its first '*'. -/
structure MessageAt (input : List Byte) (ptr ptrEnd : Nat) : Prop where
  first : strchr (text input) 0 gpsSeparator = some ptr
  ends : strchr (text input) 0 (ascii '*') = some ptrEnd
  before : ptr < ptrEnd
  close : ptrEnd - ptr ≤ maxNmeaPackLen

/-- The commas in front of the '*'. -/
def commas (input : List Byte) (ptrEnd : Nat) : Nat :=
  ((text input).take ptrEnd).count gpsSeparator

/-- The text between the `k`-th comma and the next one or the '*'. -/
def commaField (input : List Byte) (ptrEnd k : Nat) : List Byte :=
  (((text input).take ptrEnd).splitOn gpsSeparator).getD k []

/-- The fields behind the first comma and those after it. -/
def messageFields (input : List Byte) (ptrEnd : Nat) : List (List Byte) :=
  (((text input).take ptrEnd).splitOn gpsSeparator).tail

/-! ## Splitting -/

theorem splitOn_comma (s : List Byte) :
    (∀ f ∈ s.splitOn gpsSeparator, ∀ b ∈ f, b ∈ s ∧ b ≠ comma) ∧
      fieldsText (s.splitOn gpsSeparator) = comma :: s ∧
      (s.splitOn gpsSeparator).length = s.count gpsSeparator + 1 := by
  by_cases hmem : comma ∈ s
  · obtain ⟨pre, rest, rfl, hpre⟩ := List.eq_append_cons_of_mem hmem
    obtain ⟨hplain, htext, hlen⟩ := splitOn_comma rest
    have hsplit : (pre ++ comma :: rest).splitOn gpsSeparator =
        pre :: rest.splitOn gpsSeparator := List.splitOn_append_cons_self_of_not_mem hpre rest
    rw [hsplit]
    refine ⟨?_, ?_, ?_⟩
    · intro f hf b hb
      rcases List.mem_cons.mp hf with rfl | hf
      · exact ⟨List.mem_append_left _ hb, fun h => hpre (h ▸ hb)⟩
      · obtain ⟨hin, hne⟩ := hplain f hf b hb
        exact ⟨List.mem_append_right _ (List.mem_cons_of_mem _ hin), hne⟩
    · show comma :: (pre ++ fieldsText (rest.splitOn gpsSeparator)) = _
      rw [htext]
    · have hnone : pre.count gpsSeparator = 0 := List.count_eq_zero_of_not_mem hpre
      have hone : (comma :: rest).count gpsSeparator = rest.count gpsSeparator + 1 :=
        List.count_cons_self
      rw [List.length_cons, hlen, List.count_append, hnone, hone, Nat.zero_add]
  · have hsplit : s.splitOn gpsSeparator = [s] := List.splitOn_eq_singleton hmem
    have hnone : s.count gpsSeparator = 0 := List.count_eq_zero_of_not_mem hmem
    rw [hsplit, hnone]
    refine ⟨?_, ?_, rfl⟩
    · intro f hf b hb
      rw [List.mem_singleton] at hf
      subst hf
      exact ⟨hb, fun h => hmem (h ▸ hb)⟩
    · simp [fieldsText]
termination_by s.length

/-- What is in front of the place that strchr finds. -/
theorem strchr_first {s : List Byte} {c : Byte} {p : Nat} (h : strchr s 0 c = some p) :
    ∃ after, s = s.take p ++ c :: after ∧ c ∉ s.take p ∧ (s.take p).length = p := by
  have hmem : c ∈ s := by
    obtain ⟨-, -, hget⟩ := strchr_some h
    exact List.mem_of_getElem? hget
  obtain ⟨pre, after, rfl, hpre⟩ := List.eq_append_cons_of_mem hmem
  have hskip := @strchr_skip [] pre c hpre (c :: after)
  have hhere := hskip.trans (strchr_here pre after c)
  have hp : p = pre.length := Option.some.inj (h.symm.trans hhere)
  subst hp
  rw [List.take_left]
  exact ⟨after, rfl, hpre, rfl⟩

namespace MessageAt

variable {input : List Byte} {ptr ptrEnd : Nat}

/-- The message as fields behind a comma each, up to the '*'. -/
theorem split (h : MessageAt input ptr ptrEnd) :
    ∃ pre after, text input =
        pre ++ (fieldsText (messageFields input ptrEnd) ++ star :: after) ∧
      messageFields input ptrEnd ≠ [] ∧ (comma ∉ pre ∧ star ∉ pre) ∧
      (∀ f ∈ messageFields input ptrEnd, comma ∉ f ∧ star ∉ f) ∧
      (fieldsText (messageFields input ptrEnd)).length ≤ maxNmeaPackLen ∧
      (messageFields input ptrEnd).length = commas input ptrEnd := by
  obtain ⟨after, hend, hnostar, hlen⟩ := strchr_first h.ends
  obtain ⟨behind, hfirst, hnocomma, hptr⟩ := strchr_first h.first
  -- the first comma lies in front of the '*'
  obtain ⟨rest, hfront⟩ : ∃ rest, (text input).take ptrEnd = (text input).take ptr ++ comma :: rest := by
    have heq := hfirst.symm.trans hend
    rcases List.append_eq_append_iff.mp heq with ⟨more, hmore, hrest⟩ | ⟨more, hmore, -⟩
    · cases more with
      | nil =>
        rw [List.append_nil] at hmore
        have := h.before
        rw [hmore] at hlen
        omega
      | cons b more =>
        have hb : comma = b := (List.cons.inj hrest).1
        exact ⟨more, hb ▸ hmore⟩
    · have hle := congrArg List.length hmore
      rw [List.length_append, hlen, hptr] at hle
      have := h.before
      omega
  obtain ⟨hplain, htext, hcount⟩ := splitOn_comma rest
  have hfields : messageFields input ptrEnd = rest.splitOn gpsSeparator := by
    unfold messageFields
    rw [hfront]
    exact congrArg List.tail (List.splitOn_append_cons_self_of_not_mem hnocomma rest)
  have hrest : rest.length + 1 = ptrEnd - ptr := by
    have := congrArg List.length hfront
    rw [hlen, List.length_append, hptr, List.length_cons] at this
    omega
  rw [hfront] at hnostar
  refine ⟨(text input).take ptr, after, ?_, hfields ▸ List.splitOn_ne_nil _ _, ⟨hnocomma, ?_⟩,
    ?_, ?_, ?_⟩
  · rw [hfields, htext, ← List.append_assoc, ← hfront]
    exact hend
  · exact fun hs => hnostar (List.mem_append_left _ hs)
  · intro f hf
    rw [hfields] at hf
    constructor
    · exact fun hb => (hplain f hf comma hb).2 rfl
    · intro hb
      have hin := (hplain f hf star hb).1
      exact hnostar (List.mem_append_right _ (List.mem_cons_of_mem _ hin))
  · rw [hfields, htext, List.length_cons, hrest]
    exact h.close
  · have hnone : ((text input).take ptr).count gpsSeparator = 0 := List.count_eq_zero_of_not_mem hnocomma
    have hone : (comma :: rest).count gpsSeparator = rest.count gpsSeparator + 1 :=
      List.count_cons_self
    unfold commas
    rw [hfields, hcount, hfront, List.count_append, hnone, hone, Nat.zero_add]

/-- What data_conversion finds. -/
theorem conversion (h : MessageAt input ptr ptrEnd) (sectionMaxCount : UInt8) :
    ∃ output, dataConversion (some input) sectionMaxCount =
        (UInt8.ofNat output.length - 1, output) ∧
      List.Forall₂ (SectionOf (text input))
        ((messageFields input ptrEnd).take sectionMaxCount.toNat) output ∧
      output.length = min sectionMaxCount.toNat (commas input ptrEnd) ∧
      1 ≤ commas input ptrEnd := by
  obtain ⟨pre, after, htext, hne, hpre, hplain, hshort, hcount⟩ := h.split
  obtain ⟨output, hrun, hsections⟩ :=
    conversion_fields htext hne hpre hplain hshort sectionMaxCount
  refine ⟨output, hrun, hsections, ?_, ?_⟩
  · rw [← hsections.length_eq, List.length_take, hcount]
  · rw [← hcount]
    exact List.length_pos_iff.mpr hne

/-- A section that is there is behind its comma. -/
theorem deref_field (h : MessageAt input ptr ptrEnd) {size : UInt8} {k : Nat}
    (hk : k < size.toNat) (hcount : k < commas input ptrEnd) :
    ∃ p, deref size (text input) (dataConversion (some input) size).2 k =
        some ((text input).drop p) ∧
      SectionOf (text input) (commaField input ptrEnd (k + 1)) p := by
  obtain ⟨output, hrun, hsections, hlen, -⟩ := h.conversion size
  obtain ⟨-, -, -, -, -, -, -, hfields⟩ := h.split
  have hlt : k < output.length := by omega
  have hin : k < (messageFields input ptrEnd).length := by omega
  have htake : k < ((messageFields input ptrEnd).take size.toNat).length := by
    rw [List.length_take]
    omega
  have hsection := hsections.get htake hlt
  have hfield : ((messageFields input ptrEnd).take size.toNat).get ⟨k, htake⟩ =
      commaField input ptrEnd (k + 1) := by
    have hget : (((text input).take ptrEnd).splitOn gpsSeparator)[k + 1]? =
        some (messageFields input ptrEnd)[k] := by
      rw [← List.getElem?_tail]
      exact List.getElem?_eq_getElem hin
    unfold commaField
    rw [List.get_eq_getElem, List.getElem_take, List.getD_eq_getElem?_getD, hget]
    rfl
  rw [hfield] at hsection
  refine ⟨output[k], ?_, hsection⟩
  rw [hrun, deref, ptrSection, if_pos hk]
  dsimp only
  rw [List.getElem?_eq_getElem hlt]
  rfl

/-- data_conversion returns the number of commas less one, up to the number of sections. -/
theorem count (h : MessageAt input ptr ptrEnd) (size : UInt8) (hsize : 1 ≤ size.toNat) :
    (dataConversion (some input) size).1.toNat = min size.toNat (commas input ptrEnd) - 1 := by
  obtain ⟨output, hrun, -, hlen, hpos⟩ := h.conversion size
  have hmax := size.toNat_lt
  rw [hrun, toNat_pred (by omega) (by omega), hlen]

end MessageAt

/-! ## Members -/

/-- What a letter stands for: -1 if it is missing or any other. -/
def letterOf (zero one : Char) : List Byte → Int8
  | [] => -1
  | b :: _ => if b = ascii zero then 0 else if b = ascii one then 1 else -1

theorem letterCode_section {zero one : Char} (hzero : ascii zero ≠ comma ∧ ascii zero ≠ star)
    (hone : ascii one ≠ comma ∧ ascii one ≠ star) {s f : List Byte} {p : Nat}
    (h : SectionOf s f p) : letterCode zero one (s.drop p) = letterOf zero one f := by
  obtain ⟨sep, rest, hsep, hdrop⟩ := h
  rw [hdrop]
  unfold letterCode
  cases f with
  | cons b f => rfl
  | nil =>
    have h0 : sep ≠ ascii zero := by
      rintro rfl
      rcases hsep with h | h
      · exact hzero.1 h
      · exact hzero.2 h
    have h1 : sep ≠ ascii one := by
      rintro rfl
      rcases hsep with h | h
      · exact hone.1 h
      · exact hone.2 h
    simp [letterOf, h0, h1]

theorem atof_section {D : Type} [CDouble D] (laws : StrtodLaws (CDouble.zero : D) CDouble.strtod)
    {s f : List Byte} {p : Nat} (h : SectionOf s f p) : (atof (s.drop p) : D) = atof f := by
  obtain ⟨sep, rest, hsep, hdrop⟩ := h
  rw [hdrop]
  exact laws.stop hsep

/-- Any section reads as its field, not only one with a number in it. -/
theorem atoi_text {abi : Abi} {s f : List Byte} {p : Nat} (h : SectionOf s f p) :
    atoi abi (s.drop p) = atoi abi f := by
  obtain ⟨sep, rest, hsep, hdrop⟩ := h
  have hstops : Stops 10 sep := by
    rcases hsep with rfl | rfl
    · exact stops_comma
    · exact stops_star
  rw [hdrop, atoi, strtol_stop abi (by decide) hstops]
  rfl

section

variable {D : Type} [CArith D] {abi : Abi} {input : List Byte} {ptr ptrEnd : Nat}

/-- parse_gga: nine commas, and each member from its own field. -/
theorem parseGga_fields (laws : StrtodLaws (CDouble.zero : D) CDouble.strtod)
    (h : MessageAt input ptr ptrEnd) (pdat : NmeaGga D) :
    parseGga abi (some input) pdat = some
      (if 9 ≤ commas input ptrEnd then
        (true, { pdat with
          utcTime := atof (commaField input ptrEnd 1)
          latitude := coordinate (commaField input ptrEnd 2)
          northSouth := letterOf 'N' 'S' (commaField input ptrEnd 3)
          longitude := coordinate (commaField input ptrEnd 4)
          eastWest := letterOf 'E' 'W' (commaField input ptrEnd 5)
          satInView := toUint8 (atoi abi (commaField input ptrEnd 7))
          hdop := CArith.toFloat (atof (commaField input ptrEnd 8))
          altitude := CArith.toFloat (atof (commaField input ptrEnd 9)) })
      else (false, pdat)) := by
  have hcount := h.count ggaSectionMax (by decide)
  have hmax : ggaSectionMax.toNat = 14 := rfl
  have hneed : parseGgaMessageMaxLen.toNat = 8 := rfl
  have hiff : parseGgaMessageMaxLen > (dataConversion (some input) ggaSectionMax).1 ↔
      ¬ 9 ≤ commas input ptrEnd := by
    rw [gt_iff_lt, UInt8.lt_iff_toNat_lt, hcount, hmax, hneed]
    omega
  unfold parseGga
  dsimp only
  by_cases hm : 9 ≤ commas input ptrEnd
  · rw [if_neg (fun hlt => hiff.mp hlt hm), if_pos hm]
    have hread : ∀ k ≤ 8, ∃ p, deref ggaSectionMax (text input)
          (dataConversion (some input) ggaSectionMax).2 k = some ((text input).drop p) ∧
        SectionOf (text input) (commaField input ptrEnd (k + 1)) p :=
      fun k hk => h.deref_field (by omega) (by omega)
    obtain ⟨p0, h0, s0⟩ := hread 0 (by decide)
    obtain ⟨p1, h1, s1⟩ := hread 1 (by decide)
    obtain ⟨p2, h2, s2⟩ := hread 2 (by decide)
    obtain ⟨p3, h3, s3⟩ := hread 3 (by decide)
    obtain ⟨p4, h4, s4⟩ := hread 4 (by decide)
    obtain ⟨p6, h6, s6⟩ := hread 6 (by decide)
    obtain ⟨p7, h7, s7⟩ := hread 7 (by decide)
    obtain ⟨p8, h8, s8⟩ := hread 8 (by decide)
    simp only [h0, h1, h2, h3, h4, h6, h7, h8, Option.bind_eq_bind, Option.bind_some,
      Option.pure_def, coordinate, atof_section laws s0, atof_section laws s1,
      letterCode_section (by decide : ascii 'N' ≠ comma ∧ ascii 'N' ≠ star)
        (by decide : ascii 'S' ≠ comma ∧ ascii 'S' ≠ star) s2,
      atof_section laws s3,
      letterCode_section (by decide : ascii 'E' ≠ comma ∧ ascii 'E' ≠ star)
        (by decide : ascii 'W' ≠ comma ∧ ascii 'W' ≠ star) s4,
      atoi_text s6, atof_section laws s7, atof_section laws s8]
  · rw [if_pos (hiff.mpr hm), if_neg hm]

/-- parse_rmc: ten commas. -/
theorem parseRmc_fields (laws : StrtodLaws (CDouble.zero : D) CDouble.strtod)
    (h : MessageAt input ptr ptrEnd) (pdat : NmeaRmc D) :
    parseRmc (some input) pdat = some
      (if 10 ≤ commas input ptrEnd then
        (true,
          { utcTime := atof (commaField input ptrEnd 1)
            positionStatus := letterOf 'V' 'A' (commaField input ptrEnd 2)
            latitude := coordinate (commaField input ptrEnd 3)
            northSouth := letterOf 'N' 'S' (commaField input ptrEnd 4)
            longitude := coordinate (commaField input ptrEnd 5)
            eastWest := letterOf 'E' 'W' (commaField input ptrEnd 6)
            speed := atof (commaField input ptrEnd 7)
            azimuth := CArith.toFloat (atof (commaField input ptrEnd 8))
            utcDate := atof (commaField input ptrEnd 9) })
      else (false, { pdat with positionStatus := -1 })) := by
  have hcount := h.count rmcSectionMax (by decide)
  have hmax : rmcSectionMax.toNat = 12 := rfl
  have hneed : parseRmcMessageMaxLen.toNat = 9 := rfl
  have hiff : (dataConversion (some input) rmcSectionMax).1 < parseRmcMessageMaxLen ↔
      ¬ 10 ≤ commas input ptrEnd := by
    rw [UInt8.lt_iff_toNat_lt, hcount, hmax, hneed]
    omega
  unfold parseRmc
  dsimp only
  by_cases hm : 10 ≤ commas input ptrEnd
  · rw [if_neg (fun hlt => hiff.mp hlt hm), if_pos hm]
    have hread : ∀ k ≤ 8, ∃ p, deref rmcSectionMax (text input)
          (dataConversion (some input) rmcSectionMax).2 k = some ((text input).drop p) ∧
        SectionOf (text input) (commaField input ptrEnd (k + 1)) p :=
      fun k hk => h.deref_field (by omega) (by omega)
    obtain ⟨p0, h0, s0⟩ := hread 0 (by decide)
    obtain ⟨p1, h1, s1⟩ := hread 1 (by decide)
    obtain ⟨p2, h2, s2⟩ := hread 2 (by decide)
    obtain ⟨p3, h3, s3⟩ := hread 3 (by decide)
    obtain ⟨p4, h4, s4⟩ := hread 4 (by decide)
    obtain ⟨p5, h5, s5⟩ := hread 5 (by decide)
    obtain ⟨p6, h6, s6⟩ := hread 6 (by decide)
    obtain ⟨p7, h7, s7⟩ := hread 7 (by decide)
    obtain ⟨p8, h8, s8⟩ := hread 8 (by decide)
    simp only [h0, h1, h2, h3, h4, h5, h6, h7, h8, Option.bind_eq_bind, Option.bind_some,
      Option.pure_def, coordinate, atof_section laws s0,
      letterCode_section (by decide : ascii 'V' ≠ comma ∧ ascii 'V' ≠ star)
        (by decide : ascii 'A' ≠ comma ∧ ascii 'A' ≠ star) s1,
      atof_section laws s2,
      letterCode_section (by decide : ascii 'N' ≠ comma ∧ ascii 'N' ≠ star)
        (by decide : ascii 'S' ≠ comma ∧ ascii 'S' ≠ star) s3,
      atof_section laws s4,
      letterCode_section (by decide : ascii 'E' ≠ comma ∧ ascii 'E' ≠ star)
        (by decide : ascii 'W' ≠ comma ∧ ascii 'W' ≠ star) s5,
      atof_section laws s6, atof_section laws s7, atof_section laws s8]
  · rw [if_pos (hiff.mpr hm), if_neg hm]

end

/-! ## Exact rationals -/

/-- Exact rationals, with any `strtod`. -/
@[reducible]
def ratArith (strtod : List Byte → Rat) : CArith Rat :=
  { (inferInstance : CArith Rat) with strtod := strtod }

/-- dd + mm.mmmm / 60, for the number ddmm.mmmm. -/
def degrees (x : Rat) : Rat := ⌊x / 100⌋ + (x - 100 * ⌊x / 100⌋) / 60

def readNumber (strtod : List Byte → Rat) (f : List Byte) : Rat := if f = [] then 0 else strtod f

/-- The members of NMEA_GGA from the fields of the message. -/
structure GgaDecoded (abi : Abi) (strtod : List Byte → Rat) (field : Nat → List Byte)
    (before r : NmeaGga Rat) : Prop where
  utcTime : r.utcTime = readNumber strtod (field 1)
  latitude : 0 ≤ readNumber strtod (field 2) → readNumber strtod (field 2) ≤ 10 ^ 9 →
    r.latitude = degrees (readNumber strtod (field 2))
  northSouth : r.northSouth = letterOf 'N' 'S' (field 3)
  longitude : 0 ≤ readNumber strtod (field 4) → readNumber strtod (field 4) ≤ 10 ^ 9 →
    r.longitude = degrees (readNumber strtod (field 4))
  eastWest : r.eastWest = letterOf 'E' 'W' (field 5)
  satInView : r.satInView = if field 7 = [] then 0 else toUint8 (atoi abi (field 7))
  hdop : r.hdop = readNumber strtod (field 8)
  altitude : r.altitude = readNumber strtod (field 9)
  kept : r.positionStatus = before.positionStatus

/-- The members of NMEA_RMC. -/
structure RmcDecoded (strtod : List Byte → Rat) (field : Nat → List Byte) (r : NmeaRmc Rat) :
    Prop where
  utcTime : r.utcTime = readNumber strtod (field 1)
  positionStatus : r.positionStatus = letterOf 'V' 'A' (field 2)
  latitude : 0 ≤ readNumber strtod (field 3) → readNumber strtod (field 3) ≤ 10 ^ 9 →
    r.latitude = degrees (readNumber strtod (field 3))
  northSouth : r.northSouth = letterOf 'N' 'S' (field 4)
  longitude : 0 ≤ readNumber strtod (field 5) → readNumber strtod (field 5) ≤ 10 ^ 9 →
    r.longitude = degrees (readNumber strtod (field 5))
  eastWest : r.eastWest = letterOf 'E' 'W' (field 6)
  speed : r.speed = readNumber strtod (field 7)
  azimuth : r.azimuth = readNumber strtod (field 8)
  utcDate : r.utcDate = readNumber strtod (field 9)

/-- The conversion to `int32_t` takes the whole degrees. -/
theorem toInt32_degrees {x : Rat} (hlow : 0 ≤ x) (hhigh : x ≤ 10 ^ 9) :
    (CArith.toInt32 (x / 100)).toInt = ⌊x / 100⌋ := by
  have hnonneg : 0 ≤ x / 100 := by positivity
  have hnum : 0 ≤ (x / 100).num := Rat.num_nonneg.2 hnonneg
  have hfloor : 0 ≤ ⌊x / 100⌋ := Int.floor_nonneg.2 hnonneg
  have hsmall : ⌊x / 100⌋ ≤ 10 ^ 7 := by
    have hle : x / 100 ≤ ((10 ^ 7 : Int) : Rat) := by
      rw [div_le_iff₀ (by norm_num)]
      norm_num at hhigh ⊢
      linarith
    exact_mod_cast (Int.floor_le (x / 100)).trans hle
  have htrunc : (x / 100).num.tdiv (x / 100).den = ⌊x / 100⌋ := by
    rw [Int.tdiv_eq_ediv_of_nonneg hnum, Rat.floor_def']
  show (Int32.ofInt ((x / 100).num.tdiv (x / 100).den)).toInt = _
  rw [htrunc]
  apply Int32.toInt_ofInt_of_le
  · omega
  · omega

theorem coordinate_degrees {strtod : List Byte → Rat} {f : List Byte} (hlow : 0 ≤ strtod f)
    (hhigh : strtod f ≤ 10 ^ 9) : @coordinate Rat (ratArith strtod) f = degrees (strtod f) := by
  have hint := toInt32_degrees hlow hhigh
  show ((CArith.toInt32 (strtod f / 100)).toInt : Rat) +
    (strtod f / 100 - ((CArith.toInt32 (strtod f / 100)).toInt : Rat)) * 100 / 60 = _
  rw [hint]
  unfold degrees
  ring

theorem readNumber_eq {strtod : List Byte → Rat} (laws : StrtodLaws 0 strtod) (f : List Byte) :
    strtod f = readNumber strtod f := by
  unfold readNumber
  split
  · rename_i hnil
    rw [hnil, laws.nil]
  · rfl

theorem coordinate_read {strtod : List Byte → Rat} (laws : StrtodLaws 0 strtod) {f : List Byte}
    (hlow : 0 ≤ readNumber strtod f) (hhigh : readNumber strtod f ≤ 10 ^ 9) :
    @coordinate Rat (ratArith strtod) f = degrees (readNumber strtod f) := by
  rw [← readNumber_eq laws] at hlow hhigh ⊢
  exact coordinate_degrees hlow hhigh

theorem toUint8_null {abi : Abi} (f : List Byte) :
    toUint8 (atoi abi f) = if f = [] then 0 else toUint8 (atoi abi f) := by
  split
  · rename_i hnil
    have hzero := @strtol_digits abi [] (fun b hb => absurd hb List.not_mem_nil) (by decide)
    rw [hnil, atoi, hzero]
    rfl
  · rfl

/-- **gps_parse decodes by field position**: parse_gga takes a message with nine commas in front
of its '*', parse_rmc one with ten, and every member they set is that of its own field. -/
theorem gpsFields_decoded (abi : Abi) {strtod : List Byte → Rat} (laws : StrtodLaws 0 strtod)
    {input : List Byte} {ptr ptrEnd : Nat} (h : MessageAt input ptr ptrEnd)
    (gga : NmeaGga Rat) (rmc : NmeaRmc Rat) :
    (∃ r, @parseGga Rat (ratArith strtod) abi (some input) gga =
        some (decide (9 ≤ commas input ptrEnd), r) ∧
      (9 ≤ commas input ptrEnd → GgaDecoded abi strtod (commaField input ptrEnd) gga r)) ∧
      ∃ r, @parseRmc Rat (ratArith strtod) (some input) rmc =
          some (decide (10 ≤ commas input ptrEnd), r) ∧
        (10 ≤ commas input ptrEnd → RmcDecoded strtod (commaField input ptrEnd) r) := by
  have hgga := @parseGga_fields Rat (ratArith strtod) abi input ptr ptrEnd ⟨laws.nil, laws.stop⟩ h gga
  have hrmc := @parseRmc_fields Rat (ratArith strtod) input ptr ptrEnd ⟨laws.nil, laws.stop⟩ h rmc
  constructor
  · by_cases hm : 9 ≤ commas input ptrEnd
    · rw [if_pos hm] at hgga
      rw [decide_eq_true hm]
      refine ⟨_, hgga, fun _ => ?_⟩
      exact
        { utcTime := readNumber_eq laws _
          latitude := fun hlow hhigh => coordinate_read laws hlow hhigh
          northSouth := rfl
          longitude := fun hlow hhigh => coordinate_read laws hlow hhigh
          eastWest := rfl
          satInView := toUint8_null _
          hdop := readNumber_eq laws _
          altitude := readNumber_eq laws _
          kept := rfl }
    · rw [if_neg hm] at hgga
      rw [decide_eq_false hm]
      exact ⟨_, hgga, fun h => absurd h hm⟩
  · by_cases hm : 10 ≤ commas input ptrEnd
    · rw [if_pos hm] at hrmc
      rw [decide_eq_true hm]
      refine ⟨_, hrmc, fun _ => ?_⟩
      exact
        { utcTime := readNumber_eq laws _
          positionStatus := rfl
          latitude := fun hlow hhigh => coordinate_read laws hlow hhigh
          northSouth := rfl
          longitude := fun hlow hhigh => coordinate_read laws hlow hhigh
          eastWest := rfl
          speed := readNumber_eq laws _
          azimuth := readNumber_eq laws _
          utcDate := readNumber_eq laws _ }
    · rw [if_neg hm] at hrmc
      rw [decide_eq_false hm]
      exact ⟨_, hrmc, fun h => absurd h hm⟩

/-- The repository's own GGA message. -/
theorem gpsFields_decoded_test :
    let input := cstr ",014423.00,2930.34347,N,10634.36892,E,2,12,1.00,245.4,M,-26.5,M,,0000*61\r\n"
    let abi : Abi := ⟨false, 32, le_rfl⟩
    (∃ r, @parseGga Rat (ratArith ratStrtod) abi (some input) .zeroed =
        some (decide (9 ≤ commas input 69), r) ∧
      (9 ≤ commas input 69 → GgaDecoded abi ratStrtod (commaField input 69) .zeroed r)) ∧
      ∃ r, @parseRmc Rat (ratArith ratStrtod) (some input) .zeroed =
          some (decide (10 ≤ commas input 69), r) ∧
        (10 ≤ commas input 69 → RmcDecoded ratStrtod (commaField input 69) r) := by
  intro input abi
  have hat : MessageAt input 0 69 :=
    { first := by decide +kernel, ends := by decide +kernel, before := by decide, close := by decide }
  exact gpsFields_decoded abi ratLaws hat .zeroed .zeroed

end RttNmea
