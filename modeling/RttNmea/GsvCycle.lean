import RttNmea.Forms
import RttNmea.Resync

/-!
# A cycle of GSV sentences

The sentences of a list of up to 12 satellites, four in each, with or without a field behind
the last satellite. Each is accepted and fills its own slots of the table, so once all of
them have come, in any order, the table is the list.
-/

namespace RttNmea

open CText Framing

variable {D : Type} [CDouble D] {env : Env} {abi : Abi}

/-! ## The sentences -/

/-- A decimal number of at most nine digits, or a null field. -/
structure NumberText (f : List Byte) : Prop where
  digits : ∀ b ∈ f, isDigit b = true
  short : f.length ≤ 9

/-- The number, 0 for a null field. -/
def numberOf (f : List Byte) : Int32 := Int32.ofNat (leadingNat 10 f)

/-- A field behind the satellites. It has to fit the buffer of nmea_atoi together with the
signal in front of it. -/
structure ExtraText (f : List Byte) : Prop where
  no_comma : comma ∉ f
  seven_bit : ∀ b ∈ f, b < 128
  short : f.length ≤ 240

/-- Satellites that fit the table. -/
structure Constellation where
  sats : List SatFields
  few : sats.length ≤ nmeaMaxSat
  numbers : ∀ s ∈ sats, ∀ f ∈ s.fields, NumberText f

/-- How many sentences the satellites take: one if there are none. -/
def messagesFor (sats : List SatFields) : Nat := max 1 ((sats.length + 3) / 4)

/-- The satellites of the sentence at a position, counted from 1. -/
def partOf (sats : List SatFields) (i : Nat) : List SatFields := (sats.drop (4 * (i - 1))).take 4

/-- The place of a sentence in the cycle, and the fields that say so. -/
structure GsvHead (sats : List SatFields) where
  position : Nat
  position_ge : 1 ≤ position
  position_le : position ≤ messagesFor sats
  count : List Byte
  index : List Byte
  inview : List Byte
  numbers : ∀ f ∈ [count, index, inview], NumberText f
  count_eq : leadingNat 10 count = messagesFor sats
  index_eq : leadingNat 10 index = position
  inview_eq : leadingNat 10 inview = sats.length

/-- All fields of the sentence. -/
def GsvHead.gsv {sats : List SatFields} (h : GsvHead sats) : GsvFields where
  count := h.count
  index := h.index
  inview := h.inview
  sats := partOf sats h.position

/-- One sentence of the cycle. -/
structure GsvMessage (c : Constellation) extends GsvHead c.sats where
  extra : Option (List Byte)
  extra_text : ∀ e ∈ extra, ExtraText e
  frame : Frame
  valid : frame.Valid
  body : frame.body = cstr "GPGSV," ++ joined (toGsvHead.gsv.fields ++ extra.toList)

/-- The satellite with the numbers of the fields. -/
def SatFields.listed (s : SatFields) : Satellite :=
  { id := numberOf s.id, elv := numberOf s.elv, azimuth := numberOf s.azimuth
    sig := numberOf s.sig }

/-- The slot carries these satellite data, whatever its in_use flag. -/
def Carries (s x : Satellite) : Prop :=
  x.id = s.id ∧ x.elv = s.elv ∧ x.azimuth = s.azimuth ∧ x.sig = s.sig

/-- The packet of a sentence of the cycle. -/
structure GsvMessage.Carried {c : Constellation} (m : GsvMessage c) (pack : Gsv) : Prop where
  count : pack.packCount = Int32.ofNat (messagesFor c.sats)
  index : pack.packIndex = Int32.ofNat m.position
  inview : pack.satCount = Int32.ofNat c.sats.length
  sats : ∀ j (hj : j < nmeaSatInPack), ∀ s ∈ (partOf c.sats m.position)[j]?,
    Carries s.listed pack.satData[j]

/-- The table is the list. -/
structure Assembled (c : Constellation) (s : SatInfo) : Prop where
  inview : s.inview = Int32.ofNat c.sats.length
  sats : ∀ q (hq : q < nmeaMaxSat), ∀ x ∈ c.sats[q]?, Carries x.listed s.sat[q]

/-! ## Numbers -/

theorem NumberText.value_lt {f : List Byte} (h : NumberText f) : leadingNat 10 f < 2 ^ 31 := by
  have hlt := @leadingNat_lt 10 (by decide) f
  have hpow : 10 ^ f.length ≤ 10 ^ 9 := Nat.pow_le_pow_right (by decide) h.short
  omega

theorem NumberText.toInt {f : List Byte} (h : NumberText f) :
    (numberOf f).toInt = leadingNat 10 f :=
  Int32.toInt_ofNat_of_lt h.value_lt

theorem NumberText.intField {f : List Byte} (h : NumberText f) : intField abi f = numberOf f := by
  unfold RttNmea.intField
  by_cases hf : f = []
  · subst hf
    rfl
  · have hshort : f.length < nmeaConvStrBuf := by
      have := h.short
      unfold nmeaConvStrBuf
      omega
    rw [if_neg hf, atoi_digits hshort h.digits h.value_lt]
    rfl

theorem digit_plain {b : Byte} (h : isDigit b = true) : b < 128 ∧ b ≠ comma ∧ b ≠ star := by
  have table : ∀ k < 256, isDigit (UInt8.ofNat k) = true →
      UInt8.ofNat k < 128 ∧ UInt8.ofNat k ≠ comma ∧ UInt8.ofNat k ≠ star := by decide +kernel
  have := table b.toNat b.toNat_lt
  rw [UInt8.ofNat_toNat] at this
  exact this h

theorem NumberText.fieldText {f : List Byte} (h : NumberText f) : FieldText .int f :=
  { no_comma := fun hm => (digit_plain (h.digits _ hm)).2.1 rfl
    no_star := fun hm => (digit_plain (h.digits _ hm)).2.2 rfl
    single := nofun }

/-! ## What nmea_scanf makes of a sentence with one more field -/

/-- A comma ends a number. -/
theorem intField_comma {f e : List Byte} (hf : NumberText f)
    (hlen : (f ++ comma :: e).length < nmeaConvStrBuf) :
    intField abi (f ++ comma :: e) = numberOf f := by
  have hne : f ++ comma :: e ≠ [] := by simp
  rw [intField, if_neg hne, nmeaAtoi, if_pos hlen, strtol_stop abi (by decide) stops_comma,
    strtol_digits abi hf.digits hf.value_lt]
  exact Int32.ofInt_eq_ofNat

/-- The text behind the last of 18 fields is taken whole, up to the '*'. -/
theorem scan_twenty {init : List (List Byte)} {last extra : List Byte} (hinit : init.length = 18)
    (hfields : ∀ f ∈ init ++ [last], FieldText .int f) (hextra : star ∉ extra) (h1 h2 : Byte) :
    (nmeaScanf abi (sentenceOf (cstr "$GPGSV,") (init ++ [last, extra]) h1 h2) gsvFormat :
        Nat × List (Option (Stored D))) =
      (19, List.zipWith (stores abi) (List.replicate 19 .int) (init ++ [last ++ comma :: extra])) := by
  have hforall := int_fields fun f hf => hfields f (List.mem_append_left _ hf)
  rw [hinit] at hforall
  have hlast := hfields last (List.mem_append_right _ List.mem_cons_self)
  have hstar : star ∉ last ++ comma :: extra := by
    have hcomma : star ≠ comma := by decide
    simp [hlast.no_star, hextra, hcomma]
  have hjoined : joined (init ++ [last, extra]) = commaText init ++ (last ++ comma :: extra) :=
    joined_append init (List.cons_ne_nil _ _)
  have hkinds : List.replicate 19 Conv.int = List.replicate 18 .int ++ [.int] := rfl
  have hsingle : Conv.int = .chr → (last ++ comma :: extra).length ≤ 1 := nofun
  rw [scanf_gsv, gsvRow, rowOf, sentenceOf, hjoined, List.append_assoc, scan_lits,
    scan_commas (FieldText.commaFields hforall),
    scan_field (c := star) _ rfl hstar (by decide) hsingle, scan_lit, hkinds,
    List.zipWith_append hforall.length_eq]
  rfl

/-- **The numbers of a sentence of up to four satellites are all read**, whatever stands behind
them, and the count lets it through. -/
theorem scan_message {f : GsvFields} (h : f.WellFormed abi) (hnum : ∀ x ∈ f.fields, NumberText x)
    {extra : Option (List Byte)}
    (hextra : ∀ e ∈ extra, ExtraText e ∧ star ∉ e) {h1 h2 : Byte} (hex1 : h1 ≠ comma)
    (hex2 : h2 ≠ comma) :
    ∃ (n : Nat) (args : List (Option (Stored D))),
      nmeaScanf abi (sentenceOf (cstr "$GPGSV,") (f.fields ++ extra.toList) h1 h2) gsvFormat =
        (n, args) ∧
      3 + 4 * f.sats.length ≤ n ∧ n ≤ 19 ∧
      ∀ i < 3 + 4 * f.sats.length, intAt args i 0 = numberOf (f.fields[i]?.getD []) := by
  have hlen := f.length_fields
  have hfour : f.sats.length ≤ 4 := by
    have := h.consistent.2
    omega
  have hread : ∀ i : Nat, intField abi (f.fields[i]?.getD []) = numberOf (f.fields[i]?.getD []) := by
    intro i
    cases hi : f.fields[i]? with
    | none => rfl
    | some x => exact (hnum x (List.mem_of_getElem? hi)).intField
  have hmem : f.last ∈ f.fields := by
    rw [f.fields_split]
    exact List.mem_append_right _ List.mem_cons_self
  cases extra with
  | none =>
    have hlast : f.last.length + 5 < nmeaConvStrBuf := by
      have := (hnum _ hmem).short
      unfold nmeaConvStrBuf
      omega
    obtain ⟨args, hscan, hargs⟩ :=
      @GsvFields.scan_fits D _ abi f h (.inr (.inl hlast)) h1 h2 hex1 hex2
    refine ⟨_, args, ?_, le_rfl, by omega, fun i _ => (hargs i).trans (hread i)⟩
    rw [Option.toList_none, List.append_nil]
    exact hscan
  | some e =>
    obtain ⟨htext, hstar⟩ := hextra e rfl
    have hcut : ∀ i < 3 + 4 * f.sats.length, ∀ xs : List (List Byte),
        (f.fields ++ xs)[i]? = f.fields[i]? := fun i hi xs =>
      List.getElem?_append_left (by omega)
    by_cases hfull : f.sats.length = 4
    · -- the field in front of the extra one takes it along
      have hinit : f.init.length = 18 := by
        rw [f.length_init]
        omega
      have hscan := @scan_twenty D _ abi f.init f.last e hinit (f.fields_split ▸ h.fields) hstar h1 h2
      have hsplit : f.fields ++ (some e).toList = f.init ++ [f.last, e] := by
        rw [f.fields_split, List.append_assoc]
        rfl
      refine ⟨19, _, by rw [hsplit, hscan], by omega, le_rfl, ?_⟩
      intro i hi
      rw [intAt_fields (by simp [hinit])]
      by_cases hlow : i < 18
      · rw [← hread, f.fields_split, List.getElem?_append_left (by omega),
          List.getElem?_append_left (by omega)]
      · have hshort : (f.last ++ comma :: e).length < nmeaConvStrBuf := by
          have := (hnum _ hmem).short
          have := htext.short
          rw [List.length_append, List.length_cons]
          unfold nmeaConvStrBuf
          omega
        obtain rfl : i = f.init.length := by omega
        rw [f.fields_split, List.getElem?_concat_length, List.getElem?_concat_length]
        exact intField_comma (hnum _ hmem) hshort
    · have he : FieldText .int e := { no_comma := htext.no_comma, no_star := hstar, single := nofun }
      have hall : ∀ x ∈ f.fields ++ [e], FieldText .int x := by
        intro x hx
        rcases List.mem_append.mp hx with hx | hx
        · exact h.fields x hx
        · exact List.mem_singleton.mp hx ▸ he
      obtain ⟨args, hscan, hargs⟩ :=
        @scan_gsv D _ abi f.fields e (by omega) hall h1 h2 hex1 hex2
      refine ⟨_, args, hscan, by omega, by omega, fun i hi => ?_⟩
      rw [hargs, hcut i hi]
      exact hread i

/-! ## Acceptance -/

omit [CDouble D] in
/-- The members of a satellite are read from its four fields. -/
theorem sat_read {f : GsvFields} {args : List (Option (Stored D))}
    (hargs : ∀ i < 3 + 4 * f.sats.length, intAt args i 0 = numberOf (f.fields[i]?.getD []))
    {j : Nat} {s : SatFields} (hs : f.sats[j]? = some s) :
    Carries s.listed
      { id := intAt args (3 + 4 * j) 0, elv := intAt args (4 + 4 * j) 0
        azimuth := intAt args (5 + 4 * j) 0, sig := intAt args (6 + 4 * j) 0 } := by
  have hj : j < f.sats.length := (List.getElem?_eq_some_iff.mp hs).1
  have hfield : ∀ r < 4, intAt args (3 + r + 4 * j) 0 = numberOf (s.fields[r]?.getD []) := by
    intro r hr
    have hget : f.fields[3 + r + 4 * j]? = (f.sats.flatMap SatFields.fields)[4 * j + r]? := by
      rw [show 3 + r + 4 * j = 4 * j + r + 1 + 1 + 1 by omega]
      rfl
    rw [hargs _ (by omega), hget, sats_field _ _ hr, hs]
    rfl
  exact ⟨hfield 0 (by decide), hfield 1 (by decide), hfield 2 (by decide), hfield 3 (by decide)⟩

theorem mem_joined {fs : List (List Byte)} {b : Byte} (h : b ∈ joined fs) :
    b = comma ∨ ∃ f ∈ fs, b ∈ f := by
  induction fs with
  | nil => cases h
  | cons f fs ih =>
    cases fs with
    | nil => exact .inr ⟨f, List.mem_cons_self, h⟩
    | cons g gs =>
      rcases List.mem_append.mp h with h | h
      · exact .inr ⟨f, List.mem_cons_self, h⟩
      · rcases List.mem_cons.mp h with h | h
        · exact .inl h
        · obtain h | ⟨x, hx, hb⟩ := ih h
          · exact .inl h
          · exact .inr ⟨x, List.mem_cons_of_mem _ hx, hb⟩

namespace GsvHead

variable {sats : List SatFields}

theorem numberTexts (h : GsvHead sats) (hsats : ∀ s ∈ sats, ∀ f ∈ s.fields, NumberText f) :
    ∀ x ∈ h.gsv.fields, NumberText x := by
  intro x hx
  have hfields : h.gsv.fields =
      [h.count, h.index, h.inview] ++ (partOf sats h.position).flatMap SatFields.fields := rfl
  rw [hfields] at hx
  rcases List.mem_append.mp hx with hx | hx
  · exact h.numbers x hx
  · obtain ⟨s, hs, hx⟩ := List.mem_flatMap.mp hx
    exact hsats s (List.mem_of_mem_drop (List.mem_of_mem_take hs)) x hx

/-- The sentence carries four satellites, or what is left of them. -/
theorem length_part (h : GsvHead sats) :
    ((partOf sats h.position).length : Int) = min 4 ((sats.length : Int) - 4 * (h.position - 1)) := by
  have hge := h.position_ge
  have hle := h.position_le
  unfold messagesFor at hle
  unfold partOf
  rw [List.length_take, List.length_drop]
  omega

end GsvHead

namespace GsvMessage

variable {c : Constellation}

theorem position_le_three (m : GsvMessage c) : m.position ≤ 3 := by
  have hfew := c.few
  have hle := m.position_le
  unfold nmeaMaxSat at hfew
  unfold messagesFor at hle
  omega

theorem wellFormed (abi : Abi) (m : GsvMessage c) : m.gsv.WellFormed abi := by
  have hindex : NumberText m.index := m.numbers _ (by simp)
  have hinview : NumberText m.inview := m.numbers _ (by simp)
  refine ⟨fun x hx => (m.numberTexts c.numbers x hx).fieldText, ?_⟩
  unfold GsvFields.Consistent
  show 1 ≤ (intField abi m.index).toInt ∧ ((partOf c.sats m.position).length : Int) =
    min 4 ((intField abi m.inview).toInt - 4 * ((intField abi m.index).toInt - 1))
  rw [hindex.intField, hinview.intField, hindex.toInt, hinview.toInt, m.index_eq, m.inview_eq,
    m.length_part]
  exact ⟨by exact_mod_cast m.position_ge, rfl⟩

theorem extra_star (m : GsvMessage c) : ∀ e ∈ m.extra, ExtraText e ∧ star ∉ e := by
  intro e he
  refine ⟨m.extra_text e he, fun hstar => m.frame.no_star ?_⟩
  have hextra : m.extra = some e := he
  have hjoined := joined_snoc m.gsv.fields e
  rw [m.body, hextra]
  apply List.mem_append_right
  show star ∈ joined (m.gsv.fields ++ [e])
  rw [hjoined]
  exact List.mem_append_right _ hstar

theorem bytes_eq (m : GsvMessage c) :
    m.frame.bytes = sentenceOf (cstr "$GPGSV,") (m.gsv.fields ++ m.extra.toList) m.frame.h1
      m.frame.h2 := by
  have hhead : cstr "$GPGSV," = dollar :: cstr "GPGSV," := rfl
  unfold Frame.bytes sentenceOf
  rw [m.body, hhead, List.cons_append, List.cons_append, List.append_assoc]

/-- **Each sentence of the cycle is accepted**, and its packet carries its satellites. -/
theorem parse (D : Type) [CDouble D] (abi : Abi) (m : GsvMessage c) :
    ∃ pack, nmeaParseGsv D abi m.frame.bytes = (1, pack) ∧ m.Carried pack := by
  have hw := m.wellFormed abi
  obtain ⟨n, args, hscan, hge, hle, hargs⟩ := @scan_message D _ abi m.gsv hw (m.numberTexts c.numbers)
    m.extra m.extra_star m.frame.h1 m.frame.h2 (hex_no_comma m.frame.hex1)
    (hex_no_comma m.frame.hex2)
  rw [← m.bytes_eq] at hscan
  have hcount : intAt args 0 0 = numberOf m.count := hargs 0 (by omega)
  have hindex : intAt args 1 0 = numberOf m.index := hargs 1 (by omega)
  have hinview : intAt args 2 0 = numberOf m.inview := hargs 2 (by omega)
  have hindexText : NumberText m.index := m.numbers _ (by simp)
  have hinviewText : NumberText m.inview := m.numbers _ (by simp)
  have hnsat : gsvNsat (numberOf m.index) (numberOf m.inview) =
      Int32.ofNat (partOf c.sats m.position).length := by
    have hpart := m.length_part
    have hthree := m.position_le_three
    have hone := m.position_ge
    apply gsvNsat_consistent
    · rw [hindexText.toInt, m.index_eq]
      omega
    · rw [hindexText.toInt, m.index_eq]
      omega
    · rw [hindexText.toInt, hinviewText.toInt, m.index_eq, m.inview_eq]
      exact hpart
  have hfour : (partOf c.sats m.position).length ≤ 4 := by
    have := m.length_part
    omega
  have haccepted : (gsvBody D abi m.frame.bytes).1 = true := by
    have hlow : ∀ k ≤ 4, ∀ n ≤ 19, 3 + 4 * k ≤ n →
        (!(decide (Int32.ofNat n < Int32.ofNat k * 4 + 3) || decide (Int32.ofNat n > 4 * 4 + 3))) =
          true := by decide
    unfold gsvBody
    simp only [hscan, hindex, hinview, hnsat]
    exact hlow _ hfour n hle hge
  refine ⟨(gsvBody D abi m.frame.bytes).2, ?_, ?_⟩
  · unfold nmeaParseGsv success
    rw [haccepted]
    rfl
  · unfold gsvBody
    simp only [hscan, hcount, hindex, hinview]
    constructor
    · exact congrArg Int32.ofNat m.count_eq
    · exact congrArg Int32.ofNat m.index_eq
    · exact congrArg Int32.ofNat m.inview_eq
    · intro j hj s hs
      rw [Vector.getElem_ofFn]
      exact sat_read hargs hs

/-- The body is 7-bit, so its checksum is right for either sign of char. -/
theorem sevenBit (m : GsvMessage c) : m.frame.SevenBit := by
  intro b hb
  rw [m.body] at hb
  rcases List.mem_append.mp hb with hb | hb
  · have hhead : (cstr "GPGSV,").all (· < 128) = true := by decide
    exact of_decide_eq_true (List.all_eq_true.mp hhead b hb)
  · rcases mem_joined hb with rfl | ⟨x, hx, hb⟩
    · decide
    · rcases List.mem_append.mp hx with hx | hx
      · exact (digit_plain ((m.numberTexts c.numbers x hx).digits b hb)).1
      · exact (m.extra_text x (Option.mem_toList.mp hx)).seven_bit b hb

theorem accepted (env : Env) (m : GsvMessage c) :
    ∃ pack, m.frame.Accepted (D := D) env (.gsv pack) ∧ m.Carried pack := by
  obtain ⟨pack, hparse, hcarried⟩ := m.parse D env.abi
  have htype : nmeaPackType (m.frame.bytes.drop 1) = .gpgsv := by
    rw [m.bytes_eq]
    rfl
  refine ⟨pack, ⟨m.valid, fun k => ⟨1, by decide, ?_⟩⟩, hcarried⟩
  rw [htype]
  unfold parsePack
  dsimp only
  rw [hparse]

end GsvMessage

/-! ## The update -/

/-- What nmea_gsv_info writes to a slot: in_use stays. -/
def overwrite (x s : Satellite) : Satellite :=
  { x with id := s.id, elv := s.elv, azimuth := s.azimuth, sig := s.sig }

/-- One turn of the copy loop. -/
theorem copyTurn {pack : Gsv} {i : Nat} (hi : 1 ≤ i) (hi3 : i ≤ 3)
    (hindex : gsvIndex pack = Int32.ofNat i) {k : Nat} (hk : k < nmeaSatInPack)
    (hslot : 4 * (i - 1) + k < nmeaMaxSat) (sat : Vector Satellite nmeaMaxSat) :
    gsvCopy pack sat k =
      some (sat.set (4 * (i - 1) + k) (overwrite sat[4 * (i - 1) + k] pack.satData[k])) := by
  have slots : ∀ i ≤ 3, 1 ≤ i → ∀ k < 4,
      (Int32.ofNat i - 1) * 4 + Int32.ofNat k = Int32.ofNat (4 * (i - 1) + k) := by decide
  have hisi : (gsvIndex pack - 1) * 4 + Int32.ofNat k = Int32.ofNat (4 * (i - 1) + k) :=
    hindex ▸ slots i hi3 hi k hk
  have hsmall : 4 * (i - 1) + k < 2 ^ 31 := Nat.lt_of_lt_of_le hslot (by decide)
  have hnat : (Int32.ofNat (4 * (i - 1) + k)).toNatClampNeg = 4 * (i - 1) + k :=
    Int32.toNatClampNeg_ofNat_of_lt hsmall
  have hge : 0 ≤ Int32.ofNat (4 * (i - 1) + k) := by
    rw [Int32.le_iff_toInt_le, Int32.toInt_ofNat_of_lt hsmall]
    exact Int.natCast_nonneg _
  unfold gsvCopy
  simp only [hisi, hnat]
  rw [dif_pos ⟨hge, hslot, hk⟩]
  rfl

/-- The copy loop fills the slots from the first of the sentence on. -/
theorem copyLoop {pack : Gsv} {i : Nat} (hi : 1 ≤ i) (hi3 : i ≤ 3)
    (hindex : gsvIndex pack = Int32.ofNat i) {k : Nat} (hk : k ≤ nmeaSatInPack)
    (sat : Vector Satellite nmeaMaxSat) :
    ∃ sat', (List.range k).foldlM (gsvCopy pack) sat = some sat' ∧
      ∀ q (hq : q < nmeaMaxSat), sat'[q] =
        if 4 * (i - 1) ≤ q ∧ q < 4 * (i - 1) + k then
          overwrite sat[q] (pack.satData[q - 4 * (i - 1)]?.getD {})
        else sat[q] := by
  induction k with
  | zero =>
    refine ⟨sat, rfl, fun q hq => ?_⟩
    rw [if_neg (by omega)]
  | succ k ih =>
    obtain ⟨sat', hrun, hsat'⟩ := ih (Nat.le_of_succ_le hk)
    have hslot : 4 * (i - 1) + k < nmeaMaxSat := by
      unfold nmeaSatInPack at hk
      unfold nmeaMaxSat
      omega
    have hturn := copyTurn hi hi3 hindex hk hslot sat'
    have hold : sat'[4 * (i - 1) + k] = sat[4 * (i - 1) + k] := by
      rw [hsat' _ hslot, if_neg (by omega)]
    have hdata : pack.satData[4 * (i - 1) + k - 4 * (i - 1)]?.getD {} = pack.satData[k] := by
      rw [Nat.add_sub_cancel_left, Vector.getElem?_eq_getElem hk]
      rfl
    refine ⟨sat'.set (4 * (i - 1) + k) (overwrite sat'[4 * (i - 1) + k] pack.satData[k]), ?_, ?_⟩
    · rw [List.range_succ, List.foldlM_append, hrun]
      simp [hturn]
    · intro q hq
      rw [Vector.getElem_set]
      by_cases hqk : 4 * (i - 1) + k = q
      · subst hqk
        rw [if_pos rfl, if_pos ⟨by omega, by omega⟩, hold, hdata]
      · have hiff : 4 * (i - 1) ≤ q ∧ q < 4 * (i - 1) + (k + 1) ↔
            4 * (i - 1) ≤ q ∧ q < 4 * (i - 1) + k := by omega
        rw [if_neg hqk, hsat' q hq]
        simp only [hiff]

/-- Slot `q` carries the satellite listed there, if there is one. -/
def SlotDone (c : Constellation) (s : SatInfo) (q : Nat) : Prop :=
  ∀ hq : q < nmeaMaxSat, ∀ x ∈ c.sats[q]?, Carries x.listed s.sat[q]

omit [CDouble D] in
/-- **One sentence of the cycle fills its slots**, and no slot that is done is undone. -/
theorem gsvInfo_fills {c : Constellation} {m : GsvMessage c} {pack : Gsv} (h : m.Carried pack)
    (info : Info D) :
    ∃ info', nmeaGsvInfo pack info = some info' ∧
      info'.satinfo.inview = Int32.ofNat c.sats.length ∧
      ∀ q, SlotDone c info.satinfo q ∨ q / 4 + 1 = m.position → SlotDone c info'.satinfo q := by
  have hge := m.position_ge
  have hle := m.position_le
  have hthree := m.position_le_three
  have hfew : c.sats.length ≤ 12 := c.few
  have hpart := m.length_part
  have hmessages : messagesFor c.sats ≤ 3 := by
    unfold messagesFor
    omega
  have hread : ¬ gsvIgnored pack := by
    have table : ∀ n ≤ 3, ∀ i ≤ n, ¬ (Int32.ofNat i > Int32.ofNat n ∨ Int32.ofNat i * 4 > 12) := by
      decide
    unfold gsvIgnored
    rw [h.index, h.count]
    exact table _ hmessages _ hle
  have hindex : gsvIndex pack = Int32.ofNat m.position := by
    have table : ∀ i ≤ 3, 1 ≤ i → ¬ Int32.ofNat i < 1 := by decide
    unfold gsvIndex
    rw [h.index, if_neg (table _ hthree hge)]
  have hcopied : (gsvCopied pack).toNatClampNeg = (partOf c.sats m.position).length := by
    have hi31 : m.position < 2 ^ 31 := by omega
    have hn31 : c.sats.length < 2 ^ 31 := by omega
    have hnsat : gsvNsat (Int32.ofNat m.position) (Int32.ofNat c.sats.length) =
        Int32.ofNat (partOf c.sats m.position).length := by
      apply gsvNsat_consistent
      · rw [Int32.toInt_ofNat_of_lt hi31]
        omega
      · rw [Int32.toInt_ofNat_of_lt hi31]
        omega
      · rw [Int32.toInt_ofNat_of_lt hi31, Int32.toInt_ofNat_of_lt hn31]
        exact hpart
    unfold gsvCopied
    rw [hindex, h.inview, hnsat]
    exact Int32.toNatClampNeg_ofNat_of_lt (by omega)
  have hfour : (partOf c.sats m.position).length ≤ nmeaSatInPack := by
    unfold nmeaSatInPack
    omega
  obtain ⟨sat', hrun, hsat'⟩ := copyLoop hge hthree hindex hfour info.satinfo.sat
  unfold nmeaGsvInfo
  rw [if_neg hread, hcopied, hrun]
  refine ⟨_, rfl, h.inview, ?_⟩
  intro q hdone hq x hx
  show Carries x.listed sat'[q]
  rw [hsat' q hq]
  by_cases hmine : 4 * (m.position - 1) ≤ q ∧
      q < 4 * (m.position - 1) + (partOf c.sats m.position).length
  · rw [if_pos hmine]
    have hj : q - 4 * (m.position - 1) < nmeaSatInPack := by omega
    have hlisted : (partOf c.sats m.position)[q - 4 * (m.position - 1)]? = some x := by
      have hj4 : q - 4 * (m.position - 1) < 4 := hj
      rw [partOf, List.getElem?_take_of_lt hj4, List.getElem?_drop]
      rwa [Nat.add_sub_cancel' hmine.1]
    rw [Vector.getElem?_eq_getElem hj]
    exact h.sats _ hj x hlisted
  · rw [if_neg hmine]
    rcases hdone with hdone | hposition
    · exact hdone hq x hx
    · have hlt : q < c.sats.length := (List.getElem?_eq_some_iff.mp hx).1
      omega

/-! ## The cycle -/

/-- One accepted frame, given to a parser that holds nothing. -/
theorem parse_frame (hm : env.MallocSucceeds) {s : AbsParser D} (hbytes : s.bytes = [])
    (hqueue : s.queue = []) {f : Frame} {packet : Packet D} (h : f.Accepted env packet)
    (hseven : f.SevenBit) (hfit : f.bytes.length ≤ s.size) (info : Option (Info D)) :
    let r := s.parse env info f.bytes
    r.1 = 1 ∧ r.2.2 = info.bind (packInfo packet) ∧ r.2.1.bytes = [] ∧ r.2.1.queue = [] ∧
      r.2.1.applied = s.applied ++ [(packet, info.bind (packInfo packet))] ∧
      r.2.1.size = s.size := by
  intro r
  have hcrc : ¬ f.verdict env.abi < 0 :=
    fun hlt => f.verdict_neg.mp hlt ((Frame.valid_iff env.abi hseven).mp h.1)
  have hsettled : s.settled env f.bytes = ([(f.bytes, f.verdict env.abi)], []) := by
    have hdrain := drain_frames env.abi [f] []
    have hempty : drain (tailScanner env.abi) [] = ([], []) := rfl
    rw [AbsParser.settled, input_empty hbytes, hbytes, List.nil_append]
    simpa [hempty] using hdrain
  have hreap : s.reap env f.bytes =
      ⟨[(s.origin f.bytes, packet)], s.mallocs + mallocCalls env s.mallocs f.bytes, false, 0⟩ := by
    rw [AbsParser.reap, hsettled, harvest, if_neg hcrc, h.outcome hm]
    rfl
  have hfailed : (s.reap env f.bytes).failed = false := by rw [hreap]
  have := parse_reap hfit hfailed info
  rwa [hreap, hsettled, hqueue] at this

theorem length_commaText {bound : Nat} {fs : List (List Byte)} (h : ∀ f ∈ fs, f.length ≤ bound) :
    (commaText fs).length ≤ fs.length * (bound + 1) := by
  induction fs with
  | nil => exact Nat.zero_le _
  | cons f fs ih =>
    have hf := h f List.mem_cons_self
    have hfs := ih fun g hg => h g (List.mem_cons_of_mem _ hg)
    have hcons : (commaText (f :: fs)).length = f.length + 1 + (commaText fs).length := by
      rw [commaText, List.flatMap_cons, List.length_append, List.length_append]
      rfl
    rw [hcons, List.length_cons, Nat.succ_mul]
    omega

/-- A sentence of the cycle fits the buffer. -/
theorem GsvMessage.length_le {c : Constellation} (m : GsvMessage c) :
    m.frame.bytes.length ≤ nmeaDefParseBuff := by
  have hnum : (commaText m.gsv.fields).length ≤ m.gsv.fields.length * 10 :=
    length_commaText fun f hf => (m.numberTexts c.numbers f hf).short
  have hfields := m.gsv.length_fields
  have hpart : m.gsv.sats.length ≤ 4 := by
    have hle := m.length_part
    show (partOf c.sats m.position).length ≤ 4
    omega
  have hjoined : (joined (m.gsv.fields ++ m.extra.toList)).length ≤
      (commaText m.gsv.fields).length + 240 := by
    cases hextra : m.extra with
    | none =>
      have hlast : commaText m.gsv.fields = commaText m.gsv.init ++ (m.gsv.last ++ [comma]) := by
        rw [m.gsv.fields_split]
        simp [commaText]
      rw [Option.toList_none, List.append_nil, hlast]
      rw [m.gsv.fields_split, joined_snoc]
      simp only [List.length_append]
      omega
    | some e =>
      have hshort := (m.extra_text e hextra).short
      rw [Option.toList_some, joined_snoc, List.length_append]
      omega
  have hbody : m.frame.body.length = 6 + (joined (m.gsv.fields ++ m.extra.toList)).length := by
    rw [m.body, List.length_append]
    rfl
  rw [m.frame.length_bytes, hbody]
  unfold nmeaDefParseBuff
  omega

/-- Sentence after sentence. -/
theorem cycle_run (hm : env.MallocSucceeds) {c : Constellation} (ms : List (GsvMessage c))
    {s : AbsParser D} (hbytes : s.bytes = []) (hqueue : s.queue = [])
    (hsize : nmeaDefParseBuff ≤ s.size) (info : Info D) :
    let r := s.parseAll env (some info) (ms.map fun m => m.frame.bytes)
    ∃ info' new, r.1 = ms.length ∧ r.2.2 = some info' ∧ r.2.1.applied = s.applied ++ new ∧
      List.Forall₂ (fun m e => ∃ pack, e.1 = .gsv pack ∧ m.Carried pack) ms new ∧
      (ms ≠ [] → info'.satinfo.inview = Int32.ofNat c.sats.length) ∧
      ∀ q, SlotDone c info.satinfo q ∨ (∃ m ∈ ms, q / 4 + 1 = m.position) →
        SlotDone c info'.satinfo q := by
  induction ms generalizing s info with
  | nil =>
    refine ⟨info, [], rfl, rfl, (List.append_nil _).symm, .nil, fun h => absurd rfl h, ?_⟩
    rintro q (hdone | ⟨m, hm, -⟩)
    · exact hdone
    · cases hm
  | cons m ms ih =>
    obtain ⟨pack, haccepted, hcarried⟩ := m.accepted (D := D) env
    obtain ⟨info₁, hinfo₁, hview₁, hslots₁⟩ := gsvInfo_fills hcarried info
    obtain ⟨hn, hinfo, hbytes₁, hqueue₁, happlied, hsize₁⟩ := parse_frame hm hbytes hqueue haccepted
      m.sevenBit (m.length_le.trans hsize) (some info)
    have hbind : (some info).bind (packInfo (.gsv pack)) = some info₁ := hinfo₁
    rw [hbind] at hinfo happlied
    obtain ⟨info', new, hn', hinfo', happlied', hpackets, hview', hslots'⟩ :=
      ih hbytes₁ hqueue₁ (hsize₁ ▸ hsize) info₁
    simp only [List.map_cons, AbsParser.parseAll]
    rw [hinfo]
    refine ⟨info', (.gsv pack, some info₁) :: new, ?_, hinfo', ?_, ?_, fun _ => ?_, ?_⟩
    · rw [hn, hn', List.length_cons]
      omega
    · rw [happlied', happlied, List.append_assoc]
      rfl
    · exact .cons ⟨pack, rfl, hcarried⟩ hpackets
    · by_cases hms : ms = []
      · subst hms
        cases hinfo'
        exact hview₁
      · exact hview' hms
    · rintro q (hdone | ⟨m', hm', hposition⟩)
      · exact hslots' q (.inl (hslots₁ q (.inl hdone)))
      · rcases List.mem_cons.mp hm' with rfl | hm'
        · exact hslots' q (.inl (hslots₁ q (.inr hposition)))
        · exact hslots' q (.inr ⟨m', hm', hposition⟩)

/-- **A cycle of GSV sentences assembles the satellites in any order.** Given one by one to a
parser that holds nothing, the sentences of the list, in any order and as often as they come,
are accepted each; once there is one for every position the table is the list. -/
theorem gsvCycle_assembles (hm : env.MallocSucceeds) (st : ParserState D)
    (hbuff : st.parser.buffUse = 0) (hqueue : st.parser.topNode = none)
    (hsize : nmeaDefParseBuff ≤ st.parser.buffSize) (info : Info D) (c : Constellation)
    (ms : List (GsvMessage c)) :
    ∃ p info' w new, parseAll env st.parser (some info) st.world (ms.map fun m => m.frame.bytes) =
        some (ms.length, p, some info', w) ∧
      w.applied = st.world.applied ++ new ∧
      List.Forall₂ (fun m e => ∃ pack, e.1 = .gsv pack ∧ m.Carried pack) ms new ∧
      ((∀ i, 1 ≤ i → i ≤ messagesFor c.sats → ∃ m ∈ ms, m.position = i) → Assembled c info'.satinfo) := by
  obtain ⟨p, w, hrun, hrep⟩ := parseAll_spec env st.rep st.size_pos (some info)
    (ms.map fun m => m.frame.bytes)
  have hbytes : st.abs.bytes = [] := List.length_eq_zero_iff.mp (st.rep.use.1.trans hbuff)
  obtain ⟨info', new, hn, hinfo, happlied, hpackets, hview, hslots⟩ := @cycle_run D _ env hm c ms
    st.abs hbytes (st.rep.queue_nil hqueue) (st.rep.size ▸ hsize) info
  refine ⟨p, info', w, new, ?_, ?_, hpackets, fun hall => ⟨?_, ?_⟩⟩
  · rw [hrun, hn, hinfo]
  · rw [← hrep.logs.2.2, ← st.rep.logs.2.2, happlied]
  · apply hview
    rintro rfl
    obtain ⟨m, hm, -⟩ := hall 1 le_rfl (Nat.le_max_left _ _)
    cases hm
  · intro q hq x hx
    refine hslots q (.inr ?_) hq x hx
    have hlt : q < c.sats.length := (List.getElem?_eq_some_iff.mp hx).1
    obtain ⟨m, hm, hposition⟩ := hall (q / 4 + 1) (Nat.succ_pos _) (by
      unfold messagesFor
      omega)
    exact ⟨m, hm, hposition.symm⟩

instance (f : List Byte) : Decidable (NumberText f) :=
  decidable_of_iff (f.all isDigit = true ∧ f.length ≤ 9)
    ⟨fun h => ⟨List.all_eq_true.mp h.1, h.2⟩, fun h => ⟨List.all_eq_true.mpr h.digits, h.short⟩⟩

/-- Five satellites, the last with nothing but an id. -/
def fiveSats : Constellation where
  sats :=
    [⟨cstr "1", cstr "40", cstr "83", cstr "46"⟩, ⟨cstr "2", cstr "17", cstr "308", cstr "41"⟩,
      ⟨cstr "12", cstr "07", cstr "344", cstr "39"⟩, ⟨cstr "14", cstr "22", cstr "228", cstr "45"⟩,
      ⟨cstr "22", [], [], []⟩]
  few := by decide
  numbers := by decide

/-- Its first sentence, with a signal id. -/
def fiveFirst : GsvMessage fiveSats where
  position := 1
  position_ge := le_rfl
  position_le := by decide
  count := cstr "2"
  index := cstr "1"
  inview := cstr "5"
  numbers := by decide
  count_eq := by decide
  index_eq := by decide
  inview_eq := by decide
  extra := some (cstr "1")
  extra_text := by
    rintro e ⟨⟩
    have hseven : (cstr "1").all (· < 128) = true := by decide
    exact
      { no_comma := by decide
        seven_bit := fun b hb => of_decide_eq_true (List.all_eq_true.mp hseven b hb)
        short := by decide }
  frame :=
    { body := cstr "GPGSV,2,1,5,1,40,83,46,2,17,308,41,12,07,344,39,14,22,228,45,1"
      h1 := ascii '6'
      h2 := ascii '5'
      no_dollar := by decide
      no_star := by decide
      hex1 := by decide
      hex2 := by decide }
  valid := by decide
  body := by decide

/-- Its second sentence. -/
def fiveSecond : GsvMessage fiveSats where
  position := 2
  position_ge := by decide
  position_le := by decide
  count := cstr "2"
  index := cstr "2"
  inview := cstr "05"
  numbers := by decide
  count_eq := by decide
  index_eq := by decide
  inview_eq := by decide
  extra := none
  extra_text := nofun
  frame :=
    { body := cstr "GPGSV,2,2,05,22,,,"
      h1 := ascii '7'
      h2 := ascii 'C'
      no_dollar := by decide
      no_star := by decide
      hex1 := by decide
      hex2 := by decide }
  valid := by decide
  body := by decide

/-- The second sentence before the first. -/
theorem gsvCycle_assembles_five :
    ∃ p info' w new, parseAll (.zeroed fun _ => true) ParserState.zeroed.parser (some .zeroed)
        ParserState.zeroed.world [fiveSecond.frame.bytes, fiveFirst.frame.bytes] =
          some (2, p, some info', w) ∧
      w.applied = ParserState.zeroed.world.applied ++ new ∧ new.length = 2 ∧
      Assembled fiveSats info'.satinfo := by
  obtain ⟨p, info', w, new, hrun, happlied, hpackets, hdone⟩ :=
    @gsvCycle_assembles Decimal _ (.zeroed fun _ => true) (fun _ => rfl) .zeroed rfl rfl le_rfl
      .zeroed fiveSats [fiveSecond, fiveFirst]
  refine ⟨p, info', w, new, hrun, happlied, hpackets.length_eq.symm, hdone ?_⟩
  intro i h1 h2
  have hmessages : messagesFor fiveSats.sats = 2 := by decide
  obtain rfl | rfl : i = 1 ∨ i = 2 := by omega
  · exact ⟨fiveFirst, by simp, rfl⟩
  · exact ⟨fiveSecond, by simp, rfl⟩

end RttNmea
