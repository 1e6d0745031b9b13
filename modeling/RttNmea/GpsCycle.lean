import RttNmea.Sections

/-!
# A cycle of GSV messages through gps_parse

data_conversion counts the sections minus one, and parse_gsv asks for seven of them. A message
with one satellite and no signal id has six, and is refused; any other message of a cycle fills
its own entries.
-/

namespace RttNmea

open CText

variable {abi : Abi}

/-! ## The messages -/

/-- The numbers of a satellite: any of them may be null. -/
structure SatFields.InRange (s : SatFields) : Prop where
  numbers : ∀ f ∈ s.fields, NumberText f
  prn : leadingNat 10 s.id ≤ 255
  elevation : leadingNat 10 s.elv ≤ 90
  azimuth : leadingNat 10 s.azimuth ≤ 359
  cnr : leadingNat 10 s.sig ≤ 99

instance (s : SatFields) : Decidable s.InRange :=
  decidable_of_iff ((∀ f ∈ s.fields, NumberText f) ∧ leadingNat 10 s.id ≤ 255 ∧
      leadingNat 10 s.elv ≤ 90 ∧ leadingNat 10 s.azimuth ≤ 359 ∧ leadingNat 10 s.sig ≤ 99)
    ⟨fun ⟨h, h1, h2, h3, h4⟩ => ⟨h, h1, h2, h3, h4⟩,
      fun h => ⟨h.numbers, h.prn, h.elevation, h.azimuth, h.cnr⟩⟩

/-- Up to 40 satellites, sent with a signal id in each message or without. -/
structure GpsView where
  sats : List SatFields
  pos : 1 ≤ sats.length
  few : sats.length ≤ gpsNmeaMaxSvview
  inRange : ∀ s ∈ sats, s.InRange
  signal : Bool

/-- One message of the cycle, in memory up to its NUL. -/
structure GpsMessage (c : GpsView) extends GsvHead c.sats where
  signalId : Option (List Byte)
  signal_eq : signalId.isSome = c.signal
  signal_text : ∀ e ∈ signalId, (comma ∉ e ∧ star ∉ e) ∧ e.length ≤ 9
  input : List Byte
  after : List Byte
  input_eq : text input = fieldsText (toGsvHead.gsv.fields ++ signalId.toList) ++ star :: after

/-- The entry with the numbers of the fields. -/
def SatFields.entry (s : SatFields) : GsvSatelite :=
  { prn := UInt8.ofNat (leadingNat 10 s.id), elevation := UInt8.ofNat (leadingNat 10 s.elv)
    azimuth := Int16.ofNat (leadingNat 10 s.azimuth), cnr := UInt8.ofNat (leadingNat 10 s.sig) }

namespace GpsView

/-- The structure after the messages up to a position: the entries behind theirs are zero. -/
def upTo (c : GpsView) (position : Nat) : NmeaGsv where
  satesInView := Int16.ofNat c.sats.length
  rsv := Vector.ofFn fun q => if q.val < 4 * position then c.sats[q.val]?.elim {} SatFields.entry else {}

/-- The whole list. -/
def listed (c : GpsView) : NmeaGsv where
  satesInView := Int16.ofNat c.sats.length
  rsv := Vector.ofFn fun q => c.sats[q.val]?.elim {} SatFields.entry

end GpsView

/-- parse_gsv on one message after another: what it returns, and the structure at the end. -/
def parseGsvAll (abi : Abi) : NmeaGsv → List (List Byte) → Option (List Bool × NmeaGsv)
  | pview, [] => some ([], pview)
  | pview, input :: inputs => do
    let (ok, pview) ← parseGsv abi (some input) pview
    let (oks, pview) ← parseGsvAll abi pview inputs
    return (ok :: oks, pview)

/-! ## Numbers -/

theorem toUint8_ofNat {n : Nat} (h : n ≤ 255) : toUint8 (Int32.ofNat n) = UInt8.ofNat n := by
  have table : ∀ n < 256, toUint8 (Int32.ofNat n) = UInt8.ofNat n := by decide +kernel
  exact table n (Nat.lt_succ_of_le h)

theorem toInt16_ofNat {n : Nat} (h : n ≤ 359) : (Int32.ofNat n).toInt16 = Int16.ofNat n := by
  have table : ∀ n < 360, (Int32.ofNat n).toInt16 = Int16.ofNat n := by decide +kernel
  exact table n (Nat.lt_succ_of_le h)

/-! ## The loop of parse_gsv -/

/-- A section that is there reads as its field. -/
theorem ptrSection_field {s : List Byte} {fields : List (List Byte)} {output : List Nat}
    (hsections : List.Forall₂ (SectionOf s) (fields.take gsvSectionMax.toNat) output) {k : Nat}
    (hk : k < gsvSectionMax.toNat) {f : List Byte} (hf : fields[k]? = some f) (hnum : NumberText f) :
    ∃ t, ptrSection gsvSectionMax s output k = some (some t) ∧ atoi abi t = numberOf f := by
  have htake : (fields.take gsvSectionMax.toNat)[k]? = some f := by
    rw [List.getElem?_take_of_lt hk]
    exact hf
  have hlt : k < (fields.take gsvSectionMax.toNat).length := (List.getElem?_eq_some_iff.mp htake).1
  have hlt' : k < output.length := hsections.length_eq ▸ hlt
  have hsection := hsections.get hlt hlt'
  have hf' : (fields.take gsvSectionMax.toNat).get ⟨k, hlt⟩ = f :=
    (List.getElem?_eq_some_iff.mp htake).2
  rw [hf'] at hsection
  refine ⟨s.drop output[k], ?_, atoi_section hnum hsection⟩
  unfold ptrSection
  rw [if_pos hk, List.getElem?_eq_getElem hlt']
  rfl

theorem sectionInt_field {s : List Byte} {fields : List (List Byte)} {output : List Nat}
    (hsections : List.Forall₂ (SectionOf s) (fields.take gsvSectionMax.toNat) output) {k : Nat}
    (hk : k < gsvSectionMax.toNat) {f : List Byte} (hf : fields[k]? = some f) (hnum : NumberText f) :
    sectionInt abi s output k = some (numberOf f) := by
  obtain ⟨t, hsection, hatoi⟩ := @ptrSection_field abi s fields output hsections k hk f hf hnum
  unfold sectionInt
  rw [hsection]
  exact congrArg some hatoi

/-- One turn stores one satellite. -/
theorem gsvTurn_sat {s : List Byte} {h : GsvFields} {extra : List (List Byte)} {output : List Nat}
    (hsections : List.Forall₂ (SectionOf s) ((h.fields ++ extra).take gsvSectionMax.toNat) output)
    {t : Nat} (ht : t < 4) {x : SatFields} (hx : h.sats[t]? = some x) (hrange : x.InRange)
    {cur : Nat} (hcur : cur < gpsNmeaMaxSvview) (rsv : Vector GsvSatelite gpsNmeaMaxSvview) :
    gsvTurn abi s output (3 + 4 * t) cur rsv = some (rsv.set cur x.entry) := by
  have hfields : ∀ r < 4, (h.fields ++ extra)[3 + 4 * t + r]? = x.fields[r]? := by
    intro r hr
    have hlt : t < h.sats.length := (List.getElem?_eq_some_iff.mp hx).1
    have hlen := h.length_fields
    have hget : h.fields[3 + 4 * t + r]? = (h.sats.flatMap SatFields.fields)[4 * t + r]? := by
      rw [show 3 + 4 * t + r = 4 * t + r + 1 + 1 + 1 by omega]
      rfl
    rw [List.getElem?_append_left (by omega), hget, sats_field _ _ hr, hx]
    rfl
  have hread : ∀ r < 4, ∀ f, x.fields[r]? = some f →
      sectionInt abi s output (3 + 4 * t + r) = some (numberOf f) := by
    intro r hr f hf
    have hk : 3 + 4 * t + r < gsvSectionMax.toNat := by
      have hmax : gsvSectionMax.toNat = 19 := rfl
      omega
    exact sectionInt_field hsections hk ((hfields r hr).trans hf)
      (hrange.numbers f (List.mem_of_getElem? hf))
  have h0 := hread 0 (by decide) x.id rfl
  have h1 := hread 1 (by decide) x.elv rfl
  have h2 := hread 2 (by decide) x.azimuth rfl
  have h3 := hread 3 (by decide) x.sig rfl
  unfold gsvTurn
  rw [Nat.add_zero] at h0
  simp only [h0, h1, h2, h3, Option.bind_eq_bind, Option.bind_some, dif_pos hcur, numberOf,
    toUint8_ofNat hrange.prn, toUint8_ofNat (hrange.elevation.trans (by decide : 90 ≤ 255)),
    toInt16_ofNat hrange.azimuth, toUint8_ofNat (hrange.cnr.trans (by decide : 99 ≤ 255))]
  rfl

/-- The loop stores the satellites that are left of the message, if the count makes it stop
behind the last of them. -/
theorem gsvLoop_fills {s : List Byte} {h : GsvFields} {extra : List (List Byte)} {output : List Nat}
    (hsections : List.Forall₂ (SectionOf s) ((h.fields ++ extra).take gsvSectionMax.toNat) output)
    (hfour : h.sats.length ≤ 4) (hrange : ∀ x ∈ h.sats, x.InRange) {count : Nat}
    (hcount : ∀ t ≤ h.sats.length, 3 + 4 * t < count ↔ t < h.sats.length) {start : Nat}
    (hroom : start + h.sats.length ≤ gpsNmeaMaxSvview) {t j : Nat} (ht : t + j = h.sats.length)
    (rsv : Vector GsvSatelite gpsNmeaMaxSvview) :
    ∃ rsv', gsvLoop abi s output count (gpsNmeaMaxSvview - (start + t)) (3 + 4 * t) (start + t) rsv =
        some rsv' ∧
      ∀ q (hq : q < gpsNmeaMaxSvview), rsv'[q] =
        if start + t ≤ q ∧ q < start + h.sats.length then
          h.sats[q - start]?.elim {} SatFields.entry
        else rsv[q] := by
  induction j generalizing t rsv with
  | zero =>
    refine ⟨rsv, ?_, fun q hq => (if_neg (by omega)).symm⟩
    have hdone : ¬ 3 + 4 * t < count := by
      rw [hcount t (by omega)]
      omega
    cases gpsNmeaMaxSvview - (start + t) with
    | zero => rfl
    | succ room => rw [gsvLoop, if_neg hdone]
  | succ j ih =>
    have hlt : t < h.sats.length := by omega
    have hcur : start + t < gpsNmeaMaxSvview := by omega
    have hx : h.sats[t]? = some h.sats[t] := List.getElem?_eq_getElem hlt
    have hturn := @gsvTurn_sat abi s h extra output hsections t (by omega) _ hx
      (hrange _ (List.getElem_mem hlt)) _ hcur rsv
    obtain ⟨rsv', hrun, hrsv'⟩ := ih (t := t + 1) (by omega) (rsv.set (start + t) h.sats[t].entry)
    have hnext : gpsNmeaMaxSvview - (start + t) = gpsNmeaMaxSvview - (start + (t + 1)) + 1 := by
      omega
    refine ⟨rsv', ?_, ?_⟩
    · rw [hnext, gsvLoop, if_pos ((hcount t (by omega)).mpr hlt), hturn]
      exact hrun
    · intro q hq
      rw [hrsv' q hq, Vector.getElem_set]
      by_cases hqt : start + t = q
      · subst hqt
        have hat : start + t - start = t := by omega
        rw [if_neg (by omega), if_pos rfl, if_pos ⟨by omega, by omega⟩, hat, hx]
        rfl
      · have hiff : start + (t + 1) ≤ q ∧ q < start + h.sats.length ↔
            start + t ≤ q ∧ q < start + h.sats.length := by omega
        rw [if_neg hqt]
        simp only [hiff]

/-! ## One message -/

theorem length_fieldsText (fs : List (List Byte)) :
    (fieldsText fs).length = (commaText fs).length := by
  simp [fieldsText, commaText]

namespace GpsMessage

variable {c : GpsView}

theorem position_le_ten (m : GpsMessage c) : messagesFor c.sats ≤ 10 ∧ m.position ≤ 10 := by
  have hfew : c.sats.length ≤ 40 := c.few
  have hle := m.position_le
  unfold messagesFor at hle ⊢
  omega

/-- The message carries one satellite at least. -/
theorem part_pos (m : GpsMessage c) : 1 ≤ (partOf c.sats m.position).length := by
  have hpart := m.length_part
  have hpos := c.pos
  have hle := m.position_le
  have hge := m.position_ge
  unfold messagesFor at hle
  omega

theorem part_le (m : GpsMessage c) : (partOf c.sats m.position).length ≤ 4 := by
  have hpart := m.length_part
  omega

/-- What data_conversion finds in the message. -/
theorem conversion (m : GpsMessage c) :
    ∃ output, dataConversion (some m.input) gsvSectionMax =
        (UInt8.ofNat output.length - 1, output) ∧
      List.Forall₂ (SectionOf (text m.input))
        ((m.gsv.fields ++ m.signalId.toList).take gsvSectionMax.toNat) output ∧
      output.length =
        min 19 (3 + 4 * (partOf c.sats m.position).length + if c.signal then 1 else 0) := by
  have hnum := m.numberTexts fun s hs => (c.inRange s hs).numbers
  have hlen : m.gsv.fields.length = 3 + 4 * (partOf c.sats m.position).length :=
    m.gsv.length_fields
  have hfour := m.part_le
  have hsignal : m.signalId.toList.length = if c.signal then 1 else 0 := by
    rw [← m.signal_eq]
    cases m.signalId <;> rfl
  have hplain : ∀ f ∈ m.gsv.fields ++ m.signalId.toList, comma ∉ f ∧ star ∉ f := by
    intro f hf
    rcases List.mem_append.mp hf with hf | hf
    · exact ⟨(hnum f hf).fieldText.no_comma, (hnum f hf).fieldText.no_star⟩
    · exact (m.signal_text f (Option.mem_toList.mp hf)).1
  have hshort : (fieldsText (m.gsv.fields ++ m.signalId.toList)).length ≤ maxNmeaPackLen := by
    have hbound : ∀ f ∈ m.gsv.fields ++ m.signalId.toList, f.length ≤ 9 := by
      intro f hf
      rcases List.mem_append.mp hf with hf | hf
      · exact (hnum f hf).short
      · exact (m.signal_text f (Option.mem_toList.mp hf)).2
    have hone : (if c.signal then 1 else 0) ≤ 1 := by split <;> decide
    have := length_commaText hbound
    rw [List.length_append, hsignal, hlen] at this
    rw [length_fieldsText]
    unfold maxNmeaPackLen
    omega
  have hne : m.gsv.fields ++ m.signalId.toList ≠ [] := List.cons_ne_nil _ _
  have hinput : text m.input =
      [] ++ (fieldsText (m.gsv.fields ++ m.signalId.toList) ++ star :: m.after) := m.input_eq
  obtain ⟨output, hrun, hsections⟩ := conversion_fields hinput hne (by simp) hplain hshort
    gsvSectionMax
  refine ⟨output, hrun, hsections, ?_⟩
  rw [← hsections.length_eq, List.length_take, List.length_append, hlen, hsignal]
  rfl

/-- A message with one satellite and no signal id is refused. -/
theorem refused (m : GpsMessage c) (hsignal : c.signal = false)
    (hone : (partOf c.sats m.position).length = 1) (pview : NmeaGsv) :
    parseGsv abi (some m.input) pview = some (false, pview) := by
  obtain ⟨output, hrun, -, hlen⟩ := m.conversion
  have hsix : output.length = 7 := by
    rw [hlen, hone, hsignal]
    rfl
  have hcount : UInt8.ofNat 7 - 1 < parseGsvMessageMaxLen := by decide
  unfold parseGsv
  dsimp only
  rw [hrun, hsix, if_pos hcount]

/-- **Any other message is accepted and fills its own entries.** -/
theorem accepted (m : GpsMessage c)
    (hsignal : c.signal = true ∨ (partOf c.sats m.position).length ≠ 1) (pview : NmeaGsv) :
    ∃ rsv, parseGsv abi (some m.input) pview =
        some (true, { satesInView := Int16.ofNat c.sats.length, rsv }) ∧
      ∀ q (hq : q < gpsNmeaMaxSvview), rsv[q] =
        if 4 * (m.position - 1) ≤ q ∧
            q < 4 * (m.position - 1) + (partOf c.sats m.position).length then
          (partOf c.sats m.position)[q - 4 * (m.position - 1)]?.elim {} SatFields.entry
        else (if m.position = 1 then {} else pview).rsv[q] := by
  obtain ⟨output, hrun, hsections, hlen⟩ := m.conversion
  obtain ⟨hmessages, hten⟩ := m.position_le_ten
  have hge := m.position_ge
  have hle := m.position_le
  have hpos := m.part_pos
  have hfour := m.part_le
  have hpart := m.length_part
  have hfew : c.sats.length ≤ 40 := c.few
  have hcountNat : (UInt8.ofNat output.length - 1).toNat = output.length - 1 :=
    toNat_pred (by omega) (by omega)
  have hread : ¬ UInt8.ofNat output.length - 1 < parseGsvMessageMaxLen := by
    rw [UInt8.lt_iff_toNat_lt, hcountNat]
    have hseven : parseGsvMessageMaxLen.toNat = 7 := rfl
    rcases hsignal with hs | hs
    · rw [hs, if_pos rfl] at hlen
      omega
    · split at hlen <;> omega
  have hstop : ∀ t ≤ (partOf c.sats m.position).length,
      3 + 4 * t < output.length - 1 ↔ t < (partOf c.sats m.position).length := by
    intro t ht
    split at hlen <;> omega
  -- the three numbers in front
  have hnumbers : ∀ f ∈ [m.count, m.index, m.inview], NumberText f := m.numbers
  obtain ⟨total, htotal, htotalNo⟩ := @ptrSection_field abi _ _ _ hsections 0 (by decide) m.count rfl
    (hnumbers _ (by simp))
  obtain ⟨current, hcurrent, hcurNo⟩ := @ptrSection_field abi _ _ _ hsections 1 (by decide) m.index
    rfl (hnumbers _ (by simp))
  obtain ⟨inView, hinView, hview⟩ := @ptrSection_field abi _ _ _ hsections 2 (by decide) m.inview rfl
    (hnumbers _ (by simp))
  have htotal8 : toUint8 (atoi abi total) = UInt8.ofNat (messagesFor c.sats) := by
    rw [htotalNo, numberOf, m.count_eq, toUint8_ofNat (by omega)]
  have hcur8 : toUint8 (atoi abi current) = UInt8.ofNat m.position := by
    rw [hcurNo, numberOf, m.index_eq, toUint8_ofNat (by omega)]
  have hview16 : (atoi abi inView).toInt16 = Int16.ofNat c.sats.length := by
    rw [hview, numberOf, m.inview_eq, toInt16_ofNat (by omega)]
  have positions : ∀ i ≤ 10, 1 ≤ i → ¬ UInt8.ofNat i < 1 ∧
      ((UInt8.ofNat i - 1) * 4).toNat = 4 * (i - 1) ∧ (UInt8.ofNat i = 1 ↔ i = 1) := by decide
  have orders : ∀ n ≤ 10, ∀ i ≤ n, ¬ UInt8.ofNat n < UInt8.ofNat i := by decide
  obtain ⟨hnot, hstart, hfirst⟩ := positions _ hten hge
  have horder := orders _ hmessages _ hle
  let base : NmeaGsv := if m.position = 1 then {} else pview
  obtain ⟨rsv, hloop, hrsv⟩ := @gsvLoop_fills abi _ m.gsv _ output hsections hfour
    (fun x hx => c.inRange x (List.mem_of_mem_drop (List.mem_of_mem_take hx)))
    (output.length - 1) hstop (4 * (m.position - 1))
    (show 4 * (m.position - 1) + (partOf c.sats m.position).length ≤ 40 by omega) 0 _ (Nat.zero_add _)
    base.rsv
  refine ⟨rsv, ?_, hrsv⟩
  unfold parseGsv
  dsimp only
  rw [hrun]
  dsimp only
  rw [if_neg hread, htotal, hcurrent, hinView]
  simp only [Option.bind_eq_bind, Option.bind_some, htotal8, hcur8, if_neg hnot, hstart, hfirst,
    Option.elim_some, hview16, hcountNat]
  have hloop' : gsvLoop abi (text m.input) output (output.length - 1)
      (gpsNmeaMaxSvview - 4 * (m.position - 1)) 3 (4 * (m.position - 1)) base.rsv = some rsv := hloop
  rw [hloop']
  simp [horder]

/-- From the structure the messages before it leave to the next one. -/
theorem accepted_upTo (m : GpsMessage c)
    (hsignal : c.signal = true ∨ (partOf c.sats m.position).length ≠ 1) {pview : NmeaGsv}
    (hview : m.position = 1 ∨ pview = c.upTo (m.position - 1)) :
    parseGsv abi (some m.input) pview = some (true, c.upTo m.position) := by
  obtain ⟨rsv, hrun, hrsv⟩ := @accepted abi c m hsignal pview
  have hpart := m.length_part
  have hge := m.position_ge
  have hbase : ∀ q (hq : q < gpsNmeaMaxSvview), (if m.position = 1 then {} else pview).rsv[q] =
      if q < 4 * (m.position - 1) then c.sats[q]?.elim {} SatFields.entry else {} := by
    intro q hq
    by_cases hone : m.position = 1
    · have hnone : ¬ q < 4 * (m.position - 1) := by omega
      rw [if_pos hone, if_neg hnone]
      exact Vector.getElem_replicate hq
    · rw [if_neg hone, hview.resolve_left hone, GpsView.upTo, Vector.getElem_ofFn]
  have hall : rsv = (c.upTo m.position).rsv := by
    apply Vector.ext
    intro q hq
    rw [hrsv q hq, hbase q hq, GpsView.upTo, Vector.getElem_ofFn]
    dsimp only
    by_cases hmine : 4 * (m.position - 1) ≤ q ∧
        q < 4 * (m.position - 1) + (partOf c.sats m.position).length
    · have hlt : q - 4 * (m.position - 1) < 4 := by omega
      rw [if_pos hmine, if_pos (by omega), partOf, List.getElem?_take_of_lt hlt, List.getElem?_drop,
        Nat.add_sub_cancel' hmine.1]
    · rw [if_neg hmine]
      by_cases hlow : q < 4 * (m.position - 1)
      · rw [if_pos hlow, if_pos (by omega)]
      · rw [if_neg hlow]
        split
        · -- behind the last satellite
          rw [List.getElem?_eq_none (by omega)]
          rfl
        · rfl
  rw [hrun, hall]
  rfl

end GpsMessage

/-! ## Whole cycles -/

theorem upTo_listed (c : GpsView) : c.upTo (messagesFor c.sats) = c.listed := by
  have hrsv : (c.upTo (messagesFor c.sats)).rsv = c.listed.rsv := by
    apply Vector.ext
    intro q hq
    rw [GpsView.upTo, Vector.getElem_ofFn, GpsView.listed, Vector.getElem_ofFn]
    dsimp only
    split
    · rfl
    · rename_i hge
      have hnone : c.sats[q]? = none := by
        apply List.getElem?_eq_none
        unfold messagesFor at hge
        omega
      rw [hnone]
      rfl
  exact congrArg (NmeaGsv.mk _) hrsv

/-- Message after message, from the one behind `p` on. -/
theorem gpsCycle_run {c : GpsView} {ms : List (GpsMessage c)}
    (hsignal : ∀ m ∈ ms, c.signal = true ∨ (partOf c.sats m.position).length ≠ 1) {p : Nat}
    (horder : ms.map (fun m => m.position) = List.range' (p + 1) ms.length) {pview : NmeaGsv}
    (hview : p = 0 ∨ pview = c.upTo p) (hne : ms ≠ [] ∨ pview = c.upTo p) :
    parseGsvAll abi pview (ms.map fun m => m.input) =
      some (List.replicate ms.length true, c.upTo (p + ms.length)) := by
  induction ms generalizing p pview with
  | nil =>
    rw [hne.resolve_left fun h => h rfl]
    rfl
  | cons m ms ih =>
    rw [List.map_cons, List.length_cons, List.range'_succ] at horder
    obtain ⟨hposition, hrest⟩ := List.cons.inj horder
    have hat : m.position = 1 ∨ pview = c.upTo (m.position - 1) := by
      rcases hview with hp | hp
      · exact .inl (by omega)
      · right
        rw [hp, hposition, Nat.add_sub_cancel]
    have hhead := @GpsMessage.accepted_upTo abi c m (hsignal m List.mem_cons_self) pview hat
    have htail := @ih (fun m hm => hsignal m (List.mem_cons_of_mem _ hm)) (p + 1) hrest
      (c.upTo (p + 1)) (.inr rfl) (.inr rfl)
    rw [List.map_cons, parseGsvAll, hhead, hposition]
    have hcount : p + 1 + ms.length = p + (ms.length + 1) := by omega
    simp only [Option.bind_eq_bind, Option.bind_some, htail, hcount, List.length_cons]
    rfl

/-- A message that is refused leaves its mark. -/
theorem refused_mem {inputs : List (List Byte)} {input : List Byte} (hmem : input ∈ inputs)
    (hrefused : ∀ pview, parseGsv abi (some input) pview = some (false, pview)) {pview : NmeaGsv}
    {oks : List Bool} {final : NmeaGsv}
    (hrun : parseGsvAll abi pview inputs = some (oks, final)) : false ∈ oks := by
  induction inputs generalizing pview oks final with
  | nil => cases hmem
  | cons head inputs ih =>
    rw [parseGsvAll] at hrun
    obtain ⟨⟨ok, view⟩, hhead, hrun⟩ := Option.bind_eq_some_iff.mp hrun
    obtain ⟨⟨rest, view'⟩, htail, hrun⟩ := Option.bind_eq_some_iff.mp hrun
    cases hrun
    rcases List.mem_cons.mp hmem with rfl | hmem
    · rw [hrefused] at hhead
      cases hhead
      exact List.mem_cons_self
    · exact List.mem_cons_of_mem _ (ih hmem htail)

/-- **gps_parse assembles a cycle exactly if its messages carry a signal id or the number of
satellites does not leave one for the last message.** -/
theorem gpsCycle_iff (abi : Abi) {c : GpsView} {ms : List (GpsMessage c)}
    (horder : ms.map (fun m => m.position) = List.range' 1 (messagesFor c.sats)) (pview : NmeaGsv) :
    (∃ oks, parseGsvAll abi pview (ms.map fun m => m.input) = some (oks, c.listed) ∧
        ∀ ok ∈ oks, ok = true) ↔ c.signal = true ∨ c.sats.length % 4 ≠ 1 := by
  have hcount : ms.length = messagesFor c.sats := by
    have := congrArg List.length horder
    rwa [List.length_map, List.length_range'] at this
  have hpos : 1 ≤ messagesFor c.sats := Nat.le_max_left _ _
  constructor
  · rintro ⟨oks, hrun, htrue⟩
    by_contra hnone
    have hsignal : c.signal = false := Bool.not_eq_true _ ▸ fun h => hnone (.inl h)
    have hone : c.sats.length % 4 = 1 := by
      by_contra h
      exact hnone (.inr h)
    -- the last message carries one satellite
    have hlast : messagesFor c.sats ∈ ms.map fun m => m.position := by
      rw [horder, List.mem_range'_1]
      omega
    obtain ⟨m, hm, hposition⟩ := List.mem_map.mp hlast
    have hpart := m.length_part
    have hsingle : (partOf c.sats m.position).length = 1 := by
      unfold messagesFor at hposition
      omega
    have hfalse := refused_mem (List.mem_map_of_mem hm) (m.refused hsignal hsingle) hrun
    exact absurd (htrue false hfalse) Bool.noConfusion
  · intro hgood
    have hsignal : ∀ m ∈ ms, c.signal = true ∨ (partOf c.sats m.position).length ≠ 1 := by
      intro m _
      refine hgood.imp_right fun hmod => ?_
      have hpart := m.length_part
      omega
    have hne : ms ≠ [] := List.length_pos_iff.mp (by omega)
    have hrun := @gpsCycle_run abi c ms hsignal 0 (hcount ▸ horder) pview (.inl rfl) (.inl hne)
    rw [Nat.zero_add, hcount, upTo_listed] at hrun
    exact ⟨_, hrun, fun ok hok => List.eq_of_mem_replicate hok⟩

theorem leadingNat_one : leadingNat 10 (cstr "1") = 1 := by decide

theorem leadingNat_two : leadingNat 10 (cstr "2") = 2 := by decide

theorem numbers_two : ∀ f ∈ [cstr "2", cstr "2", cstr "05"], NumberText f := by decide

/-- Five satellites, with a signal id in each message. -/
def fiveView : GpsView where
  sats := fiveSats.sats
  pos := by decide
  few := by decide
  inRange := by decide
  signal := true

def gpsFirst : GpsMessage fiveView where
  position := 1
  position_ge := Nat.one_pos
  position_le := by decide
  count := cstr "2"
  index := cstr "1"
  inview := cstr "05"
  numbers := by decide
  count_eq := by decide
  index_eq := leadingNat_one
  inview_eq := by decide
  signalId := some (cstr "1")
  signal_eq := rfl
  signal_text := by decide
  input := cstr ",2,1,05,1,40,83,46,2,17,308,41,12,07,344,39,14,22,228,45,1*55\r\n"
  after := cstr "55\r\n"
  input_eq := by decide

def gpsSecond : GpsMessage fiveView where
  position := 2
  position_ge := Nat.two_pos
  position_le := by decide
  count := cstr "2"
  index := cstr "2"
  inview := cstr "05"
  numbers := numbers_two
  count_eq := by decide
  index_eq := leadingNat_two
  inview_eq := by decide
  signalId := some (cstr "1")
  signal_eq := rfl
  signal_text := by decide
  input := cstr ",2,2,05,22,,,,1*61\r\n"
  after := cstr "61\r\n"
  input_eq := by decide

theorem gpsCycle_iff_five :
    ∃ oks, parseGsvAll ⟨false, 32, le_rfl⟩ {} [gpsFirst.input, gpsSecond.input] =
        some (oks, fiveView.listed) ∧ ∀ ok ∈ oks, ok = true := by
  have horder : [gpsFirst, gpsSecond].map (fun m => m.position) =
      List.range' 1 (messagesFor fiveView.sats) := by decide
  exact (gpsCycle_iff ⟨false, 32, le_rfl⟩ horder {}).mpr (.inl rfl)

/-- One satellite, without a signal id. -/
def singleView : GpsView where
  sats := [⟨cstr "05", cstr "40", cstr "090", cstr "30"⟩]
  pos := Nat.one_pos
  few := by decide
  inRange := by decide
  signal := false

def singleMessage : GpsMessage singleView where
  position := 1
  position_ge := Nat.one_pos
  position_le := by decide
  count := cstr "1"
  index := cstr "1"
  inview := cstr "1"
  numbers := by decide
  count_eq := by decide
  index_eq := leadingNat_one
  inview_eq := by decide
  signalId := none
  signal_eq := rfl
  signal_text := nofun
  input := cstr ",1,1,1,05,40,090,30*73\r\n"
  after := cstr "73\r\n"
  input_eq := by decide

/-- Its only message is refused. -/
theorem single_refused :
    parseGsvAll ⟨false, 32, le_rfl⟩ {} ([singleMessage].map fun m => m.input) = some ([false], {}) ∧
      ¬ ∃ oks, parseGsvAll ⟨false, 32, le_rfl⟩ {} ([singleMessage].map fun m => m.input) =
          some (oks, singleView.listed) ∧ ∀ ok ∈ oks, ok = true := by
  have hrefused := @GpsMessage.refused ⟨false, 32, le_rfl⟩ singleView singleMessage rfl rfl
  have hrun : parseGsvAll ⟨false, 32, le_rfl⟩ {} ([singleMessage].map fun m => m.input) =
      some ([false], {}) := by
    rw [List.map_singleton, parseGsvAll, hrefused]
    rfl
  refine ⟨hrun, ?_⟩
  rintro ⟨oks, hoks, htrue⟩
  rw [hrun] at hoks
  have hmem : oks = [false] := (Prod.mk.inj (Option.some.inj hoks)).1.symm
  exact absurd (htrue false (hmem ▸ List.mem_cons_self)) Bool.noConfusion

end RttNmea
