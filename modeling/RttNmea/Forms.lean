import RttNmea.DateTime
import Mathlib.Data.List.Forall2

/-!
# Sentences field by field

GGA, GSA and GSV sentences given by their fields, any of which may be null (empty), and what
the field parsers make of them: a null field is counted like any other and leaves zero in
its member. Only a null time makes a GGA sentence be refused.
-/

namespace RttNmea

open CText

variable {D : Type} [CDouble D] {abi : Abi}

instance (k : Conv) (f : List Byte) : Decidable (FieldText k f) :=
  decidable_of_iff (comma ∉ f ∧ star ∉ f ∧ (k = .chr → f.length ≤ 1))
    ⟨fun h => ⟨⟨h.1, h.2.2⟩, h.2.1⟩, fun h => ⟨h.no_comma, h.no_star, h.single⟩⟩

theorem FieldText.commaFields {ks : List Conv} {fs : List (List Byte)}
    (h : List.Forall₂ FieldText ks fs) : List.Forall₂ CommaField ks fs :=
  h.imp fun _ _ hf => hf.toCommaField

/-! ## What a field decodes to -/

def intField (abi : Abi) (f : List Byte) : Int32 := if f = [] then 0 else nmeaAtoi abi f 10

def dblField (f : List Byte) : D := if f = [] then CDouble.zero else nmeaAtof f

def chrField (f : List Byte) : Byte := f.headD 0

theorem intAt_stores {args : List (Option (Stored D))} {i : Nat} {f : List Byte}
    (h : args[i]? = some (stores abi .int f)) : intAt args i 0 = intField abi f := by
  unfold intAt intField
  rw [h, stores, stored]
  by_cases hf : f = []
  · rw [if_pos hf, if_pos hf]
  · rw [if_neg hf, if_neg hf]
    rfl

theorem dblAt_stores {args : List (Option (Stored D))} {i : Nat} {f : List Byte}
    (h : args[i]? = some (stores abi .dbl f)) : dblAt args i = dblField f := by
  unfold dblAt dblField
  rw [h, stores, stored]
  by_cases hf : f = []
  · rw [if_pos hf, if_pos hf]
  · rw [if_neg hf, if_neg hf]
    rfl

omit [CDouble D] in
theorem chrAt_stores [CDouble D] {args : List (Option (Stored D))} {i : Nat} {f : List Byte}
    (h : args[i]? = some (stores abi .chr f)) : chrAt args i = chrField f := by
  unfold chrAt chrField
  rw [h, stores, stored]
  by_cases hf : f = []
  · rw [if_pos hf, hf]
    rfl
  · rw [if_neg hf]
    rfl

/-- Fields set off by commas. -/
def joined : List (List Byte) → List Byte
  | [] => []
  | [f] => f
  | f :: fs => f ++ comma :: joined fs

/-- A sentence: header, fields, '*', checksum, CR LF. -/
def sentenceOf (head : List Byte) (fields : List (List Byte)) (h1 h2 : Byte) : List Byte :=
  head ++ (joined fields ++ [star, h1, h2, cr, lf])

theorem joined_append (init : List (List Byte)) {fields : List (List Byte)} (hne : fields ≠ []) :
    joined (init ++ fields) = commaText init ++ joined fields := by
  induction init with
  | nil => rfl
  | cons f init ih =>
    have hcons : joined (f :: (init ++ fields)) = f ++ comma :: joined (init ++ fields) := by
      cases init with
      | nil =>
        cases fields with
        | nil => exact absurd rfl hne
        | cons g gs => rfl
      | cons g init => rfl
    rw [List.cons_append, hcons, ih]
    simp [commaText]

theorem joined_snoc (init : List (List Byte)) (last : List Byte) :
    joined (init ++ [last]) = commaText init ++ last :=
  joined_append init (List.cons_ne_nil _ _)

theorem forall₂_snoc {ks : List Conv} {k : Conv} {fields : List (List Byte)}
    (h : List.Forall₂ FieldText (ks ++ [k]) fields) :
    ∃ init last, fields = init ++ [last] ∧ List.Forall₂ FieldText ks init ∧ FieldText k last := by
  have hinit := List.forall₂_take ks.length h
  have hlast := List.forall₂_drop ks.length h
  rw [List.take_left] at hinit
  rw [List.drop_left] at hlast
  obtain ⟨last, rest, hk, hrest, hdrop⟩ := List.forall₂_cons_left_iff.mp hlast
  rw [List.forall₂_nil_left_iff.mp hrest] at hdrop
  exact ⟨_, last, by rw [← hdrop, List.take_append_drop], hinit, hk⟩

/-- Every field of a format without widths is counted and stored, null or not. -/
theorem scan_row {head : List Byte} {ks : List Conv} {k : Conv} {fields : List (List Byte)}
    (h : List.Forall₂ FieldText (ks ++ [k]) fields) (h1 h2 : Byte) :
    (scanItems abi (rowOf head ks k) (sentenceOf head fields h1 h2) :
        Nat × List (Option (Stored D))) =
      (ks.length + 1, List.zipWith (stores abi) (ks ++ [k]) fields) := by
  obtain ⟨init, last, rfl, hinit, hlast⟩ := forall₂_snoc h
  unfold rowOf sentenceOf
  rw [joined_snoc, List.append_assoc, scan_lits,
    scan_commas (FieldText.commaFields hinit), scan_last hlast,
    List.zipWith_append hinit.length_eq]
  rfl

theorem zipWith_stores {ks : List Conv} {fs : List (List Byte)} {k : Conv} {f : List Byte}
    {i : Nat} (hk : ks[i]? = some k) (hf : fs[i]? = some f) :
    (List.zipWith (stores abi) ks fs)[i]? = some (stores abi k f : Option (Stored D)) := by
  rw [List.getElem?_zipWith, hk, hf]

/-! ## The time field -/

def timeText : Option Clock → List Byte
  | none => []
  | some c => c.text

/-- The time a null time field leaves, or another one sets. -/
def timeOf : Option Clock → Time → Time
  | none, res => res
  | some c, res => c.set res

theorem clock_ne_nil (c : Clock) : c.text ≠ [] := List.cons_ne_nil _ _

/-- With a zeroed time_buff the time is read just when there is one. -/
theorem parseTime_field (time : Option Clock) (res : Time)
    {args : List (Option (Stored D))} (hargs : args.head? = some (stores abi .str (timeText time))) :
    nmeaParseTime D abi
        (text (timeBuffAfter (List.replicate nmeaTimeParseBuf 0) args)) res =
      (if time = none then -1 else 0, timeOf time res) := by
  cases time with
  | none =>
    have hkept : timeBuffAfter (List.replicate nmeaTimeParseBuf 0) args =
        List.replicate nmeaTimeParseBuf 0 := by
      unfold timeBuffAfter
      rw [hargs]
      rfl
    rw [hkept, text_replicate_zero]
    rfl
  | some c =>
    have hstored : (stores abi .str (timeText (some c)) : Option (Stored D)) = some (.str c.text) := by
      rw [stores, stored]
      exact if_neg (clock_ne_nil c)
    have htext : text (timeBuffAfter (List.replicate nmeaTimeParseBuf 0) args) = c.text := by
      unfold timeBuffAfter
      rw [hargs, hstored]
      exact text_append_zero c.no_nul _
    rw [htext, parseTime_clock]
    rfl

/-! ## GGA -/

structure GgaFields where
  time : Option Clock
  lat : List Byte
  ns : List Byte
  lon : List Byte
  ew : List Byte
  sig : List Byte
  satinuse : List Byte
  hdop : List Byte
  elv : List Byte
  elvUnits : List Byte
  diff : List Byte
  diffUnits : List Byte
  dgpsAge : List Byte
  dgpsSid : List Byte

namespace GgaFields

def fields (f : GgaFields) : List (List Byte) :=
  [timeText f.time, f.lat, f.ns, f.lon, f.ew, f.sig, f.satinuse, f.hdop, f.elv, f.elvUnits, f.diff,
    f.diffUnits, f.dgpsAge, f.dgpsSid]

def kinds : List Conv :=
  [.str, .dbl, .chr, .dbl, .chr, .int, .int, .dbl, .dbl, .chr, .dbl, .chr, .dbl] ++ [.int]

def WellFormed (f : GgaFields) : Prop := List.Forall₂ FieldText kinds f.fields

instance (f : GgaFields) : Decidable f.WellFormed :=
  inferInstanceAs (Decidable (List.Forall₂ _ _ _))

def text (f : GgaFields) (h1 h2 : Byte) : List Byte := sentenceOf (cstr "$GPGGA,") f.fields h1 h2

/-- Each field in its own member. -/
def packet (abi : Abi) (f : GgaFields) : Gga D :=
  { utc := timeOf f.time {}, lat := dblField f.lat, ns := chrField f.ns, lon := dblField f.lon
    ew := chrField f.ew, sig := intField abi f.sig, satinuse := intField abi f.satinuse
    hdop := dblField f.hdop, elv := dblField f.elv, elvUnits := chrField f.elvUnits
    diff := dblField f.diff, diffUnits := chrField f.diffUnits, dgpsAge := dblField f.dgpsAge
    dgpsSid := intField abi f.dgpsSid }

/-- A GGA sentence is accepted unless its time is null, and every field is decoded. -/
theorem parse {f : GgaFields} (h : f.WellFormed) (h1 h2 : Byte) :
    (nmeaParseGga abi (List.replicate nmeaTimeParseBuf 0) (f.text h1 h2) : Int32 × Gga D).1 =
        (if f.time = none then 0 else 1) ∧
      (f.time ≠ none →
        (nmeaParseGga abi (List.replicate nmeaTimeParseBuf 0) (f.text h1 h2)).2 =
          (f.packet abi : Gga D)) := by
  let args : List (Option (Stored D)) := List.zipWith (stores abi) kinds f.fields
  have hscan : nmeaScanf abi (f.text h1 h2) ggaFormat = (14, args) := by
    rw [scanf_gga]
    exact scan_row h h1 h2
  have htime : nmeaParseTime D abi
      (CText.text (timeBuffAfter (List.replicate nmeaTimeParseBuf 0) args)) {} =
      (if f.time = none then -1 else 0, timeOf f.time {}) := parseTime_field f.time {} rfl
  have hcount : ¬ (14 ≠ 14) := fun h => h rfl
  unfold nmeaParseGga ggaBody
  simp only [hscan, if_neg hcount, htime]
  by_cases hnull : f.time = none
  · rw [if_pos hnull, if_pos hnull]
    exact ⟨rfl, fun h => absurd hnull h⟩
  · rw [if_neg hnull, if_neg hnull]
    refine ⟨rfl, fun _ => ?_⟩
    simp only [success, packet, Gga.mk.injEq]
    exact ⟨trivial, dblAt_stores rfl, chrAt_stores rfl, dblAt_stores rfl, chrAt_stores rfl,
      intAt_stores rfl, intAt_stores rfl, dblAt_stores rfl, dblAt_stores rfl, chrAt_stores rfl,
      dblAt_stores rfl, chrAt_stores rfl, dblAt_stores rfl, intAt_stores rfl⟩

end GgaFields

/-! ## GSA -/

structure GsaFields where
  fixMode : List Byte
  fixType : List Byte
  satPrn : Vector (List Byte) nmeaMaxSat
  pdop : List Byte
  hdop : List Byte
  vdop : List Byte

namespace GsaFields

def fields (f : GsaFields) : List (List Byte) :=
  f.fixMode :: f.fixType :: (f.satPrn.toList ++ [f.pdop, f.hdop, f.vdop])

def kinds : List Conv := .chr :: List.replicate 13 .int ++ [.dbl, .dbl] ++ [.dbl]

def WellFormed (f : GsaFields) : Prop := List.Forall₂ FieldText kinds f.fields

instance (f : GsaFields) : Decidable f.WellFormed :=
  inferInstanceAs (Decidable (List.Forall₂ _ _ _))

def text (f : GsaFields) (h1 h2 : Byte) : List Byte := sentenceOf (cstr "$GPGSA,") f.fields h1 h2

def packet (abi : Abi) (f : GsaFields) : Gsa D :=
  { fixMode := chrField f.fixMode, fixType := intField abi f.fixType
    satPrn := f.satPrn.map (intField abi)
    pdop := dblField f.pdop, hdop := dblField f.hdop, vdop := dblField f.vdop }

/-- A GSA sentence is accepted, and every field is decoded. -/
theorem parse {f : GsaFields} (h : f.WellFormed) (h1 h2 : Byte) :
    (nmeaParseGsa abi (f.text h1 h2) : Int32 × Gsa D) = (1, f.packet abi) := by
  let args : List (Option (Stored D)) := List.zipWith (stores abi) kinds f.fields
  have hscan : nmeaScanf abi (f.text h1 h2) gsaFormat = (17, args) := by
    rw [scanf_gsa]
    exact scan_row h h1 h2
  have hlen : f.satPrn.toList.length = 12 := f.satPrn.length_toList
  have hprn : ∀ i (hi : i < 12), args[2 + i]? = some (stores abi .int f.satPrn[i]) := by
    intro i hi
    have hkind : ∀ i < 12, kinds[2 + i]? = some .int := by decide
    apply zipWith_stores (hkind i hi)
    rw [fields, Nat.add_comm, List.getElem?_cons_succ, List.getElem?_cons_succ,
      List.getElem?_append_left (by omega), Vector.getElem?_toList]
    exact Vector.getElem?_eq_getElem hi
  have hdbl : ∀ i < 3, args[14 + i]? =
      some (stores abi .dbl ([f.pdop, f.hdop, f.vdop][i]?.getD [])) := by
    intro i hi
    have hkind : ∀ i < 3, kinds[14 + i]? = some .dbl := by decide
    apply zipWith_stores (hkind i hi)
    rw [fields, show 14 + i = 12 + i + 1 + 1 by omega, List.getElem?_cons_succ,
      List.getElem?_cons_succ, List.getElem?_append_right (by omega), hlen,
      Nat.add_sub_cancel_left, List.getElem?_eq_getElem hi]
    rfl
  unfold nmeaParseGsa gsaBody
  simp only [hscan, beq_self_eq_true, success, ↓reduceIte, packet, Prod.mk.injEq, Gsa.mk.injEq,
    true_and]
  refine ⟨chrAt_stores rfl, intAt_stores rfl, ?_, dblAt_stores (hdbl 0 (by decide)),
    dblAt_stores (hdbl 1 (by decide)), dblAt_stores (hdbl 2 (by decide))⟩
  apply Vector.ext
  intro i hi
  rw [Vector.getElem_ofFn, Vector.getElem_map]
  exact intAt_stores (hprn i hi)

end GsaFields

/-! ## GSV -/

structure SatFields where
  id : List Byte
  elv : List Byte
  azimuth : List Byte
  sig : List Byte

def SatFields.fields (s : SatFields) : List (List Byte) := [s.id, s.elv, s.azimuth, s.sig]

def SatFields.satellite (abi : Abi) (s : SatFields) : Satellite :=
  { id := intField abi s.id, elv := intField abi s.elv, azimuth := intField abi s.azimuth
    sig := intField abi s.sig }

structure GsvFields where
  count : List Byte
  index : List Byte
  inview : List Byte
  sats : List SatFields

namespace GsvFields

def fields (f : GsvFields) : List (List Byte) :=
  f.count :: f.index :: f.inview :: f.sats.flatMap SatFields.fields

def text (f : GsvFields) (h1 h2 : Byte) : List Byte := sentenceOf (cstr "$GPGSV,") f.fields h1 h2

/-- The last field, behind which the '*' stands. -/
def last (f : GsvFields) : List Byte := (f.sats.getLast?.map SatFields.sig).getD f.inview

/-- The sentence carries the satellites that are left for it: four, or what remains of the
satellites in view after four in each sentence before it. -/
def Consistent (abi : Abi) (f : GsvFields) : Prop :=
  let index := (intField abi f.index).toInt
  let inview := (intField abi f.inview).toInt
  1 ≤ index ∧ (f.sats.length : Int) = min 4 (inview - 4 * (index - 1))

structure WellFormed (abi : Abi) (f : GsvFields) : Prop where
  fields : ∀ x ∈ f.fields, FieldText .int x
  consistent : f.Consistent abi

/-- The code reads the last field as it is: there are four satellites, or the field fits in
the buffer of nmea_atoi together with the '*' and what follows it. -/
def LastFits (abi : Abi) (f : GsvFields) : Prop :=
  f.sats.length = 4 ∨ f.last.length + 5 < nmeaConvStrBuf ∨ intField abi f.last = 0

/-- The number of satellites to carry is computed without overflow. -/
def IndexFits (abi : Abi) (f : GsvFields) : Prop := 4 * (intField abi f.index).toInt < 2 ^ 31

def packet (abi : Abi) (f : GsvFields) : Gsv :=
  { packCount := intField abi f.count, packIndex := intField abi f.index
    satCount := intField abi f.inview
    satData := Vector.ofFn fun i => f.sats[i.val]?.elim {} (SatFields.satellite abi) }

end GsvFields

theorem hex_no_comma {b : Byte} (h : isDigitOf 16 b = true) : b ≠ comma := by
  rintro rfl
  exact absurd h (by decide)

theorem stops_comma : Stops 10 comma :=
  { digit := by decide, space := by decide, minus := by decide, plus := by decide
    nul := by decide }

theorem stops_star : Stops 10 star :=
  { digit := by decide, space := by decide, minus := by decide, plus := by decide
    nul := by decide }

/-- A '*' ends a number. -/
theorem atoi_star {f tail : List Byte} (hlen : (f ++ star :: tail).length < nmeaConvStrBuf) :
    nmeaAtoi abi (f ++ star :: tail) 10 = intField abi f := by
  have hshort : f.length < nmeaConvStrBuf := by
    rw [List.length_append] at hlen
    omega
  rw [nmeaAtoi, if_pos hlen, strtol_stop abi (by decide) stops_star, intField]
  by_cases hf : f = []
  · subst hf
    have hzero : strtol abi 10 [] = 0 := by
      have := @strtol_digits abi [] (fun b hb => absurd hb List.not_mem_nil) (by decide)
      rw [this]
      rfl
    rw [if_pos rfl, hzero]
    rfl
  · rw [if_neg hf, nmeaAtoi, if_pos hshort]

/-- The last field of a short sentence takes the tail with it. -/
theorem scan_cut (items : List Item) {rest : List Byte} (hcomma : comma ∉ rest) (hne : rest ≠ []) :
    (scanItems abi (.field .int :: .lit comma :: items) rest : Nat × List (Option (Stored D))) =
      (1, [stores abi .int rest]) := by
  have hsize : fieldSize .int ((formatOf (.lit comma :: items)).headD 0) rest = rest.length :=
    List.idxOf_of_notMem hcomma
  rw [scanItems, if_neg hne, hsize]
  dsimp only
  rw [List.take_length, List.drop_length]
  rfl

omit [CDouble D] in
theorem intAt_beyond {args : List (Option (Stored D))} {i : Nat} (h : args.length ≤ i) :
    intAt args i 0 = 0 := by
  unfold intAt
  rw [List.getElem?_eq_none h]

/-- What fields of numbers store. -/
theorem intAt_fields {n i : Nat} {fs : List (List Byte)} (hlen : fs.length = n) :
    intAt (List.zipWith (stores (D := D) abi) (List.replicate n .int) fs) i 0 =
      intField abi (fs[i]?.getD []) := by
  by_cases hi : i < n
  · have hget : fs[i]? = some fs[i] := List.getElem?_eq_getElem (by omega)
    rw [hget]
    apply intAt_stores
    apply zipWith_stores
    · rw [List.getElem?_replicate, if_pos hi]
    · exact hget
  · rw [intAt_beyond (by simp; omega), List.getElem?_eq_none (by omega)]
    rfl

/-- What the code reads of the last field of a sentence that is not full. -/
theorem intField_star {f : List Byte} (h1 h2 : Byte) :
    intField abi (f ++ [star, h1, h2, cr, lf]) =
      if f.length + 5 < nmeaConvStrBuf then intField abi f else 0 := by
  have hlen : (f ++ [star, h1, h2, cr, lf]).length = f.length + 5 := by simp
  have hne : f ++ [star, h1, h2, cr, lf] ≠ [] := by simp
  rw [intField, if_neg hne]
  by_cases hfits : f.length + 5 < nmeaConvStrBuf
  · rw [if_pos hfits]
    exact atoi_star (by omega)
  · rw [if_neg hfits, nmeaAtoi, if_neg (by omega)]

/-- Fields of a row of numbers. -/
theorem int_fields {fs : List (List Byte)} (h : ∀ f ∈ fs, FieldText .int f) :
    List.Forall₂ FieldText (List.replicate fs.length .int) fs := by
  induction fs with
  | nil => exact .nil
  | cons f fs ih =>
    exact .cons (h f List.mem_cons_self) (ih fun g hg => h g (List.mem_cons_of_mem _ hg))

/-- A GSV sentence of up to 19 fields: all of them are counted and read, the last one of a
sentence that is not full up to the end of the buffer. -/
theorem scan_gsv {init : List (List Byte)} {last : List Byte} (hmax : init.length ≤ 18)
    (hfields : ∀ f ∈ init ++ [last], FieldText .int f) {h1 h2 : Byte} (hex1 : h1 ≠ comma)
    (hex2 : h2 ≠ comma) :
    ∃ args : List (Option (Stored D)),
      nmeaScanf abi (sentenceOf (cstr "$GPGSV,") (init ++ [last]) h1 h2) gsvFormat =
        (init.length + 1, args) ∧
      ∀ i, intAt args i 0 = intField abi ((init ++ [if init.length = 18 then last else
        last ++ [star, h1, h2, cr, lf]])[i]?.getD []) := by
  have hlen : (init ++ [last]).length = init.length + 1 := List.length_append
  rw [scanf_gsv]
  by_cases hfull : init.length = 18
  · rw [if_pos hfull]
    refine ⟨_, ?_, fun i => intAt_fields rfl⟩
    have hkinds : List.replicate (init ++ [last]).length Conv.int =
        List.replicate 18 .int ++ [.int] := by
      rw [hlen, hfull]
      rfl
    have hforall := int_fields hfields
    rw [hkinds] at hforall
    rw [hkinds, hfull]
    exact scan_row hforall h1 h2
  · -- the last field is read up to the end of the buffer
    rw [if_neg hfull]
    let rest := last ++ [star, h1, h2, cr, lf]
    have hlast := hfields last (List.mem_append_right _ List.mem_cons_self)
    have hcomma : comma ∉ rest := by
      have hstar : comma ≠ star := by decide
      have hcr : comma ≠ cr := by decide
      have hlf : comma ≠ lf := by decide
      simp only [rest, List.mem_append, List.mem_cons, List.not_mem_nil, or_false, not_or]
      exact ⟨hlast.no_comma, hstar, hex1.symm, hex2.symm, hcr, hlf⟩
    have hitems : gsvRow = (cstr "$GPGSV,").map Item.lit ++
        (commaItems (List.replicate init.length .int) ++ (.field .int :: .lit comma ::
          (commaItems (List.replicate (17 - init.length) .int) ++ [.field .int, .lit star]))) := by
      have hsplit : List.replicate 18 Conv.int = List.replicate init.length .int ++
          (.int :: List.replicate (17 - init.length) .int) := by
        have h18 : init.length + (17 - init.length + 1) = 18 := by omega
        rw [← List.replicate_succ, List.replicate_append_replicate, h18]
      rw [gsvRow, rowOf, hsplit, commaItems, List.flatMap_append, List.append_assoc]
      rfl
    have hfront := int_fields fun f hf => hfields f (List.mem_append_left _ hf)
    refine ⟨List.zipWith (stores abi) (List.replicate (init.length + 1) .int) (init ++ [rest]),
      ?_, fun i => intAt_fields (by simp)⟩
    rw [hitems, sentenceOf, joined_snoc, List.append_assoc, scan_lits,
      scan_commas (FieldText.commaFields hfront),
      scan_cut _ hcomma (by simp [rest]), List.length_replicate, List.replicate_succ',
      List.zipWith_append hfront.length_eq]
    rfl

/-- The fields of the satellites follow one another. -/
theorem sats_field (sats : List SatFields) (i : Nat) {j : Nat} (hj : j < 4) :
    (sats.flatMap SatFields.fields)[4 * i + j]? = sats[i]?.bind fun s => s.fields[j]? := by
  induction sats generalizing i with
  | nil => rfl
  | cons s sats ih =>
    have hlen : s.fields.length = 4 := rfl
    rw [List.flatMap_cons]
    cases i with
    | zero =>
      rw [Nat.mul_zero, Nat.zero_add, List.getElem?_append_left (by omega)]
      rfl
    | succ i =>
      rw [List.getElem?_append_right (by omega), hlen,
        show 4 * (i + 1) + j - 4 = 4 * i + j by omega, ih]
      rfl

/-- The code's count of the satellites to carry is that of a consistent sentence. -/
theorem gsvNsat_consistent {index inview : Int32} {k : Nat} (h1 : 1 ≤ index.toInt)
    (hmax : 4 * index.toInt < 2 ^ 31)
    (hk : (k : Int) = min 4 (inview.toInt - 4 * (index.toInt - 1))) :
    gsvNsat index inview = Int32.ofNat k := by
  have hone : (1 : Int32).toInt = 1 := by decide
  have hfour : (4 : Int32).toInt = 4 := by decide
  have hprev : (index - 1).toInt = index.toInt - 1 := by
    rw [Int32.toInt_sub, hone, Int.bmod_eq_of_le (by omega) (by omega)]
  have hstart : ((index - 1) * 4).toInt = 4 * (index.toInt - 1) := by
    rw [Int32.toInt_mul, hprev, hfour, Int.bmod_eq_of_le (by omega) (by omega)]
    omega
  have hnext : ((index - 1) * 4 + 4).toInt = 4 * (index.toInt - 1) + 4 := by
    rw [Int32.toInt_add, hstart, hfour, Int.bmod_eq_of_le (by omega) (by omega)]
  have hk31 : k < 2 ^ 31 := by omega
  apply Int32.toInt_inj.mp
  rw [Int32.toInt_ofNat_of_lt hk31]
  unfold gsvNsat
  dsimp only
  split
  · rename_i hmore
    have hlt := Int32.lt_iff_toInt_lt.mp hmore
    rw [hnext] at hlt
    rw [Int32.toInt_sub, hstart, Int.bmod_eq_of_le (by omega) (by omega)]
    omega
  · rename_i hfit
    have hge : ¬ inview.toInt < 4 * (index.toInt - 1) + 4 := by
      rw [← hnext]
      exact fun hlt => hfit (Int32.lt_iff_toInt_lt.mpr hlt)
    omega

/-- Past that there is an overflow, and the code asks for four satellites. -/
theorem gsvNsat_overflow {index inview : Int32} {k : Nat}
    (hmax : 2 ^ 31 ≤ 4 * index.toInt) (hk : (k : Int) = min 4 (inview.toInt - 4 * (index.toInt - 1))) :
    k < 4 ∧ gsvNsat index inview = 4 := by
  have htop := inview.toInt_lt
  have hstart : index.toInt = 2 ^ 29 := by omega
  have hindex : index = 2 ^ 29 := Int32.toInt_inj.mp hstart
  subst hindex
  have hmin : (((2 ^ 29 : Int32) - 1) * 4 + 4).toInt = -2 ^ 31 := by decide
  refine ⟨by omega, ?_⟩
  unfold gsvNsat
  dsimp only
  rw [if_neg]
  intro hmore
  have hlt := Int32.lt_iff_toInt_lt.mp hmore
  have hlow := inview.le_toInt
  omega

namespace GsvFields

variable {f : GsvFields}

/-- The fields in front of the last. -/
def init (f : GsvFields) : List (List Byte) := f.fields.dropLast

theorem length_fields (f : GsvFields) : f.fields.length = 3 + 4 * f.sats.length := by
  simp [fields, SatFields.fields, List.length_flatMap]
  omega

theorem length_init (f : GsvFields) : f.init.length = 2 + 4 * f.sats.length := by
  rw [init, List.length_dropLast, length_fields]
  omega

theorem fields_split (f : GsvFields) : f.fields = f.init ++ [f.last] := by
  have hlast : f.fields.getLast? = some f.last := by
    unfold fields last
    rcases List.eq_nil_or_concat' f.sats with hsats | ⟨sats, s, hsats⟩
    · rw [hsats]
      rfl
    · have htail : f.count :: f.index :: f.inview :: (sats ++ [s]).flatMap SatFields.fields =
          (f.count :: f.index :: f.inview :: sats.flatMap SatFields.fields ++
            [s.id, s.elv, s.azimuth]) ++ [s.sig] := by
        simp [SatFields.fields]
      rw [hsats, htail, List.getLast?_concat, List.getLast?_concat]
      rfl
  exact (List.dropLast_append_getLast? _ hlast).symm

/-- What the code takes for the last field. -/
def lastRead (f : GsvFields) (h1 h2 : Byte) : List Byte :=
  if f.sats.length = 4 then f.last else f.last ++ [star, h1, h2, cr, lf]

theorem lastRead_eq (abi : Abi) (f : GsvFields) (h1 h2 : Byte) :
    intField abi (f.lastRead h1 h2) = intField abi f.last ↔ f.LastFits abi := by
  unfold lastRead LastFits
  by_cases hfour : f.sats.length = 4
  · rw [if_pos hfour]
    exact iff_of_true rfl (.inl hfour)
  · rw [if_neg hfour, intField_star]
    by_cases hlen : f.last.length + 5 < nmeaConvStrBuf
    · rw [if_pos hlen]
      exact iff_of_true rfl (.inr (.inl hlen))
    · rw [if_neg hlen]
      simp only [hfour, hlen, false_or]
      exact eq_comm

/-- All fields of the sentence are counted, and all but the last are read as they are. -/
theorem scan (h : f.WellFormed abi) {h1 h2 : Byte} (hex1 : h1 ≠ comma) (hex2 : h2 ≠ comma) :
    ∃ args : List (Option (Stored D)),
      nmeaScanf abi (f.text h1 h2) gsvFormat = (3 + 4 * f.sats.length, args) ∧
      ∀ i, intAt args i 0 = intField abi ((f.init ++ [f.lastRead h1 h2])[i]?.getD []) := by
  have hmax : f.sats.length ≤ 4 := by
    have := h.consistent.2
    omega
  have hinit := f.length_init
  have hfields := h.fields
  rw [fields_split] at hfields
  obtain ⟨args, hscan, hargs⟩ := @scan_gsv D _ abi f.init f.last (by omega) hfields h1 h2 hex1 hex2
  refine ⟨args, ?_, fun i => ?_⟩
  · rw [text, fields_split, hscan, hinit]
    congr 1
    omega
  · have hfull : f.init.length = 18 ↔ f.sats.length = 4 := by omega
    rw [hargs, lastRead]
    simp only [hfull]

/-- If the last field fits, all of them are. -/
theorem scan_fits (h : f.WellFormed abi) (hlast : f.LastFits abi) {h1 h2 : Byte} (hex1 : h1 ≠ comma)
    (hex2 : h2 ≠ comma) :
    ∃ args : List (Option (Stored D)),
      nmeaScanf abi (f.text h1 h2) gsvFormat = (3 + 4 * f.sats.length, args) ∧
      ∀ i, intAt args i 0 = intField abi (f.fields[i]?.getD []) := by
  obtain ⟨args, hscan, hargs⟩ := @scan D _ abi f h h1 h2 hex1 hex2
  refine ⟨args, hscan, fun i => ?_⟩
  rw [hargs, fields_split]
  by_cases hi : i < f.init.length
  · rw [List.getElem?_append_left hi, List.getElem?_append_left hi]
  · rw [List.getElem?_append_right (by omega), List.getElem?_append_right (by omega)]
    cases i - f.init.length with
    | zero => exact (lastRead_eq abi f h1 h2).mpr hlast
    | succ j => rfl

/-- Then the packet is that of the fields, and accepted unless there is an overflow. -/
theorem parse (h : f.WellFormed abi) (hlast : f.LastFits abi) {h1 h2 : Byte} (hex1 : h1 ≠ comma)
    (hex2 : h2 ≠ comma) :
    (gsvBody D abi (f.text h1 h2)).2 = f.packet abi ∧
      ((gsvBody D abi (f.text h1 h2)).1 = true ↔ f.IndexFits abi) := by
  obtain ⟨hindex, hk⟩ := h.consistent
  obtain ⟨args, hscan, hargs⟩ := @scan_fits D _ abi f h hlast h1 h2 hex1 hex2
  have hcount : intAt args 0 0 = intField abi f.count := hargs 0
  have hidx : intAt args 1 0 = intField abi f.index := hargs 1
  have hview : intAt args 2 0 = intField abi f.inview := hargs 2
  have hsat : ∀ i j, j < 4 → intAt args (3 + j + 4 * i) 0 =
      intField abi ((f.sats[i]?.bind fun s => s.fields[j]?).getD []) := by
    intro i j hj
    have hget : f.fields[3 + j + 4 * i]? = (f.sats.flatMap SatFields.fields)[4 * i + j]? := by
      rw [show 3 + j + 4 * i = 4 * i + j + 1 + 1 + 1 by omega]
      rfl
    rw [hargs, hget, sats_field _ _ hj]
  have hdata : (Vector.ofFn fun i : Fin nmeaSatInPack =>
      ({ id := intAt args (3 + 4 * i) 0, elv := intAt args (4 + 4 * i) 0
         azimuth := intAt args (5 + 4 * i) 0, sig := intAt args (6 + 4 * i) 0 } : Satellite)) =
      (f.packet abi).satData := by
    apply Vector.ext
    intro i hi
    rw [Vector.getElem_ofFn, packet, Vector.getElem_ofFn]
    have h0 := hsat i 0 (by decide)
    have h1 := hsat i 1 (by decide)
    have h2 := hsat i 2 (by decide)
    have h3 := hsat i 3 (by decide)
    dsimp only
    rw [h0, h1, h2, h3]
    cases f.sats[i]? with
    | none => rfl
    | some s => rfl
  have hfour : f.sats.length ≤ 4 := by omega
  have haccepted : (gsvBody D abi (f.text h1 h2)).1 = true ↔
      ¬ (Int32.ofNat (3 + 4 * f.sats.length) <
          gsvNsat (intField abi f.index) (intField abi f.inview) * 4 + 3 ∨
        Int32.ofNat (3 + 4 * f.sats.length) > 4 * 4 + 3) := by
    unfold gsvBody
    simp only [hscan, hidx, hview, Bool.not_eq_true', Bool.or_eq_false_iff, decide_eq_false_iff_not,
      not_or]
  constructor
  · unfold gsvBody
    simp only [hscan, hcount, hidx, hview, hdata]
    rfl
  · rw [haccepted]
    by_cases hfits : f.IndexFits abi
    · have hcounted : ∀ k ≤ 4, ¬ (Int32.ofNat (3 + 4 * k) < Int32.ofNat k * 4 + 3 ∨
          Int32.ofNat (3 + 4 * k) > 4 * 4 + 3) := by decide
      rw [gsvNsat_consistent hindex hfits hk]
      exact iff_of_true (hcounted _ hfour) hfits
    · have hrefused : ∀ k < 4, Int32.ofNat (3 + 4 * k) < (4 : Int32) * 4 + 3 := by decide
      obtain ⟨hless, hnsat⟩ := gsvNsat_overflow (Int.not_lt.mp hfits) hk
      rw [hnsat]
      exact iff_of_false (not_not.mpr (.inl (hrefused _ hless))) hfits

/-- The member the last field goes to. -/
def lastMember (f : GsvFields) (pack : Gsv) : Int32 :=
  if f.sats = [] then pack.satCount else (pack.satData[f.sats.length - 1]?.getD {}).sig

theorem lastMember_packet (hfour : f.sats.length ≤ 4) :
    f.lastMember (f.packet abi) = intField abi f.last := by
  unfold lastMember last
  rcases List.eq_nil_or_concat' f.sats with hsats | ⟨sats, s, hsats⟩
  · rw [if_pos hsats, hsats]
    rfl
  · have hpos : sats.length < nmeaSatInPack := by
      rw [hsats, List.length_append] at hfour
      exact hfour
    have hne : ¬ f.sats = [] := by simp [hsats]
    rw [if_neg hne, packet]
    simp [hsats, hpos, SatFields.satellite]

theorem lastMember_read (h : f.WellFormed abi) {h1 h2 : Byte} (hex1 : h1 ≠ comma)
    (hex2 : h2 ≠ comma) :
    f.lastMember (gsvBody D abi (f.text h1 h2)).2 = intField abi (f.lastRead h1 h2) := by
  obtain ⟨args, hscan, hargs⟩ := @scan D _ abi f h h1 h2 hex1 hex2
  have hlast : intAt args (2 + 4 * f.sats.length) 0 = intField abi (f.lastRead h1 h2) := by
    rw [hargs, ← length_init, List.getElem?_concat_length]
    rfl
  have hfour : f.sats.length ≤ 4 := by
    have := h.consistent.2
    omega
  unfold lastMember gsvBody
  by_cases hsats : f.sats = []
  · rw [hsats] at hlast
    rw [if_pos hsats]
    simp only [hscan]
    exact hlast
  · have hpos : 0 < f.sats.length := List.length_pos_iff.mpr hsats
    have hi : f.sats.length - 1 < nmeaSatInPack := by
      unfold nmeaSatInPack
      omega
    have hindex : 6 + 4 * (f.sats.length - 1) = 2 + 4 * f.sats.length := by omega
    rw [if_neg hsats]
    simp only [hscan, Vector.getElem?_ofFn, dif_pos hi, Option.getD_some, hindex]
    exact hlast

/-- **A consistent sentence is accepted and decoded field by field exactly when its last field
and its index fit.** -/
theorem parse_iff (h : f.WellFormed abi) {h1 h2 : Byte} (hex1 : h1 ≠ comma) (hex2 : h2 ≠ comma) :
    nmeaParseGsv D abi (f.text h1 h2) = (1, f.packet abi) ↔ f.LastFits abi ∧ f.IndexFits abi := by
  have hfour : f.sats.length ≤ 4 := by
    have := h.consistent.2
    omega
  have hcode : nmeaParseGsv D abi (f.text h1 h2) = (1, f.packet abi) ↔
      (gsvBody D abi (f.text h1 h2)).1 = true ∧ (gsvBody D abi (f.text h1 h2)).2 = f.packet abi := by
    unfold nmeaParseGsv success
    rw [Prod.mk.injEq]
    cases (gsvBody D abi (f.text h1 h2)).1 <;> simp
  rw [hcode]
  constructor
  · rintro ⟨haccepted, hpack⟩
    have hlast : f.LastFits abi := by
      rw [← lastRead_eq abi f h1 h2, ← @lastMember_read D _ abi f h h1 h2 hex1 hex2, hpack]
      exact lastMember_packet hfour
    exact ⟨hlast, (parse h hlast hex1 hex2).2.mp haccepted⟩
  · rintro ⟨hlast, hindex⟩
    obtain ⟨hpack, haccepted⟩ := @parse D _ abi f h hlast h1 h2 hex1 hex2
    exact ⟨haccepted.mpr hindex, hpack⟩

end GsvFields

end RttNmea
