import RttNmea.Forms

/-!
# Null fields

A receiver leaves a field empty when it has no value for it. The field parsers are meant to
accept such a sentence, decode the fields that are there and leave zero in the members of the
others. They do, but for a null time, a null date, and the last field of an RMC sentence
without a mode.
-/

namespace RttNmea

open CText

variable {D : Type} [CDouble D] {abi : Abi}

/-! ## RMC -/

/-- The mode field is there or not; if it is there, it may be null like the others. -/
structure RmcFields where
  time : Option Clock
  status : List Byte
  lat : List Byte
  ns : List Byte
  lon : List Byte
  ew : List Byte
  speed : List Byte
  direction : List Byte
  date : Option Date
  declination : List Byte
  declinEw : List Byte
  mode : Option (List Byte)

def dateText : Option Date → List Byte
  | none => []
  | some d => d.text

def dateOf : Option Date → Time → Time
  | none, res => res
  | some d, res => d.set res

namespace RmcFields

/-- The fields in front of the date. -/
def front (f : RmcFields) : List (List Byte) :=
  [timeText f.time, f.status, f.lat, f.ns, f.lon, f.ew, f.speed, f.direction]

/-- The fields behind it. -/
def back (f : RmcFields) : List (List Byte) := f.declination :: f.declinEw :: f.mode.toList

structure WellFormed (f : RmcFields) : Prop where
  front : List.Forall₂ FieldText [.str, .chr, .dbl, .chr, .dbl, .chr, .dbl, .dbl] f.front
  back : List.Forall₂ FieldText (.dbl :: .chr :: f.mode.toList.map fun _ => .chr) f.back

def text (f : RmcFields) (h1 h2 : Byte) : List Byte :=
  sentenceOf (cstr "$GPRMC,") (f.front ++ dateText f.date :: f.back) h1 h2

/-- Each field in its own member. -/
def packet (f : RmcFields) : Rmc D :=
  { utc := dateOf f.date (timeOf f.time {}), status := chrField f.status, lat := dblField f.lat
    ns := chrField f.ns, lon := dblField f.lon, ew := chrField f.ew, speed := dblField f.speed
    direction := dblField f.direction, declination := dblField f.declination
    declinEw := chrField f.declinEw, mode := chrField (f.mode.getD []) }

/-- What the code takes for declin_ew: without a mode field, a null one is read as the '*'. -/
def ewRead (f : RmcFields) : List Byte :=
  if f.mode = none ∧ f.declinEw = [] then [star] else f.declinEw

end RmcFields

/-- The fields in front of the date are counted and stored. -/
theorem scan_rmc {f : RmcFields} (h : f.WellFormed) (h1 h2 : Byte) :
    (nmeaScanf abi (f.text h1 h2) rmcFormat : Nat × List (Option (Stored D))) =
      let r := scanItems abi dateItems
        (joined (dateText f.date :: f.back) ++ [star, h1, h2, cr, lf])
      (8 + r.1, List.zipWith (stores abi) [.str, .chr, .dbl, .chr, .dbl, .chr, .dbl, .dbl] f.front ++
        r.2) := by
  have hrow : rmcRow = (cstr "$GPRMC,").map Item.lit ++
    (commaItems [.str, .chr, .dbl, .chr, .dbl, .chr, .dbl, .dbl] ++ dateItems) := rfl
  rw [scanf_rmc, hrow, RmcFields.text, sentenceOf, joined_append _ (List.cons_ne_nil _ _),
    List.append_assoc, scan_lits, scan_commas (FieldText.commaFields h.front)]
  rfl

/-- "%C" before a comma that is not there takes one byte, the '*' if the field is null. -/
theorem scan_chr_star (items : List Item) {f : List Byte} (hf : FieldText .chr f)
    {tail : List Byte} (htail : tail.head? ≠ some comma) :
    (scanItems abi (.field .chr :: .lit comma :: items) (f ++ star :: tail) :
        Nat × List (Option (Stored D))) =
      (1, [stores abi .chr (if f = [] then [star] else f)]) := by
  have hstop : star ≠ comma := by decide
  have hsingle := hf.single rfl
  have one : ∀ (b : Byte) (rest : List Byte), b ≠ comma → rest.head? ≠ some comma →
      (scanItems abi (.field .chr :: .lit comma :: items) (b :: rest) :
        Nat × List (Option (Stored D))) = (1, [stores abi .chr [b]]) := by
    intro b rest hb hrest
    have hsize : fieldSize .chr ((formatOf (.lit comma :: items)).headD 0) (b :: rest) = 1 :=
      if_pos ⟨rfl, hb⟩
    have hend : (scanItems abi (.lit comma :: items) rest : Nat × List (Option (Stored D))) =
        (0, []) := by
      rw [scanItems, if_neg hrest]
    rw [scanItems, if_neg (List.cons_ne_nil _ _), hsize]
    dsimp only
    rw [List.drop_one, List.tail_cons, hend]
    rfl
  rcases f with _ | ⟨b, _ | ⟨c, f⟩⟩
  · exact one star tail hstop htail
  · apply one b (star :: tail)
    · exact fun e => hf.no_comma (e ▸ List.mem_cons_self)
    · exact fun e => hstop (Option.some.inj e)
  · simp at hsingle

/-- The fields behind the date, with or without a mode. -/
theorem scan_back {f : RmcFields} (h : f.WellFormed) {tail : List Byte}
    (htail : tail.head? ≠ some comma) :
    (scanItems abi backItems (joined f.back ++ star :: tail) : Nat × List (Option (Stored D))) =
      (2 + f.mode.toList.length, stores abi .dbl f.declination :: stores abi .chr f.ewRead ::
        f.mode.toList.map (stores abi .chr)) := by
  have hback := h.back
  unfold RmcFields.back at hback ⊢
  unfold RmcFields.ewRead
  cases hmode : f.mode with
  | none =>
    rw [hmode] at hback
    obtain ⟨_, _, hdecl, hrest, heq⟩ := List.forall₂_cons_left_iff.mp hback
    cases heq
    obtain ⟨_, _, hew, -, heq⟩ := List.forall₂_cons_left_iff.mp hrest
    cases heq
    have hitems : backItems =
        commaItems [.dbl] ++ (.field .chr :: .lit comma :: [.field .chr, .lit star]) := rfl
    have htext : joined (f.declination :: f.declinEw :: (none : Option (List Byte)).toList) ++
        star :: tail = commaText [f.declination] ++ (f.declinEw ++ star :: tail) := by
      simp [joined, commaText]
    rw [hitems, htext, scan_commas (.cons hdecl.toCommaField .nil), scan_chr_star _ hew htail]
    simp
  | some m =>
    rw [hmode] at hback
    obtain ⟨_, _, hdecl, hrest, heq⟩ := List.forall₂_cons_left_iff.mp hback
    cases heq
    obtain ⟨_, _, hew, hrest, heq⟩ := List.forall₂_cons_left_iff.mp hrest
    cases heq
    obtain ⟨_, _, hm, -, heq⟩ := List.forall₂_cons_left_iff.mp hrest
    cases heq
    have htext : joined (f.declination :: f.declinEw :: (some m).toList) ++ star :: tail =
        commaText [f.declination, f.declinEw] ++ (m ++ star :: tail) := by
      simp [joined, commaText]
    have hkept : ¬ (some m = none ∧ f.declinEw = []) := fun e => Option.some_ne_none m e.1
    rw [backItems, htext, scan_commas (.cons hdecl.toCommaField (.cons hew.toCommaField .nil)),
      scan_last hm, if_neg hkept]
    rfl

/-- A date that is not null is read, and so is everything behind it. -/
theorem scan_date {f : RmcFields} (h : f.WellFormed) (d : Date) {tail : List Byte}
    (htail : tail.head? ≠ some comma) :
    (scanItems abi dateItems (joined (d.text :: f.back) ++ star :: tail) :
        Nat × List (Option (Stored D))) =
      (5 + f.mode.toList.length, some (.int (Int32.ofNat d.day.value)) ::
        some (.int (Int32.ofNat d.mon.value)) :: some (.int (Int32.ofNat d.year.value)) ::
        stores abi .dbl f.declination :: stores abi .chr f.ewRead ::
        f.mode.toList.map (stores abi .chr)) := by
  have htext : joined (d.text :: f.back) ++ star :: tail = d.day.text ++ (d.mon.text ++
      (d.year.text ++ comma :: (joined f.back ++ star :: tail))) := by
    simp [RmcFields.back, joined, Date.text]
  rw [htext, dateItems, scan_two, scan_two, scan_two, scan_lit, scan_back h htail]
  simp only [Prod.mk.injEq, and_true]
  omega

theorem year_windowed {y : Nat} (h : y < 100) :
    (if Int32.ofNat y < 90 then Int32.ofNat y + 100 else Int32.ofNat y) =
      Int32.ofNat (if y < 90 then y + 100 else y) := by
  revert y
  decide

/-- The zeroed time_buff. -/
abbrev zeroBuff : List Byte := List.replicate nmeaTimeParseBuf 0

/-- An RMC sentence without a time is refused. -/
theorem rmc_null_time {f : RmcFields} (h : f.WellFormed) (h1 h2 : Byte) (htime : f.time = none) :
    (nmeaParseRmc abi zeroBuff (f.text h1 h2) : Int32 × Rmc D).1 = 0 := by
  let more := (scanItems (D := D) abi dateItems
    (joined (dateText f.date :: f.back) ++ [star, h1, h2, cr, lf])).2
  let args : List (Option (Stored D)) :=
    List.zipWith (stores abi) [.str, .chr, .dbl, .chr, .dbl, .chr, .dbl, .dbl] f.front ++ more
  have hscan : (nmeaScanf abi (f.text h1 h2) rmcFormat : Nat × List (Option (Stored D))).2 = args :=
    congrArg Prod.snd (scan_rmc h h1 h2)
  have hrefused : ∀ res, nmeaParseTime D abi (text (timeBuffAfter zeroBuff args)) res = (-1, res) := by
    intro res
    have := @parseTime_field D _ abi f.time res args rfl
    rw [htime] at this
    exact this
  have hneg : (-1 : Int32) ≠ 0 := by decide
  unfold nmeaParseRmc rmcBody
  simp only [hscan, hrefused, if_pos hneg]
  split <;> rfl

/-- With time and date, an RMC sentence is accepted and its fields are decoded. -/
theorem rmc_read {f : RmcFields} (h : f.WellFormed) {h1 h2 : Byte} (hex : h1 ≠ comma) {c : Clock}
    {d : Date} (htime : f.time = some c) (hdate : f.date = some d) :
    (nmeaParseRmc abi zeroBuff (f.text h1 h2) : Int32 × Rmc D) =
      (1, { f.packet with declinEw := chrField f.ewRead }) := by
  let args : List (Option (Stored D)) :=
    List.zipWith (stores abi) [.str, .chr, .dbl, .chr, .dbl, .chr, .dbl, .dbl] f.front ++
      (some (.int (Int32.ofNat d.day.value)) :: some (.int (Int32.ofNat d.mon.value)) ::
        some (.int (Int32.ofNat d.year.value)) :: stores abi .dbl f.declination ::
        stores abi .chr f.ewRead :: f.mode.toList.map (stores abi .chr))
  have htail : [h1, h2, cr, lf].head? ≠ some comma := fun e => hex (Option.some.inj e)
  have hscan : nmeaScanf abi (f.text h1 h2) rmcFormat = (8 + (5 + f.mode.toList.length), args) := by
    rw [scan_rmc h, hdate, dateText, scan_date h d htail]
  have hcount : ¬ (8 + (5 + f.mode.toList.length) ≠ 13 ∧ 8 + (5 + f.mode.toList.length) ≠ 14) := by
    cases f.mode with
    | none => exact fun e => e.1 rfl
    | some m => exact fun e => e.2 rfl
  have hclock : ∀ res, nmeaParseTime D abi (text (timeBuffAfter zeroBuff args)) res =
      (0, c.set res) := by
    intro res
    have := @parseTime_field D _ abi f.time res args rfl
    rw [htime] at this
    exact this
  have hmode : chrAt args 13 = chrField (f.mode.getD []) := by
    simp only [args]
    cases f.mode with
    | none => rfl
    | some m => exact chrAt_stores rfl
  have hutc : dateOf f.date (timeOf f.time {}) = d.set (c.set {}) := by rw [htime, hdate]; rfl
  have hok : ¬ ((0 : Int32) ≠ 0) := fun e => e rfl
  unfold nmeaParseRmc rmcBody
  simp only [hscan, if_neg hcount, hclock, if_neg hok, success, ↓reduceIte, RmcFields.packet, hutc,
    Prod.mk.injEq, true_and, Rmc.mk.injEq]
  refine ⟨?_, chrAt_stores rfl, dblAt_stores rfl, chrAt_stores rfl, dblAt_stores rfl,
    chrAt_stores rfl, dblAt_stores rfl, dblAt_stores rfl, dblAt_stores rfl, chrAt_stores rfl, hmode⟩
  have hyear := year_windowed d.year.value_lt
  rw [Date.set, ← hyear]
  rfl

theorem parseTime_year (buff : List Byte) (res : Time) :
    (nmeaParseTime D abi buff res).2.year = res.year := by
  unfold nmeaParseTime
  split
  · rfl
  · split <;> rfl

/-- Whatever is read as the date, the year of an accepted sentence is not zero. -/
theorem rmc_year {f : RmcFields} (h : f.WellFormed) (h1 h2 : Byte)
    (haccepted : (nmeaParseRmc abi zeroBuff (f.text h1 h2) : Int32 × Rmc D).1 = 1) :
    (nmeaParseRmc abi zeroBuff (f.text h1 h2) : Int32 × Rmc D).2.utc.year ≠ 0 := by
  have hzero : (0 : Int32) ≠ -100 := by decide
  have hread : intAt (nmeaScanf (D := D) abi (f.text h1 h2) rmcFormat).2 10 0 ≠ -100 := by
    rw [scan_rmc h]
    -- behind the eight fields in front, the third "%2d" stores the year
    apply scan_two_later (i := 1) hzero
    intro buff
    apply scan_two_later hzero
    exact scan_two_bound _
  have hwindow : ∀ y : Int32, y ≠ -100 → (if y < 90 then y + 100 else y) ≠ 0 := by
    intro y hy
    split
    · intro h0
      exact hy (by rw [← Int32.add_sub_cancel y 100, h0]; rfl)
    · rename_i hlarge
      rintro rfl
      exact hlarge (by decide)
  have hrefused : (0 : Int32) ≠ 1 := by decide
  revert haccepted
  unfold nmeaParseRmc rmcBody success
  dsimp only
  split
  · exact fun haccepted => absurd haccepted hrefused
  · split
    · exact fun haccepted => absurd haccepted hrefused
    · intro _
      dsimp only
      rw [parseTime_year]
      exact hwindow _ hread

/-! ## The four formats -/

/-- A sentence of one of the four formats, by its fields. -/
inductive Form
  | gga (f : GgaFields)
  | gsa (f : GsaFields)
  | gsv (f : GsvFields)
  | rmc (f : RmcFields)

namespace Form

def WellFormed (abi : Abi) : Form → Prop
  | .gga f => f.WellFormed
  | .gsa f => f.WellFormed
  | .gsv f => f.WellFormed abi
  | .rmc f => f.WellFormed

/-- The field parser accepts the sentence, and the packet holds each field in its own member
and zero in those of null fields. -/
def Decoded (D : Type) [CDouble D] (abi : Abi) (h1 h2 : Byte) : Form → Prop
  | .gga f => (nmeaParseGga abi zeroBuff (f.text h1 h2) : Int32 × Gga D) = (1, f.packet abi)
  | .gsa f => (nmeaParseGsa abi (f.text h1 h2) : Int32 × Gsa D) = (1, f.packet abi)
  | .gsv f => nmeaParseGsv D abi (f.text h1 h2) = (1, f.packet abi)
  | .rmc f => (nmeaParseRmc abi zeroBuff (f.text h1 h2) : Int32 × Rmc D) = (1, f.packet)

/-- What may not be null, and what has to fit in a GSV sentence. -/
def Readable (abi : Abi) : Form → Prop
  | .gga f => f.time ≠ none
  | .gsa _ => True
  | .gsv f => f.LastFits abi ∧ f.IndexFits abi
  | .rmc f => f.time ≠ none ∧ f.date ≠ none ∧ (f.mode = none → f.declinEw ≠ [])

end Form

theorem rmc_decoded_iff {f : RmcFields} (h : f.WellFormed) {h1 h2 : Byte} (hex : h1 ≠ comma) :
    (Form.rmc f).Decoded D abi h1 h2 ↔ (Form.rmc f).Readable abi := by
  have hone : (1 : Int32) ≠ 0 := by decide
  constructor
  · intro hdecoded
    have hdecoded : (nmeaParseRmc abi zeroBuff (f.text h1 h2) : Int32 × Rmc D) = (1, f.packet) :=
      hdecoded
    have htime : f.time ≠ none := by
      intro hnull
      have hrefused := @rmc_null_time D _ abi f h h1 h2 hnull
      rw [hdecoded] at hrefused
      exact hone hrefused
    have hdate : f.date ≠ none := by
      intro hnull
      have hyear := @rmc_year D _ abi f h h1 h2 (congrArg Prod.fst hdecoded)
      rw [hdecoded] at hyear
      apply hyear
      show (dateOf f.date (timeOf f.time {})).year = 0
      rw [hnull]
      cases f.time with
      | none => rfl
      | some c => rfl
    refine ⟨htime, hdate, fun hmode hew => ?_⟩
    obtain ⟨c, hc⟩ := Option.ne_none_iff_exists'.mp htime
    obtain ⟨d, hd⟩ := Option.ne_none_iff_exists'.mp hdate
    have hread := @rmc_read D _ abi f h h1 h2 hex c d hc hd
    rw [hdecoded] at hread
    have hletter : chrField f.declinEw = chrField f.ewRead :=
      congrArg (fun r : Int32 × Rmc D => r.2.declinEw) hread
    rw [RmcFields.ewRead, if_pos ⟨hmode, hew⟩, hew] at hletter
    cases hletter
  · intro ⟨htime, hdate, hew⟩
    obtain ⟨c, hc⟩ := Option.ne_none_iff_exists'.mp htime
    obtain ⟨d, hd⟩ := Option.ne_none_iff_exists'.mp hdate
    have hkept : f.ewRead = f.declinEw := if_neg fun e => hew e.1 e.2
    show (nmeaParseRmc abi zeroBuff (f.text h1 h2) : Int32 × Rmc D) = (1, f.packet)
    rw [rmc_read h hex hc hd, hkept]
    rfl

/-- **A sentence with null fields is accepted and decoded field by field exactly when no time
of a GGA or RMC sentence is null, no date is, and no declin_ew is that ends a sentence; a GSV
sentence also has to keep its last field and its index small enough.** -/
theorem decoded_iff {form : Form} (hform : form.WellFormed abi) {h1 h2 : Byte}
    (hex1 : isDigitOf 16 h1 = true) (hex2 : isDigitOf 16 h2 = true) :
    form.Decoded D abi h1 h2 ↔ form.Readable abi := by
  have hcomma1 := hex_no_comma hex1
  have hcomma2 := hex_no_comma hex2
  cases form with
  | gga f =>
    obtain ⟨hcode, hpack⟩ := GgaFields.parse (D := D) hform h1 h2
    constructor
    · intro hdecoded hnull
      have hone := congrArg Prod.fst hdecoded
      rw [hcode, if_pos hnull] at hone
      cases hone
    · intro htime
      rw [if_neg htime] at hcode
      exact Prod.ext hcode (hpack htime)
  | gsa f => exact iff_of_true (GsaFields.parse hform h1 h2) trivial
  | gsv f => exact GsvFields.parse_iff hform hcomma1 hcomma2
  | rmc f => exact rmc_decoded_iff hform hcomma1

/-- The GGA sentence of a receiver without a fix and without a time. -/
def ggaNoFix : GgaFields where
  time := none
  lat := []
  ns := []
  lon := []
  ew := []
  sig := cstr "0"
  satinuse := cstr "00"
  hdop := cstr "99.99"
  elv := []
  elvUnits := []
  diff := []
  diffUnits := []
  dgpsAge := []
  dgpsSid := []

theorem decoded_iff_no_fix :
    (Form.gga ggaNoFix).Decoded Decimal ⟨false, 32, le_rfl⟩ (ascii '4') (ascii '8') ↔
      (Form.gga ggaNoFix).Readable ⟨false, 32, le_rfl⟩ := by
  have hform : (Form.gga ggaNoFix).WellFormed ⟨false, 32, le_rfl⟩ := by
    show ggaNoFix.WellFormed
    decide
  exact decoded_iff hform (by decide) (by decide)

/-- An RMC sentence of the repository's tests, without its mode field: both fields of the
declination are null. -/
def rmcNoMode : RmcFields where
  time := some
    { hour := ⟨ascii '0', ascii '3', rfl, rfl⟩, min := ⟨ascii '1', ascii '0', rfl, rfl⟩
      sec := ⟨ascii '2', ascii '4', rfl, rfl⟩, frac := cstr "000"
      frac_digits := List.all_eq_true.mp rfl, frac_short := by decide }
  status := cstr "A"
  lat := cstr "3115.6422"
  ns := cstr "N"
  lon := cstr "12127.5490"
  ew := cstr "E"
  speed := cstr "0.58"
  direction := cstr "98.86"
  date := some
    { day := ⟨ascii '1', ascii '8', rfl, rfl⟩, mon := ⟨ascii '0', ascii '9', rfl, rfl⟩
      year := ⟨ascii '1', ascii '8', rfl, rfl⟩ }
  declination := []
  declinEw := []
  mode := none

/-- It is accepted, with the '*' in declin_ew. -/
theorem star_stored :
    rmcNoMode.WellFormed ∧
      rmcNoMode.text (ascii '3') (ascii '7') =
        cstr "$GPRMC,031024.000,A,3115.6422,N,12127.5490,E,0.58,98.86,180918,,*37\r\n" ∧
      (nmeaParseRmc ⟨false, 32, le_rfl⟩ zeroBuff (rmcNoMode.text (ascii '3') (ascii '7')) :
        Int32 × Rmc Decimal).2.declinEw = star ∧
      ¬ (Form.rmc rmcNoMode).Decoded Decimal ⟨false, 32, le_rfl⟩ (ascii '3') (ascii '7') := by
  have hform : rmcNoMode.WellFormed := ⟨by decide, by decide⟩
  have hcomma : ascii '3' ≠ comma := by decide
  refine ⟨hform, by decide, ?_, ?_⟩
  · rw [rmc_read hform hcomma rfl rfl]
    rfl
  · intro hdecoded
    have hread := (rmc_decoded_iff hform hcomma).mp hdecoded
    exact hread.2.2 rfl rfl

end RttNmea
