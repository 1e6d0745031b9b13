import RttNmea.TimeBuff
import Mathlib.Data.List.Forall2

/-!
# The field parsers of nmea_parse_lib

nmea_parse_lib has its own copy of the field parsers. They differ from those of
simulator_nmea in two points: their result is RT_EOK or -RT_ERROR, and their time_buff starts
zeroed, where the other copy leaves it as the stack has it. So the copies agree on a buffer
unless it is a GGA or RMC sentence with its time field empty and its other fields there, or with
a time that neither copy's time_buff has room for.
-/

namespace RttNmea

open CText

variable {D : Type} [CDouble D] {abi : Abi}

namespace ParseLib

def rtEok : Int := 0
def rtError : Int := 1

/-- The result code of nmea_parse_lib's parsers. -/
def status {α : Type} (r : Bool × α) : Int × α := (if r.1 then rtEok else -rtError, r.2)

/-- `char time_buff[NMEA_TIMEPARSE_BUF] = { 0 }`. -/
def timeBuff : List Byte := List.replicate nmeaTimeParseBuf 0

def nmeaParseGga (abi : Abi) (buff : List Byte) : Int × Gga D :=
  status (ggaBody abi timeBuff buff)

def nmeaParseGsa (abi : Abi) (buff : List Byte) : Int × Gsa D := status (gsaBody abi buff)

def nmeaParseGsv (D : Type) [CDouble D] (abi : Abi) (buff : List Byte) : Int × Gsv :=
  status (gsvBody D abi buff)

def nmeaParseRmc (abi : Abi) (buff : List Byte) : Int × Rmc D :=
  status (rmcBody abi timeBuff buff)

def nmeaParseVtg (abi : Abi) (buff : List Byte) : Int × Vtg D := status (vtgBody abi buff)

end ParseLib

/-! ## What the stack can change -/

theorem text_stored (s m : List Byte) : text (s ++ 0 :: m) = text s := by
  unfold text
  exact takeWhile_stop (by decide) s m

omit [CDouble D] in
/-- Either the time field was stored, and its text is what is parsed, or time_buff is as it
was. -/
theorem timeBuffAfter_cases (args : List (Option (Stored D))) :
    (∃ s, args.head? = some (some (.str s)) ∧
      ∀ tb, text (timeBuffAfter tb args) = text s) ∨
    (∀ s, args.head? ≠ some (some (.str s))) ∧ ∀ tb, timeBuffAfter tb args = tb := by
  unfold timeBuffAfter
  split
  · rename_i s hs
    exact .inl ⟨s, hs, fun tb => text_stored s _⟩
  · rename_i hother
    exact .inr ⟨hother, fun _ => rfl⟩

theorem parseTime_empty (res : Time) : nmeaParseTime D abi [] res = (-1, res) := rfl

/-- Six digits are a time. -/
theorem parseTime_digits (res : Time) :
    (nmeaParseTime D abi (text (cstr "123456" ++ [0])) res).1 = 0 := by
  have hitems : cstr "%2d%2d%2d" = formatOf [.two, .two, .two] := by decide
  have htext : text (cstr "123456" ++ [0]) = cstr "123456" := by decide
  have hcount : (nmeaScanf abi (cstr "123456") (cstr "%2d%2d%2d") :
      Nat × List (Option (Stored D))).1 = 3 := by
    rw [hitems, scanf_items (by decide)]
    rfl
  have hlen : (cstr "123456").length = 6 := by decide
  unfold nmeaParseTime
  rw [htext, if_pos hlen]
  dsimp only
  rw [if_pos hcount]

/-! ## Sentences without a time -/

/-- A GGA sentence with its time field empty and all its other fields, the last not quite
empty. -/
def GgaTimeMissing (buff : List Byte) : Prop :=
  ∃ fs rest, List.Forall₂ CommaField
      [.dbl, .chr, .dbl, .chr, .int, .int, .dbl, .dbl, .chr, .dbl, .chr, .dbl] fs ∧
    rest ≠ [] ∧ buff = cstr "$GPGGA,," ++ (commaText fs ++ rest)

/-- An RMC sentence with its time field empty, six bytes where the date stands, and all its
other fields up to declin_ew, that one not quite empty. -/
def RmcTimeMissing (buff : List Byte) : Prop :=
  ∃ fs date declination rest,
    List.Forall₂ CommaField [.chr, .dbl, .chr, .dbl, .chr, .dbl, .dbl] fs ∧ date.length = 6 ∧
    comma ∉ declination ∧ rest ≠ [] ∧
    buff = cstr "$GPRMC,," ++
      (commaText fs ++ (date ++ comma :: (declination ++ comma :: rest)))

/-- An empty first field is counted like any other. -/
theorem scan_empty_first {head : List Byte} {ks : List Conv} {items row : List Item}
    (hrow : row = head.map Item.lit ++ (commaItems (.str :: ks) ++ items)) (rest : List Byte) :
    (scanItems abi row (head ++ [comma] ++ rest) : Nat × List (Option (Stored D))).1 =
      1 + (scanItems (D := D) abi (commaItems ks ++ items) rest).1 := by
  have hempty : List.Forall₂ CommaField [.str] [[]] :=
    .cons ⟨List.not_mem_nil, fun _ => Nat.zero_le _⟩ .nil
  have hitems : commaItems (.str :: ks) ++ items =
      commaItems [.str] ++ (commaItems ks ++ items) := rfl
  have htext : [comma] ++ rest = commaText [[]] ++ rest := rfl
  rw [hrow, List.append_assoc, scan_lits, hitems, htext, scan_commas hempty]
  rfl

theorem scan_gga_end {rest : List Byte} :
    (scanItems abi ggaRow (cstr "$GPGGA,," ++ rest) : Nat × List (Option (Stored D))).1 = 14 ↔
      ∃ fs rest', List.Forall₂ CommaField
        [.dbl, .chr, .dbl, .chr, .int, .int, .dbl, .dbl, .chr, .dbl, .chr, .dbl] fs ∧
        rest = commaText fs ++ rest' ∧ rest' ≠ [] := by
  have hhead : cstr "$GPGGA,," = cstr "$GPGGA," ++ [comma] := by decide
  have hconv : conversions ggaRow = 14 := by decide
  have hrow : ggaRow = (cstr "$GPGGA,").map Item.lit ++ (commaItems [.str, .dbl, .chr, .dbl, .chr,
    .int, .int, .dbl, .dbl, .chr, .dbl, .chr, .dbl] ++ [.field .int, .lit star]) := rfl
  have hmax := @scan_count_le D _ abi ggaRow (cstr "$GPGGA,," ++ rest)
  have hfields := @scan_commas_ge D _ abi 1 Nat.one_pos
    [.dbl, .chr, .dbl, .chr, .int, .int, .dbl, .dbl, .chr, .dbl, .chr, .dbl]
    [.field .int, .lit star] rest
  simp only [scan_end] at hfields
  rw [hconv] at hmax
  rw [hhead, scan_empty_first hrow] at hmax ⊢
  rw [← hfields]
  simp only [List.length_cons, List.length_nil]
  omega

/-- A GGA sentence has no time just when it scans well and a comma follows its header. -/
theorem ggaTimeMissing_iff {buff : List Byte} :
    GgaTimeMissing buff ↔ cstr "$GPGGA,," <+: buff ∧
      (nmeaScanf abi buff ggaFormat : Nat × List (Option (Stored D))).1 = 14 := by
  rw [scanf_gga]
  constructor
  · rintro ⟨fs, rest, hfs, hrest, rfl⟩
    exact ⟨List.prefix_append _ _, scan_gga_end.mpr ⟨fs, rest, hfs, rfl, hrest⟩⟩
  · rintro ⟨⟨rest, rfl⟩, h⟩
    obtain ⟨fs, rest', hfs, rfl, hrest⟩ := scan_gga_end.mp h
    exact ⟨fs, rest', hfs, hrest, rfl⟩

/-- Three "%2d" take six bytes. -/
theorem scan_date_ge {m : Nat} {items : List Item} {buff : List Byte} :
    m + 3 ≤ (scanItems abi (.two :: .two :: .two :: items) buff :
        Nat × List (Option (Stored D))).1 ↔
      ∃ date rest, date.length = 6 ∧ buff = date ++ rest ∧
        m ≤ (scanItems (D := D) abi items rest).1 := by
  constructor
  · intro h
    obtain ⟨day, rest₁, hday, rfl, h₁⟩ := (scan_two_ge _ _).mp h
    obtain ⟨mon, rest₂, hmon, rfl, h₂⟩ := (scan_two_ge _ _).mp h₁
    obtain ⟨year, rest₃, hyear, rfl, h₃⟩ := (scan_two_ge _ _).mp h₂
    refine ⟨day ++ (mon ++ year), rest₃, ?_, ?_, h₃⟩
    · rw [List.length_append, List.length_append, hday, hmon, hyear]
    · simp only [List.append_assoc]
  · rintro ⟨date, rest, hdate, rfl, h⟩
    have htake : ∀ tok : List Byte, 2 ≤ tok.length → (tok.take 2).length = 2 := by
      intro tok htok
      rw [List.length_take]
      omega
    have hdrop : (date.drop 2).length = 4 := by rw [List.length_drop, hdate]
    have hdrop2 : ((date.drop 2).drop 2).length = 2 := by rw [List.length_drop, hdrop]
    apply (scan_two_ge _ _).mpr
    refine ⟨date.take 2, date.drop 2 ++ rest, htake _ (by omega), ?_, ?_⟩
    · rw [← List.append_assoc, List.take_append_drop]
    · apply (scan_two_ge _ _).mpr
      refine ⟨(date.drop 2).take 2, (date.drop 2).drop 2 ++ rest, htake _ (by omega), ?_, ?_⟩
      · rw [← List.append_assoc, List.take_append_drop]
      · exact (scan_two_ge _ _).mpr ⟨_, rest, hdrop2, rfl, h⟩

theorem scan_dateItems_ge {buff : List Byte} :
    5 ≤ (scanItems abi dateItems buff : Nat × List (Option (Stored D))).1 ↔
      ∃ date declination rest, date.length = 6 ∧ comma ∉ declination ∧ rest ≠ [] ∧
        buff = date ++ comma :: (declination ++ comma :: rest) := by
  have hfields := @scan_commas_ge D _ abi 1 Nat.one_pos [.dbl]
    (.field .chr :: .lit comma :: [.field .chr, .lit star])
  simp only [scan_end] at hfields
  constructor
  · intro h
    obtain ⟨date, _, hdate, rfl, h₁⟩ := scan_date_ge.mp h
    obtain ⟨rest, rfl, h₂⟩ := (scan_lit_ge Nat.two_pos _ _ _).mp h₁
    obtain ⟨fs, rest', hfs, rfl, hrest⟩ := (hfields rest).mp h₂
    obtain ⟨f, fs, hf, hnil, rfl⟩ := List.forall₂_cons_left_iff.mp hfs
    rw [List.forall₂_nil_left_iff.mp hnil]
    exact ⟨date, f, rest', hdate, hf.no_comma, hrest, by simp [commaText]⟩
  · rintro ⟨date, f, rest, hdate, hf, hrest, rfl⟩
    have hdbl : Conv.dbl = Conv.chr → f.length ≤ 1 := fun h => by cases h
    have hlast := (hfields (f ++ comma :: rest)).mpr
      ⟨[f], rest, .cons ⟨hf, hdbl⟩ .nil, by simp [commaText], hrest⟩
    exact scan_date_ge.mpr
      ⟨date, _, hdate, rfl, (scan_lit_ge Nat.two_pos _ _ _).mpr ⟨_, rfl, hlast⟩⟩

theorem scan_rmc_end {rest : List Byte} :
    ((scanItems abi rmcRow (cstr "$GPRMC,," ++ rest) : Nat × List (Option (Stored D))).1 = 13 ∨
      (scanItems abi rmcRow (cstr "$GPRMC,," ++ rest) :
        Nat × List (Option (Stored D))).1 = 14) ↔
      ∃ fs rest', List.Forall₂ CommaField [.chr, .dbl, .chr, .dbl, .chr, .dbl, .dbl] fs ∧
        rest = commaText fs ++ rest' ∧
        5 ≤ (scanItems (D := D) abi dateItems rest').1 := by
  have hhead : cstr "$GPRMC,," = cstr "$GPRMC," ++ [comma] := by decide
  have hconv : conversions rmcRow = 14 := by decide
  have hrow : rmcRow = (cstr "$GPRMC,").map Item.lit ++
      (commaItems [.str, .chr, .dbl, .chr, .dbl, .chr, .dbl, .dbl] ++ dateItems) := rfl
  have hmax := @scan_count_le D _ abi rmcRow (cstr "$GPRMC,," ++ rest)
  have hfields := @scan_commas_ge D _ abi 5 (Nat.succ_pos 4)
    [.chr, .dbl, .chr, .dbl, .chr, .dbl, .dbl] dateItems rest
  rw [hconv] at hmax
  rw [hhead, scan_empty_first hrow] at hmax ⊢
  rw [← hfields]
  simp only [List.length_cons, List.length_nil]
  omega

theorem rmcTimeMissing_iff {buff : List Byte} :
    RmcTimeMissing buff ↔ cstr "$GPRMC,," <+: buff ∧
      ((nmeaScanf abi buff rmcFormat : Nat × List (Option (Stored D))).1 = 13 ∨
        (nmeaScanf abi buff rmcFormat : Nat × List (Option (Stored D))).1 = 14) := by
  rw [scanf_rmc]
  constructor
  · rintro ⟨fs, date, declination, rest, hfs, hdate, hdecl, hrest, rfl⟩
    have hend := (@scan_dateItems_ge D _ abi _).mpr ⟨date, declination, rest, hdate, hdecl, hrest, rfl⟩
    exact ⟨List.prefix_append _ _, scan_rmc_end.mpr ⟨fs, _, hfs, rfl, hend⟩⟩
  · rintro ⟨⟨rest, rfl⟩, h⟩
    obtain ⟨fs, rest', hfs, rfl, hend⟩ := scan_rmc_end.mp h
    obtain ⟨date, declination, rest, hdate, hdecl, hrest, rfl⟩ := scan_dateItems_ge.mp hend
    exact ⟨fs, date, declination, rest, hfs, hdate, hdecl, hrest, rfl⟩

omit [CDouble D] in
theorem timeBuff_missing {args : List (Option (Stored D))}
    (h : ¬ ∃ s, args.head? = some (some (.str s))) (tb : List Byte) :
    timeBuffAfter tb args = tb := by
  rcases timeBuffAfter_cases args with ⟨s, hs, -⟩ | ⟨-, h⟩
  · exact absurd ⟨s, hs⟩ h
  · exact h tb

omit [CDouble D] in
theorem timeBuff_stored {args : List (Option (Stored D))}
    (h : ∃ s, args.head? = some (some (.str s))) (tb tb' : List Byte) :
    text (timeBuffAfter tb args) = text (timeBuffAfter tb' args) := by
  obtain ⟨s, hs⟩ := h
  rcases timeBuffAfter_cases args with ⟨s', -, h⟩ | ⟨h, -⟩
  · rw [h tb, h tb']
  · exact absurd hs (h s)

section Gga

variable {buff : List Byte}

theorem gga_first_field (h : (nmeaScanf abi buff ggaFormat : Nat × List (Option (Stored D))).1 = 14) :
    (∃ s, (nmeaScanf (D := D) abi buff ggaFormat).2.head? = some (some (.str s))) ↔
      ¬ cstr "$GPGGA,," <+: buff := by
  rw [scanf_gga] at h ⊢
  have hcount : (scanItems abi ggaRow buff : Nat × List (Option (Stored D))).1 ≠ 0 := by
    rw [h]
    exact Nat.succ_ne_zero _
  exact first_field hcount

/-- A GGA sentence without a time is accepted if the stack holds one, and refused if it is
zeroed. -/
theorem ggaBody_missing (h : GgaTimeMissing buff) :
    (ggaBody abi ParseLib.timeBuff buff : Bool × Gga D).1 = false ∧
      (ggaBody abi (cstr "123456" ++ [0]) buff : Bool × Gga D).1 = true := by
  obtain ⟨hfirst, hcount⟩ := (@ggaTimeMissing_iff D _ abi _).mp h
  have hkept := timeBuff_missing (mt (gga_first_field hcount).mp (not_not.mpr hfirst))
  have hzero : text ParseLib.timeBuff = [] := text_replicate_zero _
  unfold ggaBody
  simp only [hcount, hkept, hzero, ne_eq, not_true_eq_false, ↓reduceIte, parseTime_empty,
    parseTime_digits, beq_self_eq_true, and_true]
  decide

/-- No other buffer lets the stack in. -/
theorem ggaBody_present (h : ¬ GgaTimeMissing buff) (tb tb' : List Byte) :
    (ggaBody abi tb buff : Bool × Gga D) = ggaBody abi tb' buff := by
  unfold ggaBody
  by_cases hcount : (nmeaScanf abi buff ggaFormat : Nat × List (Option (Stored D))).1 = 14
  · have hstored := (gga_first_field hcount).mpr fun hp => h (ggaTimeMissing_iff.mpr ⟨hp, hcount⟩)
    simp only [timeBuff_stored hstored tb tb']
  · simp only [ne_eq, hcount, not_false_eq_true, ↓reduceIte]

end Gga

section Rmc

variable {buff : List Byte}

theorem rmc_first_field
    (h : (nmeaScanf abi buff rmcFormat : Nat × List (Option (Stored D))).1 = 13 ∨
      (nmeaScanf abi buff rmcFormat : Nat × List (Option (Stored D))).1 = 14) :
    (∃ s, (nmeaScanf (D := D) abi buff rmcFormat).2.head? = some (some (.str s))) ↔
      ¬ cstr "$GPRMC,," <+: buff := by
  rw [scanf_rmc] at h ⊢
  have hcount : (scanItems abi rmcRow buff : Nat × List (Option (Stored D))).1 ≠ 0 := by omega
  exact first_field hcount

/-- An RMC sentence without a time is accepted if the stack holds one, and refused if it is
zeroed. -/
theorem rmcBody_missing (h : RmcTimeMissing buff) :
    (rmcBody abi ParseLib.timeBuff buff : Bool × Rmc D).1 = false ∧
      (rmcBody abi (cstr "123456" ++ [0]) buff : Bool × Rmc D).1 = true := by
  obtain ⟨hfirst, hgood⟩ := (@rmcTimeMissing_iff D _ abi _).mp h
  have hkept := timeBuff_missing (mt (rmc_first_field hgood).mp (not_not.mpr hfirst))
  have hzero : text ParseLib.timeBuff = [] := text_replicate_zero _
  have hcount : ¬ ((nmeaScanf abi buff rmcFormat : Nat × List (Option (Stored D))).1 ≠ 13 ∧
      (nmeaScanf abi buff rmcFormat : Nat × List (Option (Stored D))).1 ≠ 14) := by
    rintro ⟨h13, h14⟩
    exact hgood.elim h13 h14
  have hneg : (-1 : Int32) ≠ 0 := by decide
  unfold rmcBody
  simp only [if_neg hcount, hkept, hzero, parseTime_empty, parseTime_digits, if_pos hneg, ne_eq,
    not_true_eq_false, ↓reduceIte, and_self]

theorem rmcBody_present (h : ¬ RmcTimeMissing buff) (tb tb' : List Byte) :
    (rmcBody abi tb buff : Bool × Rmc D) = rmcBody abi tb' buff := by
  unfold rmcBody
  by_cases hcount : (nmeaScanf abi buff rmcFormat : Nat × List (Option (Stored D))).1 ≠ 13 ∧
      (nmeaScanf abi buff rmcFormat : Nat × List (Option (Stored D))).1 ≠ 14
  · simp only [if_pos hcount]
  · have hgood : (nmeaScanf abi buff rmcFormat : Nat × List (Option (Stored D))).1 = 13 ∨
        (nmeaScanf abi buff rmcFormat : Nat × List (Option (Stored D))).1 = 14 := by omega
    have hstored := (rmc_first_field hgood).mpr fun hp => h (rmcTimeMissing_iff.mpr ⟨hp, hgood⟩)
    simp only [timeBuff_stored hstored tb tb']

end Rmc

/-- What is accepted on a zeroed stack is accepted on every stack, as the same packet. -/
theorem parsePack_stack {ptype : PackType} {buff : List Byte} {ok : Int32} {packet : Packet D}
    (h : parsePack abi ParseLib.timeBuff ptype buff = some (ok, packet)) (hok : ok ≠ 0)
    (tb : List Byte) : parsePack abi tb ptype buff = some (ok, packet) := by
  have refused : ∀ {α : Type} {r : Bool × α}, r.1 = false → (success r).1 = 0 := by
    intro α r hr
    rw [success, hr]
    rfl
  rw [← h]
  cases ptype with
  | gpnon | gpgsa | gpgsv | gpvtg => rfl
  | gpgga =>
    have hpresent : ¬ GgaTimeMissing buff := by
      intro hmissing
      cases h
      exact hok (refused (ggaBody_missing hmissing).1)
    simp only [parsePack, nmeaParseGga, ggaBody_present hpresent tb ParseLib.timeBuff]
  | gprmc =>
    have hpresent : ¬ RmcTimeMissing buff := by
      intro hmissing
      cases h
      exact hok (refused (rmcBody_missing hmissing).1)
    simp only [parsePack, nmeaParseRmc, rmcBody_present hpresent tb ParseLib.timeBuff]

/-! ## The two copies -/

/-- simulator_nmea's parser returns 1 just when nmea_parse_lib's returns RT_EOK, and then
both fill the packet alike. -/
def Agree {α : Type} (sim : Int32 × α) (lib : Int × α) : Prop :=
  (sim.1 = 1 ↔ lib.1 = ParseLib.rtEok) ∧ (sim.1 = 1 → sim.2 = lib.2)

omit [CDouble D] in
theorem agree_iff {α : Type} (r r' : Bool × α) :
    Agree (success r) (ParseLib.status r') ↔ r.1 = r'.1 ∧ (r.1 = true → r.2 = r'.2) := by
  obtain ⟨ok, x⟩ := r
  obtain ⟨ok', x'⟩ := r'
  unfold Agree success ParseLib.status
  cases ok <;> cases ok' <;> simp [ParseLib.rtEok, ParseLib.rtError]

/-- All five parsers agree on this buffer, whatever the stack holds. That is asked of defined runs
only: the time must be stored inside time_buff, which has one size in both copies. -/
def ParsersAgree (D : Type) [CDouble D] (abi : Abi) (buff : List Byte) : Prop :=
  (StoresFit (nmeaScanf abi buff ggaFormat : Nat × List (Option (Stored D))).2 ∧
    StoresFit (nmeaScanf abi buff rmcFormat : Nat × List (Option (Stored D))).2) ∧
  ∀ timeBuff, Agree (nmeaParseGga abi timeBuff buff : Int32 × Gga D)
      (ParseLib.nmeaParseGga abi buff) ∧
    Agree (nmeaParseGsa abi buff : Int32 × Gsa D) (ParseLib.nmeaParseGsa abi buff) ∧
    Agree (nmeaParseGsv D abi buff) (ParseLib.nmeaParseGsv D abi buff) ∧
    Agree (nmeaParseRmc abi timeBuff buff : Int32 × Rmc D) (ParseLib.nmeaParseRmc abi buff) ∧
    Agree (nmeaParseVtg abi buff : Int32 × Vtg D) (ParseLib.nmeaParseVtg abi buff)

/-- **The copies agree on a buffer exactly when it is no GGA or RMC sentence with a time too long
for time_buff, or with its time field empty and the others there.** -/
theorem parsersAgree_iff (buff : List Byte) :
    ParsersAgree D abi buff ↔
      ShortTime buff ∧ ¬ GgaTimeMissing buff ∧ ¬ RmcTimeMissing buff := by
  unfold ParsersAgree
  rw [gga_fits, rmc_fits]
  refine and_congr_right fun _ => ?_
  constructor
  · intro h
    obtain ⟨hgga, -, -, hrmc, -⟩ := h (cstr "123456" ++ [0])
    constructor
    · intro hmissing
      obtain ⟨hrefused, haccepted⟩ := @ggaBody_missing D _ abi _ hmissing
      have := ((agree_iff _ _).mp hgga).1
      rw [hrefused, haccepted] at this
      cases this
    · intro hmissing
      obtain ⟨hrefused, haccepted⟩ := @rmcBody_missing D _ abi _ hmissing
      have := ((agree_iff _ _).mp hrmc).1
      rw [hrefused, haccepted] at this
      cases this
  · intro ⟨hgga, hrmc⟩ timeBuff
    have same : ∀ {α : Type} {r r' : Bool × α}, r = r' → Agree (success r) (ParseLib.status r') := by
      intro α r r' h
      rw [agree_iff, h]
      exact ⟨rfl, fun _ => rfl⟩
    exact ⟨same (ggaBody_present hgga _ _), same rfl, same rfl, same (rmcBody_present hrmc _ _),
      same rfl⟩

/-- The GGA sentence of a receiver without a fix, with "123456" left on the stack. -/
theorem parsers_disagree :
    ¬ ParsersAgree Decimal ⟨false, 32, le_rfl⟩ (cstr "$GPGGA,,,,,,0,00,99.99,,,,,,*48\r\n") := by
  intro h
  have := ((agree_iff _ _).mp (h.2 (cstr "123456" ++ [0])).1).1
  revert this
  decide +kernel

end RttNmea
