import RttNmea.RmcShift
import RttNmea.GsvCycle
import RttNmea.Strtod

/-!
# The grammar of GGA and GSA

A row of conversions gets through a sentence exactly if the fields it needs are there and those
read by "%C" have at most one character. So the sentences nmea_parse_gga and nmea_parse_gsa accept
are told by the number of their fields and the lengths of a few of them.
-/

namespace RttNmea

open CText

variable {D : Type} [CDouble D] {abi : Abi} {fields : List (List Byte)} {h1 h2 : Byte}

/-! ## A row on a sentence -/

theorem conversions_commaItems (ks : List Conv) (items : List Item) :
    conversions (commaItems ks ++ items) = ks.length + conversions items := by
  induction ks with
  | nil => exact (Nat.zero_add _).symm
  | cons k ks ih =>
    have hfield : conversions (commaItems (k :: ks) ++ items) =
        conversions (commaItems ks ++ items) + 1 := List.countP_cons_of_pos rfl
    rw [hfield, ih, List.length_cons]
    omega

/-- The fields a row needs are there, and the letters among them are no longer than that. -/
structure RowFits (init : List Conv) (fields : List (List Byte)) : Prop where
  enough : init.length < fields.length
  single : ∀ i < init.length, init[i]? = some .chr → (fieldAt fields (i + 1)).length ≤ 1

theorem rowFits_iff {init : List Conv} (hfields : ∀ f ∈ fields, FramedField f) :
    RowFits init fields ↔ ∃ fs more, more ≠ [] ∧ fields = fs ++ more ∧
      List.Forall₂ CommaField init fs := by
  constructor
  · intro h
    have henough := h.enough
    refine ⟨fields.take init.length, fields.drop init.length, ?_,
      (List.take_append_drop _ _).symm, ?_⟩
    · rw [Ne, List.drop_eq_nil_iff]
      omega
    · have hlen : init.length = (fields.take init.length).length := by
        rw [List.length_take]
        omega
      refine List.forall₂_iff_get.mpr ⟨hlen, fun i hi hi' => ?_⟩
      have hin : i < fields.length := by omega
      have hget : (fields.take init.length).get ⟨i, hi'⟩ = fieldAt fields (i + 1) := by
        unfold fieldAt
        rw [List.get_eq_getElem, List.getElem_take, Nat.add_sub_cancel,
          List.getElem?_eq_getElem hin]
        rfl
      rw [hget]
      constructor
      · rw [← hget]
        exact (hfields _ (List.mem_of_mem_take (List.get_mem _ _))).no_comma
      · intro hchr
        apply h.single i hi
        rw [List.getElem?_eq_getElem hi]
        exact congrArg some hchr
  · rintro ⟨fs, more, hmore, rfl, hfs⟩
    have hpos := List.length_pos_iff.mpr hmore
    have hlen := hfs.length_eq
    constructor
    · rw [List.length_append]
      omega
    · intro i hi hchr
      have hi' : i < fs.length := by omega
      have hfield : fieldAt (fs ++ more) (i + 1) = fs.get ⟨i, hi'⟩ := by
        unfold fieldAt
        rw [Nat.add_sub_cancel, List.getElem?_append_left hi', List.getElem?_eq_getElem hi']
        rfl
      rw [hfield]
      apply (hfs.get hi hi').single
      rw [List.getElem?_eq_getElem hi] at hchr
      exact Option.some.inj hchr

/-- **A row gets through a sentence exactly if its fields fit.** -/
theorem row_iff {head : List Byte} {init : List Conv} {last : Conv}
    (hfields : ∀ f ∈ fields, FramedField f) (hne : fields ≠ []) (hex1 : h1 ≠ comma)
    (hex2 : h2 ≠ comma) :
    (scanItems abi (rowOf head init last) (sentenceOf head fields h1 h2) :
        Nat × List (Option (Stored D))).1 = init.length + 1 ↔ RowFits init fields := by
  have hmost := @scan_count_le D _ abi (commaItems init ++ [.field last, .lit star])
    (joined fields ++ tailOf h1 h2)
  rw [conversions_commaItems] at hmost
  have hone : conversions [.field last, .lit star] = 1 := rfl
  have hge := @scan_commas_ge D _ abi 1 Nat.one_pos init [.field last, .lit star]
    (joined fields ++ tailOf h1 h2)
  have htail := comma_not_mem_tail hex1 hex2
  have hplain : ∀ f ∈ fields, comma ∉ f := fun f hf => (hfields f hf).no_comma
  have hsentence : sentenceOf head fields h1 h2 = head ++ (joined fields ++ tailOf h1 h2) := rfl
  rw [rowOf, hsentence, scan_lits, rowFits_iff hfields]
  constructor
  · intro hcount
    obtain ⟨fs, rest, hfs, htext, -⟩ := hge.mp (by omega)
    obtain ⟨more, hmore, hsplit, -⟩ :=
      joined_split (no_commas hfs) hplain htail hne htext
    exact ⟨fs, more, hmore, hsplit, hfs⟩
  · rintro ⟨fs, more, hmore, rfl, hfs⟩
    have hend : joined more ++ tailOf h1 h2 ≠ [] := by simp
    have := hge.mpr ⟨fs, joined more ++ tailOf h1 h2, hfs,
      by rw [joined_append fs hmore, List.append_assoc], (scan_end _ _ _).mpr hend⟩
    omega

/-- What the row stores: its fields, and for the last one all that stands in front of the '*'. -/
theorem row_args {head : List Byte} {init : List Conv} {last : Conv} (hlast : last ≠ .chr)
    (hfields : ∀ f ∈ fields, FramedField f) (hfits : RowFits init fields) (h1 h2 : Byte) :
    let args := (scanItems abi (rowOf head init last) (sentenceOf head fields h1 h2) :
      Nat × List (Option (Stored D))).2
    (∀ i k, init[i]? = some k → args[i]? = some (stores abi k (fieldAt fields (i + 1)))) ∧
      ∃ more, args[init.length]? =
        some (stores abi last (joined (fieldAt fields (init.length + 1) :: more))) ∧
          (∀ f ∈ fieldAt fields (init.length + 1) :: more, f ∈ fields) ∧
          (joined (fieldAt fields (init.length + 1) :: more)).length ≤
            (sentenceOf head fields h1 h2).length := by
  intro args
  obtain ⟨fs, more, hmore, hsplit, hfs⟩ := (rowFits_iff hfields).mp hfits
  obtain ⟨g, gs, rfl⟩ := List.exists_cons_of_ne_nil hmore
  have hlen := hfs.length_eq
  have hstar : star ∉ joined (g :: gs) := by
    intro hmem
    rcases mem_joined hmem with h | ⟨f, hf, hb⟩
    · exact absurd h (by decide)
    · exact (hfields f (hsplit ▸ List.mem_append_right _ hf)).no_star hb
  have hargs : args = List.zipWith (stores abi) init fs ++ [stores abi last (joined (g :: gs))] := by
    have hsentence : sentenceOf head fields h1 h2 =
        head ++ (commaText fs ++ (joined (g :: gs) ++ star :: [h1, h2, cr, lf])) := by
      rw [hsplit, sentenceOf, joined_append fs hmore]
      simp only [List.append_assoc]
    show (scanItems abi (rowOf head init last) (sentenceOf head fields h1 h2)).2 = _
    rw [rowOf, hsentence, scan_lits, scan_commas hfs,
      scan_field (c := star) _ rfl hstar (by decide) (fun h => absurd h hlast), scan_lit]
    rfl
  have hzip : (List.zipWith (stores (D := D) abi) init fs).length = init.length := by
    rw [List.length_zipWith]
    omega
  have hg : fieldAt fields (init.length + 1) = g := by
    unfold fieldAt
    rw [hsplit, Nat.add_sub_cancel, hlen, List.getElem?_append_right (Nat.le_refl _), Nat.sub_self]
    rfl
  constructor
  · intro i k hk
    have hi : i < init.length := (List.getElem?_eq_some_iff.mp hk).1
    have hi' : i < fs.length := by omega
    have hfield : fs[i]? = some (fieldAt fields (i + 1)) := by
      unfold fieldAt
      rw [hsplit, Nat.add_sub_cancel, List.getElem?_append_left hi', List.getElem?_eq_getElem hi']
      rfl
    rw [hargs, List.getElem?_append_left (by omega)]
    exact zipWith_stores hk hfield
  · refine ⟨gs, ?_, ?_, ?_⟩
    · rw [hargs, hg, List.getElem?_append_right (by omega), hzip, Nat.sub_self]
      rfl
    · intro f hf
      rw [hg] at hf
      exact hsplit ▸ List.mem_append_right _ hf
    · rw [hg, hsplit, sentenceOf, joined_append fs hmore]
      simp only [List.length_append]
      omega

/-! ## The members -/

/-- strtol of the field's own text, 0 if it is null. -/
def intOf (abi : Abi) (f : List Byte) : Int32 :=
  if f = [] then 0 else Int32.ofInt (strtol abi 10 f)

/-- strtod of the field's own text. -/
def dblOf (f : List Byte) : D := if f = [] then CDouble.zero else CDouble.strtod f

theorem length_joined {fs : List (List Byte)} {f : List Byte} (hf : f ∈ fs) :
    f.length ≤ (joined fs).length := by
  obtain ⟨pre, post, rfl⟩ := List.append_of_mem hf
  rw [joined_append pre (List.cons_ne_nil _ _), List.length_append]
  cases post with
  | nil => exact Nat.le_add_left _ _
  | cons g gs =>
    have hjoined : joined (f :: g :: gs) = f ++ comma :: joined (g :: gs) := rfl
    rw [hjoined, List.length_append]
    omega

theorem intField_eq {f : List Byte} (hlen : f.length < nmeaConvStrBuf) :
    intField abi f = intOf abi f := by
  rw [intField, intOf, nmeaAtoi, if_pos hlen]

theorem dblField_eq {f : List Byte} (hnul : (0 : Byte) ∉ f) (hlen : f.length < nmeaConvStrBuf) :
    (dblField f : D) = dblOf f := by
  rw [dblField, dblOf, nmeaAtof, if_pos hlen, text_of_not_mem hnul]

/-- A number ends at the comma behind its field. -/
theorem intField_joined {f : List Byte} {more : List (List Byte)}
    (hlen : (joined (f :: more)).length < nmeaConvStrBuf) :
    intField abi (joined (f :: more)) = intOf abi f := by
  cases more with
  | nil => exact intField_eq hlen
  | cons g gs =>
    have hjoined : joined (f :: g :: gs) = f ++ comma :: joined (g :: gs) := rfl
    have hne : f ++ comma :: joined (g :: gs) ≠ [] := by simp
    rw [hjoined] at hlen ⊢
    rw [intField, if_neg hne, nmeaAtoi, if_pos hlen, strtol_stop abi (by decide) stops_comma, intOf]
    split
    · rename_i hnull
      have hzero := @strtol_digits abi [] (fun b hb => absurd hb List.not_mem_nil) (by decide)
      rw [hnull, hzero]
      rfl
    · rfl

theorem dblField_joined (laws : StrtodLaws (CDouble.zero : D) CDouble.strtod) {f : List Byte}
    {more : List (List Byte)} (hnul : ∀ g ∈ f :: more, (0 : Byte) ∉ g)
    (hlen : (joined (f :: more)).length < nmeaConvStrBuf) :
    (dblField (joined (f :: more)) : D) = dblOf f := by
  have hnone : (0 : Byte) ∉ joined (f :: more) := by
    intro h0
    rcases mem_joined h0 with h | ⟨g, hg, hb⟩
    · exact absurd h (by decide)
    · exact hnul g hg hb
  cases more with
  | nil => exact dblField_eq hnone hlen
  | cons g gs =>
    have hjoined : joined (f :: g :: gs) = f ++ comma :: joined (g :: gs) := rfl
    have hne : f ++ comma :: joined (g :: gs) ≠ [] := by simp
    rw [dblField_eq hnone hlen, hjoined, dblOf, if_neg hne, laws.stop (.inl rfl), dblOf]
    split
    · rename_i hnull
      rw [hnull, laws.nil]
    · rfl

/-! ## The time -/

/-- A text that _nmea_parse_time accepts. -/
def TimeText (t : List Byte) : Prop :=
  t.length = 6 ∨ 8 ≤ t.length ∧ t.length ≤ 10 ∧ t[6]? = some (ascii '.')

instance (t : List Byte) : Decidable (TimeText t) := inferInstanceAs (Decidable (_ ∨ _))

/-- The number that "%2d" reads from two bytes. -/
def pairAt (abi : Abi) (t : List Byte) (i : Nat) : Int32 := nmeaAtoi abi ((t.drop i).take 2) 10

/-- The time of such a text. -/
def timeRead (abi : Abi) (t : List Byte) (res : Time) : Time :=
  { res with
    hour := pairAt abi t 0
    min := pairAt abi t 2
    sec := pairAt abi t 4
    hsec := if t.length = 6 then res.hsec else nmeaAtoi abi (t.drop 7) 10 }

theorem parseTime_six {t : List Byte} (hlen : t.length = 6) (res : Time) :
    nmeaParseTime D abi t res = (0, timeRead abi t res) := by
  have hformat : cstr "%2d%2d%2d" = formatOf [.two, .two, .two] := by decide
  match t, hlen with
  | [a, b, c, d, e, f], hlen =>
    have hscan : (nmeaScanf abi [a, b, c, d, e, f] (cstr "%2d%2d%2d") :
        Nat × List (Option (Stored D))) =
        (3, [some (.int (nmeaAtoi abi [a, b] 10)), some (.int (nmeaAtoi abi [c, d] 10)),
          some (.int (nmeaAtoi abi [e, f] 10))]) := by
      rw [hformat, scanf_items (by decide), scan_two_cons, scan_two_cons, scan_two_cons]
      rfl
    unfold nmeaParseTime
    rw [if_pos hlen, hscan, timeRead, if_pos hlen]
    rfl

theorem parseTime_long {t : List Byte} (hmin : 8 ≤ t.length) (hmax : t.length ≤ 10) (res : Time) :
    ((nmeaParseTime D abi t res).1 = 0 ↔ t[6]? = some (ascii '.')) ∧
      (t[6]? = some (ascii '.') → nmeaParseTime D abi t res = (0, timeRead abi t res)) := by
  have hformat : cstr "%2d%2d%2d.%d" =
      formatOf [.two, .two, .two, .lit (ascii '.'), .field .int] := by decide
  have hsix : t.length ≠ 6 := by omega
  have hlong : t.length = 8 ∨ t.length = 9 ∨ t.length = 10 := by omega
  match t, hmin with
  | a :: b :: c :: d :: e :: f :: point :: g :: rest, _ =>
    have hscan : (nmeaScanf abi (a :: b :: c :: d :: e :: f :: point :: g :: rest)
        (cstr "%2d%2d%2d.%d") : Nat × List (Option (Stored D))) =
        if point = ascii '.' then
          (4, [some (.int (nmeaAtoi abi [a, b] 10)), some (.int (nmeaAtoi abi [c, d] 10)),
            some (.int (nmeaAtoi abi [e, f] 10)), some (.int (nmeaAtoi abi (g :: rest) 10))])
        else
          (3, [some (.int (nmeaAtoi abi [a, b] 10)), some (.int (nmeaAtoi abi [c, d] 10)),
            some (.int (nmeaAtoi abi [e, f] 10))]) := by
      have hlast : (scanItems abi [.field .int] (g :: rest) : Nat × List (Option (Stored D))) =
          (1, [some (.int (nmeaAtoi abi (g :: rest) 10))]) := by
        have hsize : fieldSize .int ((formatOf []).headD 0) (g :: rest) = (g :: rest).length := rfl
        rw [scanItems, if_neg (List.cons_ne_nil _ _), hsize]
        dsimp only
        rw [List.take_length]
        rfl
      rw [hformat, scanf_items (by decide), scan_two_cons, scan_two_cons, scan_two_cons, scanItems]
      simp only [List.head?_cons, Option.some.injEq, List.tail_cons]
      split
      · rw [hlast]
      · rfl
    have hpoint : (a :: b :: c :: d :: e :: f :: point :: g :: rest)[6]? = some point := rfl
    rw [hpoint, Option.some.injEq]
    unfold nmeaParseTime
    rw [if_neg hsix, if_pos hlong, hscan]
    by_cases hp : point = ascii '.'
    · rw [if_pos hp, timeRead, if_neg hsix]
      exact ⟨iff_of_true rfl hp, fun _ => rfl⟩
    · have hcode : ¬ (-1 : Int32) = 0 := by decide
      rw [if_neg hp]
      exact ⟨iff_of_false hcode hp, fun h => absurd h hp⟩

/-- **_nmea_parse_time on any text.** -/
theorem parseTime_iff (abi : Abi) (t : List Byte) (res : Time) :
    ((nmeaParseTime D abi t res).1 = 0 ↔ TimeText t) ∧
      (TimeText t → nmeaParseTime D abi t res = (0, timeRead abi t res)) := by
  unfold TimeText
  by_cases hsix : t.length = 6
  · have hrun := @parseTime_six D _ abi t hsix res
    exact ⟨iff_of_true (congrArg Prod.fst hrun) (.inl hsix), fun _ => hrun⟩
  · by_cases hlong : 8 ≤ t.length ∧ t.length ≤ 10
    · obtain ⟨hiff, hrun⟩ := @parseTime_long D _ abi t hlong.1 hlong.2 res
      constructor
      · rw [hiff]
        exact ⟨fun h => .inr ⟨hlong.1, hlong.2, h⟩, fun h => (h.resolve_left hsix).2.2⟩
      · exact fun h => hrun (h.resolve_left hsix).2.2
    · have hother : ¬ (t.length = 8 ∨ t.length = 9 ∨ t.length = 10) := by omega
      have hnone : ¬ (t.length = 6 ∨ 8 ≤ t.length ∧ t.length ≤ 10 ∧ t[6]? = some (ascii '.')) :=
        fun h => h.elim hsix fun h => hlong ⟨h.1, h.2.1⟩
      have hcode : ¬ (-1 : Int32) = 0 := by decide
      unfold nmeaParseTime
      rw [if_neg hsix, if_neg hother]
      exact ⟨iff_of_false hcode hnone, fun h => absurd h hnone⟩

/-! ## GGA -/

def ggaInit : List Conv :=
  [.str, .dbl, .chr, .dbl, .chr, .int, .int, .dbl, .dbl, .chr, .dbl, .chr, .dbl]

/-- The sentences nmea_parse_gga accepts. -/
structure GgaGrammar (fields : List (List Byte)) : Prop where
  enough : 14 ≤ fields.length
  single : ∀ i ∈ [3, 5, 10, 12], (fieldAt fields i).length ≤ 1
  time : TimeText (fieldAt fields 1)

/-- Each member from the field at its position. -/
def ggaOf (abi : Abi) (fields : List (List Byte)) : Gga D :=
  { utc := timeRead abi (fieldAt fields 1) {}, lat := dblOf (fieldAt fields 2)
    ns := chrField (fieldAt fields 3), lon := dblOf (fieldAt fields 4)
    ew := chrField (fieldAt fields 5), sig := intOf abi (fieldAt fields 6)
    satinuse := intOf abi (fieldAt fields 7), hdop := dblOf (fieldAt fields 8)
    elv := dblOf (fieldAt fields 9), elvUnits := chrField (fieldAt fields 10)
    diff := dblOf (fieldAt fields 11), diffUnits := chrField (fieldAt fields 12)
    dgpsAge := dblOf (fieldAt fields 13), dgpsSid := intOf abi (fieldAt fields 14) }

theorem ggaFits_iff :
    RowFits ggaInit fields ↔ 14 ≤ fields.length ∧
      ∀ i ∈ [3, 5, 10, 12], (fieldAt fields i).length ≤ 1 := by
  have hletters : ∀ i < 13, ggaInit[i]? = some .chr → i + 1 ∈ [3, 5, 10, 12] := by decide
  have hplaces : ∀ i ∈ [3, 5, 10, 12], 1 ≤ i ∧ i - 1 < 13 ∧ ggaInit[i - 1]? = some .chr := by decide
  constructor
  · intro h
    refine ⟨h.enough, fun i hi => ?_⟩
    obtain ⟨hpos, hlt, hchr⟩ := hplaces i hi
    have := h.single (i - 1) hlt hchr
    rwa [Nat.sub_add_cancel hpos] at this
  · rintro ⟨henough, hsingle⟩
    exact ⟨henough, fun i hi hchr => hsingle _ (hletters i hi hchr)⟩

theorem success_iff {α : Type} {r : Bool × α} : (success r).1 = 1 ↔ r.1 = true := by
  have hcode : ¬ (0 : Int32) = 1 := by decide
  unfold success
  cases r.1
  · exact iff_of_false hcode Bool.noConfusion
  · exact iff_of_true rfl rfl

theorem short_field {head : List Byte} (hshort : (sentenceOf head fields h1 h2).length < nmeaConvStrBuf)
    (i : Nat) : (fieldAt fields i).length < nmeaConvStrBuf := by
  unfold fieldAt
  cases hget : fields[i - 1]? with
  | none => decide
  | some f =>
    have hjoined := length_joined (List.mem_of_getElem? hget)
    unfold sentenceOf at hshort
    simp only [List.length_append] at hshort
    show f.length < nmeaConvStrBuf
    omega

theorem plain_field (hfields : ∀ f ∈ fields, FramedField f) (i : Nat) :
    (0 : Byte) ∉ fieldAt fields i := by
  unfold fieldAt
  cases hget : fields[i - 1]? with
  | none => exact List.not_mem_nil
  | some f => exact (hfields f (List.mem_of_getElem? hget)).no_nul

/-- **nmea_parse_gga accepts its grammar, and decodes each field into its own member.** -/
theorem gga_grammar (hfields : ∀ f ∈ fields, FramedField f) (hex1 : h1 ≠ comma) (hex2 : h2 ≠ comma)
    (hshort : (sentenceOf (cstr "$GPGGA,") fields h1 h2).length < nmeaConvStrBuf)
    (htime : fieldAt fields 1 ≠ []) (tb : List Byte) :
    let r : Int32 × Gga D := nmeaParseGga abi tb (sentenceOf (cstr "$GPGGA,") fields h1 h2)
    (r.1 = 1 ↔ GgaGrammar fields) ∧ (r.1 = 1 → r.2 = ggaOf abi fields) := by
  have hne : fields ≠ [] := by
    rintro rfl
    exact htime rfl
  have hrow : ggaRow = rowOf (cstr "$GPGGA,") ggaInit .int := rfl
  have hcount := @row_iff D _ abi fields h1 h2 (cstr "$GPGGA,") ggaInit .int hfields hne hex1 hex2
  rw [ggaFits_iff] at hcount
  intro r
  have hr : r = success (ggaBody abi tb (sentenceOf (cstr "$GPGGA,") fields h1 h2)) := rfl
  by_cases hfits : RowFits ggaInit fields
  case neg =>
    have hless : (nmeaScanf abi (sentenceOf (cstr "$GPGGA,") fields h1 h2) ggaFormat :
        Nat × List (Option (Stored D))).1 ≠ 14 := by
      rw [scanf_gga, hrow]
      exact fun h => hfits (ggaFits_iff.mpr (hcount.mp h))
    have hcode : r.1 ≠ 1 := by
      rw [hr, Ne, success_iff, ggaBody]
      dsimp only
      rw [if_pos hless]
      exact Bool.noConfusion
    refine ⟨iff_of_false hcode fun h => ?_, fun h => absurd h hcode⟩
    exact hfits (ggaFits_iff.mpr ⟨h.enough, h.single⟩)
  case pos =>
    obtain ⟨harg, more, hlastArg, -, hlen⟩ := @row_args D _ abi fields (cstr "$GPGGA,") ggaInit .int
      (by decide) hfields hfits h1 h2
    have hfourteen := hcount.mpr (ggaFits_iff.mp hfits)
    rw [← hrow, ← scanf_gga] at harg hlastArg hfourteen
    have hcountOk : ¬ (nmeaScanf abi (sentenceOf (cstr "$GPGGA,") fields h1 h2) ggaFormat :
        Nat × List (Option (Stored D))).1 ≠ 14 := not_not.mpr hfourteen
    have hhead : (nmeaScanf abi (sentenceOf (cstr "$GPGGA,") fields h1 h2) ggaFormat :
        Nat × List (Option (Stored D))).2.head? = some (stores abi .str (fieldAt fields 1)) := by
      rw [List.head?_eq_getElem?]
      exact harg 0 .str rfl
    have htext := @text_time D _ abi _ _ hhead (plain_field hfields 1) tb
    rw [if_neg htime] at htext
    obtain ⟨hparse, hread⟩ := @parseTime_iff D _ abi (fieldAt fields 1) {}
    have hbody : r.1 = 1 ↔ TimeText (fieldAt fields 1) := by
      rw [hr, success_iff, ggaBody]
      dsimp only
      rw [if_neg hcountOk, htext, ← hparse, beq_iff_eq]
    obtain ⟨henough, hsingle⟩ := ggaFits_iff.mp hfits
    constructor
    · rw [hbody]
      exact ⟨fun h => ⟨henough, hsingle, h⟩, fun h => h.time⟩
    · intro haccepted
      have hclock := hread (hbody.mp haccepted)
      have hfield : ∀ i, (fieldAt fields i).length < nmeaConvStrBuf := short_field hshort
      have hplain := plain_field hfields
      have hdbl : ∀ i, ggaInit[i]? = some .dbl →
          dblAt (nmeaScanf abi (sentenceOf (cstr "$GPGGA,") fields h1 h2) ggaFormat).2 i =
            (dblOf (fieldAt fields (i + 1)) : D) := fun i hi =>
        (dblAt_stores (harg i .dbl hi)).trans (dblField_eq (hplain _) (hfield _))
      have hint : ∀ i, ggaInit[i]? = some .int →
          intAt (nmeaScanf abi (sentenceOf (cstr "$GPGGA,") fields h1 h2) ggaFormat :
            Nat × List (Option (Stored D))).2 i 0 = intOf abi (fieldAt fields (i + 1)) := fun i hi =>
        (intAt_stores (harg i .int hi)).trans (intField_eq (hfield _))
      have hchr : ∀ i, ggaInit[i]? = some .chr →
          chrAt (nmeaScanf abi (sentenceOf (cstr "$GPGGA,") fields h1 h2) ggaFormat :
            Nat × List (Option (Stored D))).2 i = chrField (fieldAt fields (i + 1)) := fun i hi =>
        chrAt_stores (harg i .chr hi)
      have hsid := (intAt_stores hlastArg).trans (intField_joined (Nat.lt_of_le_of_lt hlen hshort))
      rw [hr, success, ggaBody]
      dsimp only
      rw [if_neg hcountOk, htext, hclock]
      simp only [ggaOf, Gga.mk.injEq]
      exact ⟨trivial, hdbl 1 rfl, hchr 2 rfl, hdbl 3 rfl, hchr 4 rfl, hint 5 rfl, hint 6 rfl, hdbl 7 rfl,
        hdbl 8 rfl, hchr 9 rfl, hdbl 10 rfl, hchr 11 rfl, hdbl 12 rfl, hsid⟩

/-! ## GSA -/

def gsaInit : List Conv := .chr :: List.replicate 13 .int ++ [.dbl, .dbl]

/-- The sentences nmea_parse_gsa accepts. -/
structure GsaGrammar (fields : List (List Byte)) : Prop where
  enough : 17 ≤ fields.length
  single : (fieldAt fields 1).length ≤ 1

def gsaOf (abi : Abi) (fields : List (List Byte)) : Gsa D :=
  { fixMode := chrField (fieldAt fields 1), fixType := intOf abi (fieldAt fields 2)
    satPrn := Vector.ofFn fun i => intOf abi (fieldAt fields (3 + i))
    pdop := dblOf (fieldAt fields 15), hdop := dblOf (fieldAt fields 16)
    vdop := dblOf (fieldAt fields 17) }

theorem gsaFits_iff : RowFits gsaInit fields ↔ GsaGrammar fields := by
  have hletters : ∀ i < 16, gsaInit[i]? = some .chr → i = 0 := by decide
  constructor
  · intro h
    exact ⟨h.enough, h.single 0 (by decide) rfl⟩
  · intro h
    refine ⟨h.enough, fun i hi hchr => ?_⟩
    rw [hletters i hi hchr]
    exact h.single

/-- **nmea_parse_gsa accepts its grammar, and decodes each field into its own member.** -/
theorem gsa_grammar (laws : StrtodLaws (CDouble.zero : D) CDouble.strtod)
    (hfields : ∀ f ∈ fields, FramedField f) (hne : fields ≠ []) (hex1 : h1 ≠ comma)
    (hex2 : h2 ≠ comma)
    (hshort : (sentenceOf (cstr "$GPGSA,") fields h1 h2).length < nmeaConvStrBuf) :
    let r : Int32 × Gsa D := nmeaParseGsa abi (sentenceOf (cstr "$GPGSA,") fields h1 h2)
    (r.1 = 1 ↔ GsaGrammar fields) ∧ (r.1 = 1 → r.2 = gsaOf abi fields) := by
  have hrow : gsaRow = rowOf (cstr "$GPGSA,") gsaInit .dbl := rfl
  have hcount := @row_iff D _ abi fields h1 h2 (cstr "$GPGSA,") gsaInit .dbl hfields hne hex1 hex2
  rw [← hrow, ← scanf_gsa, gsaFits_iff] at hcount
  intro r
  have hr : r = success (gsaBody abi (sentenceOf (cstr "$GPGSA,") fields h1 h2)) := rfl
  have hcode : r.1 = 1 ↔ GsaGrammar fields := by
    rw [hr, success_iff, gsaBody, ← hcount]
    exact beq_iff_eq
  refine ⟨hcode, fun haccepted => ?_⟩
  have hfits := gsaFits_iff.mpr (hcode.mp haccepted)
  obtain ⟨harg, more, hlastArg, hmore, hlen⟩ := @row_args D _ abi fields (cstr "$GPGSA,") gsaInit .dbl
    (by decide) hfields hfits h1 h2
  rw [← hrow, ← scanf_gsa] at harg hlastArg
  have hfield : ∀ i, (fieldAt fields i).length < nmeaConvStrBuf := short_field hshort
  have hplain := plain_field hfields
  have hint : ∀ i, gsaInit[i]? = some .int →
      intAt (nmeaScanf abi (sentenceOf (cstr "$GPGSA,") fields h1 h2) gsaFormat :
        Nat × List (Option (Stored D))).2 i 0 = intOf abi (fieldAt fields (i + 1)) := fun i hi =>
    (intAt_stores (harg i .int hi)).trans (intField_eq (hfield _))
  have hdbl : ∀ i, gsaInit[i]? = some .dbl →
      dblAt (nmeaScanf abi (sentenceOf (cstr "$GPGSA,") fields h1 h2) gsaFormat).2 i =
        (dblOf (fieldAt fields (i + 1)) : D) := fun i hi =>
    (dblAt_stores (harg i .dbl hi)).trans (dblField_eq (hplain _) (hfield _))
  have hvdop := (dblAt_stores hlastArg).trans
    (dblField_joined laws (fun g hg => (hfields g (hmore g hg)).no_nul)
      (Nat.lt_of_le_of_lt hlen hshort))
  have hsats : ∀ i < 12, gsaInit[2 + i]? = some .int := by decide
  rw [hr, success, gsaBody]
  simp only [gsaOf, Gsa.mk.injEq]
  refine ⟨chrAt_stores (harg 0 .chr rfl), hint 1 rfl, ?_, hdbl 14 rfl, hdbl 15 rfl, hvdop⟩
  apply Vector.ext
  intro i hi
  have hindex : 2 + i + 1 = 3 + i := by omega
  rw [Vector.getElem_ofFn, Vector.getElem_ofFn, hint (2 + i) (hsats i hi), hindex]

/-- **GGA and GSA accept exactly their grammar, and each member is that of its field.** -/
theorem grammar_accepted (abi : Abi) (laws : StrtodLaws (CDouble.zero : D) CDouble.strtod)
    (tb : List Byte) (hfields : ∀ f ∈ fields, FramedField f) (hne : fields ≠ [])
    (hex1 : isDigitOf 16 h1 = true) (hex2 : isDigitOf 16 h2 = true)
    (hshort : (sentenceOf (cstr "$GPGGA,") fields h1 h2).length < 256) :
    (fieldAt fields 1 ≠ [] →
      let r : Int32 × Gga D := nmeaParseGga abi tb (sentenceOf (cstr "$GPGGA,") fields h1 h2)
      (r.1 = 1 ↔ GgaGrammar fields) ∧ (r.1 = 1 → r.2 = ggaOf abi fields)) ∧
    let r : Int32 × Gsa D := nmeaParseGsa abi (sentenceOf (cstr "$GPGSA,") fields h1 h2)
    (r.1 = 1 ↔ GsaGrammar fields) ∧ (r.1 = 1 → r.2 = gsaOf abi fields) := by
  have hheads : (cstr "$GPGSA,").length = (cstr "$GPGGA,").length := by decide
  have hshort' : (sentenceOf (cstr "$GPGSA,") fields h1 h2).length < nmeaConvStrBuf := by
    unfold sentenceOf at hshort ⊢
    rw [List.length_append, hheads, ← List.length_append]
    exact hshort
  exact ⟨fun htime => gga_grammar hfields (hex_no_comma hex1) (hex_no_comma hex2) hshort htime tb,
    gsa_grammar laws hfields hne (hex_no_comma hex1) (hex_no_comma hex2) hshort'⟩

/-- The fields of the repository's own GGA sentence. -/
def ggaTestFields : List (List Byte) :=
  [cstr "111609.14", cstr "5001.27", cstr "N", cstr "3613.06", cstr "E", cstr "3", cstr "08",
    cstr "0.0", cstr "10.2", cstr "M", cstr "0.0", cstr "M", cstr "0.0", cstr "0000"]

theorem grammar_accepted_test :
    let abi : Abi := ⟨false, 32, le_rfl⟩
    (fieldAt ggaTestFields 1 ≠ [] →
      let r : Int32 × Gga Decimal :=
        nmeaParseGga abi [] (sentenceOf (cstr "$GPGGA,") ggaTestFields (ascii '7') (ascii '0'))
      (r.1 = 1 ↔ GgaGrammar ggaTestFields) ∧ (r.1 = 1 → r.2 = ggaOf abi ggaTestFields)) ∧
    let r : Int32 × Gsa Decimal :=
      nmeaParseGsa abi (sentenceOf (cstr "$GPGSA,") ggaTestFields (ascii '7') (ascii '0'))
    (r.1 = 1 ↔ GsaGrammar ggaTestFields) ∧ (r.1 = 1 → r.2 = gsaOf abi ggaTestFields) := by
  intro abi
  have hfields : ∀ f ∈ ggaTestFields, FramedField f := by decide
  have hshort : (sentenceOf (cstr "$GPGGA,") ggaTestFields (ascii '7') (ascii '0')).length < 256 := by
    decide
  exact grammar_accepted abi decimalLaws [] hfields (List.cons_ne_nil _ _) (by decide) (by decide)
    hshort

end RttNmea
