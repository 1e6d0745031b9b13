import RttNmea.ParseLib
import RttNmea.NullFields

/-!
# Members of RMC and their fields

The RMC format reads the date as three "%2d", which take six bytes whatever they are, and its
"%C" takes one byte or none, comma or not. So a date of another length is made up for by its
neighbours, and the last members can come from the bytes behind their fields. Here is exactly
when each member of an accepted sentence is that of its own field.
-/

namespace RttNmea

open CText

variable {D : Type} [CDouble D] {abi : Abi}

/-- What a field of a framed sentence is made of. -/
structure FramedField (f : List Byte) : Prop where
  no_comma : comma ∉ f
  no_star : star ∉ f
  no_nul : (0 : Byte) ∉ f

instance (f : List Byte) : Decidable (FramedField f) :=
  decidable_of_iff (comma ∉ f ∧ star ∉ f ∧ (0 : Byte) ∉ f)
    ⟨fun h => ⟨h.1, h.2.1, h.2.2⟩, fun h => ⟨h.no_comma, h.no_star, h.no_nul⟩⟩

/-- Field number `i`, counted from 1; an absent field is empty. -/
def fieldAt (fields : List (List Byte)) (i : Nat) : List Byte := fields[i - 1]?.getD []

/-- The years since 1900 that two digits stand for. -/
def yearOf (year : Int32) : Int32 := if year < 90 then year + 100 else year

/-- Every member decoded from the field at its own position. -/
def rmcOf (abi : Abi) (fields : List (List Byte)) : Rmc D :=
  let date := fieldAt fields 9
  { utc :=
      { (nmeaParseTime D abi (fieldAt fields 1) {}).2 with
        day := intField abi (date.take 2)
        mon := intField abi ((date.drop 2).take 2) - 1
        year := yearOf (intField abi ((date.drop 4).take 2)) }
    status := chrField (fieldAt fields 2), lat := dblField (fieldAt fields 3)
    ns := chrField (fieldAt fields 4), lon := dblField (fieldAt fields 5)
    ew := chrField (fieldAt fields 6), speed := dblField (fieldAt fields 7)
    direction := dblField (fieldAt fields 8), declination := dblField (fieldAt fields 10)
    declinEw := chrField (fieldAt fields 11), mode := chrField (fieldAt fields 12) }

/-- The fields are all there, the date has six characters, and nothing has shifted. -/
structure InPlace (abi : Abi) (fields : List (List Byte)) (pack : Rmc D) : Prop where
  enough : 11 ≤ fields.length
  date : (fieldAt fields 9).length = 6
  members : pack = rmcOf abi fields

/-- The date has six characters. A null time is read from the stack, where it has to be zero.
A sentence of 11 fields does not end with a null declin_ew, which would be read as the '*'. If
declin_ew has more than one character, the mode is not read; otherwise a null mode with more
fields behind it would be read as the comma. -/
structure NoShift (D : Type) [CDouble D] (abi : Abi) (timeBuff : List Byte)
    (fields : List (List Byte)) : Prop where
  date : (fieldAt fields 9).length = 6
  time : fieldAt fields 1 = [] → (nmeaParseTime D abi (text timeBuff) {}).2 = {}
  last : fields.length = 11 → fieldAt fields 11 ≠ []
  long : 2 ≤ (fieldAt fields 11).length → fieldAt fields 12 = []
  more : (fieldAt fields 11).length ≤ 1 → 12 < fields.length → fieldAt fields 12 ≠ []

/-! ## Splitting at commas -/

/-- Fields with a comma after each, in front of a sentence, are its first fields. -/
theorem joined_split {fs fields : List (List Byte)} {rest tail : List Byte}
    (hfs : ∀ f ∈ fs, comma ∉ f) (hfields : ∀ f ∈ fields, comma ∉ f) (htail : comma ∉ tail)
    (hne : fields ≠ []) (h : joined fields ++ tail = commaText fs ++ rest) :
    ∃ more, more ≠ [] ∧ fields = fs ++ more ∧ rest = joined more ++ tail := by
  induction fs generalizing fields with
  | nil => exact ⟨fields, hne, rfl, h.symm⟩
  | cons f fs ih =>
    have htext : commaText (f :: fs) ++ rest = f ++ comma :: (commaText fs ++ rest) := by
      simp [commaText]
    rw [htext] at h
    obtain ⟨g, gs, rfl⟩ := List.exists_cons_of_ne_nil hne
    have hg := hfields g List.mem_cons_self
    by_cases hgs : gs = []
    · subst hgs
      have hnone : comma ∉ g ++ tail := by
        rw [List.mem_append]
        exact fun hm => hm.elim hg htail
      have hsome : comma ∈ g ++ tail := by
        have hjoined : joined [g] = g := rfl
        rw [hjoined] at h
        rw [h]
        exact List.mem_append_right _ List.mem_cons_self
      exact absurd hsome hnone
    · have hjoined : joined (g :: gs) ++ tail = g ++ comma :: (joined gs ++ tail) := by
        have := joined_append [g] hgs
        rw [List.singleton_append] at this
        rw [this]
        simp [commaText]
      rw [hjoined] at h
      obtain ⟨rfl, hnext⟩ := split_at_first hg (hfs f List.mem_cons_self) h
      obtain ⟨more, hmore, rfl, hrest⟩ := ih (fun x hx => hfs x (List.mem_cons_of_mem _ hx))
        (fun x hx => hfields x (List.mem_cons_of_mem _ hx)) hgs hnext
      exact ⟨more, hmore, rfl, hrest⟩

/-! ## What is stored -/

theorem scan_two_cons (items : List Item) (a b : Byte) (rest : List Byte) :
    (scanItems abi (.two :: items) (a :: b :: rest) : Nat × List (Option (Stored D))) =
      ((scanItems (D := D) abi items rest).1 + 1,
        some (.int (nmeaAtoi abi [a, b] 10)) :: (scanItems abi items rest).2) := by
  have hlen : ¬ (a :: b :: rest).length < 2 := by simp
  rw [scanItems, if_neg hlen]
  rfl

theorem exists_six {date : List Byte} (hdate : date.length = 6) :
    ∃ a b c d e f, date = [a, b, c, d, e, f] := by
  obtain ⟨a, date, rfl⟩ := List.exists_of_length_succ date hdate
  obtain ⟨b, date, rfl⟩ := List.exists_of_length_succ date (Nat.succ.inj hdate)
  obtain ⟨c, d, e, f, rfl⟩ := List.length_eq_four.mp (Nat.succ.inj (Nat.succ.inj hdate))
  exact ⟨a, b, c, d, e, f, rfl⟩

/-- Six bytes in front of the date's comma, a declination and its comma. -/
theorem scan_dateItems {date declination rest : List Byte} (hdate : date.length = 6)
    (hdecl : comma ∉ declination) :
    (scanItems abi dateItems (date ++ comma :: (declination ++ comma :: rest)) :
        Nat × List (Option (Stored D))) =
      let r := scanItems abi [.field .chr, .lit comma, .field .chr, .lit star] rest
      (4 + r.1, some (.int (nmeaAtoi abi (date.take 2) 10)) ::
        some (.int (nmeaAtoi abi ((date.drop 2).take 2) 10)) ::
        some (.int (nmeaAtoi abi ((date.drop 4).take 2) 10)) ::
        stores abi .dbl declination :: r.2) := by
  have hdbl : List.Forall₂ CommaField [.dbl] [declination] :=
    .cons ⟨hdecl, fun h => by cases h⟩ .nil
  have hback : backItems =
      commaItems [.dbl] ++ [.field .chr, .lit comma, .field .chr, .lit star] := rfl
  have htext : declination ++ comma :: rest = commaText [declination] ++ rest := by
    simp [commaText]
  obtain ⟨a, b, c, d, e, f, rfl⟩ := exists_six hdate
  simp only [List.cons_append, List.nil_append]
  rw [dateItems, scan_two_cons, scan_two_cons, scan_two_cons, scan_lit, htext, hback,
    scan_commas hdbl]
  simp only [List.take_succ_cons, List.take_zero, List.drop_succ_cons, List.drop_zero,
    Prod.mk.injEq]
  constructor
  · simp only [List.length_cons, List.length_nil]
    omega
  · rfl

/-- The scan of a sentence whose first 12 conversions get through. -/
theorem scan_accepted {fs : List (List Byte)}
    (hfs : List.Forall₂ CommaField [.str, .chr, .dbl, .chr, .dbl, .chr, .dbl, .dbl] fs)
    {date declination rest : List Byte} (hdate : date.length = 6) (hdecl : comma ∉ declination) :
    (nmeaScanf abi (cstr "$GPRMC," ++
        (commaText fs ++ (date ++ comma :: (declination ++ comma :: rest)))) rmcFormat :
        Nat × List (Option (Stored D))) =
      let r := scanItems abi [.field .chr, .lit comma, .field .chr, .lit star] rest
      (12 + r.1, List.zipWith (stores abi) [.str, .chr, .dbl, .chr, .dbl, .chr, .dbl, .dbl] fs ++
        (some (.int (nmeaAtoi abi (date.take 2) 10)) ::
          some (.int (nmeaAtoi abi ((date.drop 2).take 2) 10)) ::
          some (.int (nmeaAtoi abi ((date.drop 4).take 2) 10)) ::
          stores abi .dbl declination :: r.2)) := by
  have hrow : rmcRow = (cstr "$GPRMC,").map Item.lit ++
    (commaItems [.str, .chr, .dbl, .chr, .dbl, .chr, .dbl, .dbl] ++ dateItems) := rfl
  rw [scanf_rmc, hrow, scan_lits, scan_commas hfs, scan_dateItems hdate hdecl]
  simp only [Prod.mk.injEq, and_true, List.length_cons, List.length_nil]
  omega

/-- The shape of a sentence that is counted far enough. -/
theorem scan_accepted_shape {buff : List Byte}
    (h : 13 ≤ (nmeaScanf abi (cstr "$GPRMC," ++ buff) rmcFormat :
      Nat × List (Option (Stored D))).1) :
    ∃ fs date declination rest,
      List.Forall₂ CommaField [.str, .chr, .dbl, .chr, .dbl, .chr, .dbl, .dbl] fs ∧
      date.length = 6 ∧ comma ∉ declination ∧
      buff = commaText fs ++ (date ++ comma :: (declination ++ comma :: rest)) := by
  have hrow : rmcRow = (cstr "$GPRMC,").map Item.lit ++
    (commaItems [.str, .chr, .dbl, .chr, .dbl, .chr, .dbl, .dbl] ++ dateItems) := rfl
  rw [scanf_rmc, hrow, scan_lits] at h
  obtain ⟨fs, _, hfs, rfl, hend⟩ := (@scan_commas_ge D _ abi 5 (Nat.succ_pos 4)
    [.str, .chr, .dbl, .chr, .dbl, .chr, .dbl, .dbl] dateItems buff).mp h
  obtain ⟨date, declination, rest, hdate, hdecl, -, rfl⟩ := scan_dateItems_ge.mp hend
  exact ⟨fs, date, declination, rest, hfs, hdate, hdecl, rfl⟩

/-! ## The last two members -/

/-- "%C" in front of a byte it does not wait for takes one byte. -/
theorem scan_chr_cons {next : Byte} (items : List Item) {b : Byte} (hb : b ≠ next)
    (rest : List Byte) :
    (scanItems abi (.field .chr :: .lit next :: items) (b :: rest) :
        Nat × List (Option (Stored D))) =
      ((scanItems (D := D) abi (.lit next :: items) rest).1 + 1,
        some (.chr b) :: (scanItems abi (.lit next :: items) rest).2) := by
  have hsize : fieldSize .chr ((formatOf (.lit next :: items)).headD 0) (b :: rest) = 1 :=
    if_pos ⟨rfl, hb⟩
  generalize hlit : Item.lit next :: items = later at hsize ⊢
  rw [scanItems, if_neg (List.cons_ne_nil _ _), hsize]
  rfl

/-- In front of that byte it takes none. -/
theorem scan_chr_empty {next : Byte} (items : List Item) (h0 : next ≠ 0) (rest : List Byte) :
    (scanItems abi (.field .chr :: .lit next :: items) (next :: rest) :
        Nat × List (Option (Stored D))) =
      ((scanItems (D := D) abi items rest).1 + 1, none :: (scanItems abi items rest).2) := by
  have hsize : fieldSize .chr ((formatOf (.lit next :: items)).headD 0) (next :: rest) = 0 := by
    have hnext : (formatOf (.lit next :: items)).headD 0 = next := rfl
    unfold fieldSize
    rw [hnext, if_neg (fun h => h.2 rfl), if_neg h0, List.idxOf_cons_self]
  rw [scanItems, if_neg (List.cons_ne_nil _ _), hsize]
  dsimp only
  rw [List.drop_zero, scan_lit]
  rfl

variable {f : List Byte} {more : List (List Byte)} {h1 h2 : Byte}

/-- The bytes after the fields. -/
abbrev tailOf (h1 h2 : Byte) : List Byte := [star, h1, h2, cr, lf]

/-- The byte behind a field. -/
theorem joined_next (f : List Byte) (more : List (List Byte)) (h1 h2 : Byte) :
    ∃ rest, joined (f :: more) ++ tailOf h1 h2 = f ++ (if more = [] then star else comma) :: rest ∧
      (more ≠ [] → rest = joined more ++ tailOf h1 h2) := by
  cases more with
  | nil => exact ⟨_, rfl, fun h => absurd rfl h⟩
  | cons g gs =>
    refine ⟨joined (g :: gs) ++ tailOf h1 h2, ?_, fun _ => rfl⟩
    rw [if_neg (List.cons_ne_nil _ _)]
    have hjoined : joined (f :: g :: gs) = f ++ comma :: joined (g :: gs) := rfl
    rw [hjoined, List.append_assoc, List.cons_append]

/-- The mode is that of its field unless that is null and has a comma behind it. -/
theorem mode_read (hf : FramedField f) (more : List (List Byte)) (h1 h2 : Byte) :
    chrAt (scanItems abi [.field .chr, .lit star] (joined (f :: more) ++ tailOf h1 h2) :
        Nat × List (Option (Stored D))).2 0 = chrField f ↔ (more ≠ [] → f ≠ []) := by
  obtain ⟨rest, htext, -⟩ := joined_next f more h1 h2
  rw [htext]
  cases f with
  | nil =>
    have hcomma : comma ≠ star := by decide
    by_cases hmore : more = []
    · rw [if_pos hmore, List.nil_append, scan_chr_empty _ (by decide)]
      exact iff_of_true rfl fun h => absurd hmore h
    · rw [if_neg hmore, List.nil_append, scan_chr_cons _ hcomma]
      have hread : ¬ (comma : Byte) = chrField [] := by decide
      exact iff_of_false hread fun h => h hmore rfl
  | cons b f =>
    have hb : b ≠ star := fun e => hf.no_star (e ▸ List.mem_cons_self)
    rw [List.cons_append, scan_chr_cons _ hb]
    exact iff_of_true rfl fun _ => List.cons_ne_nil _ _

/-- The declin_ew is that of its field unless that is null and the last. -/
theorem declinEw_read (hf : FramedField f) (more : List (List Byte)) (h1 h2 : Byte) :
    chrAt (scanItems abi [.field .chr, .lit comma, .field .chr, .lit star]
        (joined (f :: more) ++ tailOf h1 h2) : Nat × List (Option (Stored D))).2 0 = chrField f ↔
      (more = [] → f ≠ []) := by
  obtain ⟨rest, htext, -⟩ := joined_next f more h1 h2
  rw [htext]
  cases f with
  | nil =>
    have hstar : star ≠ comma := by decide
    by_cases hmore : more = []
    · have hread : ¬ (star : Byte) = chrField [] := by decide
      rw [if_pos hmore, List.nil_append, scan_chr_cons _ hstar]
      exact iff_of_false hread fun h => h hmore rfl
    · rw [if_neg hmore, List.nil_append, scan_chr_empty _ (by decide)]
      exact iff_of_true rfl fun h => absurd h hmore
  | cons b f =>
    have hb : b ≠ comma := fun e => hf.no_comma (e ▸ List.mem_cons_self)
    rw [List.cons_append, scan_chr_cons _ hb]
    exact iff_of_true rfl fun _ => List.cons_ne_nil _ _

/-- Behind a byte that is no comma nothing more is read. -/
theorem scan_one_chr {b c : Byte} (hb : b ≠ comma) (hc : c ≠ comma) (rest : List Byte) :
    (scanItems abi [.field .chr, .lit comma, .field .chr, .lit star] (b :: c :: rest) :
      Nat × List (Option (Stored D))).2 = [some (.chr b)] := by
  have hstop : ¬ (c :: rest).head? = some comma := fun e => hc (Option.some.inj e)
  rw [scan_chr_cons _ hb, scanItems, if_neg hstop]

/-- No mode is read behind a declin_ew of more than one character. -/
theorem mode_after (hf : FramedField f) (hmore : ∀ g ∈ more, FramedField g) (hex1 : h1 ≠ comma)
    (h2 : Byte) :
    chrAt (scanItems abi [.field .chr, .lit comma, .field .chr, .lit star]
        (joined (f :: more) ++ tailOf h1 h2) : Nat × List (Option (Stored D))).2 1 =
        chrField (more.head?.getD []) ↔
      (2 ≤ f.length → more.head?.getD [] = []) ∧
        (f.length ≤ 1 → 1 < more.length → more.head?.getD [] ≠ []) := by
  have hstar : star ≠ comma := by decide
  have hplain : ∀ b ∈ f, b ≠ comma := fun b hb e => hf.no_comma (e ▸ hb)
  have hnone : ∀ b : Byte, chrAt [some (Stored.chr b : Stored D)] 1 = 0 := fun _ => rfl
  cases more with
  | nil =>
    have htext : joined [f] ++ tailOf h1 h2 = f ++ star :: h1 :: [h2, cr, lf] := rfl
    have hread : ∃ b, (scanItems abi [.field .chr, .lit comma, .field .chr, .lit star]
        (f ++ star :: h1 :: [h2, cr, lf]) : Nat × List (Option (Stored D))).2 =
          [some (.chr b)] := by
      match f, hplain with
      | [], _ => exact ⟨star, scan_one_chr hstar hex1 _⟩
      | [b], hplain => exact ⟨b, scan_one_chr (hplain b List.mem_cons_self) hstar _⟩
      | b :: c :: f, hplain =>
        have hc := hplain c (List.mem_cons_of_mem _ List.mem_cons_self)
        exact ⟨b, scan_one_chr (hplain b List.mem_cons_self) hc _⟩
    obtain ⟨b, hread⟩ := hread
    rw [htext, hread]
    exact iff_of_true rfl ⟨fun _ => rfl, fun _ h => absurd h (Nat.not_lt_zero 1)⟩
  | cons g gs =>
    have hg := hmore g List.mem_cons_self
    have htext : joined (f :: g :: gs) ++ tailOf h1 h2 =
        f ++ comma :: (joined (g :: gs) ++ tailOf h1 h2) := by
      have hjoined : joined (f :: g :: gs) = f ++ comma :: joined (g :: gs) := rfl
      rw [hjoined, List.append_assoc, List.cons_append]
    have hmode := @mode_read D _ abi g hg gs h1 h2
    have hgs : 1 < (g :: gs).length ↔ gs ≠ [] := by
      rw [List.length_cons, ← List.length_pos_iff]
      omega
    rw [htext, List.head?_cons, Option.getD_some, hgs]
    match f, hplain with
    | [], _ =>
      rw [List.nil_append, scan_chr_empty _ (by decide)]
      apply hmode.trans
      simp
    | [b], hplain =>
      rw [List.singleton_append, scan_chr_cons _ (hplain b List.mem_cons_self), scan_lit]
      apply hmode.trans
      simp
    | b :: c :: f, hplain =>
      have hc := hplain c (List.mem_cons_of_mem _ List.mem_cons_self)
      have hnul : (0 : Byte) = chrField g ↔ g = [] := by
        cases g with
        | nil => exact iff_of_true rfl rfl
        | cons d g =>
          have hd : (0 : Byte) ≠ d := fun e => hg.no_nul (e ▸ List.mem_cons_self)
          exact iff_of_false hd (List.cons_ne_nil _ _)
      rw [List.cons_append, List.cons_append, scan_one_chr (hplain b List.mem_cons_self) hc, hnone,
        hnul]
      simp

/-- The time is set and nothing else. -/
theorem parseTime_frame (buff : List Byte) (day mon year : Int32) :
    (nmeaParseTime D abi buff { day := day, mon := mon, year := year }).2 =
      { (nmeaParseTime D abi buff {}).2 with day := day, mon := mon, year := year } := by
  unfold nmeaParseTime
  split
  · rfl
  · split <;> rfl

/-- The packet of an accepted sentence, by what was stored and by the time. -/
def rmcStored (args : List (Option (Stored D))) (time : Time) : Rmc D :=
  { utc :=
      { time with
        day := intAt args 8 0, mon := intAt args 9 0 - 1, year := yearOf (intAt args 10 0) }
    status := chrAt args 1, lat := dblAt args 2, ns := chrAt args 3, lon := dblAt args 4
    ew := chrAt args 5, speed := dblAt args 6, direction := dblAt args 7
    declination := dblAt args 11, declinEw := chrAt args 12, mode := chrAt args 13 }

theorem rmc_accepted {tb buff : List Byte} {pack : Rmc D}
    (h : nmeaParseRmc abi tb buff = (1, pack)) :
    let r := nmeaScanf abi buff rmcFormat
    13 ≤ r.1 ∧
      pack = rmcStored r.2 (nmeaParseTime D abi (text (timeBuffAfter tb r.2)) {}).2 := by
  have hno : ¬ (0 : Int32) = 1 := by decide
  intro r
  unfold nmeaParseRmc rmcBody success at h
  dsimp only at h
  split at h
  · exact absurd (congrArg Prod.fst h) hno
  · rename_i hcount
    split at h
    · exact absurd (congrArg Prod.fst h) hno
    · rw [parseTime_frame] at h
      constructor
      · show 13 ≤ (nmeaScanf abi buff rmcFormat : Nat × List (Option (Stored D))).1
        omega
      · exact (congrArg Prod.snd h).symm

/-! ## Accepted sentences -/

theorem no_commas {ks : List Conv} {fs : List (List Byte)} (h : List.Forall₂ CommaField ks fs) :
    ∀ f ∈ fs, comma ∉ f := by
  induction h with
  | nil => exact fun f hf => absurd hf List.not_mem_nil
  | cons hf _ ih =>
    intro g hg
    rcases List.mem_cons.mp hg with rfl | hg
    · exact hf.no_comma
    · exact ih g hg

theorem comma_not_mem_tail (hex1 : h1 ≠ comma) (hex2 : h2 ≠ comma) : comma ∉ tailOf h1 h2 := by
  have hstar : comma ≠ star := by decide
  have hcr : comma ≠ cr := by decide
  have hlf : comma ≠ lf := by decide
  simp only [List.mem_cons, List.not_mem_nil, or_false, not_or]
  exact ⟨hstar, hex1.symm, hex2.symm, hcr, hlf⟩

/-- The fields of an accepted sentence whose date has six characters. -/
theorem accepted_fields {fields : List (List Byte)} (hfields : ∀ f ∈ fields, FramedField f)
    (hne : fields ≠ []) (hex1 : h1 ≠ comma) (hex2 : h2 ≠ comma)
    (hcount : 13 ≤ (nmeaScanf abi (sentenceOf (cstr "$GPRMC,") fields h1 h2) rmcFormat :
      Nat × List (Option (Stored D))).1)
    (hsix : (fieldAt fields 9).length = 6) :
    ∃ fs date declination ew more,
      fields = fs ++ date :: declination :: ew :: more ∧
      List.Forall₂ CommaField [.str, .chr, .dbl, .chr, .dbl, .chr, .dbl, .dbl] fs ∧
      date.length = 6 := by
  have htail := comma_not_mem_tail hex1 hex2
  have hplain : ∀ {gs : List (List Byte)}, (∀ g ∈ gs, g ∈ fields) → ∀ g ∈ gs, comma ∉ g :=
    fun hgs g hg => (hfields g (hgs g hg)).no_comma
  obtain ⟨fs, date, declination, rest, hfs, hdate, hdecl, hbuff⟩ := scan_accepted_shape hcount
  have hfsplain := no_commas hfs
  obtain ⟨more, hmore, rfl, hrest⟩ := joined_split hfsplain (hplain fun _ h => h) htail hne hbuff
  have height : fs.length = 8 := hfs.length_eq.symm
  obtain ⟨g, gs, rfl⟩ := List.exists_cons_of_ne_nil hmore
  have hg : fieldAt (fs ++ g :: gs) 9 = g := by
    unfold fieldAt
    rw [List.getElem?_append_right (by omega), height]
    rfl
  rw [hg] at hsix
  obtain ⟨rest', htext, hnext⟩ := joined_next g gs h1 h2
  rw [htext] at hrest
  obtain ⟨hgdate, hsep⟩ := List.append_inj hrest (by rw [hdate, hsix])
  have hgs : gs ≠ [] := by
    intro hgs
    rw [if_pos hgs] at hsep
    exact absurd (List.cons.inj hsep).1 (by decide)
  have hback : joined gs ++ tailOf h1 h2 = commaText [declination] ++ rest := by
    rw [← hnext hgs, ← (List.cons.inj hsep).2]
    simp [commaText]
  have hgsplain : ∀ f ∈ gs, comma ∉ f := hplain fun f hf =>
    List.mem_append_right _ (List.mem_cons_of_mem _ hf)
  have hdeclplain : ∀ f ∈ [declination], comma ∉ f := by
    intro f hf
    rw [List.mem_singleton.mp hf]
    exact hdecl
  obtain ⟨more', hmore', rfl, -⟩ := joined_split hdeclplain hgsplain htail hgs hback
  obtain ⟨ew, more', rfl⟩ := List.exists_cons_of_ne_nil hmore'
  exact ⟨fs, g, declination, ew, more', rfl, hfs, hsix⟩

/-- The text the time is parsed from. -/
theorem text_time {args : List (Option (Stored D))} {time : List Byte}
    (hargs : args.head? = some (stores abi .str time)) (hnul : (0 : Byte) ∉ time)
    (tb : List Byte) :
    text (timeBuffAfter tb args) = if time = [] then text tb else time := by
  unfold timeBuffAfter
  rw [hargs, stores, stored]
  by_cases htime : time = []
  · rw [if_pos htime, if_pos htime]
  · rw [if_neg htime, if_neg htime]
    exact text_append_zero hnul _

/-- The time of the stack is the one of a null field if it is zero. -/
theorem time_zero_iff (buff : List Byte) (day mon year : Int32) :
    ({ (nmeaParseTime D abi buff {}).2 with day := day, mon := mon, year := year } : Time) =
        { ({} : Time) with day := day, mon := mon, year := year } ↔
      (nmeaParseTime D abi buff {}).2 = {} := by
  have hframe := @parseTime_frame D _ abi buff 0 0 0
  generalize (nmeaParseTime D abi buff {}).2 = t at hframe ⊢
  constructor
  · intro h
    have hframe : t = { t with day := 0, mon := 0, year := 0 } := hframe
    rw [hframe]
    simp only [Time.mk.injEq, true_and] at h ⊢
    exact h
  · intro h
    rw [h]

theorem eight_fields {fs : List (List Byte)} (h : fs.length = 8) :
    ∃ time status lat ns lon ew speed direction,
      fs = [time, status, lat, ns, lon, ew, speed, direction] := by
  match fs, h with
  | [time, status, lat, ns, lon, ew, speed, direction], _ =>
    exact ⟨time, status, lat, ns, lon, ew, speed, direction, rfl⟩

/-- The members of an accepted sentence, but for the three that can go wrong, are those of
their fields. -/
theorem rmc_members {tb : List Byte} {fs more : List (List Byte)}
    {date declination ew : List Byte} (hdate : date.length = 6)
    (hfs : List.Forall₂ CommaField [.str, .chr, .dbl, .chr, .dbl, .chr, .dbl, .dbl] fs)
    (hnul : (0 : Byte) ∉ fieldAt fs 1) (hdecl : comma ∉ declination) {pack : Rmc D}
    (haccepted : nmeaParseRmc abi tb (sentenceOf (cstr "$GPRMC,")
      (fs ++ date :: declination :: ew :: more) h1 h2) = (1, pack)) :
    let fields := fs ++ date :: declination :: ew :: more
    let back := scanItems (D := D) abi [.field .chr, .lit comma, .field .chr, .lit star]
      (joined (ew :: more) ++ tailOf h1 h2)
    let time := if fieldAt fields 1 = [] then text tb else fieldAt fields 1
    pack = { (rmcOf abi fields : Rmc D) with
      utc :=
        { (nmeaParseTime D abi time {}).2 with
          day := (rmcOf (D := D) abi fields).utc.day
          mon := (rmcOf (D := D) abi fields).utc.mon
          year := (rmcOf (D := D) abi fields).utc.year }
      declinEw := chrAt back.2 0
      mode := chrAt back.2 1 } := by
  obtain ⟨-, hpack⟩ := rmc_accepted haccepted
  have hsentence : sentenceOf (cstr "$GPRMC,") (fs ++ date :: declination :: ew :: more) h1 h2 =
      cstr "$GPRMC," ++ (commaText fs ++ (date ++ comma :: (declination ++ comma ::
        (joined (ew :: more) ++ tailOf h1 h2)))) := by
    have hjoined : joined (date :: declination :: ew :: more) =
        date ++ comma :: (declination ++ comma :: joined (ew :: more)) := rfl
    rw [sentenceOf, joined_append _ (List.cons_ne_nil _ _), hjoined]
    simp only [List.append_assoc, List.cons_append]
  rw [hsentence, scan_accepted hfs hdate hdecl] at hpack
  have hpair : ∀ i, i ≤ 4 → intField abi ((date.drop i).take 2) =
      nmeaAtoi abi ((date.drop i).take 2) 10 := by
    intro i hi
    apply if_neg
    intro h
    have hlen := congrArg List.length h
    simp only [List.length_take, List.length_drop, List.length_nil] at hlen
    omega
  obtain ⟨time, status, lat, ns, lon, ewLon, speed, direction, rfl⟩ :=
    eight_fields hfs.length_eq.symm
  intro fields back time'
  let args : List (Option (Stored D)) :=
    List.zipWith (stores abi) [.str, .chr, .dbl, .chr, .dbl, .chr, .dbl, .dbl]
      [time, status, lat, ns, lon, ewLon, speed, direction] ++
      (some (.int (nmeaAtoi abi (date.take 2) 10)) ::
        some (.int (nmeaAtoi abi ((date.drop 2).take 2) 10)) ::
        some (.int (nmeaAtoi abi ((date.drop 4).take 2) 10)) ::
        stores abi .dbl declination :: back.2)
  have htime : text (timeBuffAfter tb args) = time' := @text_time D _ abi _ _ rfl hnul tb
  have hday : intAt args 8 0 = intField abi (date.take 2) := (hpair 0 (by decide)).symm
  have hmon : intAt args 9 0 = intField abi ((date.drop 2).take 2) := (hpair 2 (by decide)).symm
  have hyear : intAt args 10 0 = intField abi ((date.drop 4).take 2) := (hpair 4 le_rfl).symm
  have hpack : pack =
      rmcStored args (nmeaParseTime D abi (text (timeBuffAfter tb args)) {}).2 := hpack
  rw [hpack]
  unfold rmcStored
  rw [htime, hday, hmon, hyear]
  simp only [Rmc.mk.injEq]
  exact ⟨rfl, chrAt_stores rfl, dblAt_stores rfl, chrAt_stores rfl, dblAt_stores rfl,
    chrAt_stores rfl, dblAt_stores rfl, dblAt_stores rfl, dblAt_stores rfl, rfl, rfl⟩

/-- With a null time field the packet has the time of the fields exactly if zero is read. -/
theorem clock_null {fields : List (List Byte)} (hnull : fieldAt fields 1 = []) (time : List Byte) :
    ({ (nmeaParseTime D abi time {}).2 with
        day := (rmcOf (D := D) abi fields).utc.day
        mon := (rmcOf (D := D) abi fields).utc.mon
        year := (rmcOf (D := D) abi fields).utc.year } : Time) = (rmcOf (D := D) abi fields).utc ↔
      (nmeaParseTime D abi time {}).2 = {} := by
  have hzero : (rmcOf (D := D) abi fields).utc = { ({} : Time) with
      day := (rmcOf (D := D) abi fields).utc.day
      mon := (rmcOf (D := D) abi fields).utc.mon
      year := (rmcOf (D := D) abi fields).utc.year } := by
    show ({ (nmeaParseTime D abi (fieldAt fields 1) {}).2 with
      day := _, mon := _, year := _ } : Time) = _
    rw [hnull, parseTime_empty]
    rfl
  rw [hzero]
  exact time_zero_iff time _ _ _

/-- How the three members that can go wrong are read, by the fields alone. -/
theorem rmc_reading {tb : List Byte} {fields : List (List Byte)}
    (hfields : ∀ f ∈ fields, FramedField f) (hne : fields ≠ []) (hex1 : h1 ≠ comma)
    (hex2 : h2 ≠ comma) {pack : Rmc D}
    (haccepted : nmeaParseRmc abi tb (sentenceOf (cstr "$GPRMC,") fields h1 h2) = (1, pack))
    (hsix : (fieldAt fields 9).length = 6) :
    let time := if fieldAt fields 1 = [] then text tb else fieldAt fields 1
    11 ≤ fields.length ∧ ∃ letter mode,
      pack = { (rmcOf abi fields : Rmc D) with
        utc :=
          { (nmeaParseTime D abi time {}).2 with
            day := (rmcOf (D := D) abi fields).utc.day
            mon := (rmcOf (D := D) abi fields).utc.mon
            year := (rmcOf (D := D) abi fields).utc.year }
        declinEw := letter
        mode := mode } ∧
      (letter = chrField (fieldAt fields 11) ↔ (fields.length = 11 → fieldAt fields 11 ≠ [])) ∧
      (mode = chrField (fieldAt fields 12) ↔
        (2 ≤ (fieldAt fields 11).length → fieldAt fields 12 = []) ∧
          ((fieldAt fields 11).length ≤ 1 → 12 < fields.length → fieldAt fields 12 ≠ [])) := by
  intro time
  obtain ⟨hcount, -⟩ := rmc_accepted haccepted
  obtain ⟨fs, date, declination, ew, more, rfl, hfs, hdate⟩ :=
    accepted_fields hfields hne hex1 hex2 hcount hsix
  have height : fs.length = 8 := hfs.length_eq.symm
  have hat : ∀ i, 9 ≤ i → fieldAt (fs ++ date :: declination :: ew :: more) i =
      (date :: declination :: ew :: more)[i - 9]?.getD [] := by
    intro i hi
    unfold fieldAt
    have hindex : i - 1 - 8 = i - 9 := by omega
    rw [List.getElem?_append_right (by omega), height, hindex]
  have hew : fieldAt (fs ++ date :: declination :: ew :: more) 11 = ew := hat 11 (by decide)
  have hmode : fieldAt (fs ++ date :: declination :: ew :: more) 12 = more.head?.getD [] := by
    rw [hat 12 (by decide)]
    cases more <;> rfl
  have hlength : (fs ++ date :: declination :: ew :: more).length = 11 + more.length := by
    rw [List.length_append, height]
    simp only [List.length_cons]
    omega
  have hnul : (0 : Byte) ∉ fieldAt fs 1 := by
    unfold fieldAt
    rw [List.getElem?_eq_getElem (by omega)]
    exact (hfields _ (List.mem_append_left _ (List.getElem_mem _))).no_nul
  have hplain : ∀ f ∈ declination :: ew :: more, FramedField f := fun f hf =>
    hfields f (List.mem_append_right _ (List.mem_cons_of_mem _ hf))
  have hewplain := hplain ew (List.mem_cons_of_mem _ List.mem_cons_self)
  have hmembers := rmc_members hdate hfs hnul (hplain _ List.mem_cons_self).no_comma haccepted
  have hewread := @declinEw_read D _ abi ew hewplain more h1 h2
  have hmoderead := @mode_after D _ abi ew more h1 hewplain
    (fun g hg => hplain g (List.mem_cons_of_mem _ (List.mem_cons_of_mem _ hg))) hex1 h2
  have hmany : 1 < more.length ↔ 12 < (fs ++ date :: declination :: ew :: more).length := by omega
  have hlast : more = [] ↔ (fs ++ date :: declination :: ew :: more).length = 11 := by
    rw [← List.length_eq_zero_iff]
    omega
  rw [hlast] at hewread
  rw [← hmode, hmany] at hmoderead
  rw [hew]
  exact ⟨by omega, _, _, hmembers, hewread, hmoderead⟩

/-- **The members of an accepted RMC sentence are those of its fields exactly when nothing has
shifted.** -/
theorem rmc_inPlace_iff {tb : List Byte} {fields : List (List Byte)}
    (hfields : ∀ f ∈ fields, FramedField f) (hne : fields ≠ []) (hex1 : isDigitOf 16 h1 = true)
    (hex2 : isDigitOf 16 h2 = true) {pack : Rmc D}
    (haccepted : nmeaParseRmc abi tb (sentenceOf (cstr "$GPRMC,") fields h1 h2) = (1, pack)) :
    InPlace abi fields pack ↔ NoShift D abi tb fields := by
  by_cases hsix : (fieldAt fields 9).length = 6
  · obtain ⟨henough, letter, mode, hmembers, hletter, hmode⟩ :=
      rmc_reading hfields hne (hex_no_comma hex1) (hex_no_comma hex2) haccepted hsix
    constructor
    · rintro ⟨-, -, hin⟩
      rw [hin] at hmembers
      have hclock := congrArg Rmc.utc hmembers
      have hletters := (congrArg Rmc.declinEw hmembers).symm
      have hmodes := (congrArg Rmc.mode hmembers).symm
      dsimp only at hclock hletters hmodes
      obtain ⟨hlong, hmore⟩ := hmode.mp hmodes
      refine ⟨hsix, ?_, hletter.mp hletters, hlong, hmore⟩
      intro hnull
      rw [if_pos hnull] at hclock
      exact (clock_null hnull _).mp hclock.symm
    · rintro ⟨-, htime, hlast, hlong, hmany⟩
      refine ⟨henough, hsix, ?_⟩
      rw [hmembers, hletter.mpr hlast, hmode.mpr ⟨hlong, hmany⟩]
      have hclock : ({ (nmeaParseTime D abi
            (if fieldAt fields 1 = [] then text tb else fieldAt fields 1) {}).2 with
          day := (rmcOf (D := D) abi fields).utc.day
          mon := (rmcOf (D := D) abi fields).utc.mon
          year := (rmcOf (D := D) abi fields).utc.year } : Time) =
            (rmcOf (D := D) abi fields).utc := by
        by_cases hnull : fieldAt fields 1 = []
        · rw [if_pos hnull]
          exact (clock_null hnull _).mpr (htime hnull)
        · rw [if_neg hnull]
          rfl
      rw [hclock]
      rfl
  · exact iff_of_false (fun h => hsix h.date) (fun h => hsix h.date)

/-- The fields of the first RMC sentence of the repository's test. -/
def testFields : List (List Byte) :=
  [cstr "173843", cstr "A", cstr "3349.896", cstr "N", cstr "11808.521", cstr "W", cstr "000.0",
    cstr "360.0", cstr "230108", cstr "013.4", cstr "E"]

theorem rmc_inPlace_test :
    let sentence := sentenceOf (cstr "$GPRMC,") testFields (ascii '6') (ascii '9')
    let r : Int32 × Rmc Decimal := nmeaParseRmc ⟨false, 32, le_rfl⟩ zeroBuff sentence
    sentence = cstr "$GPRMC,173843,A,3349.896,N,11808.521,W,000.0,360.0,230108,013.4,E*69\r\n" ∧
      (InPlace ⟨false, 32, le_rfl⟩ testFields r.2 ↔
        NoShift Decimal ⟨false, 32, le_rfl⟩ zeroBuff testFields) := by
  intro sentence r
  have hcode : r.1 = 1 := by decide +kernel
  have hfields : ∀ f ∈ testFields, FramedField f := by decide
  have hne : testFields ≠ [] := List.cons_ne_nil _ _
  have hex1 : isDigitOf 16 (ascii '6') = true := by decide
  have hex2 : isDigitOf 16 (ascii '9') = true := by decide
  have haccepted : r = (1, r.2) := by
    rw [← hcode]
  exact ⟨by decide, rmc_inPlace_iff hfields hne hex1 hex2 haccepted⟩

/-- A date of five digits, and a null declination behind it. -/
def shiftedFields : List (List Byte) :=
  [cstr "173843", cstr "A", cstr "3349.896", cstr "N", cstr "11808.521", cstr "W", cstr "000.0",
    cstr "360.0", cstr "12345", [], cstr "013.4", cstr "E"]

/-- The date takes the comma, the declination what stands behind its own field, and the
sentence is accepted. -/
theorem rmc_shifted :
    let sentence := sentenceOf (cstr "$GPRMC,") shiftedFields (ascii '7') (ascii 'C')
    let r : Int32 × Rmc Decimal := nmeaParseRmc ⟨false, 32, le_rfl⟩ zeroBuff sentence
    sentence = cstr "$GPRMC,173843,A,3349.896,N,11808.521,W,000.0,360.0,12345,,013.4,E*7C\r\n" ∧
      r.1 = 1 ∧ r.2.declination = ⟨134, 1⟩ ∧ ¬ InPlace ⟨false, 32, le_rfl⟩ shiftedFields r.2 := by
  intro sentence r
  have hread : r.1 = 1 ∧ r.2.declination = ⟨134, 1⟩ := by decide +kernel
  refine ⟨by decide, hread.1, hread.2, ?_⟩
  intro h
  exact absurd h.date (by decide)

end RttNmea
