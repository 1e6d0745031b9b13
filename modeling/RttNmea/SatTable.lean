import RttNmea.Harvest

/-!
# The satellite table

nmea_gsv_info takes the number of satellites in view from the sentence, nmea_gsa_info walks
the table of 12 up to that number. `InTable` is the bound; a GSV packet keeps it unless it
announces more satellites than the table holds, or a negative number of them.
-/

namespace RttNmea

open CText

variable {D : Type} [CDouble D] {env : Env}

/-! ## The packets that keep the bound -/

/-- The summary is defined, and the satellites in view are in the table. -/
def InTable (info : Option (Info D)) : Prop :=
  ∃ i, info = some i ∧ 0 ≤ i.satinfo.inview ∧ i.satinfo.inview ≤ 12

theorem zeroed_inTable : InTable (some (.zeroed : Info D)) := by
  have h12 : (0 : Int32) ≤ 12 := by decide
  exact ⟨_, rfl, Int32.le_refl 0, h12⟩

/-- The slot that the first satellite of a packet is copied to. -/
def gsvFirst (pack : Gsv) : Int32 := (gsvIndex pack - 1) * 4

/-- The packet is ignored, or announces 0 to 12 satellites and its first slot is in the table. Past
a pack_index of 3 that is so for 2^30 + 1 to 2^30 + 3, whose product with 4 wraps. -/
def GsvFits (pack : Gsv) : Prop :=
  gsvIgnored pack ∨
    (0 ≤ gsvFirst pack ∧ gsvFirst pack ≤ 8) ∧ 0 ≤ pack.satCount ∧ pack.satCount ≤ 12

instance (pack : Gsv) : Decidable (GsvFits pack) := inferInstanceAs (Decidable (_ ∨ _))

/-- Only GSV packets can break the bound. -/
def PacketFits : Packet D → Prop
  | .gsv pack => GsvFits pack
  | _ => True

omit [CDouble D] in
instance : (pack : Packet D) → Decidable (PacketFits pack)
  | .gsv pack => inferInstanceAs (Decidable (GsvFits pack))
  | .gga _ | .gsa _ | .rmc _ | .vtg _ => isTrue trivial

theorem foldlM_some {α β : Type} {f : β → α → Option β} {xs : List α}
    (step : ∀ b, ∀ x ∈ xs, ∃ b', f b x = some b') (b : β) : ∃ b', xs.foldlM f b = some b' := by
  induction xs generalizing b with
  | nil => exact ⟨b, rfl⟩
  | cons x xs ih =>
    obtain ⟨b₁, h₁⟩ := step b x List.mem_cons_self
    obtain ⟨b₂, h₂⟩ := ih (fun b y hy => step b y (List.mem_cons_of_mem _ hy)) b₁
    exact ⟨b₂, by rw [List.foldlM_cons, h₁]; exact h₂⟩

theorem int32_eq_ofNat {x : Int32} {n : Nat} (hn : n < 2 ^ 31) (h0 : 0 ≤ x)
    (h : x ≤ Int32.ofNat n) : ∃ k ≤ n, x = Int32.ofNat k := by
  have h0' : 0 ≤ x.toInt := Int32.le_iff_toInt_le.mp h0
  have h' : x.toInt ≤ n := by
    have := Int32.le_iff_toInt_le.mp h
    rwa [Int32.toInt_ofNat_of_lt hn] at this
  refine ⟨x.toInt.toNat, by omega, ?_⟩
  apply Int32.toInt_inj.mp
  rw [Int32.toInt_ofNat_of_lt (by omega)]
  omega

/-! ## nmea_gsa_info -/

theorem gsaMark_some {prn : Int32} {j : Nat} (hj : j < nmeaMaxSat)
    (st : Vector Satellite nmeaMaxSat × Int32) : ∃ st', gsaMark prn st j = some st' := by
  unfold gsaMark
  by_cases h0 : prn = 0
  · exact ⟨st, if_pos h0⟩
  · rw [if_neg h0, dif_pos hj]
    split
    · exact ⟨_, rfl⟩
    · exact ⟨_, rfl⟩

omit [CDouble D] in
/-- With the satellites in view inside the table, no index leaves it. -/
theorem gsaInfo_keeps (pack : Gsa D) {info : Info D} (h : InTable (some info)) :
    InTable (nmeaGsaInfo pack info) := by
  obtain ⟨i, hi, h0, h12⟩ := h
  cases hi
  obtain ⟨k, hk, hview⟩ := int32_eq_ofNat (n := 12) (by omega) h0 h12
  have hrange : info.satinfo.inview.toNatClampNeg = k := by
    rw [hview]
    exact Int32.toNatClampNeg_ofNat_of_lt (by omega)
  have hrun : ∃ st, gsaMarkAll pack.satPrn.toList info.satinfo.inview (info.satinfo.sat, 0) =
      some st := by
    unfold gsaMarkAll
    apply foldlM_some
    intro st prn _
    apply foldlM_some
    intro st j hj
    apply gsaMark_some
    have : j < k := hrange ▸ List.mem_range.mp hj
    exact Nat.lt_of_lt_of_le this hk
  obtain ⟨st, hst⟩ := hrun
  rw [nmeaGsaInfo, hst]
  exact ⟨_, rfl, h0, h12⟩

/-! ## nmea_gsv_info -/

/-- The first slot is a multiple of four. -/
theorem gsvFirst_cases {pack : Gsv} (h : 0 ≤ gsvFirst pack ∧ gsvFirst pack < 12) :
    gsvFirst pack = 0 ∨ gsvFirst pack = 4 ∨ gsvFirst pack = 8 := by
  have hfour : (4 : Int32).toInt = 4 := by decide
  have hmul : (gsvFirst pack).toInt = ((gsvIndex pack - 1).toInt * 4).bmod (2 ^ 32) := by
    rw [gsvFirst, Int32.toInt_mul, hfour]
  have hlow : 0 ≤ (gsvFirst pack).toInt := Int32.le_iff_toInt_le.mp h.1
  have hhigh : (gsvFirst pack).toInt < 12 := Int32.lt_iff_toInt_lt.mp h.2
  have hvalue : (gsvFirst pack).toInt = 0 ∨ (gsvFirst pack).toInt = 4 ∨
      (gsvFirst pack).toInt = 8 := by
    rw [Int.bmod_def] at hmul
    omega
  rcases hvalue with h | h | h
  · exact .inl (Int32.toInt_inj.mp h)
  · exact .inr (.inl (Int32.toInt_inj.mp h))
  · exact .inr (.inr (Int32.toInt_inj.mp h))

theorem gsvCopied_eq (pack : Gsv) : gsvCopied pack =
    if gsvFirst pack + 4 > pack.satCount then pack.satCount - gsvFirst pack else 4 := rfl

/-- At most four satellites are copied, to slots of the table. -/
theorem gsvCopy_some {pack : Gsv} (hfirst : 0 ≤ gsvFirst pack ∧ gsvFirst pack ≤ 8)
    (h0 : 0 ≤ pack.satCount) (h12 : pack.satCount ≤ 12) {isat : Nat}
    (hi : isat < (gsvCopied pack).toNatClampNeg) (sat : Vector Satellite nmeaMaxSat) :
    ∃ sat', gsvCopy pack sat isat = some sat' := by
  have few : ∀ j < 3, ∀ k ≤ 12, (if Int32.ofNat (4 * j) + 4 > Int32.ofNat k then
      Int32.ofNat k - Int32.ofNat (4 * j) else 4).toNatClampNeg ≤ 4 := by
    decide
  have slots : ∀ j < 3, ∀ k < 4, 0 ≤ Int32.ofNat (4 * j) + Int32.ofNat k ∧
      (Int32.ofNat (4 * j) + Int32.ofNat k).toNatClampNeg < 12 := by
    decide
  obtain ⟨j, hj, hslot⟩ : ∃ j < 3, gsvFirst pack = Int32.ofNat (4 * j) := by
    have hlt : gsvFirst pack < 12 := Int32.lt_of_le_of_lt hfirst.2 (by decide)
    rcases gsvFirst_cases ⟨hfirst.1, hlt⟩ with h | h | h
    · exact ⟨0, by decide, h⟩
    · exact ⟨1, by decide, h⟩
    · exact ⟨2, by decide, h⟩
  obtain ⟨k, hk, heq⟩ := int32_eq_ofNat (n := 12) (by omega) h0 h12
  rw [gsvCopied_eq, heq, hslot] at hi
  have hi4 : isat < 4 := Nat.lt_of_lt_of_le hi (few j hj k hk)
  obtain ⟨hlow, hhigh⟩ := slots j hj isat hi4
  rw [← hslot] at hlow hhigh
  exact ⟨_, dif_pos ⟨hlow, hhigh, hi4⟩⟩

/-- Past the guard, a first slot outside the table is written. -/
theorem gsvCopy_fault {pack : Gsv} (hign : ¬ gsvIgnored pack)
    (hfirst : ¬ (0 ≤ gsvFirst pack ∧ gsvFirst pack ≤ 8)) (h0 : 0 ≤ pack.satCount)
    (sat : Vector Satellite nmeaMaxSat) :
    gsvCopied pack = 4 ∧ gsvCopy pack sat 0 = none := by
  have hindex : gsvIndex pack = pack.packIndex := by
    unfold gsvIndex
    refine if_neg fun hlt => hfirst ?_
    rw [gsvFirst, gsvIndex, if_pos hlt]
    decide
  have hplus : gsvFirst pack + 4 = pack.packIndex * 4 := by
    rw [gsvFirst, hindex, Int32.sub_mul, Int32.one_mul, Int32.sub_add_cancel]
  have hguard : pack.packIndex * 4 ≤ 12 := Int32.not_lt.mp fun h => hign (.inr h)
  have hin : ¬ (0 ≤ gsvFirst pack ∧ gsvFirst pack < 12) := by
    intro hin
    refine hfirst ⟨hin.1, ?_⟩
    rcases gsvFirst_cases hin with h | h | h <;> rw [h] <;> decide
  -- the product in the guard is not positive, so four satellites are copied
  have hnone : gsvFirst pack + 4 ≤ 0 := by
    have hzero : (0 : Int32).toInt = 0 := by decide
    have hfour : (4 : Int32).toInt = 4 := by decide
    have htwelve : (12 : Int32).toInt = 12 := by decide
    rw [hplus, Int32.le_iff_toInt_le, hzero]
    rw [Int32.le_iff_toInt_le, htwelve, Int32.toInt_mul, hfour] at hguard
    rw [Int32.toInt_mul, hfour]
    rw [Int32.le_iff_toInt_le, Int32.lt_iff_toInt_lt, hzero, htwelve] at hin
    have hvalue : (gsvFirst pack).toInt = ((pack.packIndex * 4).toInt - 4).bmod (2 ^ 32) := by
      rw [← hplus, Int32.toInt_add, hfour]
      have hlow := (gsvFirst pack).le_toInt
      have hhigh := (gsvFirst pack).toInt_lt
      rw [Int.bmod_def, Int.bmod_def]
      omega
    rw [Int32.toInt_mul, hfour] at hvalue
    rw [Int.bmod_def] at hvalue hguard ⊢
    rw [Int.bmod_def] at hvalue
    omega
  constructor
  · rw [gsvCopied_eq, if_neg]
    exact Int32.not_lt.mpr (Int32.le_trans hnone h0)
  · refine dif_neg fun hslot => hin ?_
    have hslot0 : gsvFirst pack + Int32.ofNat 0 = gsvFirst pack := Int32.add_zero _
    have hlow : 0 ≤ gsvFirst pack := hslot0 ▸ hslot.1
    have hhigh : (gsvFirst pack).toNatClampNeg < 12 := hslot0 ▸ hslot.2.1
    refine ⟨hlow, Int32.lt_iff_toInt_lt.mpr ?_⟩
    have htwelve : (12 : Int32).toInt = 12 := by decide
    rw [htwelve]
    have hnat : (gsvFirst pack).toNatClampNeg = (gsvFirst pack).toInt.toNat := rfl
    omega

omit [CDouble D] in
/-- A GSV packet keeps the bound exactly if it fits. -/
theorem gsvInfo_keeps_iff (pack : Gsv) {info : Info D} (h : InTable (some info)) :
    InTable (nmeaGsvInfo pack info) ↔ GsvFits pack := by
  unfold nmeaGsvInfo
  by_cases hign : gsvIgnored pack
  · rw [if_pos hign]
    exact iff_of_true h (.inl hign)
  · rw [if_neg hign]
    constructor
    · rintro ⟨i, hrun, h0, h12⟩
      obtain ⟨sat, hsat, hi⟩ := Option.bind_eq_some_iff.mp hrun
      cases hi
      refine .inr ⟨?_, h0, h12⟩
      by_contra hfirst
      obtain ⟨hcopied, hfault⟩ := gsvCopy_fault hign hfirst h0 info.satinfo.sat
      have hrange : List.range (gsvCopied pack).toNatClampNeg = 0 :: [1, 2, 3] := by
        rw [hcopied]
        rfl
      rw [hrange, List.foldlM_cons, hfault] at hsat
      cases hsat
    · intro hfits
      obtain ⟨hfirst, h0, h12⟩ := hfits.resolve_left hign
      obtain ⟨sat, hsat⟩ := foldlM_some (fun sat isat hi =>
        gsvCopy_some hfirst h0 h12 (List.mem_range.mp hi) sat) info.satinfo.sat
      rw [hsat]
      exact ⟨_, rfl, h0, h12⟩

theorem rmcInfo_satinfo (pack : Rmc D) (info : Info D) :
    (nmeaRmcInfo pack info).satinfo = info.satinfo := by
  unfold nmeaRmcInfo
  dsimp only
  split
  · rfl
  · split <;> rfl

/-- One packet of any type. -/
theorem packInfo_keeps_iff (pack : Packet D) {info : Option (Info D)} (h : InTable info) :
    InTable (info.bind (packInfo pack)) ↔ PacketFits pack := by
  obtain ⟨i, rfl, h0, h12⟩ := h
  cases pack with
  | gga pack => exact iff_of_true ⟨_, rfl, h0, h12⟩ trivial
  | gsa pack => exact iff_of_true (gsaInfo_keeps pack ⟨i, rfl, h0, h12⟩) trivial
  | gsv pack => exact gsvInfo_keeps_iff pack ⟨i, rfl, h0, h12⟩
  | rmc pack =>
    refine iff_of_true ⟨_, rfl, ?_⟩ trivial
    rw [rmcInfo_satinfo]
    exact ⟨h0, h12⟩
  | vtg pack => exact iff_of_true ⟨_, rfl, h0, h12⟩ trivial

/-- All packets of a queue: the summaries after them are in the table as long as they fit. -/
theorem applyAll_keeps_iff (packets : List (Packet D)) {info : Option (Info D)} (h : InTable info) :
    (∀ e ∈ applyAll info packets, InTable e.2) ↔ ∀ q ∈ packets, PacketFits q := by
  induction packets generalizing info with
  | nil =>
    exact iff_of_true (fun e he => absurd he List.not_mem_nil)
      (fun q hq => absurd hq List.not_mem_nil)
  | cons q qs ih =>
    have hstep := packInfo_keeps_iff q h
    rw [applyAll, List.forall_mem_cons, List.forall_mem_cons]
    constructor
    · rintro ⟨hq, hqs⟩
      exact ⟨hstep.mp hq, (ih hq).mp hqs⟩
    · rintro ⟨hq, hqs⟩
      have hq := hstep.mpr hq
      exact ⟨hq, (ih hq).mpr hqs⟩

theorem foldInfo_keeps {packets : List (Packet D)} (hfit : ∀ q ∈ packets, PacketFits q)
    {info : Option (Info D)} (h : InTable info) : InTable (foldInfo info packets) := by
  induction packets generalizing info with
  | nil => exact h
  | cons q qs ih =>
    obtain ⟨hq, hqs⟩ := List.forall_mem_cons.mp hfit
    exact ih hqs ((packInfo_keeps_iff q h).mpr hq)

/-! ## Runs -/

/-- Every GSV packet this push queues keeps the bound. -/
def PushFits (D : Type) [CDouble D] (env : Env) (p : Parser) (w : World D) (c : List Byte) :
    Prop :=
  ∀ q ∈ (queuedBy env w.mallocs (pushPieces env p w c) : List (Packet D)), PacketFits q

instance (p : Parser) (w : World D) (c : List Byte) : Decidable (PushFits D env p w c) :=
  inferInstanceAs (Decidable (∀ q ∈ _, _))

/-- A row of pushes leaves packets that fit in the queue if each queues only such. -/
theorem eachPush_fits_iff {p : Parser} {w : World D} {s : AbsParser D} (h : Rep p w s)
    {slices : List (List Byte)} (hfit : ∀ c ∈ slices, c.length ≤ s.size) :
    (∀ q ∈ (s.pushEach env slices).2.queue, PacketFits q) ↔
      (∀ q ∈ s.queue, PacketFits q) ∧ EachPush env (PushFits D env) p w slices := by
  induction slices generalizing p w s with
  | nil => exact (and_iff_left trivial).symm
  | cons c cs ih =>
    have hc := hfit c List.mem_cons_self
    obtain ⟨p₁, w₁, hrun, h₁⟩ := realPush_spec env h hc
    have hnew : (s.realPush env c).2.queue =
        s.queue ++ queuedBy env w.mallocs (pushPieces env p w c) := by
      rw [pushPieces_eq h, ← h.mallocs, ← harvest_packets env s.mallocs (s.origin c)]
      rfl
    rw [eachPush_cons hrun, ← and_assoc]
    show (∀ q ∈ ((s.realPush env c).2.pushEach env cs).2.queue, PacketFits q) ↔ _
    rw [ih h₁ fun d hd => hfit d (List.mem_cons_of_mem _ hd), hnew, List.forall_mem_append]
    rfl

/-- What a run applies is in the table as long as its pushes fit. -/
theorem everyPush_fits_iff {p : Parser} {w : World D} {s : AbsParser D} (h : Rep p w s)
    (hpos : 0 < s.size) (hqueue : ∀ q ∈ s.queue, PacketFits q) (info : Option (Info D))
    (chunks : List (List Byte)) :
    ∃ new, (s.parseAll env info chunks).2.1.applied = s.applied ++ new ∧ (InTable info →
      ((∀ e ∈ new, InTable e.2) ↔ EveryPush env (PushFits D env) p info w chunks) ∧
        (EveryPush env (PushFits D env) p info w chunks →
          InTable (s.parseAll env info chunks).2.2)) := by
  induction chunks generalizing p w s info with
  | nil =>
    exact ⟨[], (List.append_nil _).symm, fun hin =>
      ⟨iff_of_true (fun e he => absurd he List.not_mem_nil) trivial, fun _ => hin⟩⟩
  | cons c cs ih =>
    obtain ⟨p₁, w₁, hrun, h₁⟩ := parse_spec env h hpos info c
    have hempty : ∀ q ∈ (s.parse env info c).2.1.queue, PacketFits q :=
      fun q hq => absurd hq List.not_mem_nil
    obtain ⟨new, happlied, hrest⟩ := ih h₁ (by rw [parse_size]; exact hpos) hempty
      (s.parse env info c).2.2
    have hslices := slices_fit (n := c.length) hpos c
    have hpushed : (∀ q ∈ (s.push env c).2.queue, PacketFits q) ↔ _ :=
      eachPush_fits_iff h hslices
    rw [and_iff_right hqueue] at hpushed
    have hcons : EveryPush env (PushFits D env) p info w (c :: cs) ↔ _ := everyPush_cons hrun cs
    refine ⟨applyAll info (s.push env c).2.queue ++ new, ?_, fun hin => ?_⟩
    · show ((s.parse env info c).2.1.parseAll env (s.parse env info c).2.2 cs).2.1.applied = _
      have hlog : (s.parse env info c).2.1.applied =
          s.applied ++ applyAll info (s.push env c).2.queue := by
        show (s.push env c).2.applied ++ _ = _
        rw [push_applied]
      rw [happlied, hlog, List.append_assoc]
    · have hfirst := applyAll_keeps_iff (s.push env c).2.queue hin
      rw [List.forall_mem_append, hfirst, hcons, ← h.size, ← hpushed]
      by_cases hfits : ∀ q ∈ (s.push env c).2.queue, PacketFits q
      · have hnext := hrest (foldInfo_keeps hfits hin)
        exact ⟨and_congr_right fun _ => hnext.1, fun hok => hnext.2 hok.2⟩
      · exact ⟨iff_of_false (fun h => hfits h.1) fun h => hfits h.1,
          fun hok => absurd hok.1 hfits⟩

/-- **The bound over whole runs.** From a zeroed summary, the satellites in view are in the table
after every packet, and no update has left it, exactly if no push queues a GSV packet that does
not fit. -/
theorem satellites_in_table (st : ParserState D) (hqueue : ∀ q ∈ st.abs.queue, PacketFits q)
    (chunks : List (List Byte)) :
    ∃ n p info w new, parseAll env st.parser (some .zeroed) st.world chunks =
        some (n, p, info, w) ∧
      w.applied = st.world.applied ++ new ∧
      ((∀ e ∈ new, InTable e.2) ↔
        EveryPush env (PushFits D env) st.parser (some .zeroed) st.world chunks) ∧
      ((∀ e ∈ new, InTable e.2) → InTable info) := by
  obtain ⟨p, w, hrun, hrep⟩ := parseAll_spec env st.rep st.size_pos (some .zeroed) chunks
  obtain ⟨new, happlied, hnew⟩ :=
    everyPush_fits_iff st.rep st.size_pos hqueue (some .zeroed) chunks
  obtain ⟨hiff, hlast⟩ := hnew zeroed_inTable
  refine ⟨_, p, _, w, new, hrun, ?_, hiff, fun hin => hlast (hiff.mp hin)⟩
  rw [← hrep.logs.2.2, happlied, st.rep.logs.2.2]

/-- Three GSV sentences that list twelve satellites, and a GSA sentence that names some. -/
def twelveSatellites : List Byte :=
  cstr "$GPGSV,3,1,12,01,40,083,46,02,17,308,41,12,07,344,39,14,22,228,45*7F\r\n" ++
  cstr "$GPGSV,3,2,12,15,40,083,46,17,17,308,41,18,07,344,39,19,22,228,45*7A\r\n" ++
  cstr "$GPGSV,3,3,12,22,40,083,46,24,17,308,41,25,07,344,39,32,22,228,45*78\r\n" ++
  cstr "$GPGSA,A,3,01,02,14,32,,,,,,,,,2.5,1.3,2.1*33\r\n"

theorem satellites_in_table_twelve :
    ∃ n p info w new, parseAll (.zeroed fun _ => true) ParserState.zeroed.parser (some .zeroed)
        ParserState.zeroed.world [twelveSatellites] = some (n, p, info, w) ∧
      w.applied = [] ++ new ∧ (∀ e ∈ new, InTable e.2) ∧ n = 4 ∧
      info.map (fun i => (i.satinfo.inview, i.satinfo.inuse)) = some (12, 4) := by
  obtain ⟨n, p, info, w, new, hrun, happlied, hiff, -⟩ := @satellites_in_table Decimal _
    (.zeroed fun _ => true) ParserState.zeroed (by decide) [twelveSatellites]
  have hfits : PushFits Decimal (.zeroed fun _ => true) ParserState.zeroed.parser
      ParserState.zeroed.world twelveSatellites := by decide +kernel
  have hseen : (parseAll (.zeroed fun _ => true) ParserState.zeroed.parser (some .zeroed)
      ParserState.zeroed.world [twelveSatellites]).map (fun r =>
        (r.1, r.2.2.1.map fun i => (i.satinfo.inview, i.satinfo.inuse))) =
      some (4, some (12, 4)) := by decide +kernel
  rw [hrun] at hseen
  obtain ⟨hcount, hinfo⟩ := Prod.mk.inj (Option.some.inj hseen)
  refine ⟨n, p, info, w, new, hrun, happlied, hiff.mpr ?_, hcount, hinfo⟩
  have hsize : twelveSatellites.length ≤ ParserState.zeroed.parser.buffSize := by decide +kernel
  exact ⟨(eachPush_small hsize).mpr hfits, fun _ _ _ _ _ => trivial⟩

/-- The GSV sentence of the repository's own test: 13 satellites in view. -/
theorem thirteen_satellites :
    ∃ n p info w, parseAll (.zeroed fun _ => true)
        ParserState.zeroed.parser (some .zeroed)
        ParserState.zeroed.world
        [cstr "$GPGSV,4,1,13,28,86,324,,03,46,082,22,17,46,326,19,06,31,244,37*7D\r\n"] =
          some (n, p, info, w) ∧ ¬ InTable info := by
  have hrun : ((parseAll (.zeroed fun _ => true)
        ParserState.zeroed.parser (some .zeroed)
        ParserState.zeroed.world
        [cstr "$GPGSV,4,1,13,28,86,324,,03,46,082,22,17,46,326,19,06,31,244,37*7D\r\n"]).map
      fun r => r.2.2.1.map fun i => i.satinfo.inview) = some (some 13) := by decide +kernel
  obtain ⟨⟨n, p, info, w⟩, hrun, hview⟩ := Option.map_eq_some_iff.mp hrun
  refine ⟨n, p, info, w, hrun, ?_⟩
  rintro ⟨i, rfl, -, h12⟩
  have hview : i.satinfo.inview = 13 := Option.some.inj hview
  rw [hview] at h12
  exact absurd h12 (by decide)

end RttNmea
