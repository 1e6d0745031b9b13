import RttNmea.GpsFields
import RttNmea.GpsCycle

/-!
# One GSV message through gps_parse

What parse_gsv writes for any message. Its message number is a `uint8_t`, and so is the index of
the first slot: a number above 10 may come back into the table. The total number is compared only
after everything is stored.
-/

namespace RttNmea

open CText

variable {abi : Abi} {input : List Byte} {ptr ptrEnd : Nat}

/-! ## Numbers -/

theorem toNat_toUint8 (x : Int) : (toUint8 (Int32.ofInt x)).toNat = (x % 256).toNat := by
  have hint : (Int32.ofInt x).toUInt32.toNat = (x % 4294967296).toNat := by
    show (BitVec.ofInt 32 x).toNat = _
    rw [BitVec.toNat_ofInt]
    rfl
  unfold toUint8
  rw [UInt32.toNat_toUInt8, hint]
  omega

theorem longMax_mod (abi : Abi) : longMax abi % 256 = 255 := by
  have hbits := abi.longBits_ge
  have hpow : (2 : Int) ^ (abi.longBits - 1) = 256 * 2 ^ (abi.longBits - 9) := by
    rw [show (256 : Int) = 2 ^ 8 from rfl, ← pow_add]
    congr 1
    omega
  unfold longMax
  omega

/-! ## parse_gsv -/

/-- A message that is not taken apart. -/
theorem conversion_none (h : ¬ ∃ ptr ptrEnd, MessageAt input ptr ptrEnd) {size : UInt8}
    (hsize : 1 ≤ size) :
    dataConversion (some input) size = (0, []) ∨ dataConversion (some input) size = (255, []) := by
  by_cases hfirst : StarFirst input
  · exact .inr (conversion_starFirst hfirst hsize)
  left
  unfold dataConversion
  dsimp only
  split
  · rename_i ptr ptrEnd hptr hend
    have hne : ptrEnd ≠ ptr := by
      rintro rfl
      have hcomma := (strchr_some hptr).2.2
      rw [(strchr_some hend).2.2] at hcomma
      exact absurd hcomma (by decide)
    have hle : ¬ ptrEnd < ptr := fun hlt => hfirst ⟨ptrEnd, ptr, hend, hptr, hlt⟩
    rw [if_pos]
    by_contra hclose
    apply h
    refine ⟨ptr, ptrEnd, ⟨hptr, hend, by omega, ?_⟩⟩
    unfold maxNmeaPackLen at hclose ⊢
    omega
  · rfl

/-- Either no message has eight commas, or the one that is taken apart does. -/
theorem short_or_long (input : List Byte) :
    (∀ ptr ptrEnd, MessageAt input ptr ptrEnd → commas input ptrEnd < 8) ∨
      ∃ ptr ptrEnd, MessageAt input ptr ptrEnd ∧ 8 ≤ commas input ptrEnd := by
  by_cases hat : ∃ ptr ptrEnd, MessageAt input ptr ptrEnd ∧ 8 ≤ commas input ptrEnd
  · exact .inr hat
  · refine .inl fun ptr ptrEnd h => ?_
    by_contra hlong
    exact hat ⟨ptr, ptrEnd, h, Nat.le_of_not_lt hlong⟩

/-- A message without eight commas is refused before anything is stored. -/
theorem parseGsv_short (h : ∀ ptr ptrEnd, MessageAt input ptr ptrEnd → commas input ptrEnd < 8)
    (pview : NmeaGsv) : parseGsv abi (some input) pview = some (false, pview) := by
  have hmax : gsvSectionMax.toNat = 19 := rfl
  unfold parseGsv
  dsimp only
  by_cases hat : ∃ ptr ptrEnd, MessageAt input ptr ptrEnd
  · obtain ⟨ptr, ptrEnd, hat⟩ := hat
    have hless := h ptr ptrEnd hat
    have hcount := hat.count gsvSectionMax (by decide)
    have hlt : (dataConversion (some input) gsvSectionMax).1 < parseGsvMessageMaxLen := by
      have hneed : parseGsvMessageMaxLen.toNat = 7 := rfl
      rw [UInt8.lt_iff_toNat_lt, hcount, hmax, hneed]
      omega
    rw [if_pos hlt]
  · rcases @conversion_none input hat gsvSectionMax (by decide) with hrun | hrun
    · rw [hrun]
      rfl
    · have hge : ¬ (255 : UInt8) < parseGsvMessageMaxLen := by decide
      rw [hrun, if_neg hge]
      rfl

/-- The two numbers of a message that decide what parse_gsv does, as it holds them. -/
def totalNo (abi : Abi) (input : List Byte) (ptrEnd : Nat) : UInt8 :=
  toUint8 (atoi abi (commaField input ptrEnd 1))

def curNo (abi : Abi) (input : List Byte) (ptrEnd : Nat) : UInt8 :=
  toUint8 (atoi abi (commaField input ptrEnd 2))

/-- Any other message, up to the loop. -/
theorem parseGsv_long (h : MessageAt input ptr ptrEnd) (hm : 8 ≤ commas input ptrEnd) :
    ∃ output count, 7 ≤ count ∧ count ≤ 18 ∧ ∀ pview, parseGsv abi (some input) pview =
      if curNo abi input ptrEnd < 1 then some (false, pview)
      else
        (gsvLoop abi (text input) output count
          (gpsNmeaMaxSvview - ((curNo abi input ptrEnd - 1) * 4).toNat) 3
          ((curNo abi input ptrEnd - 1) * 4).toNat
          (if curNo abi input ptrEnd = 1 then {} else pview).rsv).map fun rsv =>
        (!(decide (totalNo abi input ptrEnd < curNo abi input ptrEnd)),
          { satesInView := (atoi abi (commaField input ptrEnd 3)).toInt16, rsv }) := by
  have hmax : gsvSectionMax.toNat = 19 := rfl
  have hcount := h.count gsvSectionMax (by decide)
  have hread : ∀ k ≤ 2, ∃ t, ptrSection gsvSectionMax (text input)
        (dataConversion (some input) gsvSectionMax).2 k = some (some t) ∧
      atoi abi t = atoi abi (commaField input ptrEnd (k + 1)) := by
    intro k hk
    obtain ⟨p, hderef, hsection⟩ :=
      @MessageAt.deref_field input ptr ptrEnd h gsvSectionMax k (by omega) (by omega)
    refine ⟨(text input).drop p, ?_, atoi_text hsection⟩
    exact Option.join_eq_some_iff.mp hderef
  obtain ⟨t0, h0, a0⟩ := hread 0 (by decide)
  obtain ⟨t1, h1, a1⟩ := hread 1 (by decide)
  obtain ⟨t2, h2, a2⟩ := hread 2 (by decide)
  have hge : ¬ (dataConversion (some input) gsvSectionMax).1 < parseGsvMessageMaxLen := by
    have hneed : parseGsvMessageMaxLen.toNat = 7 := rfl
    rw [UInt8.lt_iff_toNat_lt, hcount, hmax, hneed]
    omega
  refine ⟨(dataConversion (some input) gsvSectionMax).2,
    (dataConversion (some input) gsvSectionMax).1.toNat, ?_, ?_, fun pview => ?_⟩
  · omega
  · omega
  · unfold parseGsv
    dsimp only
    rw [if_neg hge]
    simp only [h0, h1, h2, a0, a1, a2, Option.bind_eq_bind, Option.bind_some, Option.elim_some,
      Option.map_eq_bind]
    rfl

/-! ## The loop -/

theorem sectionInt_some (s : List Byte) (output : List Nat) {k : Nat} (hk : k ≤ 18) :
    ∃ n, sectionInt abi s output k = some n := by
  have hin : k < gsvSectionMax.toNat := Nat.lt_succ_of_le hk
  unfold sectionInt ptrSection
  rw [if_pos hin]
  exact ⟨_, rfl⟩

/-- One turn stores an entry that does not depend on the table. -/
theorem gsvTurn_stores (s : List Byte) (output : List Nat) {t cur : Nat} (ht : t < 4)
    (hcur : cur < gpsNmeaMaxSvview) :
    ∃ entry, ∀ rsv, gsvTurn abi s output (3 + 4 * t) cur rsv = some (rsv.set cur entry) := by
  obtain ⟨prn, h0⟩ := @sectionInt_some abi s output (3 + 4 * t) (by omega)
  obtain ⟨elevation, h1⟩ := @sectionInt_some abi s output (3 + 4 * t + 1) (by omega)
  obtain ⟨azimuth, h2⟩ := @sectionInt_some abi s output (3 + 4 * t + 2) (by omega)
  obtain ⟨cnr, h3⟩ := @sectionInt_some abi s output (3 + 4 * t + 3) (by omega)
  refine ⟨{ prn := toUint8 prn, elevation := toUint8 elevation, azimuth := azimuth.toInt16
            cnr := toUint8 cnr }, fun rsv => ?_⟩
  unfold gsvTurn
  simp only [h0, h1, h2, h3, Option.bind_eq_bind, Option.bind_some, dif_pos hcur]
  rfl

/-- The loop writes at most the slots of the turns that are left. -/
theorem gsvLoop_frame (s : List Byte) (output : List Nat) {count : Nat} (hcount : count ≤ 18)
    {t j : Nat} (ht : t + j = 4) (cur : Nat) (rsv : Vector GsvSatelite gpsNmeaMaxSvview) :
    ∃ rsv', gsvLoop abi s output count (gpsNmeaMaxSvview - cur) (3 + 4 * t) cur rsv = some rsv' ∧
      ∀ q (hq : q < gpsNmeaMaxSvview), ¬ (cur ≤ q ∧ q < cur + j) → rsv'[q] = rsv[q] := by
  induction j generalizing t cur rsv with
  | zero =>
    have hdone : ¬ 3 + 4 * t < count := by omega
    refine ⟨rsv, ?_, fun _ _ _ => rfl⟩
    cases gpsNmeaMaxSvview - cur with
    | zero => rfl
    | succ room => rw [gsvLoop, if_neg hdone]
  | succ j ih =>
    by_cases hcur : cur < gpsNmeaMaxSvview
    · have hnext : gpsNmeaMaxSvview - cur = gpsNmeaMaxSvview - (cur + 1) + 1 := by omega
      rw [hnext, gsvLoop]
      split
      · obtain ⟨entry, hturn⟩ := @gsvTurn_stores abi s output t cur (by omega) hcur
        obtain ⟨rsv', hrun, hsame⟩ := ih (t := t + 1) (by omega) (cur + 1) (rsv.set cur entry)
        refine ⟨rsv', ?_, ?_⟩
        · rw [hturn]
          exact hrun
        · intro q hq hout
          rw [hsame q hq (by omega), Vector.getElem_set_ne _ _ (by omega)]
      · exact ⟨rsv, rfl, fun _ _ _ => rfl⟩
    · have hfull : gpsNmeaMaxSvview - cur = 0 := by omega
      rw [hfull]
      exact ⟨rsv, rfl, fun _ _ _ => rfl⟩

/-- And it writes the first of them, if there is room. -/
theorem gsvLoop_first (s : List Byte) (output : List Nat) {count cur : Nat} (hmin : 7 ≤ count)
    (hcount : count ≤ 18) (hcur : cur < gpsNmeaMaxSvview) :
    ∃ entry, ∀ rsv rsv', gsvLoop abi s output count (gpsNmeaMaxSvview - cur) 3 cur rsv = some rsv' →
      rsv'[cur] = entry := by
  obtain ⟨entry, hturn⟩ := @gsvTurn_stores abi s output 0 cur (by decide) hcur
  refine ⟨entry, fun rsv rsv' hrun => ?_⟩
  have hnext : gpsNmeaMaxSvview - cur = gpsNmeaMaxSvview - (cur + 1) + 1 := by omega
  obtain ⟨rest, hrest, hsame⟩ := @gsvLoop_frame abi s output count hcount 1 3 rfl (cur + 1)
    (rsv.set cur entry)
  rw [hnext, gsvLoop, if_pos (by omega : 3 < count), hturn] at hrun
  have heq : rest = rsv' := Option.some.inj (hrest.symm.trans hrun)
  rw [← heq, hsame cur hcur (by omega), Vector.getElem_set_self]

/-! ## Slots -/

/-- The text between the second comma and the next, or the first '*' behind it. -/
def secondField (input : List Byte) : List Byte :=
  (((text input).splitOn gpsSeparator).getD 2 []).takeWhile fun b => b ≠ ascii '*'

/-- The slots of the `k`-th message of a cycle. -/
def OwnSlot (k q : Nat) : Prop := 4 * (k - 1) ≤ q ∧ q ≤ 4 * (k - 1) + 3

/-- parse_gsv leaves the slots of the other messages alone, but for message 1, which clears the
structure first. -/
def OwnSlots (abi : Abi) (input : List Byte) (k : Nat) : Prop :=
  ∀ pview, ∃ ok view, parseGsv abi (some input) pview = some (ok, view) ∧
    ∃ base : NmeaGsv, (base = pview ∨ k = 1 ∧ base = {}) ∧
      ∀ q (hq : q < gpsNmeaMaxSvview), ¬ OwnSlot k q → view.rsv[q] = base.rsv[q]

/-- The message is refused for its length, or its number is at most 10, or what is left of it in
`cur_index` is outside of the table. -/
def NumberInTable (abi : Abi) (input : List Byte) (k : Nat) : Prop :=
  (∀ ptr ptrEnd, MessageAt input ptr ptrEnd → commas input ptrEnd < 8) ∨ k ≤ 10 ∨
    10 ≤ (min (k : Int) (longMax abi) - 1) % 64

/-- A text that goes on behind a few commas has the same fields in front of them. -/
theorem splitOn_front (s rest : List Byte) {k : Nat} (hk : k < s.count gpsSeparator) :
    ((s ++ rest).splitOn gpsSeparator)[k]? = (s.splitOn gpsSeparator)[k]? := by
  have hmem : comma ∈ s := List.count_pos_iff.mp (by
    have : 0 < s.count gpsSeparator := by omega
    exact this)
  obtain ⟨pre, more, rfl, hpre⟩ := List.eq_append_cons_of_mem hmem
  have hshort : (pre ++ comma :: more).splitOn gpsSeparator = pre :: more.splitOn gpsSeparator :=
    List.splitOn_append_cons_self_of_not_mem hpre more
  have hlong : ((pre ++ comma :: more) ++ rest).splitOn gpsSeparator =
      pre :: (more ++ rest).splitOn gpsSeparator := by
    rw [List.append_assoc, List.cons_append]
    exact List.splitOn_append_cons_self_of_not_mem hpre (more ++ rest)
  rw [hshort, hlong]
  cases k with
  | zero => rfl
  | succ k =>
    have hnone : pre.count gpsSeparator = 0 := List.count_eq_zero_of_not_mem hpre
    have hone : (comma :: more).count gpsSeparator = more.count gpsSeparator + 1 :=
      List.count_cons_self
    rw [List.count_append, hnone, hone] at hk
    rw [List.getElem?_cons_succ, List.getElem?_cons_succ]
    exact splitOn_front more rest (by omega)
termination_by s.length

/-- The second field of a message that is taken apart. -/
theorem MessageAt.second (h : MessageAt input ptr ptrEnd) (hm : 8 ≤ commas input ptrEnd) :
    secondField input = commaField input ptrEnd 2 := by
  obtain ⟨after, hsplit, hstar, -⟩ := strchr_first h.ends
  have hfront := splitOn_front ((text input).take ptrEnd) (ascii '*' :: after) (k := 2)
    (Nat.lt_of_lt_of_le (by decide) hm)
  rw [← hsplit] at hfront
  unfold secondField commaField
  rw [List.getD_eq_getElem?_getD, List.getD_eq_getElem?_getD, hfront, List.takeWhile_eq_self_iff]
  intro b hb
  have hin : b ∈ (text input).take ptrEnd := by
    obtain ⟨hplain, -, hlen⟩ := splitOn_comma ((text input).take ptrEnd)
    have hlt : 2 < (((text input).take ptrEnd).splitOn gpsSeparator).length := by
      unfold commas at hm
      omega
    rw [List.getElem?_eq_getElem hlt] at hb
    exact (hplain _ (List.getElem_mem hlt) b hb).1
  have hne : b ≠ ascii '*' := fun h => hstar (h ▸ hin)
  simpa using hne

/-! ## The number in the text and the slot -/

/-- The number a message is taken for. -/
theorem toNat_curNo (h : MessageAt input ptr ptrEnd) (hm : 8 ≤ commas input ptrEnd)
    (hdigits : ∀ b ∈ secondField input, isDigit b = true) :
    ((curNo abi input ptrEnd).toNat : Int) =
      min (leadingNat 10 (secondField input) : Int) (longMax abi) % 256 := by
  unfold curNo
  rw [← h.second hm, atoi, toNat_toUint8, strtol_decimal abi hdigits, min_comm]
  omega

/-- The index of its first slot. -/
theorem toNat_curIndex {c : UInt8} (hc : 1 ≤ c.toNat) :
    ((c - 1) * 4).toNat = 4 * ((c.toNat - 1) % 64) := by
  have hone : (1 : UInt8) ≤ c := UInt8.le_iff_toNat_le.mpr hc
  have hfour : (4 : UInt8).toNat = 4 := rfl
  have hone' : (1 : UInt8).toNat = 1 := rfl
  rw [UInt8.toNat_mul, UInt8.toNat_sub_of_le _ _ hone, hfour, hone']
  omega

/-- What parse_gsv returns on a message that is not too short. -/
theorem parseGsv_long_cases (h : MessageAt input ptr ptrEnd) (hm : 8 ≤ commas input ptrEnd) :
    (curNo abi input ptrEnd).toNat = 0 ∧
        (∀ pview, parseGsv abi (some input) pview = some (false, pview)) ∨
      ∃ cur, cur = 4 * (((curNo abi input ptrEnd).toNat - 1) % 64) ∧
        1 ≤ (curNo abi input ptrEnd).toNat ∧
        (∀ pview, ∃ rsv, parseGsv abi (some input) pview =
            some (!(decide (totalNo abi input ptrEnd < curNo abi input ptrEnd)),
              { satesInView := (atoi abi (commaField input ptrEnd 3)).toInt16, rsv }) ∧
          ∀ q (hq : q < gpsNmeaMaxSvview), ¬ (cur ≤ q ∧ q < cur + 4) →
            rsv[q] = (if curNo abi input ptrEnd = 1 then {} else pview).rsv[q]) ∧
        ∀ hcur : cur < gpsNmeaMaxSvview, ∃ entry, ∀ pview ok view,
          parseGsv abi (some input) pview = some (ok, view) → view.rsv[cur] = entry := by
  obtain ⟨output, count, hmin, hmax, hrun⟩ := @parseGsv_long abi input ptr ptrEnd h hm
  by_cases hzero : curNo abi input ptrEnd < 1
  · have hnat := UInt8.lt_iff_toNat_lt.mp hzero
    have hone : (1 : UInt8).toNat = 1 := rfl
    refine .inl ⟨by omega, fun pview => ?_⟩
    rw [hrun pview, if_pos hzero]
  · have hpos : 1 ≤ (curNo abi input ptrEnd).toNat :=
      UInt8.le_iff_toNat_le.mp (UInt8.not_lt.mp hzero)
    have hindex := toNat_curIndex hpos
    refine .inr ⟨_, rfl, hpos, fun pview => ?_, fun hcur => ?_⟩
    · obtain ⟨rsv, hloop, hsame⟩ := @gsvLoop_frame abi (text input) output count hmax 0 4 rfl
        (4 * (((curNo abi input ptrEnd).toNat - 1) % 64))
        (if curNo abi input ptrEnd = 1 then {} else pview).rsv
      refine ⟨rsv, ?_, hsame⟩
      rw [hrun pview, if_neg hzero, hindex]
      rw [Nat.mul_zero, Nat.add_zero] at hloop
      rw [hloop]
      rfl
    · obtain ⟨entry, hentry⟩ := @gsvLoop_first abi (text input) output count _ hmin hmax hcur
      refine ⟨entry, fun pview ok view hview => ?_⟩
      rw [hrun pview, if_neg hzero, hindex] at hview
      obtain ⟨rsv, hloop, heq⟩ := Option.map_eq_some_iff.mp hview
      have hrsv : view.rsv = rsv := (congrArg (fun r => r.2.rsv) heq).symm
      rw [hrsv]
      exact hentry _ _ hloop

/-- **parse_gsv writes only the slots of its own message exactly if the number of the message
does not come back into the table after 64 of them.** -/
theorem ownSlots_iff (abi : Abi) (input : List Byte)
    (hdigits : ∀ b ∈ secondField input, isDigit b = true)
    (hpos : 1 ≤ leadingNat 10 (secondField input)) :
    OwnSlots abi input (leadingNat 10 (secondField input)) ↔
      NumberInTable abi input (leadingNat 10 (secondField input)) := by
  generalize hk : leadingNat 10 (secondField input) = k at hpos
  have hlongMax := longMax_mod abi
  have hlong : (2 : Int) ^ 31 - 1 ≤ longMax abi := by
    have hpow := abi.pow_long_ge
    unfold longMax
    omega
  obtain hshort | hat := short_or_long input
  case inl =>
    refine iff_of_true (fun pview => ?_) (.inl hshort)
    exact ⟨_, _, parseGsv_short hshort pview, pview, .inl rfl, fun _ _ _ => rfl⟩
  case inr =>
    obtain ⟨ptr, ptrEnd, h, hm⟩ := hat
    have hcur := @toNat_curNo abi input ptr ptrEnd h hm hdigits
    rw [hk] at hcur
    have hone : curNo abi input ptrEnd = 1 ↔ (curNo abi input ptrEnd).toNat = 1 :=
      UInt8.toNat_inj.symm
    have htable : NumberInTable abi input k ↔
        k ≤ 10 ∨ 10 ≤ (min (k : Int) (longMax abi) - 1) % 64 := by
      refine ⟨fun hor => hor.resolve_left fun hless => ?_, .inr⟩
      have := hless ptr ptrEnd h
      omega
    rw [htable]
    rcases @parseGsv_long_cases abi input ptr ptrEnd h hm with
      ⟨hzero, hrun⟩ | ⟨cur, hcurIndex, hc, hframe, hfirst⟩
    · -- a multiple of 256 is refused
      refine iff_of_true (fun pview => ?_) (.inr (by omega))
      exact ⟨_, _, hrun pview, pview, .inl rfl, fun _ _ _ => rfl⟩
    · by_cases hin : k ≤ 10 ∨ 10 ≤ (min (k : Int) (longMax abi) - 1) % 64
      · refine iff_of_true (fun pview => ?_) hin
        obtain ⟨rsv, hrun, hsame⟩ := hframe pview
        refine ⟨_, _, hrun, if curNo abi input ptrEnd = 1 then {} else pview, ?_, ?_⟩
        · split
          · rename_i hfirst
            have := hone.mp hfirst
            exact .inr ⟨by omega, rfl⟩
          · exact .inl rfl
        · intro q hq hother
          apply hsame q hq
          have hforty : gpsNmeaMaxSvview = 40 := rfl
          unfold OwnSlot at hother
          omega
      · refine iff_of_false (fun hown => ?_) hin
        have hroom : cur < gpsNmeaMaxSvview := by
          have hforty : gpsNmeaMaxSvview = 40 := rfl
          omega
        obtain ⟨entry, hentry⟩ := hfirst hroom
        -- a table without that entry
        let pview : NmeaGsv := { rsv := Vector.replicate _ { entry with prn := entry.prn + 1 } }
        obtain ⟨ok, view, hrun, base, hbase, hsame⟩ := hown pview
        have hkept : base = pview := hbase.resolve_right fun hclear => by omega
        have hother : ¬ OwnSlot k cur := by
          have hforty : gpsNmeaMaxSvview = 40 := rfl
          unfold OwnSlot
          omega
        have hslot := hsame cur hroom hother
        rw [hentry _ _ _ hrun, hkept] at hslot
        have hprn : entry.prn = entry.prn + 1 := by
          have := congrArg GsvSatelite.prn hslot
          rwa [Vector.getElem_replicate] at this
        simp at hprn

/-- Message 2 of a cycle in which nothing has been stored. -/
theorem ownSlots_iff_test :
    let abi : Abi := ⟨false, 32, le_rfl⟩
    let input := cstr ",3,2,12,05,40,090,30,1*7A"
    OwnSlots abi input (leadingNat 10 (secondField input)) ↔
      NumberInTable abi input (leadingNat 10 (secondField input)) := by
  intro abi input
  exact ownSlots_iff abi input (by decide +kernel) (by decide)

/-- Message 65 is stored where message 1 belongs. -/
theorem sixtyFive_stored :
    leadingNat 10 (secondField (cstr ",99,65,12,05,40,090,30,1*7A")) = 65 ∧
      ¬ OwnSlots ⟨false, 32, le_rfl⟩ (cstr ",99,65,12,05,40,090,30,1*7A") 65 := by
  have hrun : (parseGsv ⟨false, 32, le_rfl⟩ (some (cstr ",99,65,12,05,40,090,30,1*7A")) {}).map
      (fun r => r.2.rsv[0]) = some ⟨5, 40, 90, 30⟩ := by
    decide +kernel
  refine ⟨by decide, fun hown => ?_⟩
  obtain ⟨ok, view, hview, base, hbase, hsame⟩ := hown {}
  have hkept : base = {} := hbase.elim id fun h => h.2
  subst hkept
  rw [hview] at hrun
  have hslot := hsame 0 (by decide) (by unfold OwnSlot; decide)
  have hentry : view.rsv[0] = ⟨5, 40, 90, 30⟩ := Option.some.inj hrun
  rw [hentry] at hslot
  exact absurd hslot (by decide)

/-! ## Refused messages -/

/-- When one of the three returns false, its structure is as it was before, but for the
position_status of parse_rmc. -/
structure RefusedKeeps (D : Type) [CArith D] (abi : Abi) (input : Option (List Byte)) : Prop where
  gga : ∀ pdat view : NmeaGga D, parseGga abi input pdat = some (false, view) → view = pdat
  rmc : ∀ pdat view : NmeaRmc D, parseRmc input pdat = some (false, view) →
    view = pdat ∨ view = { pdat with positionStatus := -1 }
  gsv : ∀ pview view, parseGsv abi input pview = some (false, view) → view = pview

/-- A message with eight commas, the second number of which is above the first when both are taken
modulo 256. -/
def NumberBehind (abi : Abi) (input : Option (List Byte)) : Prop :=
  ∃ m ptr ptrEnd, input = some m ∧ MessageAt m ptr ptrEnd ∧ 8 ≤ commas m ptrEnd ∧
    strtol abi 10 (commaField m ptrEnd 1) % 256 < strtol abi 10 (commaField m ptrEnd 2) % 256

theorem totalNo_lt_curNo (abi : Abi) (input : List Byte) (ptrEnd : Nat) :
    totalNo abi input ptrEnd < curNo abi input ptrEnd ↔
      strtol abi 10 (commaField input ptrEnd 1) % 256 <
        strtol abi 10 (commaField input ptrEnd 2) % 256 := by
  unfold totalNo curNo atoi
  rw [UInt8.lt_iff_toNat_lt, toNat_toUint8, toNat_toUint8]
  omega

theorem parseGsv_keeps (abi : Abi) (input : Option (List Byte)) :
    (∀ pview view, parseGsv abi input pview = some (false, view) → view = pview) ↔
      ¬ NumberBehind abi input := by
  cases input with
  | none =>
    refine iff_of_true (fun pview view hrun => ?_) fun ⟨m, _, _, hm, _⟩ => nomatch hm
    exact (Prod.mk.inj (Option.some.inj hrun)).2.symm
  | some input =>
    obtain hshort | hat := short_or_long input
    case inl =>
      refine iff_of_true (fun pview view hrun => ?_) ?_
      · rw [parseGsv_short hshort] at hrun
        exact (Prod.mk.inj (Option.some.inj hrun)).2.symm
      · rintro ⟨m, ptr, ptrEnd, hm, h, hcommas, -⟩
        cases hm
        exact absurd hcommas (Nat.not_le_of_lt (hshort ptr ptrEnd h))
    case inr =>
      obtain ⟨ptr, ptrEnd, h, hm⟩ := hat
      have hbehind : NumberBehind abi (some input) ↔
          totalNo abi input ptrEnd < curNo abi input ptrEnd := by
        rw [totalNo_lt_curNo]
        constructor
        · rintro ⟨m, ptr', ptrEnd', hin, h', -, hlt⟩
          cases hin
          have heq : ptrEnd' = ptrEnd := Option.some.inj (h'.ends.symm.trans h.ends)
          rwa [heq] at hlt
        · exact fun hlt => ⟨input, ptr, ptrEnd, rfl, h, hm, hlt⟩
      rw [hbehind]
      rcases @parseGsv_long_cases abi input ptr ptrEnd h hm with
        ⟨hzero, hrun⟩ | ⟨cur, -, -, hframe, -⟩
      · refine iff_of_true (fun pview view hview => ?_) ?_
        · rw [hrun pview] at hview
          exact (Prod.mk.inj (Option.some.inj hview)).2.symm
        · rw [UInt8.lt_iff_toNat_lt, hzero]
          exact Nat.not_lt_zero _
      · by_cases hlt : totalNo abi input ptrEnd < curNo abi input ptrEnd
        · refine iff_of_false (fun hkeeps => ?_) fun h => h hlt
          -- a structure with another number of satellites in view
          let pview : NmeaGsv :=
            { satesInView := (atoi abi (commaField input ptrEnd 3)).toInt16 + 1 }
          obtain ⟨rsv, hrun, -⟩ := hframe pview
          rw [decide_eq_true hlt] at hrun
          have hview := congrArg NmeaGsv.satesInView (hkeeps _ _ hrun)
          have hne : ∀ x : Int16, x ≠ x + 1 := by
            intro x
            simp
          exact hne _ hview
        · refine iff_of_true (fun pview view hview => ?_) hlt
          obtain ⟨rsv, hrun, -⟩ := hframe pview
          rw [hrun, decide_eq_false hlt] at hview
          exact absurd (Prod.mk.inj (Option.some.inj hview)).1 Bool.noConfusion

section

variable {D : Type} [CArith D]

theorem parseGga_keeps (abi : Abi) (input : Option (List Byte)) (pdat view : NmeaGga D)
    (hrun : parseGga abi input pdat = some (false, view)) : view = pdat := by
  unfold parseGga at hrun
  split at hrun
  · exact (Prod.mk.inj (Option.some.inj hrun)).2.symm
  · dsimp only at hrun
    split at hrun
    · exact (Prod.mk.inj (Option.some.inj hrun)).2.symm
    · -- behind the count nothing is refused
      simp only [Option.bind_eq_bind, Option.bind_eq_some_iff] at hrun
      obtain ⟨_, _, _, _, _, _, _, _, _, _, _, _, _, _, _, _, hret⟩ := hrun
      exact absurd (Prod.mk.inj (Option.some.inj hret)).1 Bool.noConfusion

theorem parseRmc_keeps (input : Option (List Byte)) (pdat view : NmeaRmc D)
    (hrun : parseRmc input pdat = some (false, view)) :
    view = pdat ∨ view = { pdat with positionStatus := -1 } := by
  unfold parseRmc at hrun
  split at hrun
  · exact .inl (Prod.mk.inj (Option.some.inj hrun)).2.symm
  · dsimp only at hrun
    split at hrun
    · exact .inr (Prod.mk.inj (Option.some.inj hrun)).2.symm
    · simp only [Option.bind_eq_bind, Option.bind_eq_some_iff] at hrun
      obtain ⟨_, _, _, _, _, _, _, _, _, _, _, _, _, _, _, _, _, _, hret⟩ := hrun
      exact absurd (Prod.mk.inj (Option.some.inj hret)).1 Bool.noConfusion

/-- **A refused message leaves the structures alone exactly if it is not a GSV message whose number
is behind the total**: that is found out only when the message is stored. -/
theorem refusedKeeps_iff (abi : Abi) (input : Option (List Byte)) :
    RefusedKeeps D abi input ↔ ¬ NumberBehind abi input := by
  rw [← parseGsv_keeps]
  constructor
  · exact fun h => h.gsv
  · intro hgsv
    exact { gga := parseGga_keeps abi input, rmc := parseRmc_keeps input, gsv := hgsv }

end

/-- Message 2 of 1 is refused, and its satellite is stored. -/
theorem behind_stored :
    parseGsv ⟨false, 32, le_rfl⟩ (some (cstr ",1,2,12,05,40,090,30,1*7A")) {} =
        some (false, { satesInView := 12, rsv := (Vector.replicate _ {}).set 4 ⟨5, 40, 90, 30⟩ }) ∧
      ¬ RefusedKeeps Rat ⟨false, 32, le_rfl⟩ (some (cstr ",1,2,12,05,40,090,30,1*7A")) := by
  have hrun : parseGsv ⟨false, 32, le_rfl⟩ (some (cstr ",1,2,12,05,40,090,30,1*7A")) {} =
      some (false, { satesInView := 12, rsv := (Vector.replicate _ {}).set 4 ⟨5, 40, 90, 30⟩ }) := by
    decide +kernel
  refine ⟨hrun, fun h => ?_⟩
  have hview := congrArg NmeaGsv.satesInView (h.gsv _ _ hrun)
  exact absurd hview (by decide)

end RttNmea
