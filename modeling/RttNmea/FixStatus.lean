import RttNmea.Abstract

/-!
# The fix status

GGA sets sig, GSA sets fix, and RMC corrects both: status 'V' takes the fix away, status 'A' is
meant to restore it. But 'A' raises fix only from NMEA_FIX_BAD, and a zeroed summary starts
with fix 0, which is none of the NMEA_FIX_* values.
-/

namespace RttNmea

open CText

variable {D : Type} [CDouble D]

/-- One of the NMEA_FIX_* values. -/
def IsFix (fix : Int32) : Prop := fix = nmeaFixBad ∨ fix = nmeaFix2d ∨ fix = nmeaFix3d

/-- GSA reports a fix type of the standard. -/
def ReportsFix : Packet D → Prop
  | .gsa p => IsFix p.fixType
  | .gga _ | .gsv _ | .rmc _ | .vtg _ => True

/-- The packet sets fix, whatever it was. -/
def SetsFix : Packet D → Prop
  | .gsa _ => True
  | .rmc p => p.status = ascii 'V'
  | .gga _ | .gsv _ | .vtg _ => False

/-- The summary shows the status of the RMC packet. -/
def ShowsStatus (p : Rmc D) (i : Info D) : Prop :=
  (p.status = ascii 'A' → i.sig ≠ nmeaSigBad ∧ (i.fix = nmeaFix2d ∨ i.fix = nmeaFix3d)) ∧
  (p.status = ascii 'V' → i.sig = nmeaSigBad ∧ i.fix = nmeaFixBad)

/-- What fix can be: 0 until a packet sets it, and from then on one of the NMEA_FIX_*
values. -/
structure FixRun (packets : List (Packet D)) (fix : Int32) : Prop where
  set : (∃ q ∈ packets, SetsFix q) → IsFix fix
  unset : (¬ ∃ q ∈ packets, SetsFix q) → fix = 0

/-! ## One packet -/

omit [CDouble D] in
theorem setsFix_append {before : List (Packet D)} {q : Packet D} :
    (∃ r ∈ before ++ [q], SetsFix r) ↔ (∃ r ∈ before, SetsFix r) ∨ SetsFix q := by
  simp only [List.mem_append, List.mem_singleton, or_and_right, exists_or, exists_eq_left]

omit [CDouble D] in
theorem FixRun.keep {before : List (Packet D)} {q : Packet D} {fix : Int32} (h : FixRun before fix)
    (hq : ¬ SetsFix q) : FixRun (before ++ [q]) fix := by
  constructor
  · intro hset
    exact h.set ((setsFix_append.mp hset).resolve_right hq)
  · intro hunset
    exact h.unset fun hset => hunset (setsFix_append.mpr (.inl hset))

omit [CDouble D] in
theorem FixRun.of_set {before : List (Packet D)} {q : Packet D} {fix : Int32} (hq : SetsFix q)
    (hfix : IsFix fix) : FixRun (before ++ [q]) fix := by
  constructor
  · exact fun _ => hfix
  · intro hunset
    exact absurd (setsFix_append.mpr (.inr hq)) hunset

theorem rmc_active {p : Rmc D} (h : p.status = ascii 'A') (i : Info D) :
    (nmeaRmcInfo p i).sig = (if i.sig = nmeaSigBad then nmeaSigMid else i.sig) ∧
      (nmeaRmcInfo p i).fix = if i.fix = nmeaFixBad then nmeaFix2d else i.fix := by
  unfold nmeaRmcInfo
  rw [if_pos h]
  exact ⟨rfl, rfl⟩

theorem rmc_void {p : Rmc D} (h : p.status = ascii 'V') (i : Info D) :
    (nmeaRmcInfo p i).sig = nmeaSigBad ∧ (nmeaRmcInfo p i).fix = nmeaFixBad := by
  have hactive : p.status ≠ ascii 'A' := by
    rw [h]
    decide
  unfold nmeaRmcInfo
  rw [if_neg hactive, if_pos h]
  exact ⟨rfl, rfl⟩

theorem rmc_other {p : Rmc D} (ha : p.status ≠ ascii 'A') (hv : p.status ≠ ascii 'V')
    (i : Info D) : (nmeaRmcInfo p i).fix = i.fix := by
  unfold nmeaRmcInfo
  rw [if_neg ha, if_neg hv]

theorem FixRun.rmc {before : List (Packet D)} {i : Info D} (h : FixRun before i.fix) (p : Rmc D) :
    FixRun (before ++ [.rmc p]) (nmeaRmcInfo p i).fix := by
  by_cases hv : p.status = ascii 'V'
  · have hset : SetsFix (.rmc p) := hv
    rw [(rmc_void hv i).2]
    exact FixRun.of_set hset (.inl rfl)
  · by_cases ha : p.status = ascii 'A'
    · rw [(rmc_active ha i).2]
      by_cases hbad : i.fix = nmeaFixBad
      · -- fix is not 0, so a packet has set it
        have h2d : nmeaFix2d ≠ 0 := by decide
        have hset : ∃ r ∈ before, SetsFix r := by
          by_contra hunset
          have hzero := h.unset hunset
          rw [hbad] at hzero
          exact absurd hzero (by decide)
        rw [if_pos hbad]
        constructor
        · exact fun _ => .inr (.inl rfl)
        · intro hunset
          exact absurd (setsFix_append.mpr (.inl hset)) hunset
      · rw [if_neg hbad]
        exact h.keep hv
    · rw [rmc_other ha hv]
      exact h.keep hv

/-- What one packet makes of fix. -/
theorem FixRun.step {before : List (Packet D)} {q : Packet D} {i i' : Info D}
    (h : FixRun before i.fix) (hq : ReportsFix q) (hrun : packInfo q i = some i') :
    FixRun (before ++ [q]) i'.fix := by
  cases q with
  | gga p =>
    cases hrun
    exact h.keep id
  | gsa p =>
    have hfix : i'.fix = p.fixType := by
      obtain ⟨st, -, hi⟩ := Option.bind_eq_some_iff.mp hrun
      cases hi
      rfl
    rw [hfix]
    exact FixRun.of_set trivial hq
  | gsv p =>
    have hfix : i'.fix = i.fix := by
      unfold packInfo nmeaGsvInfo at hrun
      dsimp only at hrun
      split at hrun
      · cases hrun
        rfl
      · obtain ⟨sat, -, hi⟩ := Option.bind_eq_some_iff.mp hrun
        cases hi
        rfl
    rw [hfix]
    exact h.keep id
  | rmc p =>
    cases hrun
    exact h.rmc p
  | vtg p =>
    cases hrun
    exact h.keep id

/-! ## Runs -/

theorem foldInfo_snoc (info : Option (Info D)) (before : List (Packet D)) (q : Packet D) :
    foldInfo info (before ++ [q]) = (foldInfo info before).bind (packInfo q) := by
  rw [foldInfo_append]
  rfl

/-- What any row of packets makes of the fix of a zeroed summary. -/
theorem fixRun {packets : List (Packet D)} (hreports : ∀ q ∈ packets, ReportsFix q) {i : Info D}
    (h : foldInfo (some .zeroed) packets = some i) : FixRun packets i.fix := by
  induction packets using List.reverseRecOn generalizing i with
  | nil =>
    cases h
    constructor
    · rintro ⟨q, hq, -⟩
      cases hq
    · exact fun _ => rfl
  | append_singleton before q ih =>
    rw [foldInfo_snoc] at h
    obtain ⟨i₁, hi₁, hq⟩ := Option.bind_eq_some_iff.mp h
    have hbefore := ih (fun r hr => hreports r (List.mem_append_left _ hr)) hi₁
    exact hbefore.step (hreports q (List.mem_append_right _ List.mem_cons_self)) hq

/-- After every RMC packet the summary shows its status. -/
def StatusFollowed (packets : List (Packet D)) : Prop :=
  ∀ before p after, packets = before ++ .rmc p :: after →
    ∀ i, foldInfo (some .zeroed) (before ++ [.rmc p]) = some i → ShowsStatus p i

/-- Before the first RMC packet with status 'A' a packet has set fix. -/
def FixSetFirst (packets : List (Packet D)) : Prop :=
  ∀ before p after, packets = before ++ .rmc p :: after → p.status = ascii 'A' →
    foldInfo (some .zeroed) before ≠ none → ∃ q ∈ before, SetsFix q

/-- **The summary shows the status after every RMC packet exactly when none with status 'A'
meets a summary whose fix is still zero.** -/
theorem statusFollowed_iff {packets : List (Packet D)} (hreports : ∀ q ∈ packets, ReportsFix q) :
    StatusFollowed packets ↔ FixSetFirst packets := by
  have hzero : ∀ fix : Int32, fix = 0 → ¬ (fix = nmeaFix2d ∨ fix = nmeaFix3d) := by
    rintro fix rfl
    decide
  constructor
  · intro h before p after hsplit ha hdefined
    obtain ⟨i, hi⟩ := Option.ne_none_iff_exists'.mp hdefined
    have hrun : foldInfo (some .zeroed) (before ++ [.rmc p]) = some (nmeaRmcInfo p i) := by
      rw [foldInfo_snoc, hi]
      rfl
    obtain ⟨-, hfix⟩ := (h before p after hsplit _ hrun).1 ha
    by_contra hunset
    have hstart := (fixRun (fun q hq => hreports q (hsplit ▸ List.mem_append_left _ hq)) hi).unset
      hunset
    rw [(rmc_active ha i).2, hstart, if_neg (by decide)] at hfix
    exact hzero 0 rfl hfix
  · intro h before p after hsplit i hi
    rw [foldInfo_snoc] at hi
    obtain ⟨i₁, hi₁, hrmc⟩ := Option.bind_eq_some_iff.mp hi
    cases hrmc
    constructor
    · intro ha
      have hset := h before p after hsplit ha (by rw [hi₁]; exact Option.some_ne_none _)
      have hfix :=
        (fixRun (fun q hq => hreports q (hsplit ▸ List.mem_append_left _ hq)) hi₁).set hset
      obtain ⟨hsig, hraised⟩ := rmc_active ha i₁
      rw [hsig, hraised]
      constructor
      · split
        · decide
        · assumption
      · by_cases hbad : i₁.fix = nmeaFixBad
        · rw [if_pos hbad]
          exact .inl rfl
        · rw [if_neg hbad]
          exact hfix.resolve_left hbad
    · intro hv
      exact rmc_void hv i₁

/-- The first RMC sentence of the repository's test. -/
def testRmc : List Byte :=
  cstr "$GPRMC,173843,A,3349.896,N,11808.521,W,000.0,360.0,230108,013.4,E*69\r\n"

/-- With a 'V' in front of it. -/
theorem statusFollowed_after_void :
    let p : Rmc Decimal := (nmeaParseRmc ⟨false, 32, le_rfl⟩ [] testRmc).2
    StatusFollowed [.rmc { p with status := ascii 'V' }, .rmc p] ↔
      FixSetFirst [.rmc { p with status := ascii 'V' }, .rmc p] := by
  intro p
  apply statusFollowed_iff
  intro q hq
  rcases List.mem_cons.mp hq with rfl | hq
  · trivial
  · rw [List.mem_singleton.mp hq]
    trivial

/-- Alone, on a zeroed summary, it leaves fix at 0. -/
theorem fix_stays_zero :
    ∃ p : Rmc Decimal, nmeaParseRmc ⟨false, 32, le_rfl⟩ [] testRmc = (1, p) ∧
      ¬ StatusFollowed [.rmc p] := by
  have alone : ∀ p : Rmc Decimal, p.status = ascii 'A' → ¬ StatusFollowed [.rmc p] := by
    intro p ha h
    obtain ⟨-, hfix⟩ := (h [] p [] rfl _ rfl).1 ha
    rw [(rmc_active ha _).2] at hfix
    revert hfix
    decide
  have hcode : (nmeaParseRmc ⟨false, 32, le_rfl⟩ [] testRmc : Int32 × Rmc Decimal).1 = 1 := by
    decide +kernel
  have hstatus : (nmeaParseRmc ⟨false, 32, le_rfl⟩ [] testRmc :
      Int32 × Rmc Decimal).2.status = ascii 'A' := by decide +kernel
  exact ⟨_, Prod.ext hcode rfl, alone _ hstatus⟩

end RttNmea
