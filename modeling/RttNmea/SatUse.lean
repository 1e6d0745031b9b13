import RttNmea.FixStatus
import RttNmea.SatTable

/-!
# The in-use flags

nmea_gsa_info sets in_use on the satellites in view whose PRN is in the packet and counts
them. It never takes a flag back, so after it the flags are those of the packet only if no
satellite flagged before is missing from it.
-/

namespace RttNmea

open CText

variable {D : Type} [CDouble D]

/-- The PRN, if there is one, is that of the satellite. -/
def hit (prn : Int32) (s : Satellite) : Bool := prn ≠ 0 && prn = s.id

/-- in_use is set if `p` picks the satellite. -/
def mark (p : Satellite → Bool) (s : Satellite) : Satellite :=
  if p s then { s with inUse := 1 } else s

/-- The table with the first `n` satellites marked. -/
def marked (p : Satellite → Bool) (n : Nat) (sat : Vector Satellite nmeaMaxSat) :
    Vector Satellite nmeaMaxSat :=
  Vector.ofFn fun j => if j.val < n then mark p sat[j] else sat[j]

/-- The first `n` satellites of the table. -/
def front (n : Nat) (sat : Vector Satellite nmeaMaxSat) : List Satellite := sat.toList.take n

/-- The satellites in view. -/
def SatInfo.seen (s : SatInfo) : List Satellite := front s.inview.toNatClampNeg s.sat

/-- The satellite has an id, and it is among those of the packet. -/
def Used (pack : Gsa D) (s : Satellite) : Prop := s.id ≠ 0 ∧ s.id ∈ pack.satPrn.toList

/-- The non-zero PRNs of the packet are distinct. -/
def DistinctPrns (pack : Gsa D) : Prop := (pack.satPrn.toList.filter (· ≠ 0)).Nodup

/-- The flags of the satellites in view are those of the packet, and inuse counts them. -/
def Truthful (pack : Gsa D) (s : SatInfo) : Prop :=
  (∀ x ∈ s.seen, x.inUse = 1 ↔ Used pack x) ∧
    s.inuse = Int32.ofNat (s.seen.countP fun x => x.inUse = 1)

/-- No satellite in view with its flag set is missing from the packet. -/
def NoneDropped (pack : Gsa D) (s : SatInfo) : Prop := ∀ x ∈ s.seen, x.inUse = 1 → Used pack x

/-! ## Marking -/

theorem mark_id (p : Satellite → Bool) (s : Satellite) : (mark p s).id = s.id := by
  unfold mark
  split <;> rfl

theorem mark_inUse (p : Satellite → Bool) (s : Satellite) :
    (mark p s).inUse = 1 ↔ s.inUse = 1 ∨ p s = true := by
  unfold mark
  split
  · rename_i hp
    simp [hp]
  · rename_i hp
    simp [hp]

theorem hit_mark (prn : Int32) (p : Satellite → Bool) (s : Satellite) :
    hit prn (mark p s) = hit prn s := by
  unfold hit
  rw [mark_id]

theorem marked_getElem (p : Satellite → Bool) (n : Nat) (sat : Vector Satellite nmeaMaxSat)
    {j : Nat} (hj : j < nmeaMaxSat) :
    (marked p n sat)[j] = if j < n then mark p sat[j] else sat[j] := by
  unfold marked
  rw [Vector.getElem_ofFn]
  rfl

theorem front_succ (sat : Vector Satellite nmeaMaxSat) {n : Nat} (hn : n < nmeaMaxSat) :
    front (n + 1) sat = front n sat ++ [sat[n]] := by
  have hget : sat.toList[n]? = some sat[n] := by
    rw [Vector.getElem?_toList]
    exact Vector.getElem?_eq_getElem hn
  unfold front
  rw [List.take_add_one, hget]
  rfl

theorem front_marked (p : Satellite → Bool) (sat : Vector Satellite nmeaMaxSat) {n : Nat}
    (hn : n ≤ nmeaMaxSat) : front n (marked p n sat) = (front n sat).map (mark p) := by
  apply List.ext_getElem
  · simp [front]
  · intro j hj _
    have hjn : j < n := by
      simp only [front, List.length_take, Vector.length_toList] at hj
      omega
    have hget := marked_getElem p n sat (Nat.lt_of_lt_of_le hjn hn)
    simpa [front, hjn] using hget

/-- Marking twice. -/
theorem marked_hit (prn : Int32) (p : Satellite → Bool) (n : Nat)
    (sat : Vector Satellite nmeaMaxSat) :
    marked (hit prn) n (marked p n sat) = marked (fun s => p s || hit prn s) n sat := by
  apply Vector.ext
  intro j hj
  rw [marked_getElem, marked_getElem, marked_getElem]
  by_cases hjn : j < n
  · rw [if_pos hjn, if_pos hjn, if_pos hjn]
    unfold mark
    by_cases hp : p sat[j] = true
    · simp [hp, hit]
    · simp [hp]
  · rw [if_neg hjn, if_neg hjn, if_neg hjn]

/-! ## The loops -/

/-- One turn of the inner loop, the satellites before `n` being marked. -/
theorem markTurn (prn : Int32) (sat : Vector Satellite nmeaMaxSat) (u : Int32) {n : Nat}
    (hn : n < nmeaMaxSat) :
    gsaMark prn (marked (hit prn) n sat, u) n =
      some (marked (hit prn) (n + 1) sat, if hit prn sat[n] then u + 1 else u) := by
  have hcur : (marked (hit prn) n sat)[n] = sat[n] := by
    rw [marked_getElem, if_neg (Nat.lt_irrefl _)]
  have hnext : ∀ j (hj : j < nmeaMaxSat), j ≠ n →
      (marked (hit prn) (n + 1) sat)[j] = (marked (hit prn) n sat)[j] := by
    intro j hj hne
    have hiff : j < n + 1 ↔ j < n := by omega
    rw [marked_getElem, marked_getElem]
    simp only [hiff]
  unfold gsaMark
  dsimp only
  by_cases hhit : hit prn sat[n] = true
  · have hprn : prn ≠ 0 ∧ prn = sat[n].id := by simpa [hit] using hhit
    have hset : (marked (hit prn) n sat).set n { sat[n] with inUse := 1 } =
        marked (hit prn) (n + 1) sat := by
      apply Vector.ext
      intro j hj
      rw [Vector.getElem_set]
      by_cases hjn : n = j
      · subst hjn
        rw [if_pos rfl, marked_getElem, if_pos (Nat.lt_succ_self _), mark, if_pos hhit]
      · rw [if_neg hjn]
        exact (hnext j hj (Ne.symm hjn)).symm
    rw [if_neg hprn.1, dif_pos hn, hcur, if_pos hprn.2, hset, if_pos hhit]
  · have hsame : marked (hit prn) (n + 1) sat = marked (hit prn) n sat := by
      apply Vector.ext
      intro j hj
      by_cases hjn : j = n
      · subst hjn
        rw [hcur, marked_getElem, if_pos (Nat.lt_succ_self _), mark, if_neg hhit]
      · exact hnext j hj hjn
    rw [if_neg hhit, hsame]
    by_cases h0 : prn = 0
    · exact if_pos h0
    · have hprn : prn ≠ sat[n].id := by
        intro h
        exact hhit (by simp [hit, h0, ← h])
      rw [if_neg h0, dif_pos hn, hcur, if_neg hprn]

/-- The inner loop of nmea_gsa_info. -/
theorem markLoop (prn : Int32) (sat : Vector Satellite nmeaMaxSat) (u : Int32) {n : Nat}
    (hn : n ≤ nmeaMaxSat) :
    (List.range n).foldlM (gsaMark prn) (sat, u) =
      some (marked (hit prn) n sat, u + Int32.ofNat ((front n sat).countP (hit prn))) := by
  induction n with
  | zero =>
    have hnone : marked (hit prn) 0 sat = sat := by
      apply Vector.ext
      intro j hj
      rw [marked_getElem, if_neg (Nat.not_lt_zero _)]
    simp [hnone, front]
  | succ n ih =>
    have hlt : n < nmeaMaxSat := hn
    have hcount : u + Int32.ofNat ((front (n + 1) sat).countP (hit prn)) =
        if hit prn sat[n] then u + Int32.ofNat ((front n sat).countP (hit prn)) + 1
        else u + Int32.ofNat ((front n sat).countP (hit prn)) := by
      rw [front_succ sat hlt, List.countP_append, List.countP_singleton]
      split
      · rw [Int32.ofNat_add, ← Int32.add_assoc]
        rfl
      · rfl
    rw [List.range_succ, List.foldlM_append, ih (Nat.le_of_lt hlt), hcount]
    simp [markTurn prn sat _ hlt]

omit [CDouble D] in
theorem countP_or {p q : Satellite → Bool} (xs : List Satellite)
    (h : ∀ x ∈ xs, q x = true → p x = false) :
    xs.countP (fun x => p x || q x) = xs.countP p + xs.countP q := by
  induction xs with
  | nil => rfl
  | cons x xs ih =>
    have hx := h x List.mem_cons_self
    have hxs := ih fun y hy => h y (List.mem_cons_of_mem _ hy)
    rw [List.countP_cons, List.countP_cons, List.countP_cons, hxs]
    cases hq : q x
    · simp
      omega
    · simp [hx hq]
      omega

/-- The outer loop: the satellites hit by some PRN are flagged and counted once. -/
theorem markAll {prns : List Int32} (hprns : (prns.filter (· ≠ 0)).Nodup) (inview : Int32)
    (sat : Vector Satellite nmeaMaxSat) (hn : inview.toNatClampNeg ≤ nmeaMaxSat) :
    gsaMarkAll prns inview (sat, 0) =
      some (marked (fun s => prns.any (hit · s)) inview.toNatClampNeg sat,
        Int32.ofNat ((front inview.toNatClampNeg sat).countP fun s => prns.any (hit · s))) := by
  induction prns using List.reverseRecOn with
  | nil =>
    have hnone : marked (fun _ => false) inview.toNatClampNeg sat = sat := by
      apply Vector.ext
      intro j hj
      rw [marked_getElem]
      split <;> rfl
    simp [gsaMarkAll, hnone]
  | append_singleton prns prn ih =>
    rw [List.filter_append, List.nodup_append] at hprns
    obtain ⟨hbefore, -, hnew⟩ := hprns
    -- a satellite hit by the new PRN was hit by none of the others
    have hdisjoint : ∀ s ∈ front inview.toNatClampNeg sat, hit prn s = true →
        prns.any (hit · s) = false := by
      intro s _ hs
      have hs : prn ≠ 0 ∧ prn = s.id := by simpa [hit] using hs
      rw [List.any_eq_false]
      intro q hq hqs
      have hqs : q ≠ 0 ∧ q = s.id := by simpa [hit] using hqs
      have hqmem : q ∈ prns.filter (· ≠ 0) := List.mem_filter.mpr ⟨hq, by simpa using hqs.1⟩
      have hprnmem : prn ∈ [prn].filter (· ≠ 0) :=
        List.mem_filter.mpr ⟨List.mem_singleton.mpr rfl, by simpa using hs.1⟩
      exact hnew q hqmem prn hprnmem (hqs.2.trans hs.2.symm)
    have hany : ∀ s, (prns ++ [prn]).any (hit · s) = (prns.any (hit · s) || hit prn s) := by
      intro s
      simp [List.any_append]
    have hcount : (front inview.toNatClampNeg
        (marked (fun s => prns.any (hit · s)) inview.toNatClampNeg sat)).countP (hit prn) =
        (front inview.toNatClampNeg sat).countP (hit prn) := by
      rw [front_marked _ _ hn, List.countP_map]
      exact List.countP_congr fun s _ => by rw [Function.comp_apply, hit_mark]
    have hprefix := ih hbefore
    unfold gsaMarkAll at hprefix ⊢
    rw [List.foldlM_append, hprefix]
    simp only [hany]
    rw [countP_or _ hdisjoint, Int32.ofNat_add, ← marked_hit, ← hcount]
    simp [markLoop prn _ _ hn]

/-! ## One packet -/

omit [CDouble D] in
theorem used_iff (pack : Gsa D) (s : Satellite) :
    pack.satPrn.toList.any (hit · s) = true ↔ Used pack s := by
  rw [List.any_eq_true]
  constructor
  · rintro ⟨q, hq, hs⟩
    have hs : q ≠ 0 ∧ q = s.id := by simpa [hit] using hs
    exact ⟨hs.2 ▸ hs.1, hs.2 ▸ hq⟩
  · rintro ⟨h0, hs⟩
    exact ⟨s.id, hs, by simpa [hit] using h0⟩

omit [CDouble D] in
/-- What a GSA packet makes of the satellites: those in view that it uses are flagged and counted. -/
theorem gsaInfo_satinfo {pack : Gsa D} (hprns : DistinctPrns pack) {i : Info D}
    (hview : i.satinfo.inview.toNatClampNeg ≤ nmeaMaxSat) :
    ∃ i', nmeaGsaInfo pack i = some i' ∧ i'.satinfo = { i.satinfo with
      sat := marked (fun s => pack.satPrn.toList.any (hit · s)) i.satinfo.inview.toNatClampNeg
        i.satinfo.sat
      inuse := Int32.ofNat (i.satinfo.seen.countP fun s => pack.satPrn.toList.any (hit · s)) } := by
  have hrun := markAll hprns i.satinfo.inview i.satinfo.sat hview
  exact ⟨_, by rw [nmeaGsaInfo, hrun]; rfl, rfl⟩

omit [CDouble D] in
/-- **After a GSA packet** the flags are those of the packet exactly when no satellite in view
that was flagged before is missing from it. -/
theorem gsaInfo_truthful {pack : Gsa D} (hprns : DistinctPrns pack) {i : Info D}
    (hview : i.satinfo.inview.toNatClampNeg ≤ nmeaMaxSat) :
    ∃ i', nmeaGsaInfo pack i = some i' ∧
      (Truthful pack i'.satinfo ↔ NoneDropped pack i.satinfo) := by
  let picked : Satellite → Bool := fun s => pack.satPrn.toList.any (hit · s)
  obtain ⟨i', hrun, hsat⟩ := gsaInfo_satinfo hprns hview
  refine ⟨i', hrun, ?_⟩
  rw [hsat]
  have hseen : front i.satinfo.inview.toNatClampNeg
      (marked picked i.satinfo.inview.toNatClampNeg i.satinfo.sat) =
        i.satinfo.seen.map (mark picked) := front_marked _ _ hview
  have hflag : ∀ x, (mark picked x).inUse = 1 ↔ x.inUse = 1 ∨ Used pack x := by
    intro x
    rw [mark_inUse, used_iff]
  have hused : ∀ x, Used pack (mark picked x) ↔ Used pack x := by
    intro x
    unfold Used
    rw [mark_id]
  unfold Truthful SatInfo.seen NoneDropped
  dsimp only
  rw [hseen, List.countP_map]
  constructor
  · rintro ⟨hflags, -⟩ x hx hset
    have := hflags _ (List.mem_map_of_mem hx)
    exact (hused x).mp (this.mp ((hflag x).mpr (.inl hset)))
  · intro hnone
    have hsame : ∀ x ∈ i.satinfo.seen, (mark picked x).inUse = 1 ↔ Used pack x := by
      intro x hx
      rw [hflag]
      exact ⟨fun h => h.elim (hnone x hx) id, .inr⟩
    constructor
    · intro y hy
      obtain ⟨x, hx, rfl⟩ := List.mem_map.mp hy
      rw [hsame x hx, hused]
    · apply congrArg Int32.ofNat
      apply List.countP_congr
      intro x hx
      rw [used_iff, ← hsame x hx]
      simp

/-- The packet announces at most 12 satellites. -/
def AnnouncesFew : Packet D → Prop
  | .gsv pack => pack.satCount ≤ 12
  | .gga _ | .gsa _ | .rmc _ | .vtg _ => True

/-- What one packet does to the number of satellites in view. -/
theorem packInfo_inview {q : Packet D} (hq : AnnouncesFew q) {i i' : Info D}
    (hi : i.satinfo.inview ≤ 12) (h : packInfo q i = some i') : i'.satinfo.inview ≤ 12 := by
  cases q with
  | gga pack =>
    cases h
    exact hi
  | gsa pack =>
    obtain ⟨st, -, h⟩ := Option.bind_eq_some_iff.mp h
    cases h
    exact hi
  | gsv pack =>
    unfold packInfo nmeaGsvInfo at h
    dsimp only at h
    split at h
    · cases h
      exact hi
    · obtain ⟨sat, -, h⟩ := Option.bind_eq_some_iff.mp h
      cases h
      exact hq
  | rmc pack =>
    cases h
    rw [rmcInfo_satinfo]
    exact hi
  | vtg pack =>
    cases h
    exact hi

omit [CDouble D] in
theorem view_fits {i : Info D} (h : i.satinfo.inview ≤ 12) :
    i.satinfo.inview.toNatClampNeg ≤ nmeaMaxSat := by
  have hview := Int32.le_iff_toInt_le.mp h
  have h12 : (12 : Int32).toInt = 12 := by decide
  unfold nmeaMaxSat Int32.toNatClampNeg
  omega

/-! ## Runs -/

/-- What any row of packets that announce few satellites does to that number. -/
theorem inview_le {packets : List (Packet D)} (hfew : ∀ q ∈ packets, AnnouncesFew q) {i : Info D}
    (h : foldInfo (some .zeroed) packets = some i) : i.satinfo.inview ≤ 12 := by
  induction packets using List.reverseRecOn generalizing i with
  | nil =>
    cases h
    show (0 : Int32) ≤ 12
    decide
  | append_singleton before q ih =>
    rw [foldInfo_snoc] at h
    obtain ⟨i₁, hi₁, hq⟩ := Option.bind_eq_some_iff.mp h
    have hbefore := ih (fun r hr => hfew r (List.mem_append_left _ hr)) hi₁
    exact packInfo_inview (hfew q (List.mem_append_right _ List.mem_cons_self)) hbefore hq

/-- After every GSA packet the flags are those of the packet. -/
def FlagsTruthful (packets : List (Packet D)) : Prop :=
  ∀ before pack after, packets = before ++ .gsa pack :: after →
    ∀ i, foldInfo (some .zeroed) (before ++ [.gsa pack]) = some i → Truthful pack i.satinfo

/-- No GSA packet misses a satellite in view that is flagged when it comes. -/
def NeverDropped (packets : List (Packet D)) : Prop :=
  ∀ before pack after, packets = before ++ .gsa pack :: after →
    ∀ i, foldInfo (some .zeroed) before = some i → NoneDropped pack i.satinfo

/-- **The flags are truthful after every GSA packet exactly when no flagged satellite in view
is ever missing from one.** -/
theorem flagsTruthful_iff {packets : List (Packet D)} (hfew : ∀ q ∈ packets, AnnouncesFew q)
    (hprns : ∀ pack, .gsa pack ∈ packets → DistinctPrns pack) :
    FlagsTruthful packets ↔ NeverDropped packets := by
  have hstep : ∀ before pack after, packets = before ++ .gsa pack :: after →
      ∀ i, foldInfo (some .zeroed) before = some i →
        ∃ i', foldInfo (some .zeroed) (before ++ [.gsa pack]) = some i' ∧
          (Truthful pack i'.satinfo ↔ NoneDropped pack i.satinfo) := by
    intro before pack after hsplit i hi
    have hroom : i.satinfo.inview.toNatClampNeg ≤ nmeaMaxSat :=
      view_fits (inview_le (fun q hq => hfew q (hsplit ▸ List.mem_append_left _ hq)) hi)
    have hmem : .gsa pack ∈ packets := by
      rw [hsplit]
      exact List.mem_append_right _ List.mem_cons_self
    obtain ⟨i', hi', hiff⟩ := gsaInfo_truthful (hprns pack hmem) hroom
    refine ⟨i', ?_, hiff⟩
    rw [foldInfo_snoc, hi]
    exact hi'
  constructor
  · intro h before pack after hsplit i hi
    obtain ⟨i', hi', hiff⟩ := hstep before pack after hsplit i hi
    exact hiff.mp (h before pack after hsplit i' hi')
  · intro h before pack after hsplit i' hi'
    have hbefore := hi'
    rw [foldInfo_snoc] at hbefore
    obtain ⟨i, hi, -⟩ := Option.bind_eq_some_iff.mp hbefore
    obtain ⟨j, hj, hiff⟩ := hstep before pack after hsplit i hi
    rw [hi'] at hj
    cases hj
    exact hiff.mpr (h before pack after hsplit i hi)

/-! ## The packets behind a flag

The ids in view come from the GSV packets alone. A slot is flagged exactly when an earlier GSA
packet named the satellite that it listed then, so the history that `NeverDropped` asks about
can be read off the packets.
-/

def Packet.isGsv : Packet D → Bool
  | .gsv _ => true
  | .gga _ | .gsa _ | .rmc _ | .vtg _ => false

/-- The number of satellites in view, and the ids in the table. -/
def Info.listing (i : Info D) : Int32 × Vector Int32 nmeaMaxSat :=
  (i.satinfo.inview, i.satinfo.sat.map Satellite.id)

/-- The ids in view after the packets, those that the GSV packets among them list. -/
def idsAfter (packets : List (Packet D)) : List Int32 :=
  match (foldInfo (some .zeroed) (packets.filter Packet.isGsv)).map Info.listing with
  | some (inview, ids) => ids.toList.take inview.toNatClampNeg
  | none => []

/-- The packet names the satellite in view of slot `q`. -/
def Names (pack : Gsa D) (ids : List Int32) (q : Nat) : Prop :=
  ∃ id, ids[q]? = some id ∧ id ≠ 0 ∧ id ∈ pack.satPrn.toList

/-- Some GSA packet named the satellite that slot `q` listed when it came. -/
def Named (packets : List (Packet D)) (q : Nat) : Prop :=
  ∃ before pack after, packets = before ++ .gsa pack :: after ∧ Names pack (idsAfter before) q

/-- Every GSA packet names the satellites in view whose slots were named before. -/
def NamesKept (packets : List (Packet D)) : Prop :=
  ∀ before pack after, packets = before ++ .gsa pack :: after →
    ∀ q < (idsAfter before).length, Named before q → Names pack (idsAfter before) q

/-- A fold whose steps agree on a part of the state agrees on it as a whole. -/
theorem foldlM_map_congr {α β γ : Type} {f : β → α → Option β} {g : β → γ}
    (step : ∀ b b' x, g b = g b' → (f b x).map g = (f b' x).map g) (xs : List α) {b b' : β}
    (h : g b = g b') : (xs.foldlM f b).map g = (xs.foldlM f b').map g := by
  induction xs generalizing b b' with
  | nil => exact congrArg some h
  | cons x xs ih =>
    have hx := step b b' x h
    rw [List.foldlM_cons, List.foldlM_cons]
    cases hb : f b x with
    | none =>
      rw [hb] at hx
      rw [Option.map_eq_none_iff.mp hx.symm]
    | some c =>
      rw [hb] at hx
      obtain ⟨c', hc', hcc⟩ := Option.map_eq_some_iff.mp hx.symm
      rw [hc']
      exact ih hcc.symm

/-- What the copy loop does to the ids does not depend on the rest of the table. -/
theorem gsvCopy_ids (pack : Gsv) (sat sat' : Vector Satellite nmeaMaxSat) (isat : Nat)
    (h : sat.map Satellite.id = sat'.map Satellite.id) :
    (gsvCopy pack sat isat).map (·.map Satellite.id) =
      (gsvCopy pack sat' isat).map (·.map Satellite.id) := by
  unfold gsvCopy
  dsimp only
  split
  · rw [Option.map_some, Option.map_some, Vector.map_set, Vector.map_set, h]
  · rfl

/-- The copy loop leaves the flags as they are. -/
theorem gsvCopy_inUse {pack : Gsv} {sat sat' : Vector Satellite nmeaMaxSat} {isat : Nat}
    (h : gsvCopy pack sat isat = some sat') {q : Nat} (hq : q < nmeaMaxSat) :
    sat'[q].inUse = sat[q].inUse := by
  unfold gsvCopy at h
  dsimp only at h
  split at h
  · cases h
    rw [Vector.getElem_set]
    split
    · rename_i heq
      subst heq
      rfl
    · rfl
  · cases h

theorem copies_inUse {pack : Gsv} {isats : List Nat} {sat sat' : Vector Satellite nmeaMaxSat}
    (h : isats.foldlM (gsvCopy pack) sat = some sat') {q : Nat} (hq : q < nmeaMaxSat) :
    sat'[q].inUse = sat[q].inUse := by
  induction isats generalizing sat with
  | nil =>
    cases h
    rfl
  | cons isat isats ih =>
    rw [List.foldlM_cons] at h
    obtain ⟨sat₁, h₁, h⟩ := Option.bind_eq_some_iff.mp h
    exact (ih h).trans (gsvCopy_inUse h₁ hq)

omit [CDouble D] in
theorem gsvInfo_listing (pack : Gsv) {i i' : Info D} (h : i.listing = i'.listing) :
    (nmeaGsvInfo pack i).map Info.listing = (nmeaGsvInfo pack i').map Info.listing := by
  obtain ⟨-, hids⟩ := Prod.mk.inj h
  have hcopy := foldlM_map_congr (fun b b' x => gsvCopy_ids pack b b' x)
    (List.range (gsvCopied pack).toNatClampNeg) hids
  have hstep : ∀ j : Info D, (nmeaGsvInfo pack j).map Info.listing =
      if gsvIgnored pack then some j.listing
      else (((List.range (gsvCopied pack).toNatClampNeg).foldlM (gsvCopy pack)
        j.satinfo.sat).map (·.map Satellite.id)).map (Prod.mk pack.satCount) := by
    intro j
    unfold nmeaGsvInfo
    split
    · rfl
    · cases (List.range (gsvCopied pack).toNatClampNeg).foldlM (gsvCopy pack) j.satinfo.sat <;> rfl
  rw [hstep, hstep, h, hcopy]

/-- No other packet changes what is listed. -/
theorem packInfo_listing {p : Packet D} (hp : ∀ pack, p = .gsa pack → DistinctPrns pack)
    (hgsv : p.isGsv = false) {i : Info D} (hview : i.satinfo.inview.toNatClampNeg ≤ nmeaMaxSat) :
    (packInfo p i).map Info.listing = some i.listing := by
  cases p with
  | gga pack => rfl
  | gsa pack =>
    have hids : (marked (fun s => pack.satPrn.toList.any (hit · s))
        i.satinfo.inview.toNatClampNeg i.satinfo.sat).map Satellite.id =
          i.satinfo.sat.map Satellite.id := by
      apply Vector.ext
      intro q hq
      rw [Vector.getElem_map, Vector.getElem_map, marked_getElem]
      split
      · exact mark_id _ _
      · rfl
    obtain ⟨i', hrun, hsat⟩ := gsaInfo_satinfo (hp pack rfl) hview
    show (nmeaGsaInfo pack i).map Info.listing = _
    rw [hrun, Option.map_some, Info.listing, hsat]
    exact congrArg (fun ids => some (i.satinfo.inview, ids)) hids
  | gsv pack => cases hgsv
  | rmc pack =>
    show some (nmeaRmcInfo pack i).listing = some i.listing
    rw [Info.listing, rmcInfo_satinfo]
    rfl
  | vtg pack => rfl

/-- A row of packets lists what its GSV packets list. -/
theorem foldInfo_listing {packets : List (Packet D)} (hfew : ∀ q ∈ packets, AnnouncesFew q)
    (hprns : ∀ pack, .gsa pack ∈ packets → DistinctPrns pack) :
    (foldInfo (some .zeroed) packets).map Info.listing =
      (foldInfo (some .zeroed) (packets.filter Packet.isGsv)).map Info.listing := by
  induction packets using List.reverseRecOn with
  | nil => rfl
  | append_singleton before p ih =>
    have hbefore : ∀ q ∈ before, AnnouncesFew q := fun q hq => hfew q (List.mem_append_left _ hq)
    have hrest := ih hbefore fun pack hpack => hprns pack (List.mem_append_left _ hpack)
    have hlast : p ∈ before ++ [p] := List.mem_append_right _ List.mem_cons_self
    rw [foldInfo_snoc, List.filter_append]
    by_cases hgsv : p.isGsv = true
    · rw [List.filter_singleton, hgsv, cond_true, foldInfo_snoc]
      cases p with
      | gsv pack =>
        cases hi : foldInfo (some .zeroed) before with
        | none =>
          rw [hi] at hrest
          rw [Option.map_eq_none_iff.mp hrest.symm]
        | some i =>
          rw [hi] at hrest
          obtain ⟨i', hi', hsame⟩ := Option.map_eq_some_iff.mp hrest.symm
          rw [hi']
          exact gsvInfo_listing pack hsame.symm
      | gga pack => cases hgsv
      | gsa pack => cases hgsv
      | rmc pack => cases hgsv
      | vtg pack => cases hgsv
    · have hgsv : p.isGsv = false := Bool.eq_false_iff.mpr hgsv
      rw [List.filter_singleton, hgsv, cond_false, List.append_nil, ← hrest]
      cases hi : foldInfo (some .zeroed) before with
      | none => rfl
      | some i =>
        exact packInfo_listing (fun pack hpack => hprns pack (hpack ▸ hlast)) hgsv
          (view_fits (inview_le hbefore hi))

theorem idsAfter_eq {packets : List (Packet D)} (hfew : ∀ q ∈ packets, AnnouncesFew q)
    (hprns : ∀ pack, .gsa pack ∈ packets → DistinctPrns pack) {i : Info D}
    (hi : foldInfo (some .zeroed) packets = some i) :
    idsAfter packets = i.satinfo.seen.map Satellite.id := by
  have hlisting := foldInfo_listing hfew hprns
  rw [hi] at hlisting
  unfold idsAfter
  rw [← hlisting]
  simp [Info.listing, SatInfo.seen, front, List.map_take, Vector.toList_map]

theorem idsAfter_none {packets : List (Packet D)} (hfew : ∀ q ∈ packets, AnnouncesFew q)
    (hprns : ∀ pack, .gsa pack ∈ packets → DistinctPrns pack)
    (hnone : foldInfo (some .zeroed) packets = none) : idsAfter packets = [] := by
  have hlisting := foldInfo_listing hfew hprns
  rw [hnone] at hlisting
  unfold idsAfter
  rw [← hlisting]
  rfl

/-- The satellites in view, slot by slot. -/
theorem seen_forall (s : SatInfo) (P : Satellite → Prop) :
    (∀ x ∈ s.seen, P x) ↔
      ∀ q (hq : q < nmeaMaxSat), q < s.inview.toNatClampNeg → P s.sat[q] := by
  unfold SatInfo.seen front
  constructor
  · intro h q hq hview
    refine h _ (List.mem_take_iff_getElem.mpr ⟨q, ?_, ?_⟩)
    · rw [Vector.length_toList]
      exact Nat.lt_min.mpr ⟨hview, hq⟩
    · exact Vector.getElem_toList _
  · intro h x hx
    obtain ⟨q, hlt, rfl⟩ := List.mem_take_iff_getElem.mp hx
    rw [Vector.length_toList] at hlt
    obtain ⟨hview, hq⟩ := Nat.lt_min.mp hlt
    rw [Vector.getElem_toList]
    exact h q hq hview

omit [CDouble D] in
/-- The ids in view that the packet names are those of the satellites it uses. -/
theorem names_iff (pack : Gsa D) (s : SatInfo) {q : Nat} (hq : q < nmeaMaxSat) :
    Names pack (s.seen.map Satellite.id) q ↔
      q < s.inview.toNatClampNeg ∧ Used pack s.sat[q] := by
  have hget : s.sat.toList[q]? = some s.sat[q] := by
    rw [Vector.getElem?_toList]
    exact Vector.getElem?_eq_getElem hq
  unfold Names SatInfo.seen front
  rw [List.getElem?_map, List.getElem?_take]
  by_cases hview : q < s.inview.toNatClampNeg
  · rw [if_pos hview, hget, and_iff_right hview]
    constructor
    · rintro ⟨id, hid, hused⟩
      cases hid
      exact hused
    · intro hused
      exact ⟨_, rfl, hused⟩
  · rw [if_neg hview]
    exact iff_of_false (fun ⟨_, hid, _⟩ => by cases hid) fun h => hview h.1

/-- What one packet does to the flag of a slot. -/
theorem packInfo_flag {p : Packet D} (hp : ∀ pack, p = .gsa pack → DistinctPrns pack)
    {i i' : Info D} (hview : i.satinfo.inview.toNatClampNeg ≤ nmeaMaxSat)
    (h : packInfo p i = some i') {q : Nat} (hq : q < nmeaMaxSat) :
    i'.satinfo.sat[q].inUse = 1 ↔ i.satinfo.sat[q].inUse = 1 ∨
      ∃ pack, p = .gsa pack ∧ Names pack (i.satinfo.seen.map Satellite.id) q := by
  have hkept : (∀ pack, p ≠ .gsa pack) → i'.satinfo.sat[q].inUse = i.satinfo.sat[q].inUse →
      (i'.satinfo.sat[q].inUse = 1 ↔ i.satinfo.sat[q].inUse = 1 ∨
        ∃ pack, p = .gsa pack ∧ Names pack (i.satinfo.seen.map Satellite.id) q) := by
    intro hne hsame
    rw [hsame]
    exact (or_iff_left fun ⟨pack, heq, _⟩ => hne pack heq).symm
  cases p with
  | gga pack =>
    cases h
    exact hkept (fun _ h => by cases h) rfl
  | gsa pack =>
    obtain ⟨j, hrun, hsat⟩ := gsaInfo_satinfo (hp pack rfl) hview
    obtain rfl : j = i' := Option.some.inj (hrun.symm.trans h)
    have hnamed : (∃ pack', Packet.gsa pack = .gsa pack' ∧
        Names pack' (i.satinfo.seen.map Satellite.id) q) ↔
          Names pack (i.satinfo.seen.map Satellite.id) q := by
      constructor
      · rintro ⟨pack', heq, hnames⟩
        cases heq
        exact hnames
      · exact fun hnames => ⟨pack, rfl, hnames⟩
    rw [hnamed, names_iff pack i.satinfo hq, hsat, marked_getElem]
    split
    · rename_i hlow
      rw [mark_inUse, used_iff, and_iff_right hlow]
    · rename_i hlow
      exact (or_iff_left fun h => hlow h.1).symm
  | gsv pack =>
    apply hkept (fun _ h => by cases h)
    unfold packInfo nmeaGsvInfo at h
    dsimp only at h
    split at h
    · cases h
      rfl
    · obtain ⟨sat, hsat, h⟩ := Option.bind_eq_some_iff.mp h
      cases h
      exact copies_inUse hsat hq
  | rmc pack =>
    cases h
    apply hkept (fun _ h => by cases h)
    rw [rmcInfo_satinfo]
  | vtg pack =>
    cases h
    exact hkept (fun _ h => by cases h) rfl

/-- **A slot is flagged exactly when an earlier GSA packet named the satellite that it listed
then.** -/
theorem flag_iff_named {packets : List (Packet D)} (hfew : ∀ q ∈ packets, AnnouncesFew q)
    (hprns : ∀ pack, .gsa pack ∈ packets → DistinctPrns pack) {i : Info D}
    (hi : foldInfo (some .zeroed) packets = some i) {q : Nat} (hq : q < nmeaMaxSat) :
    i.satinfo.sat[q].inUse = 1 ↔ Named packets q := by
  induction packets using List.reverseRecOn generalizing i with
  | nil =>
    cases hi
    refine iff_of_false ?_ ?_
    · show (Vector.replicate nmeaMaxSat ({} : Satellite))[q].inUse ≠ 1
      rw [Vector.getElem_replicate]
      decide
    · rintro ⟨before, pack, after, hsplit, -⟩
      exact List.append_ne_nil_of_right_ne_nil _ (List.cons_ne_nil _ _) hsplit.symm
  | append_singleton before p ih =>
    have hbefore : ∀ q ∈ before, AnnouncesFew q := fun q hq => hfew q (List.mem_append_left _ hq)
    have hpbefore : ∀ pack, .gsa pack ∈ before → DistinctPrns pack :=
      fun pack hpack => hprns pack (List.mem_append_left _ hpack)
    have hlast : p ∈ before ++ [p] := List.mem_append_right _ List.mem_cons_self
    rw [foldInfo_snoc] at hi
    obtain ⟨i₁, hi₁, hp⟩ := Option.bind_eq_some_iff.mp hi
    have hstep := packInfo_flag (fun pack hpack => hprns pack (hpack ▸ hlast))
      (view_fits (inview_le hbefore hi₁)) hp hq
    rw [hstep, ih hbefore hpbefore hi₁, ← idsAfter_eq hbefore hpbefore hi₁]
    constructor
    · rintro (⟨before', pack, after, rfl, hnames⟩ | ⟨pack, rfl, hnames⟩)
      · exact ⟨before', pack, after ++ [p], by simp, hnames⟩
      · exact ⟨before, pack, [], rfl, hnames⟩
    · rintro ⟨before', pack, after, hsplit, hnames⟩
      rcases List.eq_nil_or_concat after with rfl | ⟨after, p', rfl⟩
      · obtain ⟨rfl, heq⟩ := List.append_inj' hsplit rfl
        exact .inr ⟨pack, List.singleton_inj.mp heq, hnames⟩
      · have hshape : before' ++ .gsa pack :: (after ++ [p']) =
            (before' ++ .gsa pack :: after) ++ [p'] := by simp
        rw [List.concat_eq_append, hshape] at hsplit
        obtain ⟨rfl, -⟩ := List.append_inj' hsplit rfl
        exact .inl ⟨before', pack, after, rfl, hnames⟩

/-- **The condition on the flags is one on the packets.** No flagged satellite in view is ever
missing from a GSA packet exactly when each GSA packet names what earlier ones named. -/
theorem neverDropped_iff {packets : List (Packet D)} (hfew : ∀ q ∈ packets, AnnouncesFew q)
    (hprns : ∀ pack, .gsa pack ∈ packets → DistinctPrns pack) :
    NeverDropped packets ↔ NamesKept packets := by
  refine forall_congr' fun before => forall_congr' fun pack => forall_congr' fun after =>
    forall_congr' fun hsplit => ?_
  have hfew' : ∀ q ∈ before, AnnouncesFew q :=
    fun q hq => hfew q (hsplit ▸ List.mem_append_left _ hq)
  have hprns' : ∀ pack, .gsa pack ∈ before → DistinctPrns pack :=
    fun pack hpack => hprns pack (hsplit ▸ List.mem_append_left _ hpack)
  cases hi : foldInfo (some .zeroed) before with
  | none =>
    rw [idsAfter_none hfew' hprns' hi]
    exact iff_of_true (fun _ h => by cases h) fun q hq => absurd hq (Nat.not_lt_zero _)
  | some i =>
    have hflag : ∀ q (hq : q < nmeaMaxSat), i.satinfo.sat[q].inUse = 1 ↔ Named before q :=
      fun q hq => flag_iff_named hfew' hprns' hi hq
    rw [idsAfter_eq hfew' hprns' hi, List.length_map]
    constructor
    · intro h q hq hnamed
      have hlt : q < min i.satinfo.inview.toNatClampNeg nmeaMaxSat := by
        simpa [SatInfo.seen, front] using hq
      have hq12 : q < nmeaMaxSat := (Nat.lt_min.mp hlt).2
      have hview : q < i.satinfo.inview.toNatClampNeg := (Nat.lt_min.mp hlt).1
      rw [names_iff pack i.satinfo hq12]
      exact ⟨hview, (seen_forall _ _).mp (h i rfl) q hq12 hview ((hflag q hq12).mpr hnamed)⟩
    · intro h i' hi'
      cases hi'
      refine (seen_forall _ _).mpr fun q hq12 hview hset => ?_
      have hq : q < i.satinfo.seen.length := by
        simp [SatInfo.seen, front, hview, hq12]
      exact ((names_iff pack i.satinfo hq12).mp (h q hq ((hflag q hq12).mp hset))).2

/-- One satellite, and two fixes: with it, and with another one. -/
def gsvFive : Gsv :=
  (nmeaParseGsv Decimal (Env.zeroed fun _ => true).abi (cstr "$GPGSV,1,1,1,5,40,90,30*73\r\n")).2

def gsaFive : Gsa Decimal :=
  (nmeaParseGsa (Env.zeroed fun _ => true).abi (cstr "$GPGSA,A,3,5,,,,,,,,,,,,2.5,1.5,2.0*06\r\n")).2

def gsaSeven : Gsa Decimal :=
  (nmeaParseGsa (Env.zeroed fun _ => true).abi (cstr "$GPGSA,A,3,7,,,,,,,,,,,,2.5,1.5,2.0*04\r\n")).2

/-- The satellite is in use twice. -/
theorem flagsTruthful_twice :
    FlagsTruthful [.gsv gsvFive, .gsa gsaFive, .gsa gsaFive] ↔
      NeverDropped [.gsv gsvFive, .gsa gsaFive, .gsa gsaFive] := by
  have hcount : gsvFive.satCount ≤ 12 := by decide +kernel
  have hprns : (gsaFive.satPrn.toList.filter (· ≠ 0)).Nodup := by decide +kernel
  apply flagsTruthful_iff
  · intro q hq
    simp only [List.mem_cons, List.not_mem_nil, or_false] at hq
    rcases hq with rfl | rfl | rfl
    · exact hcount
    · trivial
    · trivial
  · intro pack hpack
    have hpack : pack = gsaFive := by simpa using hpack
    rw [hpack]
    exact hprns

/-- It is used no more, and stays flagged. -/
theorem flag_stays : ¬ FlagsTruthful [.gsv gsvFive, .gsa gsaFive, .gsa gsaSeven] := by
  intro h
  have hrun : (foldInfo (some .zeroed) [.gsv gsvFive, .gsa gsaFive, .gsa gsaSeven]).map
      (fun i => i.satinfo.seen) = some [⟨5, 1, 40, 90, 30⟩] := by decide +kernel
  have hprns : (5 : Int32) ∉ gsaSeven.satPrn.toList := by decide +kernel
  obtain ⟨i, hi, hseen⟩ := Option.map_eq_some_iff.mp hrun
  obtain ⟨hflags, -⟩ := h [.gsv gsvFive, .gsa gsaFive] gsaSeven [] rfl i hi
  rw [hseen] at hflags
  exact hprns ((hflags _ List.mem_cons_self).mp rfl).2

end RttNmea
