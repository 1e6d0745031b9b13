import RttNmea.GenSummary

/-!
# in_use at the other end

The GSA sentence of a cycle comes before its GSV sentences, so it flags the satellites that the
table listed before: the flags and their number are a cycle behind.
-/

namespace RttNmea

open CText Framing

variable {D : Type} [CPrint D]

/-! ## Satellites and their PRNs -/

/-- The satellites listed have ids, and no two of the table have the same. -/
structure Distinguished (s : SatInfo) : Prop where
  named : ∀ q < s.listed, ∀ hq : q < nmeaMaxSat, s.sat[q].id ≠ 0
  ids : ∀ i j (hi : i < nmeaMaxSat) (hj : j < nmeaMaxSat), s.sat[i].id ≠ 0 →
    s.sat[i].id = s.sat[j].id → i = j

/-- What GSA prints for a satellite. -/
def prnOf (s : Satellite) : Int32 := if s.inUse ≠ 0 then s.id else 0

theorem prns_nodup {s : SatInfo} (h : Distinguished s) :
    ((s.sat.map prnOf).toList.filter (· ≠ 0)).Nodup := by
  have hprn : ∀ x : Satellite, prnOf x ≠ 0 → prnOf x = x.id := by
    intro x hx
    unfold prnOf at hx ⊢
    split
    · rfl
    · rename_i hflag
      rw [if_neg hflag] at hx
      exact absurd rfl hx
  rw [List.Nodup, List.pairwise_filter, List.pairwise_iff_getElem]
  intro i j hi hj hij hne hne' heq
  rw [Vector.length_toList] at hi hj
  rw [Vector.getElem_toList, Vector.getElem_map] at hne hne' heq
  rw [Vector.getElem_toList, Vector.getElem_map] at heq
  have hi0 := of_decide_eq_true hne
  have hj0 := of_decide_eq_true hne'
  rw [hprn _ hi0, hprn _ hj0] at heq
  rw [hprn _ hi0] at hi0
  exact Nat.ne_of_lt hij (h.ids i j hi hj hi0 heq)

/-- A satellite of the table is hit just if the generator's is in use. -/
theorem hit_iff {s : SatInfo} (h : Distinguished s) {q : Nat} (hq : q < s.listed)
    (hslot : q < nmeaMaxSat) {x : Satellite} (hx : x.id = s.sat[q].id) :
    (s.sat.map prnOf).toList.any (hit · x) = true ↔ s.sat[q].inUse ≠ 0 := by
  rw [List.any_eq_true]
  constructor
  · rintro ⟨prn, hprn, hhit⟩
    obtain ⟨hne, hid⟩ : prn ≠ 0 ∧ prn = x.id := by simpa [hit] using hhit
    obtain ⟨i, hi, rfl⟩ := List.mem_iff_getElem.mp hprn
    rw [Vector.length_toList] at hi
    rw [Vector.getElem_toList, Vector.getElem_map] at hne hid
    unfold prnOf at hne hid
    split at hid
    · rename_i hflag
      have hslots : i = q := by
        apply h.ids i q hi hslot
        · rw [hid, hx]
          exact h.named q hq hslot
        · rw [hid, hx]
      subst hslots
      exact hflag
    · rename_i hflag
      rw [if_neg hflag] at hne
      exact absurd rfl hne
  · intro hflag
    refine ⟨prnOf s.sat[q], ?_, ?_⟩
    · rw [List.mem_iff_getElem]
      refine ⟨q, by rw [Vector.length_toList]; exact hslot, ?_⟩
      rw [Vector.getElem_toList, Vector.getElem_map]
    · unfold prnOf
      rw [if_pos hflag, ← hx]
      have hid : x.id ≠ 0 := by
        rw [hx]
        exact h.named q hq hslot
      simp [hit, hid]

/-! ## Cycles -/

/-- As many satellites in view, those listed with the same ids, and the same of them in use. -/
structure SameUse (s s' : SatInfo) : Prop where
  inview : s'.inview = s.inview
  ids : ∀ q < s.listed, ∀ hq : q < nmeaMaxSat, s'.sat[q].id = s.sat[q].id
  used : ∀ q < s.listed, ∀ hq : q < nmeaMaxSat, s'.sat[q].inUse ≠ 0 ↔ s.sat[q].inUse ≠ 0

theorem SameUse.listed {s s' : SatInfo} (h : SameUse s s') : s'.listed = s.listed := by
  rw [SatInfo.listed, SatInfo.listed, h.inview]

theorem SameUse.symm {s s' : SatInfo} (h : SameUse s s') : SameUse s' s where
  inview := h.inview.symm
  ids q hlow hq := (h.ids q (h.listed ▸ hlow) hq).symm
  used q hlow hq := (h.used q (h.listed ▸ hlow) hq).symm

/-- The table `t` of the parser has the ids of the satellites, and no flag is set that should not
be. -/
structure Settled (s t : SatInfo) : Prop where
  inview : t.inview = Int32.ofNat s.listed
  ids : ∀ q < s.listed, ∀ hq : q < nmeaMaxSat, t.sat[q].id = s.sat[q].id
  flags : ∀ q < s.listed, ∀ hq : q < nmeaMaxSat, t.sat[q].inUse = 1 → s.sat[q].inUse ≠ 0

/-- The flags are those of the generator, and inuse counts them. -/
structure Flagged (s t : SatInfo) : Prop extends Settled s t where
  flags_iff : ∀ q < s.listed, ∀ hq : q < nmeaMaxSat, t.sat[q].inUse = 1 ↔ s.sat[q].inUse ≠ 0
  inuse : t.inuse = Int32.ofNat ((front s.listed s.sat).countP fun x => x.inUse ≠ 0)

theorem countP_front {f g : Satellite → Bool} {a b : Vector Satellite nmeaMaxSat} {n : Nat}
    (hn : n ≤ nmeaMaxSat) (h : ∀ q < n, ∀ hq : q < nmeaMaxSat, f a[q] = g b[q]) :
    (front n a).countP f = (front n b).countP g := by
  induction n with
  | zero => rfl
  | succ n ih =>
    have hlt : n < nmeaMaxSat := hn
    rw [front_succ a hlt, front_succ b hlt, List.countP_append, List.countP_append,
      ih (Nat.le_of_lt hlt) fun q hq => h q (Nat.lt_succ_of_lt hq), List.countP_singleton,
      List.countP_singleton, h n (Nat.lt_succ_self n) hlt]

section

variable {s s' t : SatInfo}

theorem Settled.carry (h : Settled s t) (hsame : SameUse s s') : Settled s' t where
  inview := by rw [h.inview, hsame.listed]
  ids q hlow hq := by
    rw [hsame.listed] at hlow
    rw [h.ids q hlow hq, hsame.ids q hlow hq]
  flags q hlow hq hone := by
    rw [hsame.listed] at hlow
    exact (hsame.used q hlow hq).mpr (h.flags q hlow hq hone)

theorem Flagged.carry (hfew : s.listed ≤ nmeaMaxSat) (h : Flagged s t) (hsame : SameUse s s') :
    Flagged s' t where
  toSettled := h.toSettled.carry hsame
  flags_iff q hlow hq := by
    rw [hsame.listed] at hlow
    rw [h.flags_iff q hlow hq, hsame.used q hlow hq]
  inuse := by
    rw [h.inuse, hsame.listed]
    refine congrArg Int32.ofNat (countP_front hfew fun q hlow hq => ?_)
    exact decide_eq_decide.mpr (hsame.used q hlow hq).symm

end

section

variable {info : Info D} {mask : Int32}

/-- Once the table lists the satellites, a full cycle sets the flags. -/
theorem full_flags (h : FullCycle info mask) (hview : 0 ≤ info.satinfo.inview)
    (hids : Distinguished info.satinfo) (now : Time) {sum : Info D}
    (hset : Settled info.satinfo sum.satinfo) :
    ∃ sum', foldInfo (some sum) (rereadAll (generated now info mask)) = some sum' ∧
      Flagged info.satinfo sum'.satinfo := by
  have hfew : info.satinfo.listed ≤ 12 := (gsvOf_count hview 0).2
  have hnat : sum.satinfo.inview.toNatClampNeg = info.satinfo.listed := by
    rw [hset.inview]
    exact Int32.toNatClampNeg_ofNat_of_lt (by omega)
  have hin : InTable (some sum) := by
    have table : ∀ n ≤ 12, (0 : Int32) ≤ Int32.ofNat n ∧ Int32.ofNat n ≤ 12 := by decide
    have hbounds := table _ hfew
    rw [← hset.inview] at hbounds
    exact ⟨sum, rfl, hbounds⟩
  obtain ⟨sum', sat, hfold, hshows, hmark, hkeep⟩ := full_shows h hview now hin
  have hall := markAll (prns_nodup hids) sum.satinfo.inview sum.satinfo.sat (by
    rw [hnat]
    exact hfew)
  rw [hnat] at hall
  obtain ⟨rfl, hinuse⟩ := Prod.mk.inj (Option.some.inj (hmark.symm.trans hall))
  have hflag : ∀ q < info.satinfo.listed, ∀ hq : q < nmeaMaxSat,
      (sum'.satinfo.sat[q].inUse = 1 ↔ info.satinfo.sat[q].inUse ≠ 0) := by
    intro q hlow hq
    have hid : sum.satinfo.sat[q].id = info.satinfo.sat[q].id := hset.ids q hlow hq
    rw [hkeep q hq, marked_getElem, if_pos hlow, mark_inUse, hit_iff hids hlow hq hid]
    constructor
    · rintro (hold | hnew)
      · exact hset.flags q hlow hq hold
      · exact hnew
    · exact Or.inr
  refine ⟨sum', hfold, ?_⟩
  exact
    { inview := hshows.inview, ids := fun q hlow hq => (hshows.sats q hlow hq).1
      flags := fun q hlow hq => (hflag q hlow hq).mp
      flags_iff := hflag
      inuse := by
        rw [hinuse]
        refine congrArg Int32.ofNat (countP_front hfew fun q hlow hq => ?_)
        have hid : sum.satinfo.sat[q].id = info.satinfo.sat[q].id := hset.ids q hlow hq
        rw [Bool.eq_iff_iff, hit_iff hids hlow hq hid, decide_eq_true_eq] }

/-- The first cycle only fills the table. -/
theorem first_flags (h : FullCycle info mask) (hview : 0 ≤ info.satinfo.inview)
    (now : Time) {sum : Info D} (hempty : sum.satinfo.inview = 0)
    (hclear : ∀ q (hq : q < nmeaMaxSat), sum.satinfo.sat[q].inUse = 0) :
    ∃ sum', foldInfo (some sum) (rereadAll (generated now info mask)) = some sum' ∧
      Settled info.satinfo sum'.satinfo ∧ sum'.satinfo.inuse = 0 ∧
      ∀ q (hq : q < nmeaMaxSat), sum'.satinfo.sat[q].inUse = 0 := by
  have hin : InTable (some sum) := by
    refine ⟨sum, rfl, ?_⟩
    rw [hempty]
    decide
  obtain ⟨sum', sat, hfold, hshows, hmark, hkeep⟩ := full_shows h hview now hin
  have hnone : ∀ prns : List Int32, gsaMarkAll prns 0 (sum.satinfo.sat, 0) =
      some (sum.satinfo.sat, 0) := by
    intro prns
    induction prns with
    | nil => rfl
    | cons prn prns ih => exact ih
  rw [hempty, hnone] at hmark
  obtain ⟨rfl, hinuse⟩ := Prod.mk.inj (Option.some.inj hmark)
  have hflag : ∀ q (hq : q < nmeaMaxSat), sum'.satinfo.sat[q].inUse = 0 := by
    intro q hq
    rw [hkeep q hq, hclear q hq]
  refine ⟨sum', hfold, ⟨hshows.inview, fun q hlow hq => (hshows.sats q hlow hq).1, ?_⟩, hinuse.symm, hflag⟩
  intro q _ hq hone
  rw [hflag q hq] at hone
  exact absurd hone (by decide)

end

/-- From a settled summary every further cycle leaves a flagged one. -/
theorem cycles_flagged {s : SatInfo} (hview : 0 ≤ s.inview) (hfew : s.listed ≤ nmeaMaxSat)
    {cycles : List (Cycle D)} (hfull : ∀ c ∈ cycles, FullCycle c.info c.mask)
    (hsame : ∀ c ∈ cycles, SameUse s c.info.satinfo)
    (hids : ∀ c ∈ cycles, Distinguished c.info.satinfo) {sum : Info D}
    (hset : Settled s sum.satinfo) :
    ∃ sum', foldInfo (some sum) (rereadAll (cycles.flatMap Cycle.packets)) = some sum' ∧
      Settled s sum'.satinfo ∧ (cycles ≠ [] → Flagged s sum'.satinfo) ∧
      (cycles = [] → sum' = sum) := by
  induction cycles using List.reverseRecOn with
  | nil => exact ⟨sum, rfl, hset, fun h => absurd rfl h, fun _ => rfl⟩
  | append_singleton cycles c ih =>
    obtain ⟨mid, hmid, hsetmid, -⟩ := ih (fun x hx => hfull x (List.mem_append_left _ hx))
      (fun x hx => hsame x (List.mem_append_left _ hx))
      (fun x hx => hids x (List.mem_append_left _ hx))
    have hc : c ∈ cycles ++ [c] := List.mem_append_right _ (List.mem_singleton.mpr rfl)
    have hcs : SameUse s c.info.satinfo := hsame c hc
    obtain ⟨sum', hfold, hown⟩ := full_flags (hfull c hc) (hcs.inview ▸ hview) (hids c hc) c.now
      (hsetmid.carry hcs)
    have hflagged : Flagged s sum'.satinfo := hown.carry (hcs.listed ▸ hfew) hcs.symm
    refine ⟨sum', ?_, hflagged.toSettled, fun _ => hflagged, fun h => ?_⟩
    · rw [List.flatMap_append, List.flatMap_singleton, rereadAll_append, foldInfo_append, hmid]
      exact hfold
    · exact absurd h (List.append_ne_nil_of_right_ne_nil _ (List.cons_ne_nil _ _))

/-- **The flags follow one cycle behind.** While full cycles list the same satellites and use the
same of them, wherever these stand, a summary that started empty has no flag after the first, and
from the second on exactly those of the generator, with their number in inuse. -/
theorem flags_follow {env : Env} {st : ParserState D} (hm : env.MallocSucceeds)
    (hdrained : Drained st.parser) {first : Cycle D} {cycles : List (Cycle D)}
    (hfits : ∀ c ∈ first :: cycles, c.Fits st.parser.buffSize)
    (hfull : ∀ c ∈ first :: cycles, FullCycle c.info c.mask)
    (hview : 0 ≤ first.info.satinfo.inview)
    (hsame : ∀ c ∈ cycles, SameUse first.info.satinfo c.info.satinfo)
    (hids : ∀ c ∈ cycles, Distinguished c.info.satinfo) {sum : Info D}
    (hempty : sum.satinfo.inview = 0)
    (hclear : ∀ q (hq : q < nmeaMaxSat), sum.satinfo.sat[q].inUse = 0) :
    ∃ n p sum' w, runCycles env st.parser (some sum) st.world (first :: cycles) =
        some (n, p, some sum', w) ∧ Drained p ∧
      (cycles = [] → sum'.satinfo.inuse = 0 ∧
        ∀ q (hq : q < nmeaMaxSat), sum'.satinfo.sat[q].inUse = 0) ∧
      (cycles ≠ [] → Flagged first.info.satinfo sum'.satinfo) := by
  obtain ⟨p, w, hrun, -, hdrained'⟩ := cycles_delivered hm hdrained hfits (some sum)
  have hfew : first.info.satinfo.listed ≤ 12 := (gsvOf_count hview 0).2
  obtain ⟨one, hone, hset, hinuse, hflag⟩ := first_flags (hfull first List.mem_cons_self)
    hview first.now hempty hclear
  have hsplit : rereadAll ((first :: cycles).flatMap Cycle.packets) =
      rereadAll (generated first.now first.info first.mask) ++
        rereadAll (cycles.flatMap Cycle.packets) := by
    rw [List.flatMap_cons, rereadAll_append]
    rfl
  obtain ⟨sum', hfold, -, hmany, hnone⟩ :=
    cycles_flagged hview hfew (fun c hc => hfull c (List.mem_cons_of_mem _ hc)) hsame hids hset
  have hsum : foldInfo (some sum) (rereadAll ((first :: cycles).flatMap Cycle.packets)) =
      some sum' := by
    rw [hsplit, foldInfo_append, hone, hfold]
  rw [hsum] at hrun
  refine ⟨_, p, sum', w, hrun, hdrained', ?_, hmany⟩
  intro hnil
  rw [hnone hnil]
  exact ⟨hinuse, hflag⟩

/-- The satellite a little later. -/
def SatInfo.moved : SatInfo :=
  { SatInfo.one with sat := SatInfo.one.sat.set 0 ⟨5, 1, 41, 95, 31⟩ nmeaMaxSat_pos }

theorem moved_distinguished : Distinguished SatInfo.moved where
  named := by decide
  ids i j hi hj := by
    have table : ∀ i (hi : i < nmeaMaxSat), ∀ j (hj : j < nmeaMaxSat),
        SatInfo.moved.sat[i].id ≠ 0 → SatInfo.moved.sat[i].id = SatInfo.moved.sat[j].id → i = j := by
      decide
    exact table i hi j hj

def Cycle.later : Cycle Rat :=
  ⟨{ Info.noon with satinfo := .moved }, {}, 0x1f, List.replicate 400 0⟩

theorem later_printable : Cycle.later.info.Printable :=
  ⟨printsNumber_rat _, printsNumber_rat _, printsNumber_rat _, printsNumber_rat _,
    printsNumber_rat _, printsNumber_rat _, printsNumber_rat _, printsNumber_rat _,
    printsNumber_rat _, printsNumber_rat _, printsNumber_rat _⟩

theorem later_fits : Cycle.later.Fits ParserState.started.parser.buffSize := by
  have hroom : (bytesOf (generatedLines later_printable {} 0x1f)).length <
      Cycle.later.buff.length := by decide +kernel
  exact ⟨later_printable, hroom, by decide +kernel⟩

theorem flags_follow_later :
    ∃ n p sum' w, runCycles (.zeroed fun _ => true) ParserState.started.parser (some .zeroed)
        ParserState.started.world [Cycle.noon, Cycle.later] = some (n, p, some sum', w) ∧
      Drained p ∧
      ([Cycle.later] = [] → sum'.satinfo.inuse = 0 ∧
        ∀ q (hq : q < nmeaMaxSat), sum'.satinfo.sat[q].inUse = 0) ∧
      ([Cycle.later] ≠ [] → Flagged SatInfo.one sum'.satinfo) := by
  have hclear : ∀ q (hq : q < nmeaMaxSat),
      (Info.zeroed : Info Rat).satinfo.sat[q].inUse = 0 := by decide
  have hsame : SameUse SatInfo.one SatInfo.moved :=
    { inview := rfl, ids := by decide, used := by decide }
  have hfull : FullCycle Cycle.later.info Cycle.later.mask := { noon_full with }
  refine flags_follow (fun _ => rfl) started_drained ?_ ?_ (by decide) ?_ ?_ rfl hclear
  · exact List.forall_mem_cons.mpr ⟨noon_fits _ List.mem_cons_self,
      List.forall_mem_singleton.mpr later_fits⟩
  · exact List.forall_mem_cons.mpr ⟨noon_full, List.forall_mem_singleton.mpr hfull⟩
  · exact List.forall_mem_singleton.mpr hsame
  · exact List.forall_mem_singleton.mpr moved_distinguished

end RttNmea
