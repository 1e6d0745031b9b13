import RttNmea.Generator
import RttNmea.Lib.Yields

/-!
# The functions of the generators go through

Each function that `__nmea_create_generator` stores returns 1, and the number of satellites in view
stays inside the table.
-/

namespace RttNmea

open Yield

variable {D : Type}

/-! ## The time -/

theorem nmeaTimeNow_isSome (lt : Int) : (nmeaTimeNow lt).isSome := by
  obtain ⟨tt, htt⟩ := Option.isSome_iff_exists.mp (gmtimeR_isSome lt)
  unfold nmeaTimeNow
  rw [htt]
  rfl

theorem tellTime_spec [CArith D] (o : Outside) (r : Reads) (info : Info D) :
    ∃ utc, nmeaTimeNow (o.clock r.times) = some utc ∧
      tellTime o r info = some ({ r with times := r.times + 1 }, { info with utc := utc }) := by
  obtain ⟨utc, hutc⟩ := Option.isSome_iff_exists.mp (nmeaTimeNow_isSome (o.clock r.times))
  refine ⟨utc, hutc, ?_⟩
  unfold tellTime
  rw [hutc]
  rfl

/-! ## Calls that go through -/

/-- The satellites in view are in the table. -/
def InView (info : Info D) : Prop := 0 ≤ info.satinfo.inview ∧ info.satinfo.inview ≤ 12

def Sound (f : Call D) : Prop :=
  ∀ o r info, InView info → ∃ r' info', f o r info = some (1, r', info') ∧ InView info'

theorem inView_ofNat {info : Info D} {n : Nat} (hn : n ≤ 12)
    (h : info.satinfo.inview = Int32.ofNat n) : InView info := by
  have table : ∀ n ≤ 12, (0 : Int32) ≤ Int32.ofNat n ∧ Int32.ofNat n ≤ 12 := by decide
  unfold InView
  rw [h]
  exact table n hn

/-! ## NOISE -/

section

variable [CArith D]

/-- Each satellite adds at most one to those in view. -/
theorem noiseStep_inview (o : Outside) (s : SatInfo) (it : Fin nmeaMaxSat) {n : Nat}
    (h : ∃ k ≤ n, s.inview = Int32.ofNat k) :
    Yields (noiseStep D o s it) fun s' => ∃ k ≤ n + 1, s'.inview = Int32.ofNat k := by
  obtain ⟨k, hk, hview⟩ := h
  unfold noiseStep
  refine Yields.bind (P := fun _ => True) (fun _ => trivial) fun x _ => Yields.pure ?_
  dsimp only
  split
  · exact ⟨k + 1, Nat.succ_le_succ hk, by rw [hview, Int32.ofNat_add]; rfl⟩
  · exact ⟨k, Nat.le_succ_of_le hk, hview⟩

theorem noiseInfo_inView (o : Outside) (info : Info D) : Yields (noiseInfo o info) InView := by
  have any : ∀ {α : Type} (m : StateM Reads α), Yields m fun _ => True := fun _ _ => trivial
  unfold noiseInfo
  iterate 11 refine (any _).bind fun _ _ => ?_
  refine Yields.bind (Yields.foldlM (fun n s => ∃ k ≤ n, s.inview = Int32.ofNat k)
    (fun _ _ s hs => noiseStep_inview o s _ hs) ⟨0, Nat.le_refl 0, rfl⟩) fun s hs => Yields.pure ?_
  obtain ⟨k, hk, hview⟩ := hs
  rw [List.length_finRange] at hk
  exact inView_ofNat hk hview

theorem noise_sound : Sound (nmeaIgenNoiseLoop : Call D) := fun o r info _ =>
  ⟨(noiseInfo o info r).2, (noiseInfo o info r).1, rfl, noiseInfo_inView o info r⟩

end

theorem still_sound : Sound (fun _ r info => some (1, r, info) : Call D) := fun _ r info h =>
  ⟨r, info, rfl, h⟩

/-! ## STATIC -/

theorem static_loop_sound [CArith D] : Sound (nmeaIgenStaticLoop : Call D) := by
  intro o r info h
  obtain ⟨utc, -, htell⟩ := tellTime_spec o r info
  refine ⟨{ r with times := r.times + 1 }, { info with utc := utc }, ?_, h⟩
  unfold nmeaIgenStaticLoop
  rw [htell]
  rfl

theorem static_reset_sound : Sound (nmeaIgenStaticReset : Call D) := fun _ _ _ _ =>
  ⟨_, _, rfl, inView_ofNat (n := 4) (by decide) rfl⟩

theorem static_init_sound : Sound (nmeaIgenStaticInit : Call D) := fun _ _ _ _ =>
  ⟨_, _, rfl, inView_ofNat (n := 4) (by decide) rfl⟩

/-! ## SAT_ROTATE -/

section

variable [COrder D]

theorem rotateSats_isSome (deg : D) {left it : Nat} (h : it + left ≤ nmeaMaxSat) (srt : D)
    (sat : Vector Satellite nmeaMaxSat) : (rotateSats deg left it srt sat).isSome := by
  induction left generalizing it srt sat with
  | zero => rfl
  | succ left ih =>
    rw [rotateSats, dif_pos (by omega)]
    exact ih (by omega) _ _

theorem rotatePlace_isSome (deg : D) {left it : Nat} (h : it + left ≤ nmeaMaxSat) (srt : D)
    (sat : Vector Satellite nmeaMaxSat) : (rotatePlace deg left it srt sat).isSome := by
  induction left generalizing it srt sat with
  | zero => rfl
  | succ left ih =>
    rw [rotatePlace, dif_pos (by omega)]
    exact ih (by omega) _ _

theorem rotate_loop_sound : Sound (nmeaIgenRotateLoop : Call D) := by
  intro o r info h
  have hcount : info.satinfo.inview.toNatClampNeg ≤ 12 := by
    have hle := Int32.le_iff_toInt_le.mp h.2
    have htwelve : (12 : Int32).toInt = 12 := rfl
    unfold Int32.toNatClampNeg
    omega
  obtain ⟨utc, -, htell⟩ := tellTime_spec o r info
  obtain ⟨sat, hsat⟩ := Option.isSome_iff_exists.mp (rotateSats_isSome
    (dbl ((360 : Int32) / (if info.satinfo.inview ≠ 0 then info.satinfo.inview else 1)).toInt : D)
    (show 0 + info.satinfo.inview.toNatClampNeg ≤ nmeaMaxSat by rwa [Nat.zero_add])
    (dbl ((if info.satinfo.inview ≠ 0 then
      (info.satinfo.sat.get ⟨0, nmeaMaxSat_pos⟩).azimuth else 0) + 5).toInt) info.satinfo.sat)
  refine ⟨{ r with times := r.times + 1 },
    { info with utc := utc, satinfo := { info.satinfo with sat := sat } }, ?_, h⟩
  unfold nmeaIgenRotateLoop
  simp only [htell, Option.bind_eq_bind, Option.bind_some]
  rw [hsat]
  rfl

theorem rotate_reset_sound : Sound (nmeaIgenRotateReset : Call D) := by
  intro o r info _
  obtain ⟨sat, hsat⟩ := Option.isSome_iff_exists.mp (rotatePlace_isSome (dbl (360 / 8) : D)
    (show 0 + 8 ≤ nmeaMaxSat by decide) (dbl 0) info.satinfo.sat)
  refine ⟨r, { info with satinfo := { inuse := 8, inview := 8, sat := sat } }, ?_,
    inView_ofNat (n := 8) (by decide) rfl⟩
  unfold nmeaIgenRotateReset
  simp only [Option.bind_eq_bind]
  rw [hsat]
  rfl

theorem rotate_init_sound : Sound (nmeaIgenRotateInit : Call D) := by
  intro o r info h
  obtain ⟨r', info', hreset, hview⟩ := rotate_reset_sound o r { info with sig := 3, fix := 3 } h
  refine ⟨r', info', ?_, hview⟩
  unfold nmeaIgenRotateInit
  rw [hreset]
  rfl

end

/-! ## Every generator -/

section

variable [CTrig D]

theorem rmove_init_sound : Sound (nmeaIgenPosRmoveInit : Call D) := fun _ _ _ h =>
  ⟨_, _, rfl, h⟩

theorem rmove_loop_sound : Sound (nmeaIgenPosRmoveLoop : Call D) := fun _ _ _ h =>
  ⟨_, _, rfl, h⟩

/-- A missing function counts as one that returns 1. -/
structure BuiltIn (g : Generator D) : Prop where
  init : Sound (callIf g.initCall 1)
  loop : Sound (callIf g.loopCall 1)
  reset : Sound (callIf g.resetCall 1)

theorem generator_builtIn {type : GenType} {g : Generator D} (h : type.generator = some g) :
    BuiltIn g := by
  cases type with
  | rotate | last => cases h
  | noise =>
    cases h
    exact ⟨still_sound, noise_sound, still_sound⟩
  | static | satStatic =>
    cases h
    exact ⟨static_init_sound, static_loop_sound, static_reset_sound⟩
  | satRotate =>
    cases h
    exact ⟨rotate_init_sound, rotate_loop_sound, rotate_reset_sound⟩
  | posRandmove =>
    cases h
    exact ⟨rmove_init_sound, rmove_loop_sound, still_sound⟩

end

end RttNmea
