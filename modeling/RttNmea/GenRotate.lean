import RttNmea.GenLife
import RttNmea.Rounding
import Mathlib.Analysis.SpecialFunctions.Complex.Arg
import Mathlib.Analysis.SpecialFunctions.Trigonometric.Inverse

/-!
# The satellites go round

nmea_igen_rotate_reset puts eight satellites around the horizon, and nmea_igen_rotate_loop puts
those in view at equal distances from the first one, which moves on by five degrees. They compute
with doubles, all of which are integers.
-/

namespace RttNmea

variable {D : Type} [COrder D]

/-! ## One turn -/

/-- One turn less from 360 degrees on. -/
def lessTurn (x : Nat) : Nat := if 360 ≤ x then x - 360 else x

/-- The angle at a later place, from the next one on. -/
theorem angle_next {s d it q : Nat} (h : it + 1 ≤ q) :
    s + d + (q - (it + 1)) * d = s + (q - it) * d := by
  have hq : q - it = q - (it + 1) + 1 := by omega
  rw [hq, Nat.succ_mul]
  omega

theorem rotateSats_spec (R : Rounding D) {deg : D} {d : Nat} (hdeg : R.In deg d d)
    {left it s : Nat} {srt : D} (hsrt : R.In srt s s) (hfit : it + left ≤ nmeaMaxSat)
    (hsmall : s + left * d ≤ 2 ^ 20) (sat : Vector Satellite nmeaMaxSat) :
    ∃ sat', rotateSats deg left it srt sat = some sat' ∧ ∀ q (hq : q < nmeaMaxSat),
      sat'[q] = if it ≤ q ∧ q < it + left then
        { sat[q] with azimuth := Int32.ofNat (lessTurn (s + (q - it) * d)) } else sat[q] := by
  induction left generalizing it s srt sat with
  | zero =>
    refine ⟨sat, rfl, fun q _ => ?_⟩
    rw [if_neg (by omega)]
  | succ left ih =>
    have hlt : it < nmeaMaxSat := by omega
    have hmul : (left + 1) * d = left * d + d := Nat.succ_mul left d
    have hnext : R.In (CArith.add srt deg) (s + d : Nat) (s + d : Nat) := by
      have hadd := hsrt.add hdeg (by omega) (by omega)
      rwa [← Nat.cast_add] at hadd
    have hazimuth : CArith.toInt32 (if COrder.le (dbl 360) srt then CArith.sub srt (dbl 360)
        else srt) = Int32.ofNat (lessTurn s) := by
      have h360 : R.In (dbl 360) 360 360 := Rounding.in_dbl (by decide) (by decide)
      have hle : COrder.le (dbl 360) srt = true ↔ 360 ≤ s := by
        rw [h360.le_iff hsrt]
        omega
      unfold lessTurn
      by_cases hs : 360 ≤ s
      · rw [if_pos (hle.mpr hs), if_pos hs]
        have hsub := (hsrt.sub h360 (by omega) (by omega)).toInt32_eq (by omega) (by omega)
        have hcast : (s : Int) - 360 = (s - 360 : Nat) := by omega
        rw [hsub, hcast]
        exact Int32.ofInt_eq_ofNat
      · rw [if_neg fun h => hs (hle.mp h), if_neg hs, hsrt.toInt32_eq (by omega) (by omega)]
        exact Int32.ofInt_eq_ofNat
    obtain ⟨sat', hrun, hsat'⟩ := ih hnext (show it + 1 + left ≤ nmeaMaxSat by omega) (by omega)
      (sat.set it { sat[it] with azimuth := Int32.ofNat (lessTurn s) })
    refine ⟨sat', ?_, fun q hq => ?_⟩
    · rw [rotateSats, dif_pos hlt]
      dsimp only
      rw [hazimuth]
      exact hrun
    · rw [hsat' q hq, Vector.getElem_set]
      by_cases hqit : it = q
      · subst hqit
        rw [if_neg (by omega), if_pos rfl, if_pos (by omega), Nat.sub_self, Nat.zero_mul,
          Nat.add_zero]
      · rw [if_neg hqit]
        by_cases hin : it + 1 ≤ q ∧ q < it + 1 + left
        · rw [if_pos hin, if_pos (by omega), angle_next hin.1]
        · rw [if_neg hin, if_neg (by omega)]

/-- The satellites at equal distances, the first one at an angle. -/
def turned (s : SatInfo) (count a : Nat) : SatInfo :=
  { s with sat := s.sat.mapIdx fun q x =>
      if q < count then { x with azimuth := Int32.ofNat ((a + q * (360 / count)) % 360) } else x }

theorem turned_getElem (s : SatInfo) (count a : Nat) {q : Nat} (hq : q < nmeaMaxSat) :
    (turned s count a).sat[q] = if q < count then
      { s.sat[q] with azimuth := Int32.ofNat ((a + q * (360 / count)) % 360) } else s.sat[q] := by
  unfold turned
  rw [Vector.getElem_mapIdx]

theorem turned_turned (s : SatInfo) (count a b : Nat) :
    turned (turned s count a) count b = turned s count b := by
  have hsat : (turned (turned s count a) count b).sat = (turned s count b).sat := by
    apply Vector.ext
    intro q hq
    rw [turned_getElem, turned_getElem, turned_getElem]
    split <;> rfl
  calc turned (turned s count a) count b
    _ = { s with sat := (turned (turned s count a) count b).sat } := rfl
    _ = { s with sat := (turned s count b).sat } := by rw [hsat]
    _ = turned s count b := rfl

/-- A summary with so many satellites, the first one at an angle. -/
structure Circling (s : SatInfo) (count a : Nat) : Prop where
  pos : 0 < count
  le : count ≤ 12
  inview : s.inview = Int32.ofNat count
  first : s.sat[0].azimuth = Int32.ofNat (a % 360)

theorem Circling.turned {s : SatInfo} {count a : Nat} (h : Circling s count a) (b : Nat) :
    Circling (turned s count b) count b where
  pos := h.pos
  le := h.le
  inview := h.inview
  first := by
    rw [turned_getElem, if_pos h.pos, Nat.zero_mul, Nat.add_zero]

theorem circling_int32 {count : Nat} (hpos : 0 < count) (hle : count ≤ 12) :
    Int32.ofNat count ≠ 0 ∧ (Int32.ofNat count).toNatClampNeg = count ∧
      (360 / Int32.ofNat count).toInt = (360 / count : Nat) := by
  interval_cases count <;> decide

theorem rotate_loop_spec (R : Rounding D) {count a : Nat} {info : Info D}
    (h : Circling info.satinfo count a) (o : Outside) (r : Reads) :
    ∃ utc, nmeaTimeNow (o.clock r.times) = some utc ∧
      nmeaIgenRotateLoop o r info = some (1, { r with times := r.times + 1 },
        { info with utc := utc, satinfo := turned info.satinfo count (a + 5) }) := by
  obtain ⟨hne, hnat, hdeg⟩ := circling_int32 h.pos h.le
  obtain ⟨utc, hutc, htell⟩ := tellTime_spec o r info
  have hquot : 360 / count ≤ 360 := Nat.div_le_self 360 count
  have hint : ∀ n : Nat, n ≤ 365 → R.In (dbl n) n n := fun n hn =>
    Rounding.in_dbl (by omega) (by omega)
  have hdbl := hint (360 / count) (hquot.trans (by decide))
  have hsrt := hint (a % 360 + 5) (by omega)
  have hfirst : (Int32.ofNat (a % 360) + 5).toInt = (a % 360 + 5 : Nat) := by
    have hsum : Int32.ofNat (a % 360) + 5 = Int32.ofNat (a % 360 + 5) := by
      rw [Int32.ofNat_add]
      rfl
    rw [hsum]
    exact Int32.toInt_ofNat_of_lt (by omega)
  have hspan : count * (360 / count) ≤ 360 := Nat.mul_div_le 360 count
  obtain ⟨sat, hrun, hsat⟩ := rotateSats_spec R hdbl hsrt
    (show 0 + count ≤ nmeaMaxSat by rw [Nat.zero_add]; exact h.le) (by omega) info.satinfo.sat
  have hturned : sat = (turned info.satinfo count (a + 5)).sat := by
    apply Vector.ext
    intro q hq
    rw [hsat q hq, turned_getElem]
    by_cases hin : q < count
    · -- the last satellite is less than two turns on
      have hlast : (q + 1) * (360 / count) ≤ count * (360 / count) :=
        Nat.mul_le_mul_right _ hin
      have hgap : 30 ≤ 360 / count := (Nat.le_div_iff_mul_le h.pos).mpr (by
        have := h.le
        omega)
      rw [Nat.succ_mul] at hlast
      have hturn : lessTurn (a % 360 + 5 + (q - 0) * (360 / count)) =
          (a + 5 + q * (360 / count)) % 360 := by
        unfold lessTurn
        rw [Nat.sub_zero]
        split <;> omega
      rw [if_pos ⟨Nat.zero_le q, by omega⟩, if_pos hin, hturn]
    · rw [if_neg (by omega), if_neg hin]
  refine ⟨utc, hutc, ?_⟩
  have hget : info.satinfo.sat.get ⟨0, nmeaMaxSat_pos⟩ = info.satinfo.sat[0] := rfl
  unfold nmeaIgenRotateLoop
  simp only [h.inview, if_pos hne, hnat, hdeg, hget, h.first, hfirst, htell, Option.bind_eq_bind,
    Option.bind_some]
  rw [hrun, hturned, ← h.inview]
  rfl

/-! ## Eight satellites -/

theorem rotatePlace_spec (R : Rounding D) {deg : D} {d : Nat} (hdeg : R.In deg d d)
    {left it s : Nat} {srt : D} (hsrt : R.In srt s s) (hfit : it + left ≤ nmeaMaxSat)
    (hsmall : s + left * d ≤ 2 ^ 20) (sat : Vector Satellite nmeaMaxSat) :
    ∃ sat', rotatePlace deg left it srt sat = some sat' ∧ ∀ q (hq : q < nmeaMaxSat),
      sat'[q] = if it ≤ q ∧ q < it + left then
        ⟨Int32.ofNat q + 1, 1, 5, Int32.ofNat (s + (q - it) * d), 80⟩ else sat[q] := by
  induction left generalizing it s srt sat with
  | zero =>
    refine ⟨sat, rfl, fun q _ => ?_⟩
    rw [if_neg (by omega)]
  | succ left ih =>
    have hlt : it < nmeaMaxSat := by omega
    have hmul : (left + 1) * d = left * d + d := Nat.succ_mul left d
    have hnext : R.In (CArith.add srt deg) (s + d : Nat) (s + d : Nat) := by
      have hadd := hsrt.add hdeg (by omega) (by omega)
      rwa [← Nat.cast_add] at hadd
    have hazimuth : CArith.toInt32 srt = Int32.ofNat s := by
      rw [hsrt.toInt32_eq (by omega) (by omega)]
      exact Int32.ofInt_eq_ofNat
    obtain ⟨sat', hrun, hsat'⟩ := ih hnext (show it + 1 + left ≤ nmeaMaxSat by omega) (by omega)
      (sat.set it ⟨Int32.ofNat it + 1, 1, 5, Int32.ofNat s, 80⟩)
    refine ⟨sat', ?_, fun q hq => ?_⟩
    · rw [rotatePlace, dif_pos hlt, hazimuth]
      exact hrun
    · rw [hsat' q hq, Vector.getElem_set]
      by_cases hqit : it = q
      · subst hqit
        rw [if_neg (by omega), if_pos rfl, if_pos (by omega), Nat.sub_self, Nat.zero_mul,
          Nat.add_zero]
      · rw [if_neg hqit]
        by_cases hin : it + 1 ≤ q ∧ q < it + 1 + left
        · rw [if_pos hin, if_pos (by omega), angle_next hin.1]
        · rw [if_neg hin, if_neg (by omega)]

/-- Eight satellites around the horizon, the first one at an angle. -/
def rotating (a : Nat) : SatInfo where
  inuse := 8
  inview := 8
  sat := Vector.ofFn fun q =>
    if q.val < 8 then ⟨Int32.ofNat q.val + 1, 1, 5, Int32.ofNat ((a + q.val * 45) % 360), 80⟩
    else {}

theorem rotating_getElem (a : Nat) {q : Nat} (hq : q < nmeaMaxSat) :
    (rotating a).sat[q] = if q < 8 then
      ⟨Int32.ofNat q + 1, 1, 5, Int32.ofNat ((a + q * 45) % 360), 80⟩ else {} := by
  unfold rotating
  rw [Vector.getElem_ofFn]

/-- A whole turn changes nothing. -/
theorem rotating_turn (a : Nat) : rotating (a + 360) = rotating a := by
  have hangle : ∀ q : Nat, (a + 360 + q * 45) % 360 = (a + q * 45) % 360 := fun q => by omega
  simp only [rotating, hangle]

theorem rotating_circling (a : Nat) : Circling (rotating a) 8 a where
  pos := by decide
  le := by decide
  inview := rfl
  first := by
    rw [rotating_getElem, if_pos (by decide), Nat.zero_mul, Nat.add_zero]

theorem turned_rotating (a b : Nat) : turned (rotating a) 8 b = rotating b := by
  have hsat : (turned (rotating a) 8 b).sat = (rotating b).sat := by
    apply Vector.ext
    intro q hq
    rw [turned_getElem, rotating_getElem, rotating_getElem]
    by_cases hin : q < 8
    · rw [if_pos hin, if_pos hin, if_pos hin]
    · rw [if_neg hin, if_neg hin, if_neg hin]
  calc turned (rotating a) 8 b
    _ = { rotating a with sat := (turned (rotating a) 8 b).sat } := rfl
    _ = { rotating a with sat := (rotating b).sat } := by rw [hsat]
    _ = rotating b := rfl

theorem rotate_reset_spec (R : Rounding D) (o : Outside) (r : Reads) (info : Info D)
    (hzero : info.satinfo.sat = Vector.replicate _ {}) :
    nmeaIgenRotateReset o r info = some (1, r, { info with satinfo := rotating 0 }) := by
  have hdeg : R.In (dbl (360 / 8)) (45 : Nat) (45 : Nat) :=
    Rounding.in_dbl (by decide) (by decide)
  have hsrt : R.In (dbl 0) (0 : Nat) (0 : Nat) := Rounding.in_dbl (by decide) (by decide)
  obtain ⟨sat, hrun, hsat⟩ := rotatePlace_spec R hdeg hsrt (show 0 + 8 ≤ nmeaMaxSat by decide)
    (by decide) info.satinfo.sat
  have hplaced : sat = (rotating 0).sat := by
    apply Vector.ext
    intro q hq
    rw [hsat q hq, rotating_getElem]
    by_cases hin : q < 8
    · have hangle : 0 + (q - 0) * 45 = (0 + q * 45) % 360 := by omega
      rw [if_pos ⟨Nat.zero_le q, by omega⟩, if_pos hin, hangle]
    · simp only [hzero]
      rw [if_neg (by omega), if_neg hin, Vector.getElem_replicate]
  unfold nmeaIgenRotateReset
  simp only [Option.bind_eq_bind]
  rw [hrun, hplaced]
  rfl

/-! ## One call after another -/

/-- So many calls of nmea_gen_loop. -/
def genLoops (h : Heap (Generator D)) (o : Outside) (gen : Option Addr) :
    Nat → Reads → Info D → Option (Reads × Info D)
  | 0, r, info => some (r, info)
  | n + 1, r, info => do
    let (_, r, info) ← nmeaGenLoop h o gen r info
    genLoops h o gen n r info

/-- A generator with the functions of SAT_ROTATE. -/
structure Turns (g : Generator D) : Prop where
  initCall : g.initCall = some nmeaIgenRotateInit
  loopCall : g.loopCall = some nmeaIgenRotateLoop

/-- With memory for it, a generator of the type SAT_ROTATE is made, on its own. -/
theorem create_turns {D : Type} [CTrig D] {env : Env} {m : GenMem D}
    {cells : List (List (GenCell D))} (hown : Owns m.heap cells)
    (hok : env.mallocOk m.mallocs = true) :
    ∃ c m', createGenerator env .satRotate m = some (entry [c], m') ∧ ChainAt m'.heap [c] ∧
      Turns c.2 := by
  obtain ⟨cs, m', hrun, hmade, hown'⟩ := createOne_owns env .satRotate hown
  obtain ⟨g, hg, hinit, hloop⟩ : ∃ g : Generator D, GenType.satRotate.generator = some g ∧
      g.initCall = some nmeaIgenRotateInit ∧ g.loopCall = some nmeaIgenRotateLoop :=
    ⟨_, rfl, rfl, rfl⟩
  simp only [madeOne, hg, if_pos hok, Prod.mk.injEq] at hmade
  obtain ⟨c, rfl, rfl⟩ := List.map_eq_singleton_iff.mp hmade.1
  refine ⟨c, m', ?_, (hown'.chain [c] List.mem_cons_self).2, hinit, hloop⟩
  unfold createGenerator
  rw [if_neg (by decide), hrun]

omit [COrder D] in
theorem alone_length {h : Heap (Generator D)} {c : GenCell D} (hc : ChainAt h [c]) :
    [c].length ≤ h.live.length :=
  Heap.Linked.length_le hc (List.nodup_singleton c.1)

section

variable {h : Heap (Generator D)} {c : GenCell D} (hc : ChainAt h [c]) (hturns : Turns c.2)

include hc hturns

theorem nmeaGenInit_turns (R : Rounding D) (o : Outside) (r : Reads) (info : Info D) :
    nmeaGenInit h o (entry [c]) r info =
      some (1, r, { genZero info with sig := 3, fix := 3, satinfo := rotating 0 }) := by
  have hreset := rotate_reset_spec R o r { genZero info with sig := 3, fix := 3 } rfl
  unfold nmeaGenInit
  rw [genInitFrom_chain hc o (alone_length hc), List.map_singleton, initAll, hturns.initCall,
    if_neg (by decide)]
  show (nmeaIgenRotateInit o r (genZero info) >>= _) = _
  unfold nmeaIgenRotateInit
  rw [hreset]
  rfl

theorem nmeaGenLoop_turns (R : Rounding D) {count a : Nat} {info : Info D}
    (hcirc : Circling info.satinfo count a) (o : Outside) (r : Reads) :
    ∃ utc, nmeaTimeNow (o.clock r.times) = some utc ∧
      nmeaGenLoop h o (entry [c]) r info = some (1, { r with times := r.times + 1 },
        { info with utc := utc, satinfo := turned info.satinfo count (a + 5) }) := by
  obtain ⟨utc, hutc, hrun⟩ := rotate_loop_spec R hcirc o r
  refine ⟨utc, hutc, ?_⟩
  unfold nmeaGenLoop
  rw [genLoopFrom_chain hc o (alone_length hc), List.map_singleton, loopAll, hturns.loopCall]
  show (nmeaIgenRotateLoop o r info >>= _) = _
  rw [hrun]
  rfl

/-- Each call goes on where the one before it stopped. -/
theorem genLoops_turned (R : Rounding D) (o : Outside) (n : Nat) {count a : Nat} (info : Info D)
    (hcirc : Circling info.satinfo count a) (r : Reads) :
    ∃ utc, nmeaTimeNow (o.clock (r.times + n)) = some utc ∧
      genLoops h o (entry [c]) (n + 1) r info = some ({ r with times := r.times + (n + 1) },
        { info with utc := utc, satinfo := turned info.satinfo count (a + 5 * (n + 1)) }) := by
  induction n generalizing a info r with
  | zero =>
    obtain ⟨utc, hutc, hrun⟩ := nmeaGenLoop_turns hc hturns R hcirc o r
    refine ⟨utc, hutc, ?_⟩
    rw [genLoops, hrun]
    rfl
  | succ n ih =>
    obtain ⟨utc₁, -, hrun⟩ := nmeaGenLoop_turns hc hturns R hcirc o r
    obtain ⟨utc, hutc, hrest⟩ := ih
      { info with utc := utc₁, satinfo := turned info.satinfo count (a + 5) }
      (hcirc.turned (a + 5)) { r with times := r.times + 1 }
    have htimes : r.times + 1 + n = r.times + (n + 1) := by omega
    have htimes' : r.times + 1 + (n + 1) = r.times + (n + 1 + 1) := by omega
    have hangle : a + 5 + 5 * (n + 1) = a + 5 * (n + 1 + 1) := by omega
    dsimp only at hutc hrest
    rw [htimes] at hutc
    rw [turned_turned, htimes', hangle] at hrest
    refine ⟨utc, hutc, ?_⟩
    rw [genLoops, hrun]
    exact hrest

end

/-- A generator of the type SAT_ROTATE, on its own: nmea_gen_init puts eight satellites around the
horizon, and after `n + 1` calls of nmea_gen_loop they have moved on by five degrees for each call.
The time is that of the last call; nothing else has changed. -/
theorem satellites_turn (R : Rounding D) {h : Heap (Generator D)} {c : GenCell D}
    (hc : ChainAt h [c]) (hturns : Turns c.2) (o : Outside) (r : Reads) (info : Info D) :
    ∃ start, nmeaGenInit h o (entry [c]) r info = some (1, r, start) ∧
      start = { genZero info with sig := 3, fix := 3, satinfo := rotating 0 } ∧
      ∀ n, ∃ utc, nmeaTimeNow (o.clock (r.times + n)) = some utc ∧
        genLoops h o (entry [c]) (n + 1) r start = some ({ r with times := r.times + (n + 1) },
          { start with utc := utc, satinfo := rotating (5 * (n + 1)) }) := by
  refine ⟨_, nmeaGenInit_turns hc hturns R o r info, rfl, fun n => ?_⟩
  obtain ⟨utc, hutc, hrun⟩ := genLoops_turned hc hturns R o n
    { genZero info with sig := 3, fix := 3, satinfo := rotating 0 } (rotating_circling 0) r
  refine ⟨utc, hutc, ?_⟩
  rw [hrun]
  dsimp only
  rw [turned_rotating, Nat.zero_add]

/-- A clock that stands still, and no random numbers. -/
def Outside.still : Outside where
  rand _ := 0
  randMax := 1
  clock _ := 1700000000
  rand_nonneg _ := by decide
  rand_le _ := by decide
  randMax_pos := by decide

/-- A real number to 52 binary digits behind the point. -/
noncomputable def roundReal (x : ℝ) : Rat := ⌊x * 2 ^ 52⌋ / 2 ^ 52

/-- math.h, with its results rounded. -/
@[reducible] noncomputable def realTrig : CTrig Rat where
  modf x := trunc x
  sin x := roundReal (Real.sin x)
  cos x := roundReal (Real.cos x)
  asin x := roundReal (Real.arcsin x)
  atan2 y x := roundReal (Complex.arg ⟨x, y⟩)
  isnan _ := false

/-- nmea_create_generator makes a generator of the type SAT_ROTATE. After 72 calls of nmea_gen_loop
the satellites are back where they were. -/
theorem satellites_turn_back :
    ∃ (gen : Addr) (m : GenMem Rat) (start : Info Rat) (utc : Time),
      @nmeaCreateGenerator Rat realTrig (.zeroed fun _ => true) .still .satRotate ⟨∅, 0⟩ {}
        Info.zeroed = some (some gen, m, {}, start) ∧
      start.satinfo = rotating 0 ∧
      genLoops m.heap .still (some gen) 72 {} start = some (⟨0, 72⟩, { start with utc := utc }) := by
  have hown : Owns (∅ : Heap (Generator Rat)) [] :=
    ⟨fun _ h => absurd h List.not_mem_nil, List.Perm.refl _⟩
  obtain ⟨c, m, hcreate, hc, hturns⟩ := @create_turns Rat realTrig
    (.zeroed fun _ => true) ⟨∅, 0⟩ [] hown rfl
  obtain ⟨start, hinit, hstart, hloops⟩ :=
    satellites_turn Rounding.rat hc hturns .still {} Info.zeroed
  obtain ⟨utc, -, hrun⟩ := hloops 71
  refine ⟨c.1, m, start, utc, ?_, by rw [hstart], ?_⟩
  · unfold nmeaCreateGenerator
    rw [hcreate]
    show (nmeaGenInit m.heap .still (entry [c]) {} Info.zeroed).bind _ = _
    rw [hinit]
    rfl
  · have hback : rotating (5 * (71 + 1)) = start.satinfo := by
      rw [hstart]
      exact rotating_turn 0
    rw [hback] at hrun
    exact hrun

end RttNmea
