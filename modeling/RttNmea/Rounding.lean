import RttNmea.Generator

/-!
# Doubles that round

What is used of the arithmetic of doubles: a result is the exact one, rounded, and rounding keeps
the order and the integers. So bounds that are integers go through every operation.
-/

namespace RttNmea

/-- The arithmetic of doubles, for values far from the largest one. `val` is that of a finite
double. -/
structure Rounding (D : Type) [COrder D] where
  finite : D → Prop
  val : D → Rat
  rnd : Rat → Rat
  mono : ∀ x y, x ≤ y → rnd x ≤ rnd y
  exact : ∀ n : Int, -2 ^ 53 ≤ n → n ≤ 2 ^ 53 → rnd n = n
  ofInt : ∀ n : Int, -2 ^ 31 ≤ n → n ≤ 2 ^ 31 → finite (dbl n) ∧ val (dbl n) = n
  add : ∀ x y, finite x → finite y → -2 ^ 53 ≤ val x + val y → val x + val y ≤ 2 ^ 53 →
    finite (CArith.add x y) ∧ val (CArith.add x y) = rnd (val x + val y)
  sub : ∀ x y, finite x → finite y → -2 ^ 53 ≤ val x - val y → val x - val y ≤ 2 ^ 53 →
    finite (CArith.sub x y) ∧ val (CArith.sub x y) = rnd (val x - val y)
  le : ∀ x y, finite x → finite y → (COrder.le x y = true ↔ val x ≤ val y)
  toInt32 : ∀ x, finite x → -2 ^ 31 < val x → val x < 2 ^ 31 →
    CArith.toInt32 x = Int32.ofInt (trunc (val x))

/-- Exact rationals round nothing. -/
def Rounding.rat : Rounding Rat where
  finite _ := True
  val x := x
  rnd x := x
  mono _ _ h := h
  exact _ _ _ := rfl
  ofInt _ _ _ := ⟨trivial, rfl⟩
  add _ _ _ _ _ _ := ⟨trivial, rfl⟩
  sub _ _ _ _ _ _ := ⟨trivial, rfl⟩
  le _ _ _ _ := decide_eq_true_iff
  toInt32 _ _ _ _ := rfl

namespace Rounding

variable {D : Type} [COrder D] (R : Rounding D)

/-- A finite double between two integers. -/
structure In (x : D) (a b : Int) : Prop where
  finite : R.finite x
  low : (a : Rat) ≤ R.val x
  high : R.val x ≤ b

variable {R} {x y : D} {a b c d : Int}

theorem In.val_eq (h : R.In x a a) : R.val x = a := le_antisymm h.high h.low

theorem in_dbl {n : Int} (hlow : -2 ^ 31 ≤ n) (hhigh : n ≤ 2 ^ 31) : R.In (dbl n) n n := by
  obtain ⟨hfinite, hval⟩ := R.ofInt n hlow hhigh
  exact ⟨hfinite, hval.ge, hval.le⟩

/-- Rounding stays between two integers. -/
theorem rnd_between {q : Rat} (ha : -2 ^ 53 ≤ a) (hb : b ≤ 2 ^ 53) (hlow : (a : Rat) ≤ q)
    (hhigh : q ≤ b) : (a : Rat) ≤ R.rnd q ∧ R.rnd q ≤ b := by
  have hab : a ≤ b := by exact_mod_cast hlow.trans hhigh
  constructor
  · rw [← R.exact a ha (hab.trans hb)]
    exact R.mono _ _ hlow
  · rw [← R.exact b (ha.trans hab) hb]
    exact R.mono _ _ hhigh

/-- The bounds as bounds of doubles. -/
theorem between_big {q : Rat} (ha : -2 ^ 53 ≤ a) (hb : b ≤ 2 ^ 53) (hlow : (a : Rat) ≤ q)
    (hhigh : q ≤ b) : -2 ^ 53 ≤ q ∧ q ≤ 2 ^ 53 := by
  have ha : (-2 ^ 53 : Rat) ≤ a := by exact_mod_cast ha
  have hb : (b : Rat) ≤ 2 ^ 53 := by exact_mod_cast hb
  exact ⟨ha.trans hlow, hhigh.trans hb⟩

theorem In.add (hx : R.In x a b) (hy : R.In y c d) (hlow : -2 ^ 53 ≤ a + c)
    (hhigh : b + d ≤ 2 ^ 53) : R.In (CArith.add x y) (a + c) (b + d) := by
  have hl : ((a + c : Int) : Rat) ≤ R.val x + R.val y := by
    push_cast
    exact add_le_add hx.low hy.low
  have hh : R.val x + R.val y ≤ (b + d : Int) := by
    push_cast
    exact add_le_add hx.high hy.high
  obtain ⟨hbig, hbig'⟩ := between_big hlow hhigh hl hh
  obtain ⟨hfinite, hval⟩ := R.add x y hx.finite hy.finite hbig hbig'
  obtain ⟨hround, hround'⟩ := rnd_between (R := R) hlow hhigh hl hh
  exact ⟨hfinite, hval ▸ hround, hval ▸ hround'⟩

theorem In.sub (hx : R.In x a b) (hy : R.In y c d) (hlow : -2 ^ 53 ≤ a - d)
    (hhigh : b - c ≤ 2 ^ 53) : R.In (CArith.sub x y) (a - d) (b - c) := by
  have hl : ((a - d : Int) : Rat) ≤ R.val x - R.val y := by
    push_cast
    exact sub_le_sub hx.low hy.high
  have hh : R.val x - R.val y ≤ (b - c : Int) := by
    push_cast
    exact sub_le_sub hx.high hy.low
  obtain ⟨hbig, hbig'⟩ := between_big hlow hhigh hl hh
  obtain ⟨hfinite, hval⟩ := R.sub x y hx.finite hy.finite hbig hbig'
  obtain ⟨hround, hround'⟩ := rnd_between (R := R) hlow hhigh hl hh
  exact ⟨hfinite, hval ▸ hround, hval ▸ hround'⟩

/-! ## Comparisons and conversions -/

theorem In.le_iff (hx : R.In x a a) (hy : R.In y c c) : COrder.le x y = true ↔ a ≤ c := by
  rw [R.le x y hx.finite hy.finite, hx.val_eq, hy.val_eq]
  exact_mod_cast Iff.rfl

theorem trunc_floor {q : Rat} (h : 0 ≤ q) : trunc q = ⌊q⌋ := by
  unfold trunc
  rw [Int.tdiv_eq_ediv_of_nonneg (Rat.num_nonneg.2 h), Rat.floor_def']

theorem trunc_neg (q : Rat) : trunc (-q) = -trunc q := by
  unfold trunc
  rw [Rat.neg_num, Rat.neg_den, Int.neg_tdiv]

theorem floor_between {q : Rat} (hlow : (a : Rat) ≤ q) (hhigh : q ≤ b) : a ≤ ⌊q⌋ ∧ ⌊q⌋ ≤ b :=
  ⟨Int.le_floor.mpr hlow, by exact_mod_cast (Int.floor_le q).trans hhigh⟩

/-- A conversion towards zero stays between two integers. -/
theorem trunc_between {q : Rat} (hlow : (a : Rat) ≤ q) (hhigh : q ≤ b) :
    a ≤ trunc q ∧ trunc q ≤ b := by
  rcases le_total 0 q with hpos | hneg
  · rw [trunc_floor hpos]
    exact floor_between hlow hhigh
  · have hq : trunc q = -⌊-q⌋ := by
      rw [← trunc_floor (neg_nonneg.mpr hneg), trunc_neg, neg_neg]
    obtain ⟨hl, hh⟩ := floor_between (a := -b) (b := -a) (q := -q)
      (by push_cast; exact neg_le_neg hhigh) (by push_cast; exact neg_le_neg hlow)
    rw [hq]
    omega

/-- The conversion to int. -/
theorem In.toInt32 (hx : R.In x a b) (hlow : -2 ^ 31 < a) (hhigh : b < 2 ^ 31) :
    a ≤ (CArith.toInt32 x).toInt ∧ (CArith.toInt32 x).toInt ≤ b := by
  have hl : (-2 ^ 31 : Rat) < R.val x := lt_of_lt_of_le (by exact_mod_cast hlow) hx.low
  have hh : R.val x < 2 ^ 31 := lt_of_le_of_lt hx.high (by exact_mod_cast hhigh)
  obtain ⟨hlow', hhigh'⟩ := trunc_between hx.low hx.high
  have hint : (Int32.ofInt (trunc (R.val x))).toInt = trunc (R.val x) :=
    Int32.toInt_ofInt_of_le (by omega) (by omega)
  rw [R.toInt32 x hx.finite hl hh, hint]
  exact ⟨hlow', hhigh'⟩

theorem In.toInt32_eq (hx : R.In x a a) (hlow : -2 ^ 31 < a) (hhigh : a < 2 ^ 31) :
    CArith.toInt32 x = Int32.ofInt a := by
  obtain ⟨hle, hge⟩ := hx.toInt32 hlow hhigh
  apply Int32.toInt_inj.mp
  rw [Int32.toInt_ofInt_of_le (by omega) (by omega)]
  omega

end Rounding

end RttNmea
