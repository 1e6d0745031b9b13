import Mathlib.Data.List.FinRange

/-!
# What a computation yields

A property of the result of a computation with a state, whatever the state is that it starts in.
It suits computations that read a state which nothing is known about, such as random numbers.
-/

namespace Yield

variable {σ α β : Type}

/-- Every result of the computation has the property. -/
def Yields (m : StateM σ α) (P : α → Prop) : Prop := ∀ s, P (m s).1

theorem Yields.pure {P : α → Prop} {a : α} (h : P a) : Yields (pure a : StateM σ α) P :=
  fun _ => h

theorem Yields.bind {m : StateM σ α} {f : α → StateM σ β} {P : α → Prop} {Q : β → Prop}
    (hm : Yields m P) (hf : ∀ a, P a → Yields (f a) Q) : Yields (m >>= f) Q :=
  fun s => hf (m s).1 (hm s) (m s).2

/-- A loop over a list: the invariant knows how many elements are done. -/
theorem Yields.foldlM {f : β → α → StateM σ β} {l : List α} {b : β} (I : Nat → β → Prop)
    (hstep : ∀ i (hi : i < l.length) b, I i b → Yields (f b l[i]) (I (i + 1))) (h : I 0 b) :
    Yields (l.foldlM f b) (I l.length) := by
  induction l generalizing b I with
  | nil => exact .pure h
  | cons a l ih =>
    rw [List.foldlM_cons]
    refine (hstep 0 (Nat.succ_pos _) b h).bind fun b' hb' => ?_
    exact ih (fun i => I (i + 1)) (fun i hi => hstep (i + 1) (Nat.succ_lt_succ hi)) hb'

end Yield
