import Mathlib.Data.List.Basic

/-!
# Greedy framing of a stream

A scanner looks at the bytes a receiver holds and either waits for more or settles a
nonempty prefix, with a verdict on it. The receiver settles prefixes until the scanner
waits.

* `drain`: what one such pass settles, and what it leaves;
* `drain_append`: settling early changes nothing, so a pass over a longer input is a
  pass over its front followed by a pass over what that left;
* `feed_eq_drain`: the chunks in which a stream arrives do not matter.
-/

namespace Framing

variable {α β : Type}

/-- A decision on the front of a stream that no later input can change. -/
structure Scanner (α β : Type) where
  cut : List α → Option (Nat × β)
  pos : ∀ {xs n v}, cut xs = some (n, v) → 0 < n
  le : ∀ {xs n v}, cut xs = some (n, v) → n ≤ xs.length
  stable : ∀ {xs n v} (ys : List α), cut xs = some (n, v) → cut (xs ++ ys) = some (n, v)

variable (S : Scanner α β)

/-- Settle prefixes until the scanner waits, at most `fuel` of them. -/
def drainN : Nat → List α → List (List α × β) × List α
  | 0, xs => ([], xs)
  | fuel + 1, xs =>
    match S.cut xs with
    | none => ([], xs)
    | some (n, v) =>
      let r := drainN fuel (xs.drop n)
      ((xs.take n, v) :: r.1, r.2)

/-- The settled pieces of `xs`, each with its verdict, and the rest. -/
def drain (xs : List α) : List (List α × β) × List α := drainN S xs.length xs

variable {S}

theorem cut_drop_lt {xs : List α} {n : Nat} {v : β} (h : S.cut xs = some (n, v)) :
    (xs.drop n).length < xs.length := by
  have := S.pos h
  have := S.le h
  rw [List.length_drop]
  omega

/-- Induction along the pass: the scanner waits, or a piece is taken off. -/
theorem drain_induction {P : List α → Prop} (wait : ∀ xs, S.cut xs = none → P xs)
    (take : ∀ xs n v, S.cut xs = some (n, v) → P (xs.drop n) → P xs) (xs : List α) : P xs := by
  induction hl : xs.length using Nat.strongRecOn generalizing xs with
  | ind l ih =>
    cases h : S.cut xs with
    | none => exact wait xs h
    | some r =>
      obtain ⟨n, v⟩ := r
      exact take xs n v h (ih _ (hl ▸ cut_drop_lt h) _ rfl)

theorem drainN_enough (fuel : Nat) (xs : List α) (h : xs.length ≤ fuel) :
    drainN S fuel xs = drain S xs := by
  induction hl : xs.length using Nat.strongRecOn generalizing xs fuel with
  | ind l ih =>
    cases fuel with
    | zero =>
      have : xs = [] := List.length_eq_zero_iff.mp (by omega)
      subst this
      rfl
    | succ fuel =>
      cases hx : xs with
      | nil =>
        have hc : S.cut [] = none := by
          cases hc : S.cut [] with
          | none => rfl
          | some r =>
            have := S.pos (n := r.1) (v := r.2) hc
            have := S.le (n := r.1) (v := r.2) hc
            simp only [List.length_nil] at this
            omega
        simp [drainN, drain, hc]
      | cons x rest =>
        rw [← hx]
        obtain ⟨l', rfl⟩ : ∃ l', l = l' + 1 := ⟨rest.length, by simp [← hl, hx]⟩
        rw [drain, hl]
        simp only [drainN]
        cases hc : S.cut xs with
        | none => rfl
        | some r =>
          obtain ⟨n, v⟩ := r
          have hlt := cut_drop_lt hc
          have h₁ := ih _ (hl ▸ hlt) fuel (xs.drop n) (by omega) rfl
          have h₂ := ih _ (hl ▸ hlt) l' (xs.drop n) (by omega) rfl
          simp only [h₁, h₂]

theorem drain_wait {xs : List α} (h : S.cut xs = none) : drain S xs = ([], xs) := by
  rw [← drainN_enough (xs.length + 1) xs (Nat.le_succ _)]
  simp [drainN, h]

theorem drain_take {xs : List α} {n : Nat} {v : β} (h : S.cut xs = some (n, v)) :
    drain S xs = ((xs.take n, v) :: (drain S (xs.drop n)).1, (drain S (xs.drop n)).2) := by
  have hlt := cut_drop_lt h
  rw [← drainN_enough (xs.length + 1) xs (Nat.le_succ _), drainN]
  simp only [h]
  rw [drainN_enough _ _ (by omega)]

/-- A pass stops only where the scanner waits. -/
theorem drain_rest (xs : List α) : S.cut (drain S xs).2 = none := by
  induction xs using drain_induction (S := S) with
  | wait xs h => rw [drain_wait h]; exact h
  | take xs n v h ih => rw [drain_take h]; exact ih

/-- A pass loses nothing and invents nothing. -/
theorem drain_flatten (xs : List α) :
    ((drain S xs).1.map Prod.fst).flatten ++ (drain S xs).2 = xs := by
  induction xs using drain_induction (S := S) with
  | wait xs h => simp [drain_wait h]
  | take xs n v h ih =>
    rw [drain_take h]
    simp only [List.map_cons, List.flatten_cons, List.append_assoc, ih, List.take_append_drop]

theorem drain_length (xs : List α) :
    ((drain S xs).1.map Prod.fst).flatten.length + (drain S xs).2.length = xs.length := by
  rw [← List.length_append, drain_flatten]

/-- **Settling early changes nothing.** A pass over `xs ++ ys` settles what a pass over
`xs` settles, and then what a pass over the rest of `xs` followed by `ys` settles. -/
theorem drain_append (xs ys : List α) :
    drain S (xs ++ ys) =
      ((drain S xs).1 ++ (drain S ((drain S xs).2 ++ ys)).1,
        (drain S ((drain S xs).2 ++ ys)).2) := by
  induction xs using drain_induction (S := S) with
  | wait xs h => simp [drain_wait h]
  | take xs n v h ih =>
    have hn := S.le h
    rw [drain_take (S.stable ys h), drain_take h, List.take_append_of_le_length hn,
      List.drop_append_of_le_length hn, ih]
    simp

/-- A pass over `xs ++ ys` either leaves some of `xs` or gets through to `ys`, and goes on
from some place in it. -/
theorem drain_through (xs ys : List α) :
    (∃ zs, zs ≠ [] ∧ (drain S (xs ++ ys)).2 = zs ++ ys) ∨
      ∃ ps n, n ≤ ys.length ∧ (ps.map Prod.fst).flatten.length = xs.length + n ∧
        drain S (xs ++ ys) = (ps ++ (drain S (ys.drop n)).1, (drain S (ys.drop n)).2) := by
  induction hl : xs.length using Nat.strongRecOn generalizing xs with
  | ind l ih =>
    by_cases hnil : xs = []
    · subst hnil
      exact .inr ⟨[], 0, Nat.zero_le _, by simpa using hl, by simp⟩
    · cases hcut : S.cut (xs ++ ys) with
      | none => exact .inl ⟨xs, hnil, by rw [drain_wait hcut]⟩
      | some r =>
        obtain ⟨n, v⟩ := r
        have hpos := S.pos hcut
        have hle := S.le hcut
        rw [List.length_append] at hle
        rw [drain_take hcut]
        by_cases hn : n ≤ xs.length
        · rw [List.take_append_of_le_length hn, List.drop_append_of_le_length hn]
          have hlt : (xs.drop n).length < l := by
            have := List.length_pos_iff.mpr hnil
            rw [List.length_drop]
            omega
          rcases ih _ hlt (xs.drop n) rfl with ⟨zs, hzs, hrest⟩ | ⟨ps, m, hm, hlen, hdrain⟩
          · exact .inl ⟨zs, hzs, hrest⟩
          · refine .inr ⟨(xs.take n, v) :: ps, m, hm, ?_, by rw [hdrain]; rfl⟩
            rw [List.map_cons, List.flatten_cons, List.length_append, hlen, List.length_take,
              List.length_drop]
            omega
        · -- the piece ends inside `ys`
          have hdrop : (xs ++ ys).drop n = ys.drop (n - xs.length) := by
            rw [List.drop_append, List.drop_eq_nil_of_le (Nat.le_of_not_le hn), List.nil_append]
          refine .inr ⟨[((xs ++ ys).take n, v)], n - xs.length, by omega, ?_, by rw [hdrop]; rfl⟩
          simp only [List.map_cons, List.map_nil, List.flatten_cons, List.flatten_nil,
            List.append_nil, List.length_take, List.length_append]
          omega

/-- The pieces settled, and the bytes left over, when a stream arrives in chunks. -/
def feed (S : Scanner α β) (rest : List α) :
    List (List α) → List (List α × β) × List α
  | [] => ([], rest)
  | c :: cs =>
    let d := drain S (rest ++ c)
    let t := feed S d.2 cs
    (d.1 ++ t.1, t.2)

theorem feed_cons (rest c : List α) (cs : List (List α)) :
    feed S rest (c :: cs) = drain S (rest ++ (c :: cs).flatten) := by
  induction cs generalizing rest c with
  | nil => simp [feed]
  | cons c' cs ih =>
    rw [List.flatten_cons, ← List.append_assoc, drain_append, feed, ih]

/-- **Chunking does not matter.** However a stream is cut, the pieces settled and the
bytes left over are those of one pass over the whole. -/
theorem feed_eq_drain (rest : List α) (cs : List (List α)) (h : cs ≠ []) :
    feed S rest cs = drain S (rest ++ cs.flatten) := by
  cases cs with
  | nil => exact absurd rfl h
  | cons c cs => exact feed_cons rest c cs

end Framing
