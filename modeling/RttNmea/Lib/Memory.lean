import Mathlib.Data.List.Basic
import Mathlib.Logic.Function.Basic
import Mathlib.Algebra.Order.Ring.Int

/-!
# Memory

A memory maps the addresses that are mapped to what is there. Reading or writing at any other
address is a fault (`none`), so a run that does not fault stays inside.

`Moved` says that bytes have been copied from one place to another. Copies add up as long as
none overwrites what a later one has yet to read: the target in front of the source, or clear
of it.
-/

abbrev Memory (B : Type) := Int → Option B

namespace Memory

variable {B : Type}

/-- Nothing but these bytes, from `base` on. -/
def region (base : Int) (bytes : List B) : Memory B := fun a =>
  if base ≤ a then bytes[(a - base).toNat]? else none

/-- The `n` bytes from `a` on. -/
def read (m : Memory B) (a : Int) : Nat → Option (List B)
  | 0 => some []
  | n + 1 => do
    let b ← m a
    let bs ← m.read (a + 1) n
    return b :: bs

/-- The first address among the `n` from `a` on that holds `c`. -/
def find [DecidableEq B] (m : Memory B) (c : B) (a : Int) : Nat → Option (Option Int)
  | 0 => some none
  | n + 1 => do
    let b ← m a
    if b = c then return some a else m.find c (a + 1) n

section Read

variable {m : Memory B} {a : Int} {n : Nat} {bs : List B}

theorem read_eq_some :
    m.read a n = some bs ↔ bs.length = n ∧ ∀ i < n, m (a + i) = bs[i]? := by
  induction n generalizing a bs with
  | zero =>
    simp only [read, Option.some.injEq, Nat.not_lt_zero, false_imp_iff, implies_true, and_true]
    exact eq_comm.trans List.length_eq_zero_iff.symm
  | succ n ih =>
    have hshift : ∀ i : Nat, a + 1 + i = a + (i + 1 : Nat) := by
      intro i
      omega
    constructor
    · intro h
      obtain ⟨b, hb, rest, hrest, rfl⟩ : ∃ b, m a = some b ∧ ∃ rest, m.read (a + 1) n = some rest ∧
          b :: rest = bs := by
        simpa [read, Option.bind_eq_some_iff] using h
      obtain ⟨hlen, hat⟩ := ih.mp hrest
      refine ⟨congrArg Nat.succ hlen, fun i hi => ?_⟩
      cases i with
      | zero => simpa using hb
      | succ i =>
        rw [← hshift, hat i (Nat.lt_of_succ_lt_succ hi)]
        rfl
    · rintro ⟨hlen, hat⟩
      obtain ⟨b, rest, rfl⟩ := List.exists_cons_of_length_eq_add_one hlen
      have hb : m a = some b := by simpa using hat 0 (Nat.zero_lt_succ n)
      have hrest : m.read (a + 1) n = some rest := by
        refine ih.mpr ⟨Nat.succ.inj hlen, fun i hi => ?_⟩
        rw [hshift, hat (i + 1) (Nat.succ_lt_succ hi)]
        rfl
      simp [read, hb, hrest]

/-- Part of what is there is read as that part. -/
theorem read_part {k : Nat} (h : m.read a bs.length = some bs) (hfit : k + n ≤ bs.length) :
    m.read (a + k) n = some ((bs.drop k).take n) := by
  obtain ⟨-, hat⟩ := read_eq_some.mp h
  refine read_eq_some.mpr ⟨?_, fun i hi => ?_⟩
  · rw [List.length_take, List.length_drop]
    omega
  · have hidx : a + k + i = a + (k + i : Nat) := by omega
    rw [hidx, hat _ (by omega), List.getElem?_take, if_pos hi, List.getElem?_drop]

end Read

section Region

variable {base : Int} {bytes : List B}

theorem region_at (k : Nat) : region base bytes (base + k) = bytes[k]? := by
  have hle : base ≤ base + k := by omega
  have hk : (base + k - base).toNat = k := by omega
  rw [region, if_pos hle, hk]

theorem read_region : (region base bytes).read base bytes.length = some bytes :=
  read_eq_some.mpr ⟨rfl, fun i _ => region_at i⟩

/-- A search to the end of the region ends where the byte first is, or nowhere. -/
theorem find_region [DecidableEq B] (c : B) {k : Nat} (h : k ≤ bytes.length) :
    (region base bytes).find c (base + k) (bytes.length - k) = some
      (if c ∈ bytes.drop k then some (base + (k + (bytes.drop k).idxOf c : Nat)) else none) := by
  obtain ⟨n, hn⟩ : ∃ n, bytes.length - k = n := ⟨_, rfl⟩
  rw [hn]
  induction n generalizing k with
  | zero =>
    have hend : bytes.drop k = [] := List.drop_eq_nil_of_le (by omega)
    simp [find, hend]
  | succ n ih =>
    have hk : k < bytes.length := by omega
    have hnext : base + k + 1 = base + (k + 1 : Nat) := by omega
    rw [List.drop_eq_getElem_cons hk, find, region_at, List.getElem?_eq_getElem hk]
    by_cases hb : bytes[k] = c
    · simp [hb]
    · have hrest := ih (k := k + 1) (by omega) (by omega)
      simp only [Option.bind_eq_bind, Option.bind_some, if_neg hb, hnext, hrest,
        List.mem_cons, Ne.symm hb, false_or, List.idxOf_cons_ne _ hb]
      split
      · simp only [Option.some.injEq]
        omega
      · rfl

end Region

/-! ## Copies -/

/-- The bytes from `a` on are replaced by these. -/
def write (m : Memory B) (a : Int) : List B → Option (Memory B)
  | [] => some m
  | b :: bs => if (m a).isSome then write (Function.update m a (some b)) (a + 1) bs else none

/-- Loading `n` bytes at `src` and storing them at `dst`. -/
def copy (m : Memory B) (dst src : Int) (n : Nat) : Option (Memory B) := do
  let bs ← m.read src n
  m.write dst bs

/-- One block of `size` bytes after another, `n` of them. -/
def copyBlocks (m : Memory B) (size : Nat) (dst src : Int) : Nat → Option (Memory B)
  | 0 => some m
  | n + 1 => do
    let m ← m.copy dst src size
    m.copyBlocks size (dst + size) (src + size) n

/-- There are `n` bytes from `a` on. -/
def Mapped (m : Memory B) (a : Int) (n : Nat) : Prop :=
  ∀ i, a ≤ i → i < a + n → (m i).isSome

/-- `m'` is `m` with `n` bytes copied from `src` to `dst`. -/
def Moved (m m' : Memory B) (dst src : Int) (n : Nat) : Prop :=
  ∀ i, m' i = if dst ≤ i ∧ i < dst + n then m (src + (i - dst)) else m i

section Copy

variable {m m' m'' : Memory B} {a dst src : Int} {n k : Nat} {bs : List B}

theorem Mapped.of_read (h : m.read a n = some bs) : Mapped m a n := by
  obtain ⟨hlen, hat⟩ := read_eq_some.mp h
  intro i hlo hhi
  have hi : a + ((i - a).toNat : Nat) = i := by omega
  rw [← hi, hat _ (by omega), List.getElem?_eq_getElem (by omega)]
  rfl

theorem Mapped.read (h : Mapped m a n) : ∃ bs, m.read a n = some bs := by
  induction n generalizing a with
  | zero => exact ⟨[], rfl⟩
  | succ n ih =>
    obtain ⟨b, hb⟩ := Option.isSome_iff_exists.mp (h a (by omega) (by omega))
    obtain ⟨bs, hbs⟩ := ih (a := a + 1) fun i hlo hhi => h i (by omega) (by omega)
    exact ⟨b :: bs, by simp [Memory.read, hb, hbs]⟩

theorem Mapped.sub (h : Mapped m a n) {c : Int} (hlo : a ≤ c) (hhi : c + k ≤ a + n) :
    Mapped m c k :=
  fun i h₁ h₂ => h i (by omega) (by omega)

theorem write_some (h : Mapped m a bs.length) :
    ∃ m', m.write a bs = some m' ∧
      ∀ i, m' i = if a ≤ i ∧ i < a + bs.length then bs[(i - a).toNat]? else m i := by
  induction bs generalizing m a with
  | nil =>
    refine ⟨m, rfl, fun i => (if_neg ?_).symm⟩
    rw [List.length_nil]
    omega
  | cons b bs ih =>
    have hfirst : (m a).isSome := h a (by omega) (by rw [List.length_cons]; omega)
    have hrest : Mapped (Function.update m a (some b)) (a + 1) bs.length := by
      intro i hlo hhi
      rw [Function.update_of_ne (by omega)]
      exact h i (by omega) (by rw [List.length_cons]; omega)
    obtain ⟨m', hrun, hm'⟩ := ih hrest
    refine ⟨m', by rw [write, if_pos hfirst, hrun], fun i => ?_⟩
    rw [hm', List.length_cons]
    by_cases hi : i = a
    · subst hi
      have hout : ¬ (i + 1 ≤ i ∧ i < i + 1 + bs.length) := by omega
      have hin : i ≤ i ∧ i < i + (bs.length + 1 : Nat) := by omega
      rw [if_neg hout, if_pos hin, Function.update_self, Int.sub_self]
      rfl
    · rw [Function.update_of_ne hi]
      by_cases hin : a + 1 ≤ i ∧ i < a + 1 + bs.length
      · have hin' : a ≤ i ∧ i < a + (bs.length + 1 : Nat) := by omega
        have hidx : (i - a).toNat = (i - (a + 1)).toNat + 1 := by omega
        rw [if_pos hin, if_pos hin', hidx, List.getElem?_cons_succ]
      · have hin' : ¬ (a ≤ i ∧ i < a + (bs.length + 1 : Nat)) := by omega
        rw [if_neg hin, if_neg hin']

theorem copy_some (hsrc : Mapped m src n) (hdst : Mapped m dst n) :
    ∃ m', m.copy dst src n = some m' ∧ Moved m m' dst src n := by
  obtain ⟨bs, hread⟩ := hsrc.read
  obtain ⟨hlen, hat⟩ := read_eq_some.mp hread
  have hroom : Mapped m dst bs.length := hlen.symm ▸ hdst
  obtain ⟨m', hwrite, hm'⟩ := write_some hroom
  refine ⟨m', by simp [copy, hread, hwrite], fun i => ?_⟩
  rw [hm', hlen]
  by_cases hin : dst ≤ i ∧ i < dst + n
  · have hoff : i - dst = ((i - dst).toNat : Nat) := by omega
    rw [if_pos hin, if_pos hin, hoff, hat _ (by omega)]
    rfl
  · rw [if_neg hin, if_neg hin]

theorem Moved.refl (m : Memory B) (dst src : Int) : Moved m m dst src 0 := by
  intro i
  have hout : ¬ (dst ≤ i ∧ i < dst + (0 : Nat)) := by omega
  rw [if_neg hout]

/-- What is mapped stays mapped. -/
theorem Moved.mapped (h : Moved m m' dst src n) (hsrc : Mapped m src n) (ha : Mapped m a k) :
    Mapped m' a k := by
  intro i hlo hhi
  rw [h i]
  split
  · exact hsrc _ (by omega) (by omega)
  · exact ha i hlo hhi

/-- Copies side by side add up. -/
theorem Moved.trans (h : Moved m m' dst src n) (h' : Moved m' m'' (dst + n) (src + n) k)
    (hclear : dst ≤ src ∨ src + (n + k : Nat) ≤ dst) : Moved m m'' dst src (n + k) := by
  intro i
  rw [h' i]
  by_cases hin : dst + n ≤ i ∧ i < dst + n + k
  · have hall : dst ≤ i ∧ i < dst + (n + k : Nat) := by omega
    have hsame : src + n + (i - (dst + n)) = src + (i - dst) := by omega
    -- the second copy reads what the first has not overwritten
    have hkept : ¬ (dst ≤ src + (i - dst) ∧ src + (i - dst) < dst + n) := by omega
    rw [if_pos hin, if_pos hall, hsame, h, if_neg hkept]
  · rw [if_neg hin, h i]
    by_cases hfirst : dst ≤ i ∧ i < dst + n
    · have hall : dst ≤ i ∧ i < dst + (n + k : Nat) := by omega
      rw [if_pos hfirst, if_pos hall]
    · have hout : ¬ (dst ≤ i ∧ i < dst + (n + k : Nat)) := by omega
      rw [if_neg hfirst, if_neg hout]

/-- **Blocks copied forward are copied as one**, also onto themselves. -/
theorem copyBlocks_some {size : Nat} (hsrc : Mapped m src (n * size))
    (hdst : Mapped m dst (n * size)) (hclear : dst ≤ src ∨ src + (n * size : Nat) ≤ dst) :
    ∃ m', m.copyBlocks size dst src n = some m' ∧ Moved m m' dst src (n * size) := by
  induction n generalizing m dst src with
  | zero =>
    rw [Nat.zero_mul]
    exact ⟨m, rfl, Moved.refl m dst src⟩
  | succ n ih =>
    have hsplit : (n + 1) * size = size + n * size := by rw [Nat.succ_mul, Nat.add_comm]
    rw [hsplit] at hsrc hdst hclear ⊢
    have hsrc₁ : Mapped m src size := hsrc.sub (Int.le_refl _) (by omega)
    obtain ⟨m₁, hfirst, hmoved⟩ :=
      copy_some hsrc₁ (hdst.sub (Int.le_refl _) (by omega) : Mapped m dst size)
    have hsrc₂ : Mapped m₁ (src + size) (n * size) :=
      hmoved.mapped hsrc₁ (hsrc.sub (by omega) (by omega))
    have hdst₂ : Mapped m₁ (dst + size) (n * size) :=
      hmoved.mapped hsrc₁ (hdst.sub (by omega) (by omega))
    obtain ⟨m', hrest, hmoved'⟩ := ih hsrc₂ hdst₂ (by omega)
    exact ⟨m', by simp [copyBlocks, hfirst, hrest], hmoved.trans hmoved' hclear⟩

end Copy

end Memory
