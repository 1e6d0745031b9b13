import RttNmea.Refinement
import RttNmea.Lib.Memory

/-!
# rt_memcpy

The forward copy of kservice.c: whole `long`s where both pointers are aligned and there is
enough to copy, four of them at a time, and single bytes otherwise. It moves the bytes as
`copyTo` and `copyDown` do on the byte buffer, also where source and target overlap.
-/

namespace RttNmea

open CText

/-- sizeof (long), LITTLEBLOCKSIZE. -/
def sizeofLong (abi : Abi) : Nat := abi.longBits / 8

/-- UNALIGNED, for one of the pointers. sizeof (long) is a power of two. -/
def aligned (abi : Abi) (a : Int) : Bool := a % sizeofLong abi = 0

/-- `while (len >= longs * sizeof (long))`, copying that many longs a turn: the memory, the
pointers and the length behind it. -/
def copyLongs (abi : Abi) (longs : Nat) :
    Nat → Memory Byte → Int → Int → Nat → Option (Memory Byte × Int × Int × Nat)
  | 0, _, _, _, _ => none
  | fuel + 1, m, dst, src, len =>
    let block := longs * sizeofLong abi
    if len < block then some (m, dst, src, len)
    else do
      let m ← m.copyBlocks (sizeofLong abi) dst src longs
      copyLongs abi longs fuel m (dst + block) (src + block) (len - block)

/-- rt_memcpy. -/
def rtMemcpy (abi : Abi) (m : Memory Byte) (dst src : Int) (count : Nat) : Option (Memory Byte) :=
  if 4 * sizeofLong abi ≤ count ∧ aligned abi src = true ∧ aligned abi dst = true then do
    let (m, dst, src, len) ← copyLongs abi 4 (count + 1) m dst src count
    let (m, dst, src, len) ← copyLongs abi 1 (len + 1) m dst src len
    m.copyBlocks 1 dst src len
  else m.copyBlocks 1 dst src count

section Memcpy

variable {m : Memory Byte} {dst src : Int} {len : Nat}

theorem sizeofLong_pos (abi : Abi) : 0 < sizeofLong abi := by
  have hbits := abi.longBits_ge
  unfold sizeofLong
  omega

/-- The loop copies a front part, and leaves the pointers behind it. -/
theorem copyLongs_some (abi : Abi) {longs fuel : Nat} (hlongs : 0 < longs) (hfuel : len < fuel)
    (hsrc : m.Mapped src len) (hdst : m.Mapped dst len)
    (hclear : dst ≤ src ∨ src + len ≤ dst) :
    ∃ m' n, copyLongs abi longs fuel m dst src len =
        some (m', dst + (n : Nat), src + (n : Nat), len - n) ∧ n ≤ len ∧
      m.Moved m' dst src n := by
  have hblock : 0 < longs * sizeofLong abi := Nat.mul_pos hlongs (sizeofLong_pos abi)
  induction fuel generalizing m dst src len with
  | zero => exact absurd hfuel (Nat.not_lt_zero _)
  | succ fuel ih =>
    unfold copyLongs
    generalize hsize : longs * sizeofLong abi = block at hblock ih
    by_cases hlen : len < block
    · refine ⟨m, 0, ?_, Nat.zero_le _, Memory.Moved.refl m dst src⟩
      simp [hlen]
    · have hsrc₁ : m.Mapped src block := hsrc.sub (Int.le_refl _) (by omega)
      have hdst₁ : m.Mapped dst block := hdst.sub (Int.le_refl _) (by omega)
      have hclear₁ : dst ≤ src ∨ src + block ≤ dst := by omega
      rw [← hsize] at hsrc₁ hdst₁ hclear₁
      obtain ⟨m₁, hcopy, hmoved⟩ := Memory.copyBlocks_some hsrc₁ hdst₁ hclear₁
      rw [hsize] at hsrc₁ hmoved
      have hsrc₂ : m₁.Mapped (src + block) (len - block) :=
        hmoved.mapped hsrc₁ (hsrc.sub (by omega) (by omega))
      have hdst₂ : m₁.Mapped (dst + block) (len - block) :=
        hmoved.mapped hsrc₁ (hdst.sub (by omega) (by omega))
      obtain ⟨m', n, hrun, hn, hmoved'⟩ := ih (by omega) hsrc₂ hdst₂ (by omega)
      refine ⟨m', block + n, ?_, by omega, hmoved.trans hmoved' (by omega)⟩
      simp only [if_neg hlen, hcopy, Option.bind_eq_bind, Option.bind_some, hrun]
      simp only [Option.some.injEq, Prod.mk.injEq, true_and]
      omega

/-- **rt_memcpy moves the bytes**, if the target is in front of the source or clear of it. -/
theorem rtMemcpy_some (abi : Abi) (hsrc : m.Mapped src len) (hdst : m.Mapped dst len)
    (hclear : dst ≤ src ∨ src + len ≤ dst) :
    ∃ m', rtMemcpy abi m dst src len = some m' ∧ m.Moved m' dst src len := by
  have bytes : ∀ {m : Memory Byte} {dst src : Int} {len : Nat}, m.Mapped src len →
      m.Mapped dst len → (dst ≤ src ∨ src + len ≤ dst) →
      ∃ m', m.copyBlocks 1 dst src len = some m' ∧ m.Moved m' dst src len := by
    intro m dst src len hsrc hdst hclear
    rw [← Nat.mul_one len] at hsrc hdst hclear
    obtain ⟨m', hcopy, hmoved⟩ := Memory.copyBlocks_some hsrc hdst hclear
    rw [Nat.mul_one] at hmoved
    exact ⟨m', hcopy, hmoved⟩
  unfold rtMemcpy
  split
  · obtain ⟨m₁, n₁, hfours, hn₁, hmoved₁⟩ :=
      copyLongs_some abi (by decide : 0 < 4) (Nat.lt_succ_self len) hsrc hdst hclear
    have hsrc₁ : m.Mapped src n₁ := hsrc.sub (Int.le_refl _) (by omega)
    have hsrcRest : m₁.Mapped (src + n₁) (len - n₁) :=
      hmoved₁.mapped hsrc₁ (hsrc.sub (by omega) (by omega))
    have hdstRest : m₁.Mapped (dst + n₁) (len - n₁) :=
      hmoved₁.mapped hsrc₁ (hdst.sub (by omega) (by omega))
    obtain ⟨m₂, n₂, hones, hn₂, hmoved₂⟩ := copyLongs_some abi Nat.one_pos
      (Nat.lt_succ_self (len - n₁)) hsrcRest hdstRest (by omega)
    have hmoved₁₂ := hmoved₁.trans hmoved₂ (by omega)
    have hsrc₂ : m.Mapped src (n₁ + n₂) := hsrc.sub (Int.le_refl _) (by omega)
    have hsrcLast : m₂.Mapped (src + (n₁ + n₂ : Nat)) (len - n₁ - n₂) :=
      hmoved₁₂.mapped hsrc₂ (hsrc.sub (by omega) (by omega))
    have hdstLast : m₂.Mapped (dst + (n₁ + n₂ : Nat)) (len - n₁ - n₂) :=
      hmoved₁₂.mapped hsrc₂ (hdst.sub (by omega) (by omega))
    obtain ⟨m₃, hrest, hmoved₃⟩ := bytes hsrcLast hdstLast (by omega)
    have hall : n₁ + n₂ + (len - n₁ - n₂) = len := by omega
    have hmoved := hmoved₁₂.trans hmoved₃ (by omega)
    rw [hall] at hmoved
    refine ⟨m₃, ?_, hmoved⟩
    have hdst₂ : dst + n₁ + n₂ = dst + (n₁ + n₂ : Nat) := by omega
    have hsrc₃ : src + n₁ + n₂ = src + (n₁ + n₂ : Nat) := by omega
    simp only [hfours, hones, Option.bind_eq_bind, Option.bind_some, hdst₂, hsrc₃, hrest]
  · exact bytes hsrc hdst hclear

end Memcpy

/-! ## On the byte buffer -/

section Buffer

variable {m m' : Memory Byte} {base : Int} {mem : List Byte}

/-- rt_memcpy into the buffer does what `copyTo` does. -/
theorem moved_copyTo {off : Nat} {src : Int} {bytes mem' : List Byte}
    (hmem : m.read base mem.length = some mem) (hbytes : m.read src bytes.length = some bytes)
    (hcopy : copyTo mem off bytes = some mem')
    (hmoved : m.Moved m' (base + off) src bytes.length) :
    m'.read base mem'.length = some mem' := by
  obtain ⟨-, hmem⟩ := Memory.read_eq_some.mp hmem
  obtain ⟨-, hbytes⟩ := Memory.read_eq_some.mp hbytes
  obtain ⟨hfit, hmem'⟩ := Option.ite_none_right_eq_some.mp hcopy
  obtain rfl := Option.some.inj hmem'
  have hfront : (mem.take off ++ bytes).length = off + bytes.length := by
    rw [List.length_append, List.length_take]
    omega
  have hoff : (mem.take off).length = off := by
    rw [List.length_take]
    omega
  refine Memory.read_eq_some.mpr ⟨rfl, fun i hi => ?_⟩
  rw [List.length_append, hfront, List.length_drop] at hi
  rw [hmoved]
  by_cases hbefore : i < off
  · have hout : ¬ (base + off ≤ base + i ∧ base + i < base + off + bytes.length) := by omega
    rw [if_neg hout, hmem i (by omega), List.getElem?_append_left (by omega),
      List.getElem?_append_left (by omega), List.getElem?_take, if_pos hbefore]
  · by_cases hin : i < off + bytes.length
    · have hin' : base + off ≤ base + i ∧ base + i < base + off + bytes.length := by omega
      have hidx : src + (base + i - (base + off)) = src + (i - off : Nat) := by omega
      rw [if_pos hin', hidx, hbytes _ (by omega), List.getElem?_append_left (by omega),
        List.getElem?_append_right (by omega), hoff]
    · have hout : ¬ (base + off ≤ base + i ∧ base + i < base + off + bytes.length) := by omega
      have hidx : off + bytes.length + (i - (off + bytes.length)) = i := by omega
      rw [if_neg hout, hmem i (by omega), List.getElem?_append_right (by omega), hfront,
        List.getElem?_drop, hidx]

/-- rt_memcpy to the front of the buffer does what `copyDown` does. -/
theorem moved_copyDown {off n : Nat} (hmem : m.read base mem.length = some mem)
    (hfit : off + n ≤ mem.length) (hmoved : m.Moved m' base (base + off) n) :
    m'.read base mem.length = some (copyDown mem off n) := by
  obtain ⟨-, hmem⟩ := Memory.read_eq_some.mp hmem
  have hfront : ((mem.drop off).take n).length = n := by
    rw [List.length_take, List.length_drop]
    omega
  refine Memory.read_eq_some.mpr ⟨copyDown_length mem off n hfit, fun i hi => ?_⟩
  rw [hmoved, copyDown]
  by_cases hin : i < n
  · have hin' : base ≤ base + i ∧ base + i < base + n := by omega
    have hidx : base + off + (base + i - base) = base + (off + i : Nat) := by omega
    rw [if_pos hin', hidx, hmem _ (by omega), List.getElem?_append_left (by omega),
      List.getElem?_take, if_pos hin, List.getElem?_drop]
  · have hout : ¬ (base ≤ base + i ∧ base + i < base + n) := by omega
    have hidx : n + (i - n) = i := by omega
    rw [if_neg hout, hmem i hi, List.getElem?_append_right (by omega), hfront, List.getElem?_drop,
      hidx]

end Buffer

end RttNmea
