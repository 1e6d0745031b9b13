import RttNmea.FindTail

/-!
# Sentences on the wire

A `Frame` is '$' body '*' h1 h2 CR LF. nmea_find_tail settles a whole frame at once, waits
inside one, and reports a crc only if the checksum is right.
-/

namespace RttNmea

open CText Framing

/-- The xor of all bytes. -/
def xorAll (body : List Byte) : Byte := body.foldl (· ^^^ ·) 0

structure Frame where
  body : List Byte
  h1 : Byte
  h2 : Byte
  no_dollar : dollar ∉ body
  no_star : star ∉ body
  hex1 : isDigitOf 16 h1 = true
  hex2 : isDigitOf 16 h2 = true

namespace Frame

def bytes (f : Frame) : List Byte := dollar :: f.body ++ [star, f.h1, f.h2, cr, lf]

/-- The number the two hex digits write. -/
def checksum (f : Frame) : Nat := 16 * (digitVal f.h1).getD 0 + (digitVal f.h2).getD 0

def Valid (f : Frame) : Prop := f.checksum = (xorAll f.body).toNat

instance (f : Frame) : Decidable f.Valid := inferInstanceAs (Decidable (_ = _))

def SevenBit (f : Frame) : Prop := ∀ b ∈ f.body, b < 128

instance (f : Frame) : Decidable f.SevenBit := List.decidableBAll (· < 128) f.body

/-- The crc nmea_find_tail reports. -/
def verdict (abi : Abi) (f : Frame) : Int32 :=
  if charToInt abi (xorAll f.body) = Int32.ofNat f.checksum then Int32.ofNat f.checksum else -1

theorem length_bytes (f : Frame) : f.bytes.length = f.body.length + 6 := by
  simp [bytes]

/-- A GSV sentence that announces no satellites. -/
def gsvNone : Frame where
  body := cstr "GPGSV,1,1,0"
  h1 := ascii '4'
  h2 := ascii '9'
  no_dollar := by decide
  no_star := by decide
  hex1 := by decide
  hex2 := by decide

end Frame

variable {abi : Abi}

/-! ## The crc -/

theorem charToInt_xor (a b : Byte) : charToInt abi (a ^^^ b) = charToInt abi a ^^^ charToInt abi b := by
  unfold charToInt
  split <;> simp

theorem charToInt_zero : charToInt abi 0 = 0 := by
  unfold charToInt
  split <;> rfl

theorem charToInt_injective {a b : Byte} (h : charToInt abi a = charToInt abi b) : a = b := by
  unfold charToInt at h
  split at h
  · have := congrArg (fun x => x.toInt8.toUInt8) h
    simpa using this
  · have := congrArg (fun x => x.toUInt32.toUInt8) h
    simpa using this

theorem toInt_charToInt (abi : Abi) (b : Byte) :
    (charToInt abi b).toInt =
      if abi.charSigned = true ∧ 128 ≤ b.toNat then (b.toNat : Int) - 256 else b.toNat := by
  have hb := UInt8.toNat_lt b
  unfold charToInt
  cases abi.charSigned
  · have hwide : b.toUInt32.toInt32.toInt = (b.toNat : Int).bmod (2 ^ 32) := by
      rw [← Int32.toInt_toBitVec]
      simp [BitVec.toInt_eq_toNat_bmod]
    rw [if_neg (by decide), if_neg (fun h => by cases h.1), hwide, Int.bmod_eq_of_le]
    · omega
    · omega
  · have hwide : b.toInt8.toInt = (b.toNat : Int).bmod 256 := by
      rw [← Int8.toInt_toBitVec]
      simp [BitVec.toInt_eq_toNat_bmod]
    rw [if_pos rfl, Int8.toInt_toInt32, hwide]
    unfold Int.bmod
    by_cases hhigh : 128 ≤ b.toNat
    · simp only [hhigh, and_self, ↓reduceIte]
      rw [if_neg (by omega)]
      omega
    · simp only [hhigh, and_false, ↓reduceIte]
      rw [if_pos (by omega)]
      omega

theorem charToInt_seven_bit {b : Byte} (h : b < 128) : charToInt abi b = Int32.ofNat b.toNat := by
  have table : ∀ k < 128, (UInt8.ofNat k).toInt8.toInt32 = Int32.ofNat k ∧
      (UInt8.ofNat k).toUInt32.toInt32 = Int32.ofNat k := by decide
  obtain ⟨hsigned, hunsigned⟩ := table b.toNat (UInt8.lt_iff_toNat_lt.mp h)
  rw [UInt8.ofNat_toNat] at hsigned hunsigned
  unfold charToInt
  split
  · exact hsigned
  · exact hunsigned

/-- Whatever the sign of char, the running crc is that of the xor of the bytes. -/
theorem sentenceCrc_eq (b : Byte) (body : List Byte) :
    sentenceCrc abi (b :: body) = charToInt abi (xorAll body) := by
  have shift : ∀ a : Byte, body.foldl (fun crc b => crc ^^^ charToInt abi b) (charToInt abi a) =
      charToInt abi (body.foldl (· ^^^ ·) a) := by
    induction body with
    | nil => exact fun _ => rfl
    | cons c body ih =>
      intro a
      rw [List.foldl_cons, List.foldl_cons, ← charToInt_xor, ih]
  have := shift 0
  rwa [charToInt_zero] at this

theorem xorAll_seven_bit {body : List Byte} (h : ∀ b ∈ body, b < 128) : xorAll body < 128 := by
  have keep : ∀ a : Byte, a < 128 → body.foldl (· ^^^ ·) a < 128 := by
    induction body with
    | nil => exact fun _ ha => ha
    | cons b body ih =>
      intro a ha
      rw [List.foldl_cons]
      apply ih (fun c hc => h c (List.mem_cons_of_mem _ hc))
      have hb := h b List.mem_cons_self
      rw [UInt8.lt_iff_toNat_lt] at ha hb ⊢
      rw [UInt8.toNat_xor]
      exact Nat.xor_lt_two_pow (n := 7) ha hb
  exact keep 0 (by decide)

/-- Two hex digits are read as the number they write. -/
theorem atoi_hex {h1 h2 : Byte} (hex1 : isDigitOf 16 h1 = true) (hex2 : isDigitOf 16 h2 = true) :
    nmeaAtoi abi [h1, h2] 16 =
      Int32.ofNat (16 * (digitVal h1).getD 0 + (digitVal h2).getD 0) := by
  obtain ⟨x, hx, hx16⟩ := (Option.any_eq_true _ _).mp hex1
  obtain ⟨y, hy, hy16⟩ := (Option.any_eq_true _ _).mp hex2
  have hval := strtol_hex_pair abi hx hy (of_decide_eq_true hx16) (of_decide_eq_true hy16)
  have hshort : [h1, h2].length < nmeaConvStrBuf := by simp [nmeaConvStrBuf]
  rw [nmeaAtoi, if_pos hshort, hval, hx, hy]
  exact Int32.ofInt_eq_ofNat

/-! ## What nmea_find_tail makes of a frame -/

theorem ofNat_injective {m n : Nat} (hm : m < 256) (hn : n < 256)
    (h : Int32.ofNat m = Int32.ofNat n) : m = n := by
  have := congrArg Int32.toInt h
  rw [Int32.toInt_ofNat_of_lt (by omega), Int32.toInt_ofNat_of_lt (by omega)] at this
  omega

theorem ofNat_nonneg {n : Nat} (hn : n < 256) : ¬ Int32.ofNat n < 0 := by
  intro h
  have := Int32.lt_iff_toInt_lt.mp h
  rw [Int32.toInt_ofNat_of_lt (by omega)] at this
  have h0 : (0 : Int32).toInt = 0 := rfl
  omega

theorem digitVal_lt {radix : Nat} {b : Byte} (h : isDigitOf radix b = true) :
    (digitVal b).getD 0 < radix := by
  obtain ⟨x, hx, hlt⟩ := (Option.any_eq_true _ _).mp h
  rw [hx]
  exact of_decide_eq_true hlt

theorem Frame.checksum_lt (f : Frame) : f.checksum < 256 := by
  have h1 := digitVal_lt f.hex1
  have h2 := digitVal_lt f.hex2
  unfold Frame.checksum
  omega

theorem Frame.verdict_neg (f : Frame) :
    f.verdict abi < 0 ↔ charToInt abi (xorAll f.body) ≠ Int32.ofNat f.checksum := by
  unfold Frame.verdict
  split
  · rename_i h
    exact ⟨fun hlt => absurd hlt (ofNat_nonneg f.checksum_lt), fun hn => absurd h hn⟩
  · rename_i h
    exact ⟨fun _ => h, fun _ => by decide⟩

/-- On 7-bit bodies the crc is right just when the checksum is the xor. -/
theorem Frame.valid_iff (abi : Abi) {f : Frame} (h : f.SevenBit) :
    f.Valid ↔ charToInt abi (xorAll f.body) = Int32.ofNat f.checksum := by
  have hxor := xorAll_seven_bit h
  rw [charToInt_seven_bit hxor]
  constructor
  · intro hv
    rw [hv]
  · intro heq
    have hlt := UInt8.lt_iff_toNat_lt.mp hxor
    have h128 : (128 : Byte).toNat = 128 := rfl
    exact (ofNat_injective (by omega) f.checksum_lt heq).symm

theorem Frame.quiet (f : Frame) : Quiet (dollar :: f.body) := by
  refine ⟨?_, f.no_dollar⟩
  intro hm
  rcases List.mem_cons.mp hm with h | h
  · cases h
  · exact f.no_star h

/-- A whole frame is settled whatever follows it. -/
theorem Frame.findTail (f : Frame) (ys : List Byte) :
    nmeaFindTail abi (f.bytes ++ ys) = (f.bytes.length, f.verdict abi) := by
  have hsplit : f.bytes ++ ys = (dollar :: f.body) ++ star :: f.h1 :: f.h2 :: cr :: lf :: ys := by
    simp [Frame.bytes]
  have hlen : (dollar :: f.body).length + 5 = f.bytes.length := by
    rw [f.length_bytes, List.length_cons]
  have hcheck : nmeaAtoi abi [f.h1, f.h2] 16 = Int32.ofNat f.checksum := atoi_hex f.hex1 f.hex2
  rw [hsplit, findTail_star f.quiet, findTailStar_tail, hlen, hcheck, sentenceCrc_eq,
    if_neg (ofNat_nonneg f.checksum_lt), Frame.verdict]
  by_cases heq : charToInt abi (xorAll f.body) = Int32.ofNat f.checksum
  · rw [if_neg (not_not.mpr heq.symm), if_pos heq]
  · rw [if_pos (Ne.symm heq), if_neg heq]

theorem Frame.cut (f : Frame) (ys : List Byte) :
    (tailScanner abi).cut (f.bytes ++ ys) = some (f.bytes.length, f.verdict abi) := by
  apply cut_eq_some.mpr
  refine ⟨f.findTail ys, ?_⟩
  rw [f.length_bytes]
  exact Nat.succ_ne_zero _

/-- Inside a frame nmea_find_tail waits. -/
theorem Frame.waits (f : Frame) {n : Nat} (hn : n < f.bytes.length) :
    (tailScanner abi).cut (f.bytes.take n) = none := by
  apply cut_eq_none.mpr
  rw [f.length_bytes] at hn
  by_cases hbody : n ≤ (dollar :: f.body).length
  · have htake : f.bytes.take n = (dollar :: f.body).take n :=
      List.take_append_of_le_length hbody
    have hquiet : Quiet ((dollar :: f.body).take n) := by
      have h := f.quiet
      rw [← List.take_append_drop n (dollar :: f.body)] at h
      exact h.left
    rw [htake, findTail_open hquiet]
  · obtain ⟨k, rfl⟩ : ∃ k, n = (dollar :: f.body).length + (k + 1) :=
      ⟨n - (dollar :: f.body).length - 1, by omega⟩
    have hk : k < 4 := by
      simp only [List.length_cons] at hn
      omega
    have htake : f.bytes.take ((dollar :: f.body).length + (k + 1)) =
        (dollar :: f.body) ++ star :: [f.h1, f.h2, cr, lf].take k := by
      unfold Frame.bytes
      rw [List.take_length_add_append, List.take_succ_cons]
    have hshort : ¬ TailAt ([f.h1, f.h2, cr, lf].take k) := by
      rintro ⟨a, b, ys, h⟩
      have := congrArg List.length h
      simp only [List.length_take, List.length_cons] at this
      omega
    rw [htake, findTail_star f.quiet, findTailStar_wait hshort]

/-! ## Streams of frames -/

/-- All frames are settled, one by one. -/
theorem drain_frames (abi : Abi) (frames : List Frame) (ys : List Byte) :
    drain (tailScanner abi) (frames.flatMap Frame.bytes ++ ys) =
      (frames.map (fun f => (f.bytes, f.verdict abi)) ++ (drain (tailScanner abi) ys).1,
        (drain (tailScanner abi) ys).2) := by
  induction frames with
  | nil => rfl
  | cons f frames ih =>
    rw [List.flatMap_cons, List.append_assoc, drain_take (f.cut _), List.take_left, List.drop_left,
      ih]
    rfl

/-- However much of a stream of frames has arrived, less than one frame is held back. -/
theorem held_back_lt (abi : Abi) {frames : List Frame} {bound : Nat}
    (hbound : ∀ f ∈ frames, f.bytes.length ≤ bound) {xs : List Byte}
    (hxs : xs <+: frames.flatMap Frame.bytes) :
    (drain (tailScanner abi) xs).2 = [] ∨ (drain (tailScanner abi) xs).2.length < bound := by
  induction frames generalizing xs with
  | nil =>
    have hnil : xs = [] := List.prefix_nil.mp hxs
    subst hnil
    exact .inl rfl
  | cons f frames ih =>
    rw [List.flatMap_cons] at hxs
    by_cases hlt : xs.length < f.bytes.length
    · right
      have htake : xs = f.bytes.take xs.length := by
        have := List.prefix_iff_eq_take.mp hxs
        rwa [List.take_append_of_le_length (Nat.le_of_lt hlt)] at this
      have hwait : (tailScanner abi).cut xs = none := htake ▸ f.waits hlt
      rw [drain_wait hwait]
      exact Nat.lt_of_lt_of_le hlt (hbound f List.mem_cons_self)
    · obtain ⟨zs, rfl⟩ := List.prefix_of_prefix_length_le (List.prefix_append _ _) hxs
        (Nat.not_lt.mp hlt)
      have hzs : zs <+: frames.flatMap Frame.bytes := (List.prefix_append_right_inj _).mp hxs
      have := ih (fun g hg => hbound g (List.mem_cons_of_mem _ hg)) hzs
      rw [drain_take (f.cut zs), List.drop_left]
      exact this

end RttNmea
