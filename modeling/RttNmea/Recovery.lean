import RttNmea.Once
import RttNmea.Resync

/-!
# Recovery

Whatever the buffer holds, either the stream lets it be settled or the buffer fills up and is
dropped. Both happen before the stream is 1024 bytes long. From then on less than a frame is
held back, so nothing is dropped any more, and a frame that starts later is settled as it is.
-/

namespace RttNmea

open CText Framing

variable {D : Type} [CDouble D] {env : Env} {abi : Abi}

/-- The frames of a stream with the places they start at, the first at `o`. -/
def frameOffsets (o : Nat) : List Frame → List (Nat × Frame)
  | [] => []
  | f :: fs => (o, f) :: frameOffsets (o + f.bytes.length) fs

/-- The checksum is right, and the field parser accepts the frame when it is called after `k`
calls of rt_malloc. -/
def Frame.AcceptedAt (env : Env) (k : Nat) (f : Frame) (packet : Packet D) : Prop :=
  f.Valid ∧ ∃ ok, ok ≠ 0 ∧
    parsePack env.abi (env.stack k) (nmeaPackType (f.bytes.drop 1)) f.bytes = some (ok, packet)

/-- The crc the code computes is the xor of the body: as a signed char, a xor from 128 on would
make it negative. -/
def Frame.CrcIsXor (abi : Abi) (f : Frame) : Prop := abi.charSigned = true → xorAll f.body < 128

/-- What is left of a frame, or of none of them, when framing starts inside it. -/
def Fragment (frames : List Frame) (x : List Byte) : Prop :=
  x = [] ∨ ∃ f ∈ frames, ∃ n, 0 < n ∧ x = f.bytes.drop n

theorem length_bytes_pos (f : Frame) : 0 < f.bytes.length := by
  rw [f.length_bytes]
  exact Nat.succ_pos _

/-! ## Places -/

theorem frameOffsets_bounds {o : Nat} {frames : List Frame} {e : Nat × Frame}
    (he : e ∈ frameOffsets o frames) :
    o ≤ e.1 ∧ e.1 < o + (frames.flatMap Frame.bytes).length := by
  induction frames generalizing o with
  | nil => cases he
  | cons f fs ih =>
    have hpos := length_bytes_pos f
    rw [List.flatMap_cons, List.length_append]
    rcases List.mem_cons.mp he with rfl | he
    · dsimp only
      omega
    · have := ih he
      omega

/-- Framing that starts inside a stream first meets a fragment, then the frames behind it. -/
theorem frameOffsets_split {frames : List Frame} (a : Nat) {o : Nat}
    (ho : o ≤ (frames.flatMap Frame.bytes).length) :
    ∃ x rest before, Fragment frames x ∧
      (frames.flatMap Frame.bytes).drop o = x ++ rest.flatMap Frame.bytes ∧
      frameOffsets a frames = before ++ frameOffsets (a + o + x.length) rest ∧
      (∀ e ∈ before, e.1 < a + o) ∧ ∀ f ∈ rest, f ∈ frames := by
  induction frames generalizing a o with
  | nil =>
    have h0 : o = 0 := Nat.le_zero.mp ho
    subst h0
    exact ⟨[], [], [], .inl rfl, rfl, rfl, fun e he => absurd he List.not_mem_nil, fun f hf => hf⟩
  | cons f fs ih =>
    by_cases h0 : o = 0
    · subst h0
      exact ⟨[], f :: fs, [], .inl rfl, rfl, rfl, fun e he => absurd he List.not_mem_nil,
        fun g hg => hg⟩
    · rw [List.flatMap_cons] at ho ⊢
      by_cases hlt : o < f.bytes.length
      · have hlen : o + (f.bytes.drop o).length = f.bytes.length := by
          rw [List.length_drop]
          omega
        refine ⟨f.bytes.drop o, fs, [(a, f)], .inr ⟨f, List.mem_cons_self, o, by omega, rfl⟩, ?_, ?_, ?_,
          fun g hg => List.mem_cons_of_mem _ hg⟩
        · exact List.drop_append_of_le_length (Nat.le_of_lt hlt)
        · rw [Nat.add_assoc, hlen]
          rfl
        · intro e he
          rw [List.mem_singleton.mp he]
          dsimp only
          omega
      · have hge := Nat.not_lt.mp hlt
        have ho' : o - f.bytes.length ≤ (fs.flatMap Frame.bytes).length := by
          rw [List.length_append] at ho
          omega
        obtain ⟨x, rest, before, hx, hdrop, hoffsets, hbefore, hrest⟩ :=
          ih (a + f.bytes.length) ho'
        have hplace : a + f.bytes.length + (o - f.bytes.length) = a + o := by omega
        rw [hplace] at hoffsets hbefore
        refine ⟨x, rest, (a, f) :: before, ?_, ?_, ?_, ?_,
          fun g hg => List.mem_cons_of_mem _ (hrest g hg)⟩
        · rcases hx with hx | ⟨g, hg, hx⟩
          · exact .inl hx
          · exact .inr ⟨g, List.mem_cons_of_mem _ hg, hx⟩
        · rw [List.drop_append, List.drop_eq_nil_of_le hge, List.nil_append, hdrop]
        · rw [frameOffsets, hoffsets]
          rfl
        · intro e he
          rcases List.mem_cons.mp he with rfl | he
          · dsimp only
            omega
          · exact hbefore e he

/-! ## What becomes of a fragment -/

/-- A fragment with its '*' is settled at its own tail, another one holds nothing to stop at. -/
theorem fragment_cases {frames : List Frame} {x : List Byte} (hx : Fragment frames x) :
    Quiet x ∨ ∀ ys, ∃ crc, (tailScanner abi).cut (x ++ ys) = some (x.length, crc) := by
  rcases hx with rfl | ⟨f, -, n, hn, rfl⟩
  · exact .inl quiet_nil
  · obtain ⟨m, rfl⟩ : ∃ m, n = m + 1 := ⟨n - 1, by omega⟩
    have hdrop : f.bytes.drop (m + 1) = (f.body ++ [star, f.h1, f.h2, cr, lf]).drop m := by
      unfold Frame.bytes
      rw [List.cons_append, List.drop_succ_cons]
    rw [hdrop]
    by_cases hm : m ≤ f.body.length
    · right
      intro ys
      rw [List.drop_append_of_le_length hm]
      have hq : Quiet (f.body.drop m) :=
        ⟨fun h => f.no_star (List.mem_of_mem_drop h),
          fun h => f.no_dollar (List.mem_of_mem_drop (List.mem_of_mem_tail h))⟩
      have hcheck := @atoi_hex abi f.h1 f.h2 f.hex1 f.hex2
      have hnonneg : ¬ nmeaAtoi abi [f.h1, f.h2] 16 < 0 := by
        rw [hcheck]
        exact ofNat_nonneg f.checksum_lt
      have hlen : (f.body.drop m ++ [star, f.h1, f.h2, cr, lf]).length =
          (f.body.drop m).length + 5 := by
        rw [List.length_append]
        rfl
      have htail : ∃ crc, nmeaFindTail abi ((f.body.drop m ++ [star, f.h1, f.h2, cr, lf]) ++ ys) =
          ((f.body.drop m).length + 5, crc) := by
        rw [List.append_assoc]
        show ∃ crc, nmeaFindTail abi (f.body.drop m ++ star :: f.h1 :: f.h2 :: cr :: lf :: ys) =
          ((f.body.drop m).length + 5, crc)
        rw [findTail_star hq, findTailStar_tail, if_neg hnonneg]
        split
        · exact ⟨_, rfl⟩
        · exact ⟨_, rfl⟩
      obtain ⟨crc, htail⟩ := htail
      refine ⟨crc, cut_eq_some.mpr ⟨?_, ?_⟩⟩
      · rw [htail, hlen]
      · rw [hlen]
        exact Nat.succ_ne_zero _
    · left
      have hshort : (f.body ++ [star, f.h1, f.h2, cr, lf]).drop m =
          [f.h1, f.h2, cr, lf].drop (m - f.body.length - 1) := by
        obtain ⟨j, hj⟩ : ∃ j, m - f.body.length = j + 1 := ⟨m - f.body.length - 1, by omega⟩
        rw [List.drop_append, List.drop_eq_nil_of_le (Nat.le_of_not_le hm), List.nil_append, hj,
          List.drop_succ_cons, Nat.add_sub_cancel]
      have hplain : ∀ b, isDigitOf 16 b = true → b ≠ star ∧ b ≠ dollar := by
        intro b hb
        constructor
        · rintro rfl
          exact absurd hb (by decide)
        · rintro rfl
          exact absurd hb (by decide)
      have h1 := hplain _ f.hex1
      have h2 := hplain _ f.hex2
      have hcr : cr ≠ star ∧ cr ≠ dollar := by decide
      have hlf : lf ≠ star ∧ lf ≠ dollar := by decide
      have hmem : ∀ b ∈ [f.h1, f.h2, cr, lf], b ≠ star ∧ b ≠ dollar := by
        simp only [List.mem_cons, List.not_mem_nil, or_false]
        rintro b (rfl | rfl | rfl | rfl)
        · exact h1
        · exact h2
        · exact hcr
        · exact hlf
      rw [hshort]
      exact ⟨fun h => (hmem _ (List.mem_of_mem_drop h)).1 rfl,
        fun h => (hmem _ (List.mem_of_mem_drop (List.mem_of_mem_tail h))).2 rfl⟩

/-- A fragment makes at most one piece, and the frames behind it one each. -/
theorem drain_fragment (abi : Abi) {frames rest : List Frame} {x : List Byte}
    (hx : Fragment frames x) :
    ∃ px held, drain (tailScanner abi) (x ++ rest.flatMap Frame.bytes) =
        (px ++ rest.map (fun f => (f.bytes, f.verdict abi)), held) ∧
      px.length ≤ 1 ∧ (rest ≠ [] → span px = x.length) := by
  have hframes := drain_frames abi rest []
  rw [List.append_nil] at hframes
  have hwhole : ∀ crc, (tailScanner abi).cut (x ++ rest.flatMap Frame.bytes) = some (x.length, crc) →
      ∃ px held, drain (tailScanner abi) (x ++ rest.flatMap Frame.bytes) =
          (px ++ rest.map (fun f => (f.bytes, f.verdict abi)), held) ∧
        px.length ≤ 1 ∧ (rest ≠ [] → span px = x.length) := by
    intro crc hcut
    refine ⟨[(x, crc)], [], ?_, le_rfl, fun _ => by simp [span]⟩
    have hempty : drain (tailScanner abi) [] = ([], []) := rfl
    rw [drain_take hcut, List.take_left, List.drop_left, hframes, hempty, List.append_nil]
    rfl
  rcases @fragment_cases abi _ _ hx with hq | hcut
  · by_cases hnil : x = []
    · subst hnil
      have hempty : drain (tailScanner abi) [] = ([], []) := rfl
      refine ⟨[], [], ?_, Nat.zero_le _, fun _ => rfl⟩
      rw [List.nil_append, hframes, hempty, List.append_nil]
      rfl
    · cases rest with
      | nil =>
        refine ⟨[], x, ?_, Nat.zero_le _, fun h => absurd rfl h⟩
        have hwait : (tailScanner abi).cut x = none := cut_eq_none.mpr (by rw [findTail_open hq])
        rw [List.flatMap_nil, List.append_nil, drain_wait hwait]
        rfl
      | cons f fs =>
        refine hwhole (-1) (cut_eq_some.mpr ⟨?_, fun h => hnil (List.length_eq_zero_iff.mp h)⟩)
        have hfirst : (f :: fs).flatMap Frame.bytes =
            dollar :: (f.body ++ [star, f.h1, f.h2, cr, lf] ++ fs.flatMap Frame.bytes) := rfl
        rw [hfirst, findTail_dollar hq hnil]
  · obtain ⟨crc, hcut⟩ := hcut (rest.flatMap Frame.bytes)
    exact hwhole crc hcut

/-- While the fragment and the frames behind it come in, less than one frame is held back. -/
theorem held_fragment (abi : Abi) {frames rest : List Frame} {x : List Byte}
    (hx : Fragment frames x) {bound : Nat} (hlen : ∀ f ∈ frames, f.bytes.length ≤ bound)
    (hrest : ∀ f ∈ rest, f ∈ frames) {xs : List Byte} (hxs : xs <+: x ++ rest.flatMap Frame.bytes) :
    (drain (tailScanner abi) xs).2 = [] ∨ (drain (tailScanner abi) xs).2.length < bound := by
  have hbound : x = [] ∨ x.length < bound := by
    rcases hx with hx | ⟨f, hf, n, hn, rfl⟩
    · exact .inl hx
    · right
      have := hlen f hf
      have := length_bytes_pos f
      rw [List.length_drop]
      omega
  have hle : (drain (tailScanner abi) xs).2.length ≤ xs.length := by
    have := drain_length (S := tailScanner abi) xs
    omega
  have hrestlen : ∀ f ∈ rest, f.bytes.length ≤ bound := fun f hf => hlen f (hrest f hf)
  by_cases hxnil : x = []
  · subst hxnil
    exact held_back_lt abi hrestlen hxs
  · have hxlt := hbound.resolve_left hxnil
    by_cases hshort : xs.length ≤ x.length
    · exact .inr (by omega)
    · obtain ⟨zs, rfl⟩ := List.prefix_of_prefix_length_le (List.prefix_append _ _) hxs
        (Nat.le_of_not_le hshort)
      have hzs : zs <+: rest.flatMap Frame.bytes := (List.prefix_append_right_inj _).mp hxs
      have hcut : ∃ crc, (tailScanner abi).cut (x ++ zs) = some (x.length, crc) := by
        rcases @fragment_cases abi _ _ hx with hq | hcut
        · -- the byte behind the fragment is a '$'
          cases zs with
          | nil => simp at hshort
          | cons b zs =>
            cases rest with
            | nil => cases List.prefix_nil.mp hzs
            | cons f fs =>
              have hb : b = dollar := (List.cons_prefix_cons.mp hzs).1
              subst hb
              exact ⟨-1, cut_eq_some.mpr ⟨findTail_dollar hq hxnil zs,
                fun h => hxnil (List.length_eq_zero_iff.mp h)⟩⟩
        · exact hcut zs
      obtain ⟨crc, hcut⟩ := hcut
      rw [drain_take hcut, List.drop_left]
      exact held_back_lt abi hrestlen hzs

/-! ## What the frames yield -/

/-- The first piece of a row yields its packet, if it has one, and the others follow. -/
theorem harvest_head (hm : env.MallocSucceeds) (k : Nat) (pos : Int) (sentence : List Byte)
    (crc : Int32) (pieces : List (List Byte × Int32)) :
    ∃ k' head, (harvest env k pos ((sentence, crc) :: pieces) : Harvest D).accepted =
        head ++ (harvest env k' (pos + sentence.length) pieces).accepted ∧
      ∀ e, e ∈ head ↔ ¬ crc < 0 ∧ e.1 = pos ∧ outcome env k sentence = .accepted e.2 := by
  rw [harvest]
  by_cases hcrc : crc < 0
  · rw [if_pos hcrc]
    refine ⟨k, [], rfl, fun e => ⟨fun he => absurd he List.not_mem_nil, fun he => absurd hcrc he.1⟩⟩
  · rw [if_neg hcrc]
    cases ho : (outcome env k sentence : Outcome D) with
    | memFail =>
      rcases outcome_memFail ho with hk | ⟨-, hk, -⟩
      · cases (hm k).symm.trans hk
      · cases (hm (k + 1)).symm.trans hk
    | ignored =>
      exact ⟨_, [], rfl, fun e => ⟨fun he => absurd he List.not_mem_nil, fun he => by cases he.2.2⟩⟩
    | rejected =>
      exact ⟨_, [], rfl, fun e => ⟨fun he => absurd he List.not_mem_nil, fun he => by cases he.2.2⟩⟩
    | accepted packet =>
      refine ⟨_, [(pos, packet)], rfl, fun e => ?_⟩
      rw [List.mem_singleton]
      constructor
      · rintro rfl
        exact ⟨hcrc, rfl, rfl⟩
      · rintro ⟨-, hpos, he⟩
        injection he with he
        exact Prod.ext hpos he.symm

/-- **A row of frames yields the packet of each frame that is accepted** and whose crc the code
gets right, at its place, and nothing else. -/
theorem harvest_frames (hm : env.MallocSucceeds) (k : Nat) (base : Int) (o : Nat)
    (frames : List Frame) :
    let h : Harvest D :=
      harvest env k (base + o) (frames.map fun f => (f.bytes, f.verdict env.abi))
    (∀ e ∈ frameOffsets o frames, ∃ k', ∀ packet, (base + e.1, packet) ∈ h.accepted ↔
      e.2.AcceptedAt env k' packet ∧ e.2.CrcIsXor env.abi) ∧
    ∀ e ∈ h.accepted, ∃ e' ∈ frameOffsets o frames, e.1 = base + e'.1 := by
  induction frames generalizing k o with
  | nil => exact ⟨fun e he => absurd he List.not_mem_nil, fun e he => absurd he List.not_mem_nil⟩
  | cons f fs ih =>
    obtain ⟨k₁, head, hsplit, hhead⟩ := @harvest_head D _ env hm k (base + o) f.bytes
      (f.verdict env.abi) (fs.map fun f => (f.bytes, f.verdict env.abi))
    have hplace : base + (o : Int) + f.bytes.length = base + ((o + f.bytes.length : Nat) : Int) := by
      push_cast
      omega
    rw [hplace] at hsplit
    obtain ⟨hframes, hplaces⟩ := ih k₁ (o + f.bytes.length)
    have hlater := (@harvest_offsets D _ env k₁ (base + ((o + f.bytes.length : Nat) : Int))
      (fs.map fun f => (f.bytes, f.verdict env.abi))).2
    have hpos := length_bytes_pos f
    intro h
    have haccepted : h.accepted = head ++ (harvest env k₁ (base + ((o + f.bytes.length : Nat) : Int))
        (fs.map fun f => (f.bytes, f.verdict env.abi))).accepted := hsplit
    constructor
    · intro e he
      rcases List.mem_cons.mp he with rfl | he
      · refine ⟨k + 1, fun packet => ?_⟩
        have hnot : ((base + o, packet) : Int × Packet D) ∉ (harvest env k₁
            (base + ((o + f.bytes.length : Nat) : Int))
            (fs.map fun f => (f.bytes, f.verdict env.abi))).accepted := by
          intro hmem
          have := (hlater _ hmem).1
          dsimp only at this
          omega
        rw [haccepted, List.mem_append, or_iff_left hnot, hhead, Frame.verdict_right,
          outcome_accepted_iff hm]
        exact ⟨fun h => ⟨⟨h.1.1, h.2.2⟩, h.1.2⟩, fun h => ⟨⟨h.1.1, h.2⟩, rfl, h.1.2⟩⟩
      · obtain ⟨k', hk'⟩ := hframes e he
        refine ⟨k', fun packet => ?_⟩
        have hnot : ((base + e.1, packet) : Int × Packet D) ∉ head := by
          intro hmem
          have hfirst := ((hhead _).mp hmem).2.1
          have := (frameOffsets_bounds he).1
          dsimp only at hfirst
          omega
        rw [haccepted, List.mem_append, or_iff_right hnot]
        exact hk' packet
    · intro e he
      rw [haccepted] at he
      rcases List.mem_append.mp he with he | he
      · exact ⟨(o, f), List.mem_cons_self, ((hhead e).mp he).2.1⟩
      · obtain ⟨e', he', heq⟩ := hplaces e he
        exact ⟨e', List.mem_cons_of_mem _ he', heq⟩

/-! ## The phases of a run -/

/-- `fed` has come in since `base`, and `new` has been queued of it, all of it in front of the
bytes held back. -/
structure Since (base s : AbsParser D) (fed : List Byte) (new : List (Int × Packet D)) : Prop where
  size : s.size = base.size
  stream : s.stream = base.stream ++ fed
  queued : s.queued = base.queued ++ new
  increasing : (new.map Prod.fst).Pairwise (· < ·)
  before : ∀ e ∈ new, e.1 < (s.stream.length : Int) - s.bytes.length
  applied : s.applied.map Prod.fst ++ s.queue =
    base.applied.map Prod.fst ++ base.queue ++ new.map Prod.snd

/-- Some of what the buffer held at first is still there, and all of `fed` behind it. -/
def Stuck (s : AbsParser D) (fed : List Byte) : Prop :=
  s.bytes.length ≤ s.size ∧ ∃ zs, zs ≠ [] ∧ s.bytes = zs ++ fed

/-- Framing has started at place `o` of `fed`, and nothing behind it has been lost. -/
structure Synced (env : Env) (base s : AbsParser D) (fed : List Byte) (new : List (Int × Packet D))
    (o : Nat) : Prop where
  le : o ≤ fed.length
  bytes : s.bytes = (drain (tailScanner env.abi) (fed.drop o)).2
  yields : ∃ early k, (∀ e ∈ early, e.1 < (base.stream.length : Int) + o) ∧
    new = early ++ (harvest env k ((base.stream.length : Int) + o)
      (drain (tailScanner env.abi) (fed.drop o)).1).accepted ∧
    s.mallocs = (harvest env k ((base.stream.length : Int) + o)
      (drain (tailScanner env.abi) (fed.drop o)).1 : Harvest D).mallocs

theorem reap_ok (hm : env.MallocSucceeds) (s : AbsParser D) (c : List Byte) :
    (s.reap env c).failed = false :=
  (harvest_failed_iff _ _ _).mpr fun _ _ => hm _

omit [CDouble D] in
theorem input_length_le (s : AbsParser D) (c : List Byte) :
    (s.input c).length ≤ s.bytes.length + c.length := by
  unfold AbsParser.input
  rw [List.length_append]
  split
  · rw [List.length_nil]
    omega
  · exact Nat.le_refl _

/-- What a push leaves when no rt_malloc fails. -/
theorem realPush_ok (hm : env.MallocSucceeds) (s : AbsParser D) (c : List Byte) :
    (s.realPush env c).2.bytes = (s.settled env c).2 := by
  show (if (s.reap env c).failed then s.input c else (s.settled env c).2) = _
  rw [reap_ok hm]
  rfl

theorem realPush_since (hm : env.MallocSucceeds) {base s : AbsParser D} {fed : List Byte}
    {new : List (Int × Packet D)} (h : Since base s fed new) (c : List Byte) :
    Since base (s.realPush env c).2 (fed ++ c) (new ++ (s.reap env c).accepted) := by
  have hin := (@harvest_offsets D _ env s.mallocs (s.origin c) (s.settled env c).1).2
  have hspan := settled_span env s c
  have hinput := input_length_le s c
  have horigin : s.origin c = (s.stream.length : Int) + c.length - (s.input c).length := by
    unfold AbsParser.origin
    rw [List.length_append]
    push_cast
    rfl
  have hlen : ((s.realPush env c).2.stream.length : Int) = s.stream.length + c.length := by
    show ((s.stream ++ c).length : Int) = _
    rw [List.length_append]
    push_cast
    rfl
  have hold : ∀ e ∈ new, e.1 < s.origin c := by
    intro e he
    have := h.before e he
    omega
  constructor
  · exact h.size
  · show s.stream ++ c = base.stream ++ (fed ++ c)
    rw [h.stream, List.append_assoc]
  · show s.queued ++ (s.reap env c).accepted = base.queued ++ (new ++ (s.reap env c).accepted)
    rw [h.queued, List.append_assoc]
  · exact harvest_increasing h.increasing hold s.mallocs (s.settled env c).1
  · intro e he
    rw [hlen, realPush_ok hm]
    rcases List.mem_append.mp he with he | he
    · have := hold e he
      omega
    · have := (hin e he).2
      omega
  · show s.applied.map Prod.fst ++ (s.queue ++ (s.reap env c).accepted.map Prod.snd) = _
    rw [← List.append_assoc, h.applied, List.map_append, List.append_assoc]

theorem flush_since {base s : AbsParser D} {fed : List Byte} {new : List (Int × Packet D)}
    (h : Since base s fed new) (info : Option (Info D)) : Since base (s.flush info) fed new := by
  exact
    { size := h.size, stream := h.stream, queued := h.queued, increasing := h.increasing
      before := h.before, applied := (flush_packets s info).trans h.applied }

/-- **What is stuck is unblocked by the stream, dropped, or still stuck.** Framing starts at
a place within the first `size` bytes. -/
theorem stuck_step (hm : env.MallocSucceeds) {base s : AbsParser D} {fed : List Byte}
    {new : List (Int × Packet D)} (h : Since base s fed new) (hstuck : Stuck s fed)
    (c : List Byte) :
    Stuck (s.realPush env c).2 (fed ++ c) ∨
      ∃ o < s.size,
        Synced env base (s.realPush env c).2 (fed ++ c) (new ++ (s.reap env c).accepted) o := by
  obtain ⟨hle, zs, hzs, hbytes⟩ := hstuck
  have hpos := List.length_pos_iff.mpr hzs
  have hlen : s.bytes.length = zs.length + fed.length := by rw [hbytes, List.length_append]
  have hstream : s.stream.length = base.stream.length + fed.length := by
    rw [h.stream, List.length_append]
  by_cases hfull : s.bytes.length + c.length ≥ s.size
  · -- the buffer is dropped: framing starts at the chunk
    right
    have hinput : s.input c = c := by
      unfold AbsParser.input
      rw [if_pos hfull, List.nil_append]
    have horigin : s.origin c = (base.stream.length : Int) + fed.length := by
      unfold AbsParser.origin
      rw [hinput, List.length_append]
      omega
    have hdrop : (fed ++ c).drop fed.length = c := List.drop_left
    refine ⟨fed.length, by omega, ?_⟩
    constructor
    · rw [List.length_append]
      omega
    · rw [realPush_ok hm, hdrop, AbsParser.settled, hinput]
    · refine ⟨new, s.mallocs, ?_, ?_, ?_⟩
      · intro e he
        have := h.before e he
        omega
      · rw [hdrop, AbsParser.reap, AbsParser.settled, hinput, horigin]
      · rw [hdrop, ← horigin]
        show (s.reap env c).mallocs = _
        rw [AbsParser.reap, AbsParser.settled, hinput]
  · have hinput : s.input c = zs ++ (fed ++ c) := by
      unfold AbsParser.input
      rw [if_neg hfull, hbytes, List.append_assoc]
    have hsettled : s.settled env c = drain (tailScanner env.abi) (zs ++ (fed ++ c)) := by
      rw [AbsParser.settled, hinput]
    rcases drain_through (S := tailScanner env.abi) zs (fed ++ c) with
      ⟨ws, hws, hrest⟩ | ⟨ps, n, hn, hspan, hdrain⟩
    · left
      have hkept : (s.realPush env c).2.bytes = ws ++ (fed ++ c) := by
        rw [realPush_ok hm, hsettled, hrest]
      refine ⟨?_, ws, hws, hkept⟩
      have := settled_span env s c
      have := input_length_le s c
      rw [realPush_ok hm]
      show (s.settled env c).2.length ≤ s.size
      omega
    · right
      have hpieces : s.settled env c = (ps ++ (drain (tailScanner env.abi) ((fed ++ c).drop n)).1,
          (drain (tailScanner env.abi) ((fed ++ c).drop n)).2) := by
        rw [hsettled, hdrain]
      have horigin : s.origin c + span ps = (base.stream.length : Int) + n := by
        have hps : span ps = zs.length + n := hspan
        unfold AbsParser.origin
        rw [hinput, hps]
        simp only [List.length_append]
        push_cast
        omega
      have hfront : (harvest env s.mallocs (s.origin c) ps : Harvest D).failed = false :=
        (harvest_failed_iff _ _ _).mpr fun _ _ => hm _
      have hreap : (s.reap env c : Harvest D) =
          let h := harvest env s.mallocs (s.origin c) ps
          let h' := harvest env h.mallocs ((base.stream.length : Int) + n)
            (drain (tailScanner env.abi) ((fed ++ c).drop n)).1
          ⟨h.accepted ++ h'.accepted, h'.mallocs, h'.failed, h.leaked + h'.leaked⟩ := by
        rw [AbsParser.reap, hpieces, harvest_append]
        dsimp only
        rw [hfront, horigin]
        rfl
      refine ⟨n, ?_, ?_⟩
      · rw [List.length_append] at hn
        omega
      · constructor
        · exact hn
        · rw [realPush_ok hm, hpieces]
        · refine ⟨new ++ (harvest env s.mallocs (s.origin c) ps).accepted,
            (harvest env s.mallocs (s.origin c) ps : Harvest D).mallocs, ?_, ?_, ?_⟩
          · intro e he
            rcases List.mem_append.mp he with he | he
            · have := h.before e he
              omega
            · have := ((harvest_offsets (D := D) _ _ ps).2 e he).2
              omega
          · rw [hreap, List.append_assoc]
          · show (s.reap env c).mallocs = _
            rw [hreap]

/-- With room for the chunk nothing is lost. -/
theorem synced_step (hm : env.MallocSucceeds) {base s : AbsParser D} {fed : List Byte}
    {new : List (Int × Packet D)} {o : Nat} (h : Since base s fed new)
    (hsync : Synced env base s fed new o) {c : List Byte} (hinput : s.input c = s.bytes ++ c) :
    Synced env base (s.realPush env c).2 (fed ++ c) (new ++ (s.reap env c).accepted) o := by
  obtain ⟨early, k, hearly, hnew, hmallocs⟩ := hsync.yields
  have hdrop : (fed ++ c).drop o = fed.drop o ++ c := List.drop_append_of_le_length hsync.le
  have hdrain : drain (tailScanner env.abi) ((fed ++ c).drop o) =
      ((drain (tailScanner env.abi) (fed.drop o)).1 ++ (s.settled env c).1,
        (s.settled env c).2) := by
    rw [hdrop, drain_append, ← hsync.bytes, AbsParser.settled, hinput]
  let front : Harvest D := harvest env k ((base.stream.length : Int) + o)
    (drain (tailScanner env.abi) (fed.drop o)).1
  have hfront : front.failed = false := (harvest_failed_iff _ _ _).mpr fun _ _ => hm _
  have horigin : (base.stream.length : Int) + o + span (drain (tailScanner env.abi) (fed.drop o)).1 =
      s.origin c := by
    have hspan := drain_length (S := tailScanner env.abi) (fed.drop o)
    have hle := hsync.le
    rw [← hsync.bytes, List.length_drop] at hspan
    unfold AbsParser.origin span
    rw [hinput, h.stream]
    simp only [List.length_append]
    push_cast
    omega
  have hwhole : (harvest env k ((base.stream.length : Int) + o)
      (drain (tailScanner env.abi) ((fed ++ c).drop o)).1 : Harvest D) =
      ⟨front.accepted ++ (s.reap env c).accepted, (s.reap env c).mallocs, (s.reap env c).failed,
        front.leaked + (s.reap env c).leaked⟩ := by
    rw [hdrain, harvest_append]
    dsimp only
    rw [show (harvest env k ((base.stream.length : Int) + o)
      (drain (tailScanner env.abi) (fed.drop o)).1 : Harvest D) = front from rfl, hfront, horigin,
      ← hmallocs]
    rfl
  constructor
  · have := hsync.le
    rw [List.length_append]
    omega
  · rw [realPush_ok hm, hdrain]
  · refine ⟨early, k, hearly, ?_, ?_⟩
    · rw [hwhole, hnew, List.append_assoc]
    · rw [hwhole]
      rfl

/-! ## Runs -/

/-- A call of nmea_parse on a chunk that fits the buffer. -/
theorem parse_since (hm : env.MallocSucceeds) {base s : AbsParser D} {fed : List Byte}
    {new : List (Int × Packet D)} (h : Since base s fed new) {c : List Byte}
    (hfit : c.length ≤ s.size) (info : Option (Info D)) :
    Since base (s.parse env info c).2.1 (fed ++ c) (new ++ (s.reap env c).accepted) ∧
      (s.parse env info c).2.1 = (s.realPush env c).2.flush info := by
  have hstate : (s.parse env info c).2.1 = (s.realPush env c).2.flush info := by
    rw [← push_small hfit]
    rfl
  rw [hstate]
  exact ⟨flush_since (realPush_since hm h c) info, rfl⟩

/-- Stuck, or synchronised within the first `size` bytes. -/
def Phase (env : Env) (base s : AbsParser D) (fed : List Byte) (new : List (Int × Packet D)) : Prop :=
  Stuck s fed ∨ ∃ o < s.size, Synced env base s fed new o

/-- Chunks of a stream of short frames, from a phase to a phase. -/
theorem phase_run (hm : env.MallocSucceeds) {base : AbsParser D} {frames : List Frame} {bound : Nat}
    (hbound : bound ≤ base.size) (hlen : ∀ f ∈ frames, f.bytes.length ≤ bound)
    {chunks : List (List Byte)} (hchunk : ∀ c ∈ chunks, c.length ≤ base.size - bound)
    {s : AbsParser D} {fed : List Byte} {new : List (Int × Packet D)} (h : Since base s fed new)
    (hphase : Phase env base s fed new)
    (hcut : fed ++ chunks.flatten = frames.flatMap Frame.bytes) (info : Option (Info D)) :
    ∃ new', Since base (s.parseAll env info chunks).2.1 (frames.flatMap Frame.bytes) new' ∧
      Phase env base (s.parseAll env info chunks).2.1 (frames.flatMap Frame.bytes) new' := by
  induction chunks generalizing s fed new info with
  | nil =>
    rw [List.flatten_nil, List.append_nil] at hcut
    subst hcut
    exact ⟨new, h, hphase⟩
  | cons c cs ih =>
    have hc := hchunk c List.mem_cons_self
    have hfit : c.length ≤ s.size := by
      rw [h.size]
      omega
    have hsize : ((s.realPush env c).2.flush info).size = s.size := rfl
    obtain ⟨hsince, hstate⟩ := parse_since hm h hfit info
    have hnext : Phase env base (s.parse env info c).2.1 (fed ++ c)
        (new ++ (s.reap env c).accepted) := by
      rw [hstate]
      rcases hphase with hstuck | ⟨o, ho, hsync⟩
      · rcases stuck_step hm h hstuck c with hstuck' | ⟨o, ho, hsync⟩
        · exact .inl hstuck'
        · exact .inr ⟨o, ho, ⟨hsync.le, hsync.bytes, hsync.yields⟩⟩
      · have hinput : s.input c = s.bytes ++ c := by
          have ho : o ≤ (frames.flatMap Frame.bytes).length := by
            have := hsync.le
            rw [← hcut, List.length_append]
            omega
          obtain ⟨x, rest, before, hx, hdrop, -, -, hrest⟩ := frameOffsets_split 0 ho
          have hprefix : fed.drop o <+: x ++ rest.flatMap Frame.bytes := by
            rw [← hdrop, ← hcut, List.drop_append_of_le_length hsync.le]
            exact List.prefix_append _ _
          rcases held_fragment env.abi hx hlen hrest hprefix with hnil | hheld
          · exact input_empty (hsync.bytes.trans hnil) c
          · apply input_roomy
            rw [hsync.bytes, h.size]
            omega
        have hsync' := synced_step hm h hsync hinput
        exact .inr ⟨o, ho, ⟨hsync'.le, hsync'.bytes, hsync'.yields⟩⟩
    rw [List.flatten_cons, ← List.append_assoc] at hcut
    exact ih (fun d hd => hchunk d (List.mem_cons_of_mem _ hd)) hsince hnext hcut
      (s.parse env info c).2.2

/-- What a phase at the end of the stream has queued from place `size` on: the frames that are
accepted, and nothing else. -/
theorem phase_frames (hm : env.MallocSucceeds) {base s : AbsParser D} {frames : List Frame}
    {new : List (Int × Packet D)} (h : Since base s (frames.flatMap Frame.bytes) new)
    (hphase : Phase env base s (frames.flatMap Frame.bytes) new) :
    (∀ e ∈ frameOffsets 0 frames, s.size ≤ e.1 → ∃ k, ∀ packet,
      ((base.stream.length : Int) + e.1, packet) ∈ new ↔
        e.2.AcceptedAt env k packet ∧ e.2.CrcIsXor env.abi) ∧
    ∀ e ∈ new, (base.stream.length : Int) + s.size ≤ e.1 →
      ∃ e' ∈ frameOffsets 0 frames, e.1 = (base.stream.length : Int) + e'.1 := by
  rcases hphase with ⟨hle, zs, hzs, hbytes⟩ | ⟨o, ho, hsync⟩
  · -- the stream was shorter than the buffer
    have hlen : s.bytes.length = zs.length + (frames.flatMap Frame.bytes).length := by
      rw [hbytes, List.length_append]
    constructor
    · intro e he hlate
      have := (frameOffsets_bounds he).2
      omega
    · intro e he hlate
      have hbefore := h.before e he
      rw [h.stream, List.length_append] at hbefore
      omega
  · obtain ⟨early, k, hearly, hnew, -⟩ := hsync.yields
    obtain ⟨x, rest, before, hx, hdrop, hoffsets, hbefore, -⟩ := frameOffsets_split 0 hsync.le
    obtain ⟨px, held, hdrain, hone, hspan⟩ := @drain_fragment env.abi frames rest x hx
    rw [hdrop, hdrain] at hnew
    dsimp only at hnew
    rw [Nat.zero_add] at hoffsets hbefore
    have hfront : (harvest env k ((base.stream.length : Int) + o) px : Harvest D).failed = false :=
      (harvest_failed_iff _ _ _).mpr fun _ _ => hm _
    -- the piece of the fragment starts at `o`
    have hpiece : ∀ e ∈ (harvest env k ((base.stream.length : Int) + o) px : Harvest D).accepted,
        e.1 = (base.stream.length : Int) + o := by
      match px, hone with
      | [], _ => exact fun e he => absurd he List.not_mem_nil
      | [(sentence, crc)], _ =>
        obtain ⟨k', head, hsplit, hhead⟩ := @harvest_head D _ env hm k
          ((base.stream.length : Int) + o) sentence crc []
        intro e he
        rw [hsplit] at he
        rcases List.mem_append.mp he with he | he
        · exact ((hhead e).mp he).2.1
        · cases he
    have hlow : ∀ e ∈ early ++ (harvest env k ((base.stream.length : Int) + o) px :
        Harvest D).accepted, e.1 < (base.stream.length : Int) + s.size := by
      intro e he
      rcases List.mem_append.mp he with he | he
      · have := hearly e he
        omega
      · have := hpiece e he
        omega
    by_cases hnil : rest = []
    · subst hnil
      rw [List.map_nil, List.append_nil] at hnew
      have hall : ∀ e ∈ frameOffsets 0 frames, e.1 < s.size := by
        intro e he
        rw [hoffsets] at he
        rcases List.mem_append.mp he with he | he
        · exact (hbefore e he).trans ho
        · cases he
      constructor
      · intro e he hlate
        have := hall e he
        omega
      · intro e he hlate
        have := hlow e (hnew ▸ he)
        omega
    · have hplace : (base.stream.length : Int) + o + span px =
          (base.stream.length : Int) + ((o + x.length : Nat) : Int) := by
        rw [hspan hnil]
        push_cast
        omega
      rw [harvest_append] at hnew
      dsimp only at hnew
      rw [hfront, hplace] at hnew
      obtain ⟨hframes, hplaces⟩ := @harvest_frames D _ env hm
        (harvest env k ((base.stream.length : Int) + o) px : Harvest D).mallocs
        base.stream.length (o + x.length) rest
      have hnew' : new = (early ++ (harvest env k ((base.stream.length : Int) + o) px).accepted) ++
          (harvest env (harvest env k ((base.stream.length : Int) + o) px : Harvest D).mallocs
            ((base.stream.length : Int) + ((o + x.length : Nat) : Int))
            (rest.map fun f => (f.bytes, f.verdict env.abi))).accepted := by
        rw [List.append_assoc]
        exact hnew
      constructor
      · intro e he hlate
        rw [hoffsets] at he
        rcases List.mem_append.mp he with he | he
        · have := hbefore e he
          omega
        · obtain ⟨k', hk'⟩ := hframes e he
          refine ⟨k', fun packet => ?_⟩
          have hnot : (((base.stream.length : Int) + e.1, packet) : Int × Packet D) ∉
              early ++ (harvest env k ((base.stream.length : Int) + o) px).accepted := by
            intro hmem
            have := hlow _ hmem
            dsimp only at this
            omega
          rw [hnew', List.mem_append, or_iff_right hnot]
          exact hk' packet
      · intro e he hlate
        rw [hnew'] at he
        rcases List.mem_append.mp he with he | he
        · have := hlow e he
          omega
        · obtain ⟨e', he', heq⟩ := hplaces e he
          refine ⟨e', ?_, heq⟩
          rw [hoffsets]
          exact List.mem_append_right _ he'

/-- From any buffer, a run over a stream of short frames ends in a phase. -/
theorem run_phase (hm : env.MallocSucceeds) (st : ParserState D)
    (hsize : st.parser.buffSize = nmeaDefParseBuff) (info : Option (Info D)) {frames : List Frame}
    {bound : Nat} (hbound : bound ≤ 256) (hlen : ∀ f ∈ frames, f.bytes.length ≤ bound)
    {chunks : List (List Byte)} (hcut : chunks.flatten = frames.flatMap Frame.bytes)
    (hchunk : ∀ c ∈ chunks, c.length ≤ nmeaDefParseBuff - bound) :
    ∃ new, Since st.abs (st.abs.parseAll env info chunks).2.1 (frames.flatMap Frame.bytes) new ∧
      Phase env st.abs (st.abs.parseAll env info chunks).2.1 (frames.flatMap Frame.bytes) new := by
  have habs : st.abs.size = 1024 := st.rep.size.trans hsize
  have hle : bound ≤ st.abs.size := by omega
  have hstart : Since st.abs st.abs [] [] :=
    { size := rfl
      stream := (List.append_nil _).symm
      queued := (List.append_nil _).symm
      increasing := .nil
      before := fun e he => absurd he List.not_mem_nil
      applied := (List.append_nil _).symm }
  have hphase : Phase env st.abs st.abs [] [] := by
    by_cases hbytes : st.abs.bytes = []
    · right
      refine ⟨0, st.size_pos, le_rfl, hbytes, [], st.abs.mallocs, ?_, rfl, rfl⟩
      exact fun e he => absurd he List.not_mem_nil
    · left
      refine ⟨?_, st.abs.bytes, hbytes, (List.append_nil _).symm⟩
      rw [st.rep.use.1, st.rep.size]
      exact st.rep.use.2
  exact phase_run hm hle hlen (fun c hc => habs ▸ hchunk c hc) hstart hphase hcut info

/-- **Recovery.** Whatever the buffer of a parser with an empty queue holds, of a stream of
frames of at most `bound` bytes in chunks that leave room for one more frame, every frame that starts
at place 1024 or later is queued exactly when its checksum is right, its field parser accepts it
and the crc the code computes is the xor of its body, once and in the order of the stream; nothing
else is queued from there on, and what is queued is applied. -/
theorem frames_recovered (hm : env.MallocSucceeds) (st : ParserState D)
    (hqueue : st.parser.topNode = none) (hsize : st.parser.buffSize = nmeaDefParseBuff)
    (info : Option (Info D)) {frames : List Frame} {bound : Nat} (hbound : bound ≤ 256)
    (hlen : ∀ f ∈ frames, f.bytes.length ≤ bound) {chunks : List (List Byte)}
    (hcut : chunks.flatten = frames.flatMap Frame.bytes)
    (hchunk : ∀ c ∈ chunks, c.length ≤ nmeaDefParseBuff - bound) :
    ∃ n p info' w new, parseAll env st.parser info st.world chunks = some (n, p, info', w) ∧
      w.queued = st.world.queued ++ new ∧ (new.map Prod.fst).Pairwise (· < ·) ∧
      w.applied.map Prod.fst = st.world.applied.map Prod.fst ++ new.map Prod.snd ∧
      (∀ e ∈ frameOffsets 0 frames, 1024 ≤ e.1 → ∃ k, ∀ packet,
        ((st.world.stream.length : Int) + e.1, packet) ∈ new ↔
          e.2.AcceptedAt env k packet ∧ e.2.CrcIsXor env.abi) ∧
      ∀ e ∈ new, (st.world.stream.length : Int) + 1024 ≤ e.1 →
        ∃ e' ∈ frameOffsets 0 frames, e.1 = (st.world.stream.length : Int) + e'.1 := by
  have habs : st.abs.size = 1024 := st.rep.size.trans hsize
  have hempty := st.rep.queue_nil hqueue
  obtain ⟨p, w, hrun, hrep⟩ := parseAll_spec env st.rep st.size_pos info chunks
  obtain ⟨new, hsince, hend⟩ := run_phase hm st hsize info hbound hlen hcut hchunk
  obtain ⟨hframes, hplaces⟩ := phase_frames hm hsince hend
  have hlogs := hrep.logs
  have hqueue' := @parseAll_queue D _ env st.abs hempty info chunks
  have happlied := hsince.applied
  rw [hqueue', List.append_nil, hempty, List.append_nil] at happlied
  rw [hsince.size, habs] at hframes hplaces
  rw [← st.rep.logs.1]
  refine ⟨_, p, _, w, new, hrun, ?_, hsince.increasing, ?_, hframes, hplaces⟩
  · rw [← hlogs.2.1, hsince.queued, st.rep.logs.2.1]
  · rw [← hlogs.2.2, happlied, st.rep.logs.2.2]

/-- The buffer holds a sentence cut off behind its '*'. Of 70 sentences of 17 bytes, the one at
place 1037 is queued. -/
theorem frames_recovered_stuck :
    ∃ st : ParserState Decimal, st.parser.buffUse = 13 ∧ ∃ n p info' w new packet,
      parseAll (.zeroed fun _ => true) st.parser (some .zeroed) st.world
        ((List.replicate 70 Frame.gsvNone).map Frame.bytes) = some (n, p, info', w) ∧
      w.queued = st.world.queued ++ new ∧ ((st.world.stream.length : Int) + 1037, packet) ∈ new := by
  obtain ⟨n, info, st, hrun⟩ := parsed_state (cstr "$GPGSV,1,1,0*")
  have hobs : (nmeaParse (.zeroed fun _ => true) ParserState.zeroed.parser
      (cstr "$GPGSV,1,1,0*") (some .zeroed) ParserState.zeroed.world).map (fun r =>
        (r.2.1.buffUse, r.2.1.buffSize, r.2.1.topNode)) = some (13, 1024, none) := by
    decide +kernel
  rw [hrun] at hobs
  obtain ⟨huse, hobs⟩ := Prod.mk.inj (Option.some.inj hobs)
  obtain ⟨hsize, htop⟩ := Prod.mk.inj hobs
  have hshort : ∀ f ∈ List.replicate 70 Frame.gsvNone, f.bytes.length ≤ 17 := by
    intro f hf
    rw [List.eq_of_mem_replicate hf]
    decide
  have hchunk : ∀ c ∈ (List.replicate 70 Frame.gsvNone).map Frame.bytes,
      c.length ≤ nmeaDefParseBuff - 17 := by
    intro c hc
    obtain ⟨f, hf, rfl⟩ := List.mem_map.mp hc
    exact (hshort f hf).trans (by decide)
  obtain ⟨n, p', info', w', new, hrun', hqueued, -, -, hframes, -⟩ :=
    @frames_recovered Decimal _ (.zeroed fun _ => true) (fun _ => rfl) st htop hsize (some .zeroed)
      (List.replicate 70 Frame.gsvNone) 17 (by decide) hshort
      ((List.replicate 70 Frame.gsvNone).map Frame.bytes) rfl hchunk
  have hat : (1037, Frame.gsvNone) ∈ frameOffsets 0 (List.replicate 70 Frame.gsvNone) :=
    List.mem_of_getElem? (i := 61) rfl
  obtain ⟨k, hk⟩ := hframes _ hat (by decide)
  obtain ⟨packet, haccepted⟩ := gsvNone_accepted
  exact ⟨st, huse, n, p', info', w', new, packet, hrun', hqueued,
    (hk packet).mpr ⟨⟨haccepted.1, haccepted.2 k⟩, fun hsigned => Bool.noConfusion hsigned⟩⟩

/-- A GSA sentence with the byte 193 as its fix mode. Its checksum is right, 128 or more. -/
def Frame.gsaHigh : Frame where
  body := cstr "GPGSA," ++ 193 :: cstr ",3,01,02,14,,,,,,,,,,2.5,1.3,2.1"
  h1 := ascii 'B'
  h2 := ascii '2'
  no_dollar := by decide
  no_star := by decide
  hex1 := by decide
  hex2 := by decide

/-- Where char is signed, that sentence is accepted but never queued, here behind 61 others. -/
theorem high_checksum_lost :
    let env : Env := { Env.zeroed fun _ => true with abi := ⟨true, 32, le_rfl⟩ }
    let frames := List.replicate 61 Frame.gsvNone ++ [Frame.gsaHigh]
    (1037, Frame.gsaHigh) ∈ frameOffsets 0 frames ∧
      (∃ packet : Packet Decimal, ∀ k, Frame.gsaHigh.AcceptedAt env k packet) ∧
      ∃ n p info' w, parseAll env ParserState.zeroed.parser (some .zeroed)
          ParserState.zeroed.world (frames.map Frame.bytes) = some (n, p, info', w) ∧
        ∀ packet, ((1037 : Int), packet) ∉ w.queued := by
  intro env frames
  have hat : (1037, Frame.gsaHigh) ∈ frameOffsets 0 frames := List.mem_of_getElem? (i := 61) rfl
  have hsome : (Frame.gsaHigh.packet Decimal env.abi).isSome := by decide +kernel
  obtain ⟨packet, hpacket⟩ := Option.isSome_iff_exists.mp hsome
  have haccepted : Frame.gsaHigh.Accepted env packet := Frame.accepted_of_packet hpacket
  have hshort : ∀ f ∈ frames, f.bytes.length ≤ 45 := by
    intro f hf
    rcases List.mem_append.mp hf with hf | hf
    · rw [List.eq_of_mem_replicate hf]
      decide
    · rw [List.mem_singleton.mp hf]
      decide
  have hchunk : ∀ c ∈ frames.map Frame.bytes, c.length ≤ nmeaDefParseBuff - 45 := by
    intro c hc
    obtain ⟨f, hf, rfl⟩ := List.mem_map.mp hc
    exact (hshort f hf).trans (by decide)
  obtain ⟨p, w, hrun, hrep⟩ := parseAll_spec env ParserState.zeroed.rep
    ParserState.zeroed.size_pos (some .zeroed) (frames.map Frame.bytes)
  have hm : env.MallocSucceeds := fun _ => rfl
  obtain ⟨new, hsince, hend⟩ := run_phase hm ParserState.zeroed rfl (some .zeroed) (by decide)
    hshort rfl hchunk
  obtain ⟨k, hk⟩ := (phase_frames (fun _ => rfl) hsince hend).1 _ hat (by rw [hsince.size]; decide)
  have hqueued : w.queued = new := by
    rw [← hrep.logs.2.1, hsince.queued]
    rfl
  refine ⟨hat, ⟨packet, fun k => ⟨haccepted.1, haccepted.2 k⟩⟩, _, p, _, w, hrun, ?_⟩
  intro packet' hmem
  rw [hqueued] at hmem
  have hlow : xorAll Frame.gsaHigh.body < 128 := ((hk packet').mp hmem).2 rfl
  exact absurd hlow (by decide)

end RttNmea
