import RttNmea.Delivery
import RttNmea.Harvest
import RttNmea.ParseLib

/-!
# Resynchronisation

Left-over bytes are dropped at the '$' of the next sentence, unless they hold a '*' whose
tail is not there: nmea_find_tail stops at that '*' and waits, whatever follows.
-/

namespace RttNmea

open CText Framing

variable {D : Type} [CDouble D] {env : Env}

/-- The checksum is right, and the field parser accepts the frame whatever the stack holds
when it is called. -/
def Frame.Accepted (env : Env) (f : Frame) (packet : Packet D) : Prop :=
  f.Valid ∧ ∀ k, ∃ ok, ok ≠ 0 ∧
    parsePack env.abi (env.stack k) (nmeaPackType (f.bytes.drop 1)) f.bytes = some (ok, packet)

/-- A frame accepted on a zeroed stack is. -/
theorem Frame.accepted_of_packet {f : Frame} {packet : Packet D}
    (h : f.packet D env.abi = some packet) : f.Accepted env packet := by
  unfold Frame.packet at h
  by_cases hv : f.Valid
  · rw [if_pos hv, sentencePacket] at h
    refine ⟨hv, fun k => ?_⟩
    split at h
    · rename_i ok packet' hp
      by_cases hok : ok = 0
      · rw [if_pos hok] at h
        cases h
      · rw [if_neg hok] at h
        cases h
        exact ⟨ok, hok, parsePack_stack hp hok _⟩
    · cases h
  · rw [if_neg hv] at h
    cases h

/-- With memory for it, a packet is queued exactly if the field parser accepts it. -/
theorem outcome_accepted_iff (hm : env.MallocSucceeds) (k : Nat) (sentence : List Byte)
    (packet : Packet D) :
    outcome env k sentence = .accepted packet ↔
      ∃ ok, ok ≠ 0 ∧ parsePack env.abi (env.stack (k + 1)) (nmeaPackType (sentence.drop 1))
        sentence = some (ok, packet) := by
  constructor
  · intro ho
    exact (outcome_accepted ho).2.2
  · rintro ⟨ok, hok, hp⟩
    have hnode : ¬ env.mallocOk k = false := by rw [hm k]; exact Bool.noConfusion
    have hpack : ¬ env.mallocOk (k + 1) = false := by rw [hm (k + 1)]; exact Bool.noConfusion
    unfold outcome
    rw [if_neg hnode, hp]
    dsimp only
    rw [if_neg hpack, if_neg hok]

theorem Frame.Accepted.outcome {f : Frame} {packet : Packet D} (h : f.Accepted env packet)
    (hm : env.MallocSucceeds) (k : Nat) : outcome env k f.bytes = .accepted packet :=
  (outcome_accepted_iff hm k f.bytes packet).mpr (h.2 (k + 1))

/-- The push queues the packet as that of the sentence at the end of the stream, and it is
applied with the others. -/
def Delivers (env : Env) (st : ParserState D) (f : Frame) (packet : Packet D)
    (info : Option (Info D)) : Prop :=
  ∃ n p info' w new, nmeaParse env st.parser f.bytes info st.world = some (n, p, info', w) ∧
    w.queued = st.world.queued ++ new ∧ ((st.world.stream.length : Int), packet) ∈ new ∧
    w.applied.map Prod.fst =
      st.world.applied.map Prod.fst ++ st.abs.queue ++ new.map Prod.snd

/-- Nothing in the buffer holds the frame up: past the pieces that can be settled there is
no '*', and no rt_malloc that these pieces and the frame need fails. On a target with signed
char the xor of the body has to be positive, too. -/
def WayClear (env : Env) (p : Parser) (w : World D) (f : Frame) : Prop :=
  let d := drain (tailScanner env.abi) (p.pending w)
  (env.abi.charSigned = true → xorAll f.body < 128) ∧ star ∉ d.2 ∧
    ∀ i < mallocsNeeded (d.1 ++ [(f.bytes, f.verdict env.abi)]),
      env.mallocOk (w.mallocs + i) = true

instance (p : Parser) (w : World D) (f : Frame) : Decidable (WayClear env p w f) :=
  inferInstanceAs (Decidable (_ ∧ _ ∧ _))

/-! ## What is left over -/

variable {abi : Abi}

/-- Without a '*', left-over bytes that wait are quiet. -/
theorem quiet_of_wait {rest : List Byte} (hwait : (tailScanner abi).cut rest = none)
    (hstar : star ∉ rest) : Quiet rest := by
  rcases front_cases rest with hq | ⟨pre, ys, hq, hne, rfl⟩ | ⟨pre, ys, hq, rfl⟩
  · exact hq
  · rw [cut_eq_none, findTail_dollar hq hne] at hwait
    exact absurd (List.length_eq_zero_iff.mp hwait) hne
  · exact absurd (List.mem_append_right _ List.mem_cons_self) hstar

/-- They are dropped at the '$' of the next frame. -/
theorem drain_quiet {rest : List Byte} (hq : Quiet rest) (f : Frame) :
    (drain (tailScanner abi) (rest ++ f.bytes)).1 =
      (if rest = [] then [] else [(rest, -1)]) ++ [(f.bytes, f.verdict abi)] := by
  have hframe : (drain (tailScanner abi) f.bytes).1 = [(f.bytes, f.verdict abi)] := by
    have h := drain_frames abi [f] []
    have hnil : (drain (tailScanner abi) []).1 = [] := rfl
    simpa [hnil] using congrArg Prod.fst h
  by_cases hrest : rest = []
  · subst hrest
    exact hframe
  · have hcut : (tailScanner abi).cut (rest ++ f.bytes) = some (rest.length, -1) := by
      apply cut_eq_some.mpr
      constructor
      · exact findTail_dollar hq hrest _
      · exact fun h => hrest (List.length_eq_zero_iff.mp h)
    rw [drain_take hcut, List.take_left, List.drop_left, hframe, if_neg hrest]
    rfl

/-- Behind a '*' whose tail is missing, a frame is not even looked at: no two of its first
bytes are CR LF. -/
theorem stalls {rest ys : List Byte} {a b : Byte} (ha : a ≠ cr) (hb : b ≠ cr)
    (hwait : (tailScanner abi).cut rest = none) (hstar : star ∈ rest) :
    (tailScanner abi).cut (rest ++ dollar :: a :: b :: ys) = none := by
  rw [cut_eq_none] at hwait ⊢
  rcases front_cases rest with hq | ⟨pre, r, hq, hne, rfl⟩ | ⟨pre, r, hq, rfl⟩
  · exact absurd hstar hq.1
  · rw [findTail_dollar hq hne] at hwait
    exact absurd (List.length_eq_zero_iff.mp hwait) hne
  · rw [findTail_star hq] at hwait
    rw [List.append_assoc, List.cons_append, findTail_star hq]
    by_cases htail : TailAt r
    · -- the tail is there, but the crc it states is negative
      obtain ⟨h1, h2, zs, rfl⟩ := htail
      rw [findTailStar_tail] at hwait
      simp only [List.cons_append, findTailStar_tail]
      exact hwait
    · have hmissing : ¬ TailAt (r ++ dollar :: a :: b :: ys) := by
        rintro ⟨h1, h2, zs, h⟩
        rcases r with _ | ⟨r1, _ | ⟨r2, _ | ⟨r3, _ | ⟨r4, r⟩⟩⟩⟩
        · exact hb (by cases h; rfl)
        · exact ha (by cases h; rfl)
        · cases h
        · cases h
        · injection h with e1 h
          injection h with e2 h
          injection h with e3 h
          injection h with e4 h
          exact htail ⟨r1, r2, r, by rw [e3, e4]⟩
      rw [findTailStar_wait hmissing]

/-- An accepted frame starts with a header. -/
theorem Frame.Accepted.head {f : Frame} {packet : Packet D} (h : f.Accepted env packet) :
    ∃ a b ys, f.bytes = dollar :: a :: b :: ys ∧ a ≠ cr ∧ b ≠ cr := by
  obtain ⟨ok, -, hp⟩ := h.2 0
  have htype : nmeaPackType (f.bytes.drop 1) ≠ .gpnon := by
    intro htype
    cases hp.symm.trans (parsePack_eq_none.mpr htype)
  obtain ⟨head, hmem, ys, hys⟩ := packType_head htype
  have heads : ∀ e ∈ pheads, ∃ a b zs, e.1 = a :: b :: zs ∧ a ≠ cr ∧ b ≠ cr := by
    intro e he
    have hshape : e.1 = e.1.headD 0 :: e.1.tail.headD 0 :: e.1.drop 2 ∧ e.1.headD 0 ≠ cr ∧
        e.1.tail.headD 0 ≠ cr := by
      revert e
      decide
    exact ⟨_, _, _, hshape⟩
  obtain ⟨a, b, zs, hhead, ha, hb⟩ := heads _ hmem
  refine ⟨a, b, zs ++ ys, ?_, ha, hb⟩
  have hbytes : f.bytes = dollar :: f.bytes.drop 1 := rfl
  have hfront : head ++ ys = a :: b :: (zs ++ ys) := by
    rw [show head = a :: b :: zs from hhead]
    rfl
  rw [hbytes, ← hys, hfront]

/-- The crc is reported just for a right checksum, unless signed chars make it negative. -/
theorem Frame.verdict_right {f : Frame} :
    ¬ f.verdict abi < 0 ↔ f.Valid ∧ (abi.charSigned = true → xorAll f.body < 128) := by
  have hxor := toInt_charToInt abi (xorAll f.body)
  have hsum := f.checksum_lt
  have hstated : (Int32.ofNat f.checksum).toInt = f.checksum :=
    Int32.toInt_ofNat_of_lt (by omega)
  have hlow := UInt8.toNat_lt (xorAll f.body)
  have h128 : (128 : Byte).toNat = 128 := rfl
  rw [f.verdict_neg, not_not, ← Int32.toInt_inj, hxor, hstated, Frame.Valid,
    UInt8.lt_iff_toNat_lt, h128]
  by_cases hneg : abi.charSigned = true ∧ 128 ≤ (xorAll f.body).toNat
  · -- the code's crc is negative, the stated one never is
    rw [if_pos hneg]
    refine iff_of_false (fun h => by omega) fun h => ?_
    have := h.2 hneg.1
    omega
  · rw [if_neg hneg]
    constructor
    · intro h
      exact ⟨by omega, fun hs => Nat.lt_of_not_le fun hle => hneg ⟨hs, hle⟩⟩
    · intro h
      rw [h.1]

/-! ## The push -/

section Push

variable {st : ParserState D} {f : Frame}

/-- A push that leaves room delivers what it queues. -/
theorem delivers_iff_queued (hroom : st.parser.buffUse + f.bytes.length < st.parser.buffSize)
    (packet : Packet D) (info : Option (Info D)) :
    Delivers env st f packet info ↔
      ((st.world.stream.length : Int), packet) ∈ (st.abs.reap env f.bytes).accepted := by
  obtain ⟨p, w, hrun, hrep⟩ := parse_spec env st.rep st.size_pos info f.bytes
  have hsmall : f.bytes.length ≤ st.abs.size := by
    rw [st.rep.size]
    omega
  have hpush : (st.abs.push env f.bytes).2 = (st.abs.realPush env f.bytes).2 := push_small hsmall
  obtain ⟨hstream, hqueued, happlied⟩ := hrep.logs
  have hstate : (st.abs.parse env info f.bytes).2.1 =
      (st.abs.realPush env f.bytes).2.flush info := by rw [← hpush]; rfl
  rw [hstate] at hqueued happlied
  have hnew : w.queued = st.world.queued ++ (st.abs.reap env f.bytes).accepted := by
    rw [← hqueued, ← st.rep.logs.2.1]
    rfl
  constructor
  · rintro ⟨n, p₁, info', w₁, new, hrun₁, hqueued₁, hmem, -⟩
    have hw : w₁ = w := by
      rw [hrun] at hrun₁
      cases hrun₁
      rfl
    rw [hw, hnew] at hqueued₁
    rwa [List.append_cancel_left hqueued₁]
  · intro hmem
    refine ⟨_, p, _, w, _, hrun, hnew, hmem, ?_⟩
    rw [← happlied, ← st.rep.logs.2.2]
    show (st.abs.applied ++ applyAll info
      (st.abs.queue ++ (st.abs.reap env f.bytes).accepted.map Prod.snd)).map Prod.fst = _
    rw [List.map_append, applyAll_packets, List.append_assoc]

/-- With room for the frame, the push sees what is pending and the frame. -/
theorem reap_roomy (hroom : st.parser.buffUse + f.bytes.length < st.parser.buffSize) :
    (st.abs.reap env f.bytes : Harvest D) =
      let d := drain (tailScanner env.abi) (st.parser.pending st.world)
      harvest env st.world.mallocs
        ((st.world.stream.length : Int) - (st.parser.pending st.world).length)
        (d.1 ++ (drain (tailScanner env.abi) (d.2 ++ f.bytes)).1) := by
  have hbytes := st.rep.pending
  have hinput : st.abs.input f.bytes = st.parser.pending st.world ++ f.bytes := by
    unfold AbsParser.input
    rw [if_neg (by rw [st.rep.use.1, st.rep.size]; omega), hbytes]
  have horigin : st.abs.origin f.bytes =
      (st.world.stream.length : Int) - (st.parser.pending st.world).length := by
    unfold AbsParser.origin
    rw [hinput, st.rep.logs.1, List.length_append, List.length_append]
    push_cast
    omega
  rw [AbsParser.reap, AbsParser.settled, hinput, horigin, st.rep.mallocs, drain_append]

/-- What is harvested of pieces in front of the frame is not the frame. -/
theorem not_mem_front {k : Nat} {pos : Int} {pieces : List (List Byte × Int32)} {o : Int}
    (ho : pos + span pieces ≤ o) (packet : Packet D) :
    (o, packet) ∉ (harvest env k pos pieces : Harvest D).accepted := by
  intro hmem
  have := (harvest_offsets (D := D) k pos pieces).2 _ hmem
  dsimp only at this
  omega

/-- A frame with a wrong crc is skipped. -/
theorem skip_frame (hcrc : f.verdict env.abi < 0) (k : Nat) (pos : Int)
    (pieces : List (List Byte × Int32)) (packet : Packet D) :
    (pos + span pieces, packet) ∉
      (harvest env k pos (pieces ++ [(f.bytes, f.verdict env.abi)]) : Harvest D).accepted := by
  have hfront := @not_mem_front D _ env k pos pieces _ (Int.le_refl _) packet
  have hnone : ∀ k pos, (harvest env k pos [(f.bytes, f.verdict env.abi)] : Harvest D) =
      ⟨[], k, false, 0⟩ := by
    intro k pos
    simp only [harvest, if_pos hcrc]
  rw [harvest_append]
  dsimp only
  rw [hnone, List.append_nil]
  split
  · exact hfront
  · exact hfront

/-- The frame behind some pieces is harvested just when no rt_malloc fails. -/
theorem harvest_frame {packet : Packet D} (h : f.Accepted env packet)
    (hcrc : ¬ f.verdict env.abi < 0) (k : Nat) (pos : Int) (pieces : List (List Byte × Int32)) :
    (pos + span pieces, packet) ∈
        (harvest env k pos (pieces ++ [(f.bytes, f.verdict env.abi)]) : Harvest D).accepted ↔
      ∀ i < mallocsNeeded (pieces ++ [(f.bytes, f.verdict env.abi)]),
        env.mallocOk (k + i) = true := by
  rw [← harvest_failed_iff (D := D) k pos, harvest_append]
  dsimp only
  by_cases hfailed : (harvest env k pos pieces : Harvest D).failed = true
  · rw [if_pos hfailed, hfailed]
    exact iff_of_false (not_mem_front (Int.le_refl _) packet) Bool.noConfusion
  · rw [if_neg hfailed]
    let k' := (harvest env k pos pieces : Harvest D).mallocs
    obtain ⟨ok, hok, hp⟩ := h.2 (k' + 1)
    cases ho : (outcome env k' f.bytes : Outcome D) with
    | memFail =>
      have hlast : (harvest env k' (pos + span pieces) [(f.bytes, f.verdict env.abi)] : Harvest D) =
          ⟨[], k' + mallocCalls env k' f.bytes, true, 0⟩ := by
        simp only [harvest, if_neg hcrc, ho]
      rw [hlast]
      refine iff_of_false ?_ Bool.noConfusion
      rw [List.append_nil]
      exact not_mem_front (Int.le_refl _) packet
    | ignored => cases (outcome_ignored ho).2.symm.trans hp
    | rejected =>
      obtain ⟨-, -, packet', hp'⟩ := outcome_rejected ho
      cases hp'.symm.trans hp
      exact absurd rfl hok
    | accepted packet' =>
      obtain ⟨-, -, ok', -, hp'⟩ := outcome_accepted ho
      cases hp'.symm.trans hp
      have hlast : (harvest env k' (pos + span pieces) [(f.bytes, f.verdict env.abi)] : Harvest D) =
          ⟨[(pos + span pieces, packet)], k' + mallocCalls env k' f.bytes, false, 0⟩ := by
        simp only [harvest, if_neg hcrc, ho]
      rw [hlast]
      exact iff_of_true (List.mem_append_right _ List.mem_cons_self) rfl

end Push

/-- **A frame pushed behind left-over bytes is delivered exactly when the way is clear.** -/
theorem delivers_iff (st : ParserState D) {f : Frame} {packet : Packet D}
    (h : f.Accepted env packet) (info : Option (Info D))
    (hroom : st.parser.buffUse + f.bytes.length < st.parser.buffSize) :
    Delivers env st f packet info ↔ WayClear env st.parser st.world f := by
  rw [delivers_iff_queued hroom, reap_roomy hroom, WayClear, ← and_iff_right (b := _ → _) h.1,
    ← Frame.verdict_right]
  cases hdrain : drain (tailScanner env.abi) (st.parser.pending st.world) with
  | mk pieces rest =>
  have hwait := drain_rest (S := tailScanner env.abi) (st.parser.pending st.world)
  have hlen := drain_length (S := tailScanner env.abi) (st.parser.pending st.world)
  rw [hdrain] at hwait hlen
  have hspan : span pieces + rest.length = (st.parser.pending st.world).length := hlen
  dsimp only at hwait ⊢
  by_cases hstar : star ∈ rest
  · -- the frame is not reached
    obtain ⟨a, b, ys, hhead, ha, hb⟩ := h.head
    have hstall := @stalls env.abi rest ys a b ha hb hwait hstar
    rw [hhead, drain_wait hstall, List.append_nil]
    refine iff_of_false (not_mem_front ?_ packet) fun hclear => hclear.2.1 hstar
    omega
  · -- the left-over bytes, if any, are one more piece in front of it
    rw [drain_quiet (quiet_of_wait hwait hstar) f, ← List.append_assoc]
    let front := pieces ++ if rest = [] then [] else [(rest, -1)]
    have hfront : span front = span pieces + rest.length ∧
        mallocsNeeded (front ++ [(f.bytes, f.verdict env.abi)]) =
          mallocsNeeded (pieces ++ [(f.bytes, f.verdict env.abi)]) := by
      have hskip : callsNeeded (rest, -1) = 0 := rfl
      by_cases hnil : rest = []
      · simp [front, hnil]
      · simp [front, hnil, span, mallocsNeeded, hskip]
    have hend : (st.world.stream.length : Int) =
        (st.world.stream.length : Int) - (st.parser.pending st.world).length + span front := by
      rw [hfront.1]
      omega
    rw [← hfront.2]
    by_cases hcrc : f.verdict env.abi < 0
    · -- a frame with a wrong crc is skipped
      refine iff_of_false ?_ fun hclear => hclear.1 hcrc
      have hskip := skip_frame hcrc st.world.mallocs
        ((st.world.stream.length : Int) - (st.parser.pending st.world).length) front packet
      rwa [← hend] at hskip
    · have hframe := harvest_frame (D := D) h hcrc st.world.mallocs
        ((st.world.stream.length : Int) - (st.parser.pending st.world).length) front
      rw [← hend] at hframe
      rw [show pieces ++ (if rest = [] then [] else [(rest, -1)]) = front from rfl, hframe]
      exact ⟨fun hok => ⟨hcrc, hstar, hok⟩, fun hclear => hclear.2.2⟩

theorem gsvNone_accepted :
    ∃ packet : Packet Decimal, Frame.gsvNone.Accepted (.zeroed fun _ => true) packet := by
  have hsome : (Frame.gsvNone.packet Decimal (Env.zeroed fun _ => true).abi).isSome := by
    decide +kernel
  obtain ⟨packet, hpacket⟩ := Option.isSome_iff_exists.mp hsome
  exact ⟨packet, Frame.accepted_of_packet hpacket⟩

/-- The state after a chunk given to a fresh parser. -/
theorem parsed_state (c : List Byte) :
    ∃ (n : Nat) (info : Option (Info Decimal)) (st : ParserState Decimal),
      nmeaParse (.zeroed fun _ => true) ParserState.zeroed.parser c (some .zeroed)
        ParserState.zeroed.world = some (n, st.parser, info, st.world) := by
  obtain ⟨p, w, hrun, hrep⟩ := parse_spec (.zeroed fun _ => true) ParserState.zeroed.rep
    ParserState.zeroed.size_pos (some .zeroed) c
  have hpos := ParserState.zeroed.size_pos
  exact ⟨_, _, ⟨p, w, _, hrep, by rw [parse_size]; exact hpos⟩, hrun⟩

/-- The buffer holds a sentence cut off in front of its '*': the next one is delivered. -/
theorem delivers_iff_cut :
    ∃ (st : ParserState Decimal) (packet : Packet Decimal), st.parser.buffUse = 12 ∧
      (Delivers (.zeroed fun _ => true) st Frame.gsvNone packet (some .zeroed) ↔
        WayClear (.zeroed fun _ => true) st.parser st.world Frame.gsvNone) ∧
      Delivers (.zeroed fun _ => true) st Frame.gsvNone packet (some .zeroed) := by
  obtain ⟨packet, haccepted⟩ := gsvNone_accepted
  obtain ⟨n, info, st, hrun⟩ := parsed_state (cstr "$GPGSV,1,1,0")
  have hobs : (nmeaParse (.zeroed fun _ => true) ParserState.zeroed.parser (cstr "$GPGSV,1,1,0")
      (some .zeroed) ParserState.zeroed.world).map (fun r => (r.2.1.buffUse, r.2.1.buffSize,
        decide (WayClear (.zeroed fun _ => true) r.2.1 r.2.2.2 Frame.gsvNone))) =
      some (12, 1024, true) := by decide +kernel
  rw [hrun] at hobs
  obtain ⟨huse, hobs⟩ := Prod.mk.inj (Option.some.inj hobs)
  obtain ⟨hsize, hclear⟩ := Prod.mk.inj hobs
  have hroom : st.parser.buffUse + Frame.gsvNone.bytes.length < st.parser.buffSize := by
    rw [huse, hsize]
    decide
  have hiff := delivers_iff st haccepted (some .zeroed) hroom
  exact ⟨st, packet, huse, hiff, hiff.mpr (of_decide_eq_true hclear)⟩

/-- The buffer holds a sentence cut off behind its '*': the next one is not delivered. -/
theorem cut_sentence_swallows :
    ∃ (n : Nat) (info : Option (Info Decimal)) (st : ParserState Decimal) (packet : Packet Decimal),
      nmeaParse (.zeroed fun _ => true) ParserState.zeroed.parser (cstr "$GPGSV,1,1,0*")
        (some .zeroed) ParserState.zeroed.world = some (n, st.parser, info, st.world) ∧
      Frame.gsvNone.Accepted (.zeroed fun _ => true) packet ∧
      st.parser.buffUse + Frame.gsvNone.bytes.length < st.parser.buffSize ∧
      ¬ Delivers (.zeroed fun _ => true) st Frame.gsvNone packet (some .zeroed) := by
  obtain ⟨packet, haccepted⟩ := gsvNone_accepted
  obtain ⟨n, info, st, hrun⟩ := parsed_state (cstr "$GPGSV,1,1,0*")
  have hobs : ((nmeaParse (.zeroed fun _ => true) ParserState.zeroed.parser
      (cstr "$GPGSV,1,1,0*") (some .zeroed) ParserState.zeroed.world).bind fun r =>
        (nmeaParse (.zeroed fun _ => true) r.2.1 Frame.gsvNone.bytes (some .zeroed) r.2.2.2).map
          fun r' => (r.2.1.buffUse, r.2.1.buffSize, r'.2.2.2.queued.length)) =
        some (13, 1024, 0) := by decide +kernel
  rw [hrun, Option.bind_some] at hobs
  obtain ⟨⟨n', p', info', w'⟩, hrun', hobs⟩ := Option.map_eq_some_iff.mp hobs
  obtain ⟨huse, hobs⟩ := Prod.mk.inj hobs
  obtain ⟨hsize, hqueued⟩ := Prod.mk.inj hobs
  refine ⟨n, info, st, packet, hrun, haccepted, ?_, ?_⟩
  · rw [show st.parser.buffUse = 13 from huse, show st.parser.buffSize = 1024 from hsize]
    decide
  · rintro ⟨n, p₁, info₁, w₁, new, hrun₁, hnew, hmem, -⟩
    have hw : w₁ = w' := by
      have := hrun₁.symm.trans hrun'
      cases this
      rfl
    have hnil : w'.queued = [] := List.length_eq_zero_iff.mp hqueued
    rw [hw, hnil] at hnew
    rw [(List.append_eq_nil_iff.mp hnew.symm).2] at hmem
    cases hmem

end RttNmea
