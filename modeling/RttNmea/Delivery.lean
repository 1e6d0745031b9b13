import RttNmea.Operations
import RttNmea.Sentence

/-!
# Delivery

With memory for every packet and a zeroed time buffer, what nmea_parse applies depends on
the bytes alone: neither the chunks they come in nor the calls made before matter. On a
stream of frames it applies the packet of each accepted frame once and in order.
-/

namespace RttNmea

open CText Framing

variable {D : Type} [CDouble D] {env : Env}

/-! ## The packet of a sentence -/

/-- The packet of a sentence with a right crc, if it is recognised and accepted. -/
def sentencePacket (D : Type) [CDouble D] (abi : Abi) (sentence : List Byte) :
    Option (Packet D) :=
  match parsePack abi (List.replicate nmeaTimeParseBuf 0) (nmeaPackType (sentence.drop 1))
    sentence with
  | some (ok, packet) => if ok = 0 then none else some packet
  | none => none

def piecePacket (D : Type) [CDouble D] (abi : Abi) (piece : List Byte × Int32) :
    Option (Packet D) :=
  if piece.2 < 0 then none else sentencePacket D abi piece.1

/-- The packet a frame carries: its checksum is right, nmea_pack_type recognises it and its
field parser accepts it. -/
def Frame.packet (D : Type) [CDouble D] (abi : Abi) (f : Frame) : Option (Packet D) :=
  if f.Valid then sentencePacket D abi f.bytes else none

theorem outcome_good (hm : env.MallocSucceeds) (hz : env.StackZeroed) (k : Nat)
    (sentence : List Byte) :
    (∃ packet, outcome env k sentence = .accepted packet ∧
      sentencePacket D env.abi sentence = some packet) ∨
    (outcome env k sentence = (.ignored : Outcome D) ∨
      outcome env k sentence = (.rejected : Outcome D)) ∧
      sentencePacket D env.abi sentence = none := by
  have hk : ¬ env.mallocOk k = false := by rw [hm k]; exact Bool.noConfusion
  have hk' : ¬ env.mallocOk (k + 1) = false := by rw [hm (k + 1)]; exact Bool.noConfusion
  unfold outcome sentencePacket
  rw [if_neg hk, hz (k + 1)]
  cases (parsePack env.abi (List.replicate nmeaTimeParseBuf 0) (nmeaPackType (sentence.drop 1))
      sentence : Option (Int32 × Packet D)) with
  | none => exact .inr ⟨.inl rfl, rfl⟩
  | some r =>
    obtain ⟨ok, packet⟩ := r
    dsimp only
    rw [if_neg hk']
    by_cases hok : ok = 0
    · rw [if_pos hok, if_pos hok]
      exact .inr ⟨.inr rfl, rfl⟩
    · rw [if_neg hok, if_neg hok]
      exact .inl ⟨packet, rfl, rfl⟩

/-- With memory for everything, a row of pieces yields the packets of its sentences. -/
theorem harvest_good (hm : env.MallocSucceeds) (hz : env.StackZeroed) (k : Nat) (pos : Int)
    (pieces : List (List Byte × Int32)) :
    (harvest env k pos pieces : Harvest D).failed = false ∧
      (harvest env k pos pieces).accepted.map Prod.snd =
        pieces.filterMap (piecePacket D env.abi) := by
  induction pieces generalizing k pos with
  | nil => exact ⟨rfl, rfl⟩
  | cons piece pieces ih =>
    obtain ⟨sentence, crc⟩ := piece
    rw [List.filterMap_cons]
    simp only [harvest, piecePacket]
    by_cases hcrc : crc < 0
    · rw [if_pos hcrc, if_pos hcrc]
      exact ih _ _
    · rw [if_neg hcrc, if_neg hcrc]
      have next := ih (k + mallocCalls env k sentence) (pos + sentence.length)
      rcases outcome_good (D := D) hm hz k sentence with
        ⟨packet, ho, hp⟩ | ⟨ho | ho, hp⟩ <;> rw [ho, hp]
      · exact ⟨next.1, congrArg (packet :: ·) next.2⟩
      · exact next
      · exact next

/-! ## Pushes that leave room -/

/-- The push does not fill the buffer. -/
def Roomy (p : Parser) (_ : World D) (c : List Byte) : Prop := p.buffUse + c.length < p.buffSize

/-- Each chunk, with what was held back before it, leaves room in the buffer. -/
def Fits (abi : Abi) (size : Nat) (rest : List Byte) : List (List Byte) → Prop
  | [] => True
  | c :: cs => rest.length + c.length < size ∧
      Fits abi size (drain (tailScanner abi) (rest ++ c)).2 cs

omit [CDouble D] in
theorem input_roomy {s : AbsParser D} {c : List Byte} (hroom : s.bytes.length + c.length < s.size) :
    s.input c = s.bytes ++ c := by
  unfold AbsParser.input
  rw [if_neg (by omega)]

omit [CDouble D] in
theorem input_empty {s : AbsParser D} (hempty : s.bytes = []) (c : List Byte) :
    s.input c = s.bytes ++ c := by
  unfold AbsParser.input
  rw [hempty, ite_self]

/-- One call of nmea_parse, all of its chunk kept and no rt_malloc of the push failing. -/
theorem parse_reap {s : AbsParser D} {c : List Byte} (hfit : c.length ≤ s.size)
    (hfailed : (s.reap env c).failed = false) (info : Option (Info D)) :
    let packets := s.queue ++ (s.reap env c).accepted.map Prod.snd
    let r := s.parse env info c
    r.1 = packets.length ∧ r.2.2 = foldInfo info packets ∧
      r.2.1.bytes = (s.settled env c).2 ∧ r.2.1.queue = [] ∧
      r.2.1.applied = s.applied ++ applyAll info packets ∧ r.2.1.size = s.size := by
  intro packets r
  have hpush : (s.push env c).2 = (s.realPush env c).2 := push_small hfit
  have hqueue : (s.push env c).2.queue = packets := by
    rw [hpush]
    rfl
  have hbytes : (s.push env c).2.bytes = (s.settled env c).2 := by
    rw [hpush]
    show (if (s.reap env c).failed then s.input c else (s.settled env c).2) = _
    rw [hfailed]
    rfl
  have happlied : (s.push env c).2.applied = s.applied := by
    rw [hpush]
    rfl
  refine ⟨?_, ?_, hbytes, rfl, ?_, parse_size s info c⟩
  · exact congrArg List.length hqueue
  · exact congrArg (foldInfo info) hqueue
  · show (s.push env c).2.applied ++ applyAll info (s.push env c).2.queue = _
    rw [happlied, hqueue]

/-- One call of nmea_parse, all of its chunk kept and all memory there. -/
theorem parse_good (hm : env.MallocSucceeds) (hz : env.StackZeroed) {s : AbsParser D}
    {c : List Byte} (hinput : s.input c = s.bytes ++ c) (hfit : c.length ≤ s.size)
    (info : Option (Info D)) :
    let d := drain (tailScanner env.abi) (s.bytes ++ c)
    let packets := s.queue ++ d.1.filterMap (piecePacket D env.abi)
    let r := s.parse env info c
    r.1 = packets.length ∧ r.2.2 = foldInfo info packets ∧ r.2.1.bytes = d.2 ∧
      r.2.1.queue = [] ∧ r.2.1.applied = s.applied ++ applyAll info packets ∧
      r.2.1.size = s.size := by
  intro d packets r
  obtain ⟨hfailed, haccepted⟩ :=
    harvest_good (D := D) hm hz s.mallocs (s.origin c) (s.settled env c).1
  have hsettled : s.settled env c = d := congrArg (drain (tailScanner env.abi)) hinput
  have hqueue : s.queue ++ (s.reap env c).accepted.map Prod.snd = packets := by
    rw [AbsParser.reap, haccepted, hsettled]
  have := parse_reap hfit hfailed info
  rwa [hqueue, hsettled] at this

/-- **A run delivers what one pass over its bytes delivers.** -/
theorem parseAll_good (hm : env.MallocSucceeds) (hz : env.StackZeroed) {s : AbsParser D}
    {chunks : List (List Byte)} (hfits : Fits env.abi s.size s.bytes chunks)
    (hqueue : chunks ≠ [] ∨ s.queue = []) (info : Option (Info D)) :
    let d := feed (tailScanner env.abi) s.bytes chunks
    let packets := s.queue ++ d.1.filterMap (piecePacket D env.abi)
    let r := s.parseAll env info chunks
    r.1 = packets.length ∧ r.2.2 = foldInfo info packets ∧ r.2.1.bytes = d.2 ∧
      r.2.1.queue = [] ∧ r.2.1.applied = s.applied ++ applyAll info packets := by
  induction chunks generalizing s info with
  | nil =>
    have hnil : s.queue = [] := hqueue.resolve_left fun h => h rfl
    simp [AbsParser.parseAll, feed, hnil, foldInfo, applyAll]
  | cons c cs ih =>
    have hfit : c.length ≤ s.size := Nat.le_trans (Nat.le_add_left _ _) (Nat.le_of_lt hfits.1)
    obtain ⟨hn, hinfo, hbytes, hempty, happlied, hsize⟩ :=
      parse_good hm hz (input_roomy hfits.1) hfit info
    have hrest : Fits env.abi (s.parse env info c).2.1.size (s.parse env info c).2.1.bytes cs := by
      rw [hsize, hbytes]
      exact hfits.2
    obtain ⟨hn', hinfo', hbytes', hempty', happlied'⟩ :=
      ih hrest (.inr hempty) (s.parse env info c).2.2
    rw [hempty, hbytes, List.nil_append] at hn' hinfo' happlied'
    rw [hbytes] at hbytes'
    simp only [AbsParser.parseAll, feed, List.filterMap_append]
    rw [← List.append_assoc]
    refine ⟨?_, ?_, hbytes', hempty', ?_⟩
    · rw [hn, hn', ← List.length_append]
    · rw [hinfo', hinfo, ← foldInfo_append]
    · rw [happlied', happlied, hinfo, applyAll_append info (s.queue ++ _), List.append_assoc]

/-- A run whose pushes all leave room. -/
theorem fits_of_roomy (hm : env.MallocSucceeds) (hz : env.StackZeroed) {p : Parser} {w : World D}
    {s : AbsParser D} (h : Rep p w s) (hpos : 0 < s.size) {chunks : List (List Byte)}
    {info : Option (Info D)} (hok : EveryPush env Roomy p info w chunks) :
    Fits env.abi s.size s.bytes chunks := by
  induction chunks generalizing p w s info with
  | nil => trivial
  | cons c cs ih =>
    have hroom : s.bytes.length + c.length < s.size := by
      have hpush := hok.1
      rw [← h.size] at hpush
      by_cases hlarge : s.size < c.length
      · -- the first slice alone would fill the buffer
        rw [sliceSizes_large hpos hlarge] at hpush
        have hfirst : p.buffUse + (c.take s.size).length < p.buffSize := hpush.1
        rw [List.length_take, ← h.size] at hfirst
        omega
      · rw [sliceSizes_small (Nat.not_lt.mp hlarge), List.map_singleton, List.take_length] at hpush
        have hfirst : p.buffUse + c.length < p.buffSize := hpush.1
        rwa [h.use.1, h.size]
    obtain ⟨p₁, w₁, hrun, h₁⟩ := parse_spec env h hpos info c
    obtain ⟨-, -, hbytes, -, -, hsize⟩ :=
      parse_good hm hz (input_roomy hroom) (Nat.le_trans (Nat.le_add_left _ _) hroom.le) info
    refine ⟨hroom, ?_⟩
    have := ih h₁ (by rw [hsize]; exact hpos) (hok.2 _ _ _ _ hrun)
    rwa [hsize, hbytes] at this

/-! ## Chunking -/

/-- **Chunking does not matter.** Two ways of cutting the same bytes into chunks whose pushes
all leave room: the same packets are applied with the same summaries after them, the calls
return the same total, and the same bytes are held back. -/
theorem chunking_irrelevant (hm : env.MallocSucceeds) (hz : env.StackZeroed) (st : ParserState D)
    (info : Option (Info D)) {cs cs' : List (List Byte)} (hsame : cs.flatten = cs'.flatten)
    (hcalls : cs = [] ↔ cs' = []) (hroom : EveryPush env Roomy st.parser info st.world cs)
    (hroom' : EveryPush env Roomy st.parser info st.world cs') :
    ∃ n info' p p' w w', parseAll env st.parser info st.world cs = some (n, p, info', w) ∧
      parseAll env st.parser info st.world cs' = some (n, p', info', w') ∧
      w.applied = w'.applied ∧ p.pending w = p'.pending w' := by
  by_cases hnil : cs = []
  · have hnil' := hcalls.mp hnil
    subst hnil hnil'
    exact ⟨0, info, _, _, _, _, rfl, rfl, rfl, rfl⟩
  · have hnil' : cs' ≠ [] := fun h => hnil (hcalls.mpr h)
    have hfeed : feed (tailScanner env.abi) st.abs.bytes cs =
        feed (tailScanner env.abi) st.abs.bytes cs' := by
      rw [feed_eq_drain _ _ hnil, feed_eq_drain _ _ hnil', hsame]
    obtain ⟨p, w, hrun, hrep⟩ := parseAll_spec env st.rep st.size_pos info cs
    obtain ⟨p', w', hrun', hrep'⟩ := parseAll_spec env st.rep st.size_pos info cs'
    obtain ⟨hn, hinfo, hbytes, -, happlied⟩ :=
      parseAll_good hm hz (fits_of_roomy hm hz st.rep st.size_pos hroom) (.inl hnil) info
    obtain ⟨hn', hinfo', hbytes', -, happlied'⟩ :=
      parseAll_good hm hz (fits_of_roomy hm hz st.rep st.size_pos hroom') (.inl hnil') info
    rw [← hfeed] at hn' hinfo' hbytes' happlied'
    refine ⟨_, _, p, p', w, w', hrun, ?_, ?_, ?_⟩
    · rw [hrun', hn', hinfo', ← hn, ← hinfo]
    · rw [← hrep.logs.2.2, ← hrep'.logs.2.2, happlied, happlied']
    · rw [hrep.pending, hrep'.pending, hbytes, hbytes']

/-- The bytes of one frame, at once and in two chunks. -/
theorem chunking_irrelevant_gsv :
    let st := ParserState.zeroed
    ∃ n info' p p' w w',
      parseAll (.zeroed fun _ => true) st.parser (some .zeroed) st.world [Frame.gsvNone.bytes] =
        some (n, p, info', w) ∧
      parseAll (.zeroed fun _ => true) st.parser (some .zeroed) st.world
        [Frame.gsvNone.bytes.take 8, Frame.gsvNone.bytes.drop 8] = some (n, p', info', w') ∧
      w.applied = w'.applied ∧ p.pending w = p'.pending w' := by
  apply chunking_irrelevant (fun _ => rfl) (fun _ => rfl)
    .zeroed
  · simp
  · simp
  · refine ⟨?_, fun _ _ _ _ _ => trivial⟩
    rw [sliceSizes_small (by decide)]
    refine ⟨?_, fun _ _ _ _ => trivial⟩
    show _ < _
    decide
  · refine ⟨?_, ?_⟩
    · rw [sliceSizes_small (by decide)]
      refine ⟨?_, fun _ _ _ _ => trivial⟩
      show _ < _
      decide
    · intro n p info w hrun
      have hstate : some (p.buffUse, p.buffSize) = some (8, 1024) := by
        refine (congrArg (Option.map fun r => (r.2.1.buffUse, r.2.1.buffSize)) hrun).symm.trans ?_
        decide +kernel
      obtain ⟨huse, hsize⟩ := Prod.mk.inj (Option.some.inj hstate)
      refine ⟨?_, fun _ _ _ _ _ => trivial⟩
      rw [hsize, sliceSizes_small (by decide)]
      refine ⟨?_, fun _ _ _ _ => trivial⟩
      show p.buffUse + _ < p.buffSize
      rw [huse, hsize]
      decide

/-! ## Streams of frames -/

theorem frame_packets (abi : Abi) {frames : List Frame} (hseven : ∀ f ∈ frames, f.SevenBit) :
    (frames.map fun f => (f.bytes, f.verdict abi)).filterMap (piecePacket D abi) =
      frames.filterMap (Frame.packet D abi) := by
  rw [List.filterMap_map]
  apply List.filterMap_congr
  intro f hf
  show (if f.verdict abi < 0 then none else sentencePacket D abi f.bytes) = f.packet D abi
  have hvalid := Frame.valid_iff abi (hseven f hf)
  unfold Frame.packet
  by_cases hv : f.Valid
  · rw [if_pos hv, if_neg (fun h => f.verdict_neg.mp h (hvalid.mp hv))]
  · rw [if_neg hv, if_pos (f.verdict_neg.mpr fun h => hv (hvalid.mpr h))]

/-- Chunks of a stream of short frames leave room. -/
theorem fits_of_frames {abi : Abi} {frames : List Frame} {bound : Nat} (hbound : bound ≤ 256)
    (hlen : ∀ f ∈ frames, f.bytes.length ≤ bound) {before : List Byte} {chunks : List (List Byte)}
    (hcut : before ++ chunks.flatten <+: frames.flatMap Frame.bytes)
    (hchunk : ∀ c ∈ chunks, c.length ≤ nmeaDefParseBuff - bound) :
    Fits abi nmeaDefParseBuff (drain (tailScanner abi) before).2 chunks := by
  have hsize : nmeaDefParseBuff = 1024 := rfl
  induction chunks generalizing before with
  | nil => trivial
  | cons c cs ih =>
    rw [List.flatten_cons, ← List.append_assoc] at hcut
    have hbefore : before <+: frames.flatMap Frame.bytes :=
      (List.prefix_append _ _).trans ((List.prefix_append _ _).trans hcut)
    constructor
    · have hc := hchunk c List.mem_cons_self
      rcases held_back_lt abi hlen hbefore with h | h
      · rw [h, List.length_nil]
        cases frames with
        | nil =>
          have hnil := (List.append_eq_nil_iff.mp (List.prefix_nil.mp hcut)).1
          rw [(List.append_eq_nil_iff.mp hnil).2, List.length_nil]
          omega
        | cons f fs =>
          have := hlen f List.mem_cons_self
          rw [f.length_bytes] at this
          omega
      · omega
    · have hdrain : (drain (tailScanner abi) ((drain (tailScanner abi) before).2 ++ c)).2 =
          (drain (tailScanner abi) (before ++ c)).2 := by
        rw [drain_append before c]
      rw [hdrain]
      exact ih hcut fun d hd => hchunk d (List.mem_cons_of_mem _ hd)

/-- **Exactly-once, in-order delivery.** 7-bit frames of at most `bound` bytes, cut into chunks that
leave room for one more frame, on a fresh parser: the packets applied are those of the
accepted frames, the calls return their number, the summary is the fold of the updates over
them, and queue and byte buffer end empty. -/
theorem frames_delivered (hm : env.MallocSucceeds) (hz : env.StackZeroed) (w : World D)
    (info : Option (Info D)) {frames : List Frame} (hseven : ∀ f ∈ frames, f.SevenBit)
    {bound : Nat} (hbound : bound ≤ 256) (hlen : ∀ f ∈ frames, f.bytes.length ≤ bound)
    {chunks : List (List Byte)} (hcut : chunks.flatten = frames.flatMap Frame.bytes)
    (hchunk : ∀ c ∈ chunks, c.length ≤ nmeaDefParseBuff - bound) :
    let packets := frames.filterMap (Frame.packet D env.abi)
    ∃ p w', parseAll env (nmeaParserInit env w).2.1 info (nmeaParserInit env w).2.2 chunks =
        some (packets.length, p, foldInfo info packets, w') ∧
      w'.applied = w.applied ++ applyAll info packets ∧ p.topNode = none ∧ p.buffUse = 0 := by
  intro packets
  obtain ⟨-, hinit⟩ := init_spec w (hm w.mallocs)
  have hpos : 0 < (AbsParser.start w).size := Nat.zero_lt_succ _
  have hfits : Fits env.abi nmeaDefParseBuff (drain (tailScanner env.abi) []).2 chunks :=
    fits_of_frames hbound hlen (hcut ▸ List.prefix_rfl) hchunk
  obtain ⟨p, w', hrun, hrep⟩ := parseAll_spec env hinit hpos info chunks
  obtain ⟨hn, hinfo, hbytes, hqueue, happlied⟩ :=
    parseAll_good (s := .start w) hm hz hfits (.inr rfl) info
  -- one pass over all frames settles every one of them
  have hfeed : feed (tailScanner env.abi) [] chunks =
      (frames.map (fun f => (f.bytes, f.verdict env.abi)), []) := by
    by_cases hnil : chunks = []
    · subst hnil
      have hframes : frames = [] := by
        cases frames with
        | nil => rfl
        | cons f fs => cases hcut
      subst hframes
      rfl
    · rw [feed_eq_drain _ _ hnil, hcut, List.nil_append]
      have := drain_frames env.abi frames []
      rw [List.append_nil] at this
      rw [this, drain_wait (cut_eq_none.mpr rfl), List.append_nil]
  have hpackets : (AbsParser.start w).queue ++ List.filterMap (piecePacket D env.abi)
      (feed (tailScanner env.abi) (AbsParser.start w).bytes chunks).1 = packets := by
    show [] ++ List.filterMap _ (feed (tailScanner env.abi) [] chunks).1 = packets
    rw [hfeed, List.nil_append, frame_packets env.abi hseven]
  rw [hpackets] at hn hinfo happlied
  have hrest : (feed (tailScanner env.abi) (AbsParser.start w).bytes chunks).2 = [] :=
    congrArg Prod.snd hfeed
  refine ⟨p, w', ?_, ?_, ?_, ?_⟩
  · rw [hrun, hn, hinfo]
  · rw [← hrep.logs.2.2, happlied]
    rfl
  · obtain ⟨b, mem, cells, rest, hh, hs⟩ := hrep
    have hcells : cells.map Cell.packet = [] := by
      rw [← hqueue, hs]
      rfl
    rw [hh.top, List.map_eq_nil_iff.mp hcells]
    rfl
  · rw [← hrep.use.1, hbytes, hrest]
    rfl

/-- One frame, in two chunks. -/
theorem frames_delivered_gsv :
    let packets := [Frame.gsvNone].filterMap (Frame.packet Decimal ⟨false, 32, le_rfl⟩)
    packets.length = 1 ∧
    ∃ p w', parseAll (.zeroed fun _ => true)
        (nmeaParserInit (D := Decimal) (.zeroed fun _ => true) .empty).2.1 (some .zeroed)
        (nmeaParserInit (D := Decimal) (.zeroed fun _ => true) .empty).2.2
        [Frame.gsvNone.bytes.take 8, Frame.gsvNone.bytes.drop 8] =
          some (packets.length, p, foldInfo (some .zeroed) packets, w') ∧
      w'.applied = [] ++ applyAll (some .zeroed) packets ∧ p.topNode = none ∧ p.buffUse = 0 := by
  refine ⟨by decide +kernel, ?_⟩
  have hseven : ∀ f ∈ [Frame.gsvNone], f.SevenBit := by decide
  have hbound : 17 ≤ 256 := by decide
  apply frames_delivered (fun _ => rfl) (fun _ => rfl) .empty (some .zeroed) hseven hbound
  · decide
  · decide
  · decide

end RttNmea
