import RttNmea.GenRun
import RttNmea.Resync

/-!
# From nmea_generate to nmea_parse

What nmea_generate writes is handed to nmea_parse, cycle after cycle: the packets that fit are
applied in order, and nothing is held back.
-/

namespace RttNmea

open CText Framing

variable {D : Type} [CPrint D] {env : Env}

/-! ## The packets of some lines -/

/-- What is read of packets that were printed. -/
def rereadAll (ps : List (Packet D)) : List (Packet D) :=
  (ps.filter fun p => p.Readable).map Packet.reread

theorem rereadAll_cons (p : Packet D) (ps : List (Packet D)) :
    rereadAll (p :: ps) = if p.Readable then p.reread :: rereadAll ps else rereadAll ps := by
  unfold rereadAll
  by_cases h : p.Readable <;> simp [h]

theorem rereadAll_append (ps qs : List (Packet D)) :
    rereadAll (ps ++ qs) = rereadAll ps ++ rereadAll qs := by
  unfold rereadAll
  rw [List.filter_append, List.map_append]

theorem outcome_line (hm : env.MallocSucceeds) (k : Nat) {p : Packet D} (h : p.Printable) :
    outcome env k (p.line h).frame.bytes =
      if p.Readable then .accepted p.reread else .rejected := by
  have hnode : ¬ env.mallocOk k = false := by rw [hm k]; exact Bool.noConfusion
  have hpack : ¬ env.mallocOk (k + 1) = false := by rw [hm (k + 1)]; exact Bool.noConfusion
  obtain ⟨q, hparse, hq⟩ := p.parse env.abi h (env.stack (k + 1))
  unfold outcome
  rw [if_neg hnode, hparse]
  dsimp only
  rw [if_neg hpack]
  by_cases hr : p.Readable
  · rw [if_pos hr, if_pos hr, hq hr]
    rfl
  · rw [if_neg hr, if_neg hr]
    rfl

theorem harvest_lines (hm : env.MallocSucceeds) (k : Nat) (pos : Int) {ps : List (Packet D)}
    (h : ∀ p ∈ ps, p.Printable) :
    let pieces := (ps.pmap Packet.line h).map fun l => (l.frame.bytes, l.frame.verdict env.abi)
    (harvest env k pos pieces : Harvest D).failed = false ∧
      (harvest env k pos pieces : Harvest D).accepted.map Prod.snd = rereadAll ps := by
  induction ps generalizing k pos with
  | nil => exact ⟨rfl, rfl⟩
  | cons p ps ih =>
    have hp : p.Printable := h p List.mem_cons_self
    have hverdict : ¬ (p.line hp).frame.verdict env.abi < 0 :=
      Int32.not_lt.mpr ((p.line hp).verdict_nonneg env.abi).2
    have hout := outcome_line hm k hp
    have hrest : ∀ q ∈ ps, q.Printable := fun q hq => h q (List.mem_cons_of_mem p hq)
    intro pieces
    have hpieces : pieces = ((p.line hp).frame.bytes, (p.line hp).frame.verdict env.abi) ::
        (ps.pmap Packet.line hrest).map fun l => (l.frame.bytes, l.frame.verdict env.abi) := rfl
    obtain ⟨hfailed, haccepted⟩ := ih (k + mallocCalls env k (p.line hp).frame.bytes)
      (pos + (p.line hp).frame.bytes.length) hrest
    rw [hpieces, harvest, if_neg hverdict, hout, rereadAll_cons]
    by_cases hr : p.Readable
    · rw [if_pos hr, if_pos hr]
      exact ⟨hfailed, congrArg (p.reread :: ·) haccepted⟩
    · rw [if_neg hr, if_neg hr]
      exact ⟨hfailed, haccepted⟩

/-! ## What is behind them -/

theorem PutRun.prefix {size : Nat} {ls pre : List Line} {rest : List Byte}
    (h : PutRun size ls pre rest) : pre <+: ls := by
  cases h with
  | empty => exact List.nil_prefix
  | all => exact List.prefix_rfl
  | exact _ l post heq => exact ⟨l :: post, heq.symm⟩
  | blank _ l post heq => exact ⟨l :: post, heq.symm⟩

/-- It is no sentence, and none begins in it. -/
theorem PutRun.waits {abi : Abi} {size : Nat} {ls pre : List Line} {rest : List Byte}
    (h : PutRun size ls pre rest) : (tailScanner abi).cut rest = none := by
  rw [cut_eq_none]
  cases h with
  | empty => rfl
  | all => rfl
  | exact _ l =>
    have hcut : l.frame.bytes.dropLast ++ [0] =
        dollar :: l.body ++ [star, l.frame.h1, l.frame.h2, cr, 0] := by
      have hbytes : l.frame.bytes = dollar :: l.body ++ [star, l.frame.h1, l.frame.h2, cr, lf] :=
        rfl
      rw [hbytes, List.dropLast_append_of_ne_nil (List.cons_ne_nil _ _), List.append_assoc]
      rfl
    rw [hcut, findTail_cut l.no_dollar l.no_star (by decide)]
  | blank => rw [findTail_open (quiet_blanks _)]

/-- Unless the buffer is used up, everything is in it. -/
theorem PutRun.whole {size : Nat} {ls pre : List Line} {rest : List Byte}
    (h : PutRun size ls pre rest) (hroom : (bytesOf pre ++ rest).length < size) :
    pre = ls ∧ rest = [] := by
  rw [List.length_append] at hroom
  cases h with
  | empty => omega
  | all => exact ⟨rfl, rfl⟩
  | exact _ l post heq hsize =>
    have htext := l.length_frame
    rw [List.length_append, List.length_dropLast, List.length_singleton] at hroom
    omega
  | blank =>
    rw [blanks, List.length_replicate] at hroom
    omega

theorem length_bytesOf_le {ls pre post : List Line} {l : Line} (h : ls = pre ++ l :: post) :
    (bytesOf pre).length + l.frame.bytes.length ≤ (bytesOf ls).length := by
  have hall : bytesOf ls = bytesOf pre ++ bytesOf (l :: post) := by
    rw [h]
    exact List.flatMap_append
  have hcons := length_bytesOf_cons l post
  rw [hall, List.length_append]
  omega

/-- With room for all lines and a NUL, they are all there. -/
theorem PutRun.roomy {size : Nat} {ls pre : List Line} {rest : List Byte}
    (h : PutRun size ls pre rest) (hroom : (bytesOf ls).length < size) : pre = ls ∧ rest = [] := by
  cases h with
  | empty => omega
  | all => exact ⟨rfl, rfl⟩
  | exact _ l post heq hsize =>
    have := length_bytesOf_le heq
    omega
  | blank _ l post heq =>
    have := length_bytesOf_le heq
    omega

theorem overruns_roomy {size : Nat} {ls : List Line} (hroom : (bytesOf ls).length < size) :
    ¬ Overruns size ls := by
  rintro ⟨pre, l, post, heq, -, hhigh⟩
  have := length_bytesOf_le heq
  have := l.length_frame
  omega

/-- Of a list mapped with a proof for each element, a prefix is a prefix mapped. -/
theorem pmap_prefix {α β : Type} {P : α → Prop} {f : (a : α) → P a → β} {xs : List α}
    {h : ∀ a ∈ xs, P a} {ys : List β} (hys : ys <+: xs.pmap f h) :
    ∃ (zs : List α) (hz : ∀ a ∈ zs, P a), zs <+: xs ∧ ys = zs.pmap f hz ∧
      (ys = xs.pmap f h → zs = xs) := by
  induction xs generalizing ys with
  | nil =>
    have hnil : ys = [] := List.prefix_nil.mp hys
    exact ⟨[], fun _ ha => absurd ha List.not_mem_nil, List.prefix_rfl, hnil, fun _ => rfl⟩
  | cons x xs ih =>
    cases ys with
    | nil =>
      exact ⟨[], fun _ ha => absurd ha List.not_mem_nil, List.nil_prefix, rfl,
        fun heq => List.noConfusion rfl (heq_of_eq heq)⟩
    | cons y ys =>
      obtain ⟨rfl, htail⟩ := List.cons_prefix_cons.mp hys
      have hx : P x := h x List.mem_cons_self
      have hxs : ∀ a ∈ xs, P a := fun a ha => h a (List.mem_cons_of_mem x ha)
      obtain ⟨zs, hz, hprefix, rfl, hall⟩ := ih (h := hxs) htail
      refine ⟨x :: zs, ?_, List.cons_prefix_cons.mpr ⟨rfl, hprefix⟩, rfl, ?_⟩
      · intro a ha
        rcases List.mem_cons.mp ha with rfl | ha
        · exact hx
        · exact hz a ha
      · intro heq
        exact congrArg (x :: ·) (hall (List.cons.inj heq).2)

/-! ## One cycle -/

/-- The parser holds no bytes and no packets. -/
def Drained (p : Parser) : Prop := p.buffUse = 0 ∧ p.topNode = none

omit [CPrint D] in
theorem Rep.top_none {p : Parser} {w : World D} {s : AbsParser D} (h : Rep p w s)
    (hqueue : s.queue = []) : p.topNode = none := by
  obtain ⟨b, mem, cells, rest, hh, rfl⟩ := h
  rw [hh.top, List.map_eq_nil_iff.mp hqueue]
  rfl

omit [CPrint D] in
theorem Rep.drained {p : Parser} {w : World D} {s : AbsParser D} (h : Rep p w s) :
    Drained p ↔ s.bytes = [] ∧ s.queue = [] := by
  have hbytes : s.bytes = [] ↔ p.buffUse = 0 := by
    rw [← h.use.1]
    exact List.length_eq_zero_iff.symm
  constructor
  · rintro ⟨huse, htop⟩
    exact ⟨hbytes.mpr huse, h.queue_nil htop⟩
  · rintro ⟨hnil, hqueue⟩
    exact ⟨hbytes.mp hnil, h.top_none hqueue⟩

/-- A drained parser reads the lines that are whole, and holds back what is behind them. -/
theorem parse_lines (hm : env.MallocSucceeds) {s : AbsParser D} (hbytes : s.bytes = [])
    (hqueue : s.queue = []) {ps : List (Packet D)} (h : ∀ p ∈ ps, p.Printable) {rest : List Byte}
    (hrest : (tailScanner env.abi).cut rest = none)
    (hfit : (bytesOf (ps.pmap Packet.line h) ++ rest).length ≤ s.size) (sum : Option (Info D)) :
    let r := s.parse env sum (bytesOf (ps.pmap Packet.line h) ++ rest)
    r.1 = (rereadAll ps).length ∧ r.2.2 = foldInfo sum (rereadAll ps) ∧ r.2.1.bytes = rest ∧
      r.2.1.queue = [] ∧ r.2.1.applied = s.applied ++ applyAll sum (rereadAll ps) ∧
      r.2.1.size = s.size := by
  let frames := (ps.pmap Packet.line h).map Line.frame
  have hflat : bytesOf (ps.pmap Packet.line h) = frames.flatMap Frame.bytes := by
    rw [List.flatMap_map]
    rfl
  have hsettled : s.settled env (bytesOf (ps.pmap Packet.line h) ++ rest) =
      ((ps.pmap Packet.line h).map fun l => (l.frame.bytes, l.frame.verdict env.abi), rest) := by
    rw [AbsParser.settled, input_empty hbytes, hbytes, List.nil_append, hflat, drain_frames,
      drain_wait hrest, List.append_nil, List.map_map]
    rfl
  obtain ⟨hfailed, haccepted⟩ := harvest_lines hm s.mallocs
    (s.origin (bytesOf (ps.pmap Packet.line h) ++ rest)) h
  have hreap : s.reap env (bytesOf (ps.pmap Packet.line h) ++ rest) = harvest env s.mallocs
      (s.origin (bytesOf (ps.pmap Packet.line h) ++ rest)) ((ps.pmap Packet.line h).map fun l =>
        (l.frame.bytes, l.frame.verdict env.abi)) := by
    rw [AbsParser.reap, hsettled]
  rw [← hreap] at hfailed haccepted
  have hparse := parse_reap hfit hfailed sum
  rwa [hqueue, haccepted, List.nil_append, hsettled] at hparse

variable {info : Info D} {st : ParserState D}

/-- **What nmea_generate writes, nmea_parse reads.** A drained parser that is given what
nmea_generate counts applies a first part of the packets, in order: all of them unless the buffer
was used up, without those the field parsers refuse, and with each field as it is read back from
its text. -/
theorem generate_parsed (hm : env.MallocSucceeds) (hinfo : info.Printable) {now : Time}
    {mask : Int32} {buff : List Byte} {g : GenState}
    (hgen : nmeaGenerate env.abi now buff info mask = some g) (hdrained : Drained st.parser)
    (hsize : buff.length ≤ st.parser.buffSize) (sum : Option (Info D)) :
    ∃ sent, sent <+: generated now info mask ∧
      (g.genCount < buff.length → sent = generated now info mask) ∧
      ∃ p w, nmeaParse env st.parser (g.buff.take g.genCount) sum st.world =
          some ((rereadAll sent).length, p, foldInfo sum (rereadAll sent), w) ∧
        w.applied = st.world.applied ++ applyAll sum (rereadAll sent) ∧ p.topNode = none ∧
        (g.genCount < buff.length → Drained p) := by
  obtain ⟨hlen, hcount, pre, rest, hrun, htake⟩ :=
    (generate_room hinfo env.abi now buff mask).2 g hgen
  obtain ⟨sent, hsent, hprefix, rfl, hall⟩ := pmap_prefix hrun.prefix
  have hlength : (bytesOf (sent.pmap Packet.line hsent) ++ rest).length = g.genCount := by
    rw [← htake, List.length_take_of_le (by omega)]
  have hwhole : g.genCount < buff.length → sent = generated now info mask ∧ rest = [] := by
    intro hless
    obtain ⟨hpre, hrest⟩ := hrun.whole (by omega)
    exact ⟨hall hpre, hrest⟩
  obtain ⟨hnil, hqueue⟩ := st.rep.drained.mp hdrained
  have hfit : (bytesOf (sent.pmap Packet.line hsent) ++ rest).length ≤ st.abs.size := by
    rw [st.rep.size]
    omega
  obtain ⟨hn, hsum, hbytes, hempty, happlied, -⟩ :=
    parse_lines hm hnil hqueue hsent hrun.waits hfit sum
  rw [← htake] at hn hsum hbytes hempty happlied
  obtain ⟨p, w, hparse, hrep⟩ := parse_spec env st.rep st.size_pos sum (g.buff.take g.genCount)
  refine ⟨sent, hprefix, fun hless => (hwhole hless).1, p, w, ?_, ?_,
    hrep.top_none hempty, ?_⟩
  · rw [hparse, hn, hsum]
  · rw [← hrep.logs.2.2, happlied, st.rep.logs.2.2]
  · intro hless
    rw [hrep.drained, hbytes, hempty]
    exact ⟨(hwhole hless).2, rfl⟩

/-- A parser nmea_parser_init has made, with memory for everything. -/
def ParserState.started : ParserState Rat := .fresh (.zeroed fun _ => true) .empty rfl

theorem started_drained : Drained ParserState.started.parser := ⟨rfl, rfl⟩

/-- The packets fit twice. -/
theorem generate_parsed_noon :
    let st := ParserState.started
    let buff : List Byte := List.replicate 700 0
    ∃ g, nmeaGenerate (Env.zeroed fun _ => true).abi {} buff Info.noon 0x1f = some g ∧
      ∃ sent, sent <+: generated {} Info.noon 0x1f ∧
        (g.genCount < buff.length → sent = generated {} Info.noon 0x1f) ∧
        ∃ p w, nmeaParse (.zeroed fun _ => true) st.parser (g.buff.take g.genCount) (some .zeroed)
            st.world =
              some ((rereadAll sent).length, p, foldInfo (some .zeroed) (rereadAll sent), w) ∧
          w.applied = st.world.applied ++ applyAll (some .zeroed) (rereadAll sent) ∧
          p.topNode = none ∧ (g.genCount < buff.length → Drained p) := by
  intro st buff
  have hroom : (bytesOf (generatedLines noon_printable {} 0x1f)).length < buff.length := by
    decide +kernel
  obtain ⟨hnone, -⟩ :=
    generate_room noon_printable (Env.zeroed fun _ => true).abi {} buff 0x1f
  cases hgen : nmeaGenerate (Env.zeroed fun _ => true).abi {} buff Info.noon 0x1f with
  | none => exact absurd (hnone.mp hgen) (overruns_roomy hroom)
  | some g =>
    have hsize : buff.length ≤ st.parser.buffSize := by decide +kernel
    exact ⟨g, rfl, generate_parsed (fun _ => rfl) noon_printable hgen started_drained hsize
      (some .zeroed)⟩

/-! ## Cycle after cycle -/

/-- One call of nmea_generate: the summary, nmea_time_now, the mask and the buffer. -/
structure Cycle (D : Type) where
  info : Info D
  now : Time
  mask : Int32
  buff : List Byte

namespace Cycle

def generate (abi : Abi) (c : Cycle D) : Option GenState :=
  nmeaGenerate abi c.now c.buff c.info c.mask

def packets (c : Cycle D) : List (Packet D) := generated c.now c.info c.mask

/-- No double of the summary prints as an infinity or a NaN, the sentences and a NUL fit the
buffer, and the buffer fits that of the parser. -/
structure Fits (size : Nat) (c : Cycle D) : Prop where
  printable : c.info.Printable
  room : (bytesOf (generatedLines printable c.now c.mask)).length < c.buff.length
  small : c.buff.length ≤ size

end Cycle

/-- Each cycle is generated, and what was generated is parsed. -/
def runCycles (env : Env) (p : Parser) (sum : Option (Info D)) (w : World D) :
    List (Cycle D) → Option (Nat × Parser × Option (Info D) × World D)
  | [] => some (0, p, sum, w)
  | c :: cs => do
    let g ← c.generate env.abi
    let (n, p, sum, w) ← nmeaParse env p (g.buff.take g.genCount) sum w
    let (m, p, sum, w) ← runCycles env p sum w cs
    return (n + m, p, sum, w)

theorem Cycle.Fits.generate (abi : Abi) {size : Nat} {c : Cycle D} (h : c.Fits size) :
    ∃ g, c.generate abi = some g ∧
      g.buff.take g.genCount = bytesOf (generatedLines h.printable c.now c.mask) := by
  obtain ⟨hnone, hsome⟩ := generate_room h.printable abi c.now c.buff c.mask
  cases hgen : nmeaGenerate abi c.now c.buff c.info c.mask with
  | none => exact absurd (hnone.mp hgen) (overruns_roomy h.room)
  | some g =>
    obtain ⟨-, -, pre, rest, hrun, htake⟩ := hsome g hgen
    obtain ⟨rfl, rfl⟩ := hrun.roomy h.room
    rw [List.append_nil] at htake
    exact ⟨g, hgen, htake⟩

theorem run_spec (hm : env.MallocSucceeds) {p : Parser} {w : World D} {s : AbsParser D}
    (h : Rep p w s) (hpos : 0 < s.size) (hbytes : s.bytes = []) (hqueue : s.queue = [])
    {cycles : List (Cycle D)} (hfits : ∀ c ∈ cycles, c.Fits s.size) (sum : Option (Info D)) :
    let packets := rereadAll (cycles.flatMap Cycle.packets)
    ∃ p' w' s', runCycles env p sum w cycles =
        some (packets.length, p', foldInfo sum packets, w') ∧ Rep p' w' s' ∧ s'.bytes = [] ∧
      s'.queue = [] ∧ s'.applied = s.applied ++ applyAll sum packets := by
  induction cycles generalizing p w s sum with
  | nil =>
    refine ⟨p, w, s, rfl, h, hbytes, hqueue, ?_⟩
    exact (List.append_nil _).symm
  | cons c cs ih =>
    have hc : c.Fits s.size := hfits c List.mem_cons_self
    obtain ⟨g, hgen, htake⟩ := hc.generate env.abi
    have hrest : (tailScanner env.abi).cut [] = none := cut_eq_none.mpr rfl
    have hfit : (g.buff.take g.genCount).length ≤ s.size := by
      have hroom := hc.room
      have hsmall := hc.small
      rw [htake]
      omega
    have hprintable : ∀ p ∈ c.packets, p.Printable :=
      packetsIn_printable hc.printable c.now c.mask generateOrder
    have hbuff : bytesOf (c.packets.pmap Packet.line hprintable) ++ [] =
        g.buff.take g.genCount := by
      rw [List.append_nil, htake]
      rfl
    have hlines := parse_lines hm hbytes hqueue hprintable hrest (hbuff.symm ▸ hfit) sum
    rw [hbuff] at hlines
    obtain ⟨hn, hsum, hbytes', hqueue', happlied, hsize⟩ := hlines
    obtain ⟨p₁, w₁, hparse, hrep⟩ := parse_spec env h hpos sum (g.buff.take g.genCount)
    rw [hn, hsum] at hparse
    obtain ⟨p₂, w₂, s₂, hrun, hrep₂, hnil, hempty, happlied₂⟩ := ih hrep (hsize ▸ hpos) hbytes'
      hqueue' (fun c hc => hsize ▸ hfits c (List.mem_cons_of_mem _ hc))
      (foldInfo sum (rereadAll c.packets))
    have hpackets : rereadAll ((c :: cs).flatMap Cycle.packets) =
        rereadAll c.packets ++ rereadAll (cs.flatMap Cycle.packets) := by
      rw [List.flatMap_cons, rereadAll_append]
    intro packets
    refine ⟨p₂, w₂, s₂, ?_, hrep₂, hnil, hempty, ?_⟩
    · have hfold : foldInfo sum packets =
          foldInfo (foldInfo sum (rereadAll c.packets)) (rereadAll (cs.flatMap Cycle.packets)) := by
        rw [← foldInfo_append, ← hpackets]
      have hlen : packets.length =
          (rereadAll c.packets).length + (rereadAll (cs.flatMap Cycle.packets)).length := by
        rw [← List.length_append, ← hpackets]
      rw [hfold, hlen]
      simp only [runCycles, hgen, hparse, hrun, Option.bind_eq_bind, Option.bind_some]
      rfl
    · rw [happlied₂, happlied, List.append_assoc, ← applyAll_append, ← hpackets]

/-- **Cycle after cycle, everything that is generated is applied.** The packets of all cycles come
in order, less those the field parsers refuse; each call returns the number of its own, and the
parser is drained again. -/
theorem cycles_delivered (hm : env.MallocSucceeds) (hdrained : Drained st.parser)
    {cycles : List (Cycle D)} (hfits : ∀ c ∈ cycles, c.Fits st.parser.buffSize)
    (sum : Option (Info D)) :
    let packets := rereadAll (cycles.flatMap Cycle.packets)
    ∃ p w, runCycles env st.parser sum st.world cycles =
        some (packets.length, p, foldInfo sum packets, w) ∧
      w.applied = st.world.applied ++ applyAll sum packets ∧ Drained p := by
  obtain ⟨hbytes, hqueue⟩ := st.rep.drained.mp hdrained
  obtain ⟨p, w, s, hrun, hrep, hnil, hempty, happlied⟩ :=
    run_spec hm st.rep st.size_pos hbytes hqueue (st.rep.size.symm ▸ hfits) sum
  refine ⟨p, w, hrun, ?_, hrep.drained.mpr ⟨hnil, hempty⟩⟩
  rw [← hrep.logs.2.2, happlied, st.rep.logs.2.2]

def Cycle.noon : Cycle Rat := ⟨Info.noon, {}, 0x1f, List.replicate 400 0⟩

theorem noon_fits : ∀ c ∈ [Cycle.noon, Cycle.noon], c.Fits ParserState.started.parser.buffSize := by
  have hroom : (bytesOf (generatedLines noon_printable {} 0x1f)).length <
      Cycle.noon.buff.length := by decide +kernel
  intro c hc
  have hnoon : c = Cycle.noon := by
    rcases List.mem_pair.mp hc with rfl | rfl <;> rfl
  rw [hnoon]
  exact ⟨noon_printable, hroom, by decide +kernel⟩

theorem cycles_delivered_noon :
    let st := ParserState.started
    let packets := rereadAll ([Cycle.noon, Cycle.noon].flatMap Cycle.packets)
    ∃ p w, runCycles (.zeroed fun _ => true) st.parser (some .zeroed) st.world
        [Cycle.noon, Cycle.noon] =
          some (packets.length, p, foldInfo (some .zeroed) packets, w) ∧
      w.applied = st.world.applied ++ applyAll (some .zeroed) packets ∧ Drained p :=
  cycles_delivered (fun _ => rfl) started_drained noon_fits (some .zeroed)

end RttNmea
