import RttNmea.Representation

/-!
# The parser on its heap refines the parser without it

`Rep` relates a parser and its world to an `AbsParser`. Each operation of the code, started
in a represented state, runs without a fault and ends in the state its abstract
counterpart gives; the blocks that belong to nothing are counted as leaks.
-/

namespace RttNmea

open CText Framing

variable {D : Type} [CDouble D] {env : Env}

/-! ## The parse loop -/

theorem copyDown_take (mem : List Byte) (off n use : Nat) (hn : n = use - off)
    (huse : use ≤ mem.length) : (copyDown mem off n).take n = (mem.take use).drop off := by
  rw [copyDown, List.take_append_of_le_length (by simp; omega), List.take_of_length_le (by simp),
    List.drop_take, hn]

theorem copyDown_length (mem : List Byte) (off n : Nat) (h : off + n ≤ mem.length) :
    (copyDown mem off n).length = mem.length := by
  simp only [copyDown, List.length_append, List.length_take, List.length_drop]
  omega

section Turn

variable (env) (fuel : Nat) {b : Addr} {mem unread : List Byte} {nparsed n : Nat} {crc : Int32}
  {p : Parser} {w : World D}

/-- The turn that waits: the unread bytes are moved to the front. -/
theorem pushLoop_wait (hload : w.loadBytes b = some mem)
    (hunread : (mem.take p.buffUse).drop nparsed = unread)
    (hfind : (nmeaFindTail env.abi unread).1 = 0) :
    pushLoop env b (fuel + 1) nparsed p w =
      if nparsed = 0 then some (0, p, w)
      else (w.store b (.bytes (copyDown mem nparsed (p.buffUse - nparsed)))).map fun w =>
        ((nparsed : Int), { p with buffUse := p.buffUse - nparsed }, w) := by
  simp only [pushLoop, hload, hunread, Option.bind_eq_bind, Option.bind_some, hfind, ↓reduceIte]
  split
  · rfl
  · cases w.store b _ <;> rfl

/-- The turn that skips: to a '$', or past a sentence with a wrong crc. -/
theorem pushLoop_skip (hload : w.loadBytes b = some mem)
    (hunread : (mem.take p.buffUse).drop nparsed = unread)
    (hfind : nmeaFindTail env.abi unread = (n, crc)) (hn : n ≠ 0) (hcrc : crc < 0) :
    pushLoop env b (fuel + 1) nparsed p w = pushLoop env b fuel (nparsed + n) p w := by
  simp only [pushLoop, hload, hunread, Option.bind_eq_bind, Option.bind_some, hfind, hn,
    ↓reduceIte, Int32.not_le.mpr hcrc]

/-- The turn that takes a sentence with a right crc. -/
theorem pushLoop_sentence (hload : w.loadBytes b = some mem)
    (hunread : (mem.take p.buffUse).drop nparsed = unread)
    (hfind : nmeaFindTail env.abi unread = (n, crc)) (hn : n ≠ 0) (hcrc : ¬ crc < 0)
    {ok : Bool} {p' : Parser} {w' : World D}
    (hq : queueSentence env ((w.stream.length : Int) - p.buffUse + nparsed)
      (nmeaPackType ((unread.take n).drop 1)) (unread.take n) p w = some (ok, p', w')) :
    pushLoop env b (fuel + 1) nparsed p w =
      if ok then pushLoop env b fuel (nparsed + n) p' w' else some (-1, p', w') := by
  have hcrc := Int32.not_lt.mp hcrc
  rw [← packType_sentence hfind hn hcrc] at hq
  simp only [pushLoop, hload, hunread, Option.bind_eq_bind, Option.bind_some, hfind, hn,
    ↓reduceIte, hcrc, hq, Option.pure_def]

end Turn

/-- **The parse loop settles what `drain` settles and harvests it.** -/
theorem pushLoop_spec (env : Env) {b : Addr} {mem : List Byte} (unread : List Byte) {fuel nparsed : Nat}
    {p : Parser} {w : World D} {cells : List (Cell D)} {spare : List Addr}
    (hh : Holds p w.heap b mem cells spare) (hn : nparsed ≤ p.buffUse)
    (hunread : unread = (mem.take p.buffUse).drop nparsed) (hfuel : unread.length < fuel) :
    let d := drain (tailScanner env.abi) unread
    let h : Harvest D :=
      harvest env w.mallocs ((w.stream.length : Int) - p.buffUse + nparsed) d.1
    ∃ p' heap mem' new extra,
      pushLoop env b fuel nparsed p w =
        some (if h.failed then -1 else (p.buffUse : Int) - d.2.length, p',
          { w with heap := heap, mallocs := h.mallocs, queued := w.queued ++ h.accepted }) ∧
      Holds p' heap b mem' (cells ++ new) (extra ++ spare) ∧
      new.map Cell.packet = h.accepted.map Prod.snd ∧
      extra.length = h.leaked ∧ p'.buffSize = p.buffSize ∧
      mem'.take p'.buffUse = if h.failed then mem.take p.buffUse else d.2 := by
  have hlen : (mem.take p.buffUse).length = p.buffUse := by
    rw [List.length_take, hh.length]
    exact Nat.min_eq_left hh.use
  have hload : w.loadBytes b = some mem := by simp [World.loadBytes, hh.bytes]
  have hmem := hh.length
  have huse := hh.use
  induction unread using drain_induction (S := tailScanner env.abi)
    generalizing fuel nparsed p w cells spare with
  | wait xs hcut =>
    obtain ⟨fuel, rfl⟩ : ∃ f, fuel = f + 1 := ⟨fuel - 1, by omega⟩
    have hrun := pushLoop_wait env fuel hload hunread.symm (cut_eq_none.mp hcut)
    have hxlen : xs.length = p.buffUse - nparsed := by rw [hunread, List.length_drop, hlen]
    have hret : (p.buffUse : Int) - xs.length = nparsed := by omega
    rw [drain_wait hcut]
    simp only [harvest, List.append_nil, Bool.false_eq_true, ↓reduceIte, List.map_nil, hret]
    by_cases h0 : nparsed = 0
    · rw [if_pos h0] at hrun
      refine ⟨p, w.heap, mem, [], [], ?_, by simpa using hh, rfl, rfl, rfl, ?_⟩
      · rw [hrun, h0]
        rfl
      · rw [hunread, h0, List.drop_zero]
    · obtain ⟨heap, hs, hh'⟩ := hh.write (copyDown mem nparsed (p.buffUse - nparsed))
        { p with buffUse := p.buffUse - nparsed } rfl
        (by rw [copyDown_length _ _ _ (by omega), hmem]) (Nat.le_trans (Nat.sub_le _ _) huse)
      rw [if_neg h0] at hrun
      refine ⟨{ p with buffUse := p.buffUse - nparsed }, heap,
        copyDown mem nparsed (p.buffUse - nparsed), [], [], ?_, by simpa using hh', rfl, rfl,
        rfl, ?_⟩
      · rw [hrun, World.store, hs]
        rfl
      · rw [hunread]
        exact copyDown_take _ _ _ _ rfl (by omega)
  | take xs n crc hcut ih =>
    obtain ⟨fuel, rfl⟩ : ∃ f, fuel = f + 1 := ⟨fuel - 1, by omega⟩
    obtain ⟨hfind, hn0⟩ := cut_eq_some.mp hcut
    have hle := (tailScanner env.abi).le hcut
    have hxlen : xs.length = p.buffUse - nparsed := by rw [hunread, List.length_drop, hlen]
    have hnext : xs.drop n = (mem.take p.buffUse).drop (nparsed + n) := by
      rw [hunread, List.drop_drop]
    have hshort : (xs.drop n).length < fuel := by
      rw [List.length_drop]
      omega
    have htake : ((xs.take n).length : Int) = n := by
      rw [List.length_take]
      exact congrArg _ (Nat.min_eq_left hle)
    have hpos : ∀ x : Int, x + ((nparsed + n : Nat) : Int) = x + nparsed + n := by
      intro x
      push_cast
      omega
    rw [drain_take hcut]
    simp only [harvest, htake]
    by_cases hcrc : crc < 0
    · have := ih hh (by omega) hnext hshort hlen hload hmem huse
      simp only [hpos] at this
      rw [if_pos hcrc, pushLoop_skip env fuel hload hunread.symm hfind hn0 hcrc]
      exact this
    · rw [if_neg hcrc]
      have turn := @pushLoop_sentence D _ env fuel _ _ _ _ _ _ _ _ hload hunread.symm hfind hn0 hcrc
      cases ho : (outcome env w.mallocs (xs.take n) : Outcome D) with
      | memFail =>
        obtain ⟨heap, hq, hh'⟩ := queueSentence_memFail _ hh ho
        refine ⟨p, heap, mem, [], [], ?_, by simpa using hh', rfl, rfl, rfl, rfl⟩
        rw [turn hq]
        simp
      | ignored =>
        obtain ⟨heap, hq, hh'⟩ := queueSentence_ignored _ hh ho
        have := ih (w := { w with
            heap := heap, mallocs := w.mallocs + mallocCalls env w.mallocs (xs.take n) })
          hh' (by omega) hnext hshort hlen (by simp [World.loadBytes, hh'.bytes]) hmem huse
        simp only [hpos] at this
        rw [turn hq, if_pos rfl]
        exact this
      | rejected =>
        obtain ⟨heap, pack, hq, hh'⟩ := queueSentence_rejected _ hh ho
        have := ih (w := { w with
            heap := heap, mallocs := w.mallocs + mallocCalls env w.mallocs (xs.take n) })
          hh' (by omega) hnext hshort hlen (by simp [World.loadBytes, hh'.bytes]) hmem huse
        simp only [hpos] at this
        obtain ⟨p', heap', mem', new, extra, hrun, hh'', hnew, hextra, hsize, hbytes⟩ := this
        refine ⟨p', heap', mem', new, extra ++ [pack], ?_, ?_, hnew, ?_, hsize, hbytes⟩
        · rw [turn hq, if_pos rfl]
          exact hrun
        · simpa using hh''
        · simp [hextra]
      | accepted packet =>
        obtain ⟨heap, p₁, c, hq, hh', hc, huse₁, hsize₁⟩ := queueSentence_accepted _ hh ho
        have := ih (p := p₁) (w := { w with
            heap := heap
            mallocs := w.mallocs + mallocCalls env w.mallocs (xs.take n)
            queued := w.queued ++
              [((w.stream.length : Int) - p.buffUse + nparsed, packet)] })
          hh' (by omega) (huse₁ ▸ hnext) hshort (huse₁ ▸ hlen)
          (by simp [World.loadBytes, hh'.bytes]) hh'.length hh'.use
        simp only [hpos, huse₁, hsize₁] at this
        obtain ⟨p', heap', mem', new, extra, hrun, hh'', hnew, hextra, hsize, hbytes⟩ := this
        refine ⟨p', heap', mem', c :: new, extra, ?_, ?_, ?_, hextra, hsize, hbytes⟩
        · rw [turn hq, if_pos rfl, hrun]
          simp
        · simpa using hh''
        · simp [hc, hnew]

/-! ## The relation -/

section Relation

omit [CDouble D]

/-- What is left of the state when the heap is forgotten. -/
def forget (p : Parser) (w : World D) (mem : List Byte) (cells : List (Cell D))
    (rest : List Addr) : AbsParser D where
  size := p.buffSize
  bytes := mem.take p.buffUse
  queue := cells.map Cell.packet
  mallocs := w.mallocs
  leaks := rest.length
  stream := w.stream
  queued := w.queued
  applied := w.applied

/-- The parser and its heap hold what `s` says, and no block but those of the buffer, of the
queue, and the leaked ones. -/
def Rep (p : Parser) (w : World D) (s : AbsParser D) : Prop :=
  ∃ b mem cells rest, Holds p w.heap b mem cells rest ∧ s = forget p w mem cells rest

theorem Rep.size {p : Parser} {w : World D} {s : AbsParser D} (h : Rep p w s) :
    s.size = p.buffSize := by
  obtain ⟨b, mem, cells, rest, -, rfl⟩ := h
  rfl

theorem Rep.use {p : Parser} {w : World D} {s : AbsParser D} (h : Rep p w s) :
    s.bytes.length = p.buffUse ∧ p.buffUse ≤ p.buffSize := by
  obtain ⟨b, mem, cells, rest, hh, rfl⟩ := h
  refine ⟨?_, hh.use⟩
  show (mem.take p.buffUse).length = _
  rw [List.length_take, hh.length]
  exact Nat.min_eq_left hh.use

/-- The bytes of the buffer that are in use. -/
def Parser.pending (p : Parser) (w : World D) : List Byte :=
  ((p.buffer.bind w.loadBytes).getD []).take p.buffUse

theorem Rep.pending {p : Parser} {w : World D} {s : AbsParser D} (h : Rep p w s) :
    p.pending w = s.bytes := by
  obtain ⟨b, mem, cells, rest, hh, rfl⟩ := h
  have hload : w.loadBytes b = some mem := by simp [World.loadBytes, hh.bytes]
  rw [Parser.pending, hh.buffer, Option.bind_some, hload]
  rfl

theorem Rep.mallocs {p : Parser} {w : World D} {s : AbsParser D} (h : Rep p w s) :
    s.mallocs = w.mallocs := by
  obtain ⟨b, mem, cells, rest, -, rfl⟩ := h
  rfl

theorem Rep.logs {p : Parser} {w : World D} {s : AbsParser D} (h : Rep p w s) :
    s.stream = w.stream ∧ s.queued = w.queued ∧ s.applied = w.applied := by
  obtain ⟨b, mem, cells, rest, -, rfl⟩ := h
  exact ⟨rfl, rfl, rfl⟩

theorem Rep.queue_nil {p : Parser} {w : World D} {s : AbsParser D} (h : Rep p w s)
    (htop : p.topNode = none) : s.queue = [] := by
  obtain ⟨b, mem, cells, rest, hh, rfl⟩ := h
  have hcells : cells.head? = none := Option.map_eq_none_iff.mp (hh.top.symm.trans htop)
  show cells.map Cell.packet = []
  rw [List.head?_eq_none_iff.mp hcells]
  rfl

/-- The state nmea_parser_init leaves, on a world whose blocks it does not own. -/
def AbsParser.start (w : World D) : AbsParser D where
  size := nmeaDefParseBuff
  bytes := []
  queue := []
  mallocs := w.mallocs + 1
  leaks := w.heap.live.length
  stream := w.stream
  queued := w.queued
  applied := w.applied

/-- A parser as its own functions leave it, with a buffer that is not empty. -/
structure ParserState (D : Type) where
  parser : Parser
  world : World D
  abs : AbsParser D
  rep : Rep parser world abs
  size_pos : 0 < abs.size

theorem init_spec (w : World D) (hk : env.mallocOk w.mallocs = true) :
    (nmeaParserInit env w).1 = 1 ∧
      Rep (nmeaParserInit env w).2.1 (nmeaParserInit env w).2.2 (.start w) := by
  obtain ⟨b, h, ha, -, hlive, hself, -⟩ := Heap.alloc_spec env.alloc w.heap
    (.bytes ((List.range nmeaDefParseBuff).map env.freshByte))
  have hrun : nmeaParserInit env w = (1,
      { buffer := some b, buffSize := nmeaDefParseBuff },
      { w with heap := h, mallocs := w.mallocs + 1 }) := by
    have hsize : max nmeaDefParseBuff nmeaMinParseBuff = nmeaDefParseBuff := rfl
    simp only [nmeaParserInit, hsize]
    rw [rtMalloc_ok hk, ha]
  rw [hrun]
  refine ⟨rfl, b, (List.range nmeaDefParseBuff).map env.freshByte, [], w.heap.live, ?_, rfl⟩
  exact
    { buffer := rfl
      bytes := hself
      length := by simp
      use := Nat.zero_le _
      top := rfl
      last := rfl
      linked := trivial
      packs := fun c hc => absurd hc List.not_mem_nil
      ledger := by rw [hlive]; exact .refl _ }

/-- The parser nmea_parser_init makes. -/
def ParserState.fresh (env : Env) (w : World D) (hk : env.mallocOk w.mallocs = true) :
    ParserState D where
  parser := (nmeaParserInit env w).2.1
  world := (nmeaParserInit env w).2.2
  abs := .start w
  rep := (init_spec w hk).2
  size_pos := Nat.zero_lt_succ _

/-- A fresh parser on an empty heap, with memory for everything. -/
def ParserState.zeroed : ParserState Decimal := .fresh (.zeroed fun _ => true) .empty rfl

end Relation

/-! ## Push -/

theorem copyTo_eq (mem src : List Byte) (off : Nat) (h : off + src.length ≤ mem.length) :
    ∃ mem', copyTo mem off src = some mem' ∧ mem'.length = mem.length ∧
      mem'.take (off + src.length) = mem.take off ++ src := by
  refine ⟨_, if_pos h, ?_, ?_⟩
  · simp only [List.length_append, List.length_take, List.length_drop]
    omega
  · refine (List.take_append_of_le_length ?_).trans (List.take_of_length_le ?_) <;>
      simp only [List.length_append, List.length_take] <;> omega

omit [CDouble D] in
/-- The bytes in use after buff_clear has or has not been called. -/
theorem kept_bytes {p : Parser} {w : World D} {s : AbsParser D} (h : Rep p w s)
    {buff : List Byte} (hbuff : buff.length ≤ s.size) :
    ∃ use, (if p.buffUse + buff.length ≥ p.buffSize then nmeaParserBuffClear p else p) =
        { p with buffUse := use } ∧ use + buff.length ≤ p.buffSize ∧
      s.input buff = s.bytes.take use ++ buff ∧ use ≤ p.buffUse := by
  have hsize := h.size
  obtain ⟨huse, hle⟩ := h.use
  by_cases hfull : p.buffUse + buff.length ≥ p.buffSize
  · refine ⟨0, if_pos hfull, by omega, ?_, Nat.zero_le _⟩
    rw [AbsParser.input, huse, hsize, if_pos hfull]
    rfl
  · refine ⟨p.buffUse, if_neg hfull, by omega, ?_, Nat.le_refl _⟩
    rw [AbsParser.input, huse, hsize, if_neg hfull, List.take_of_length_le (by omega)]

omit [CDouble D] in
/-- The bytes of a push are written behind those that are kept, and the buffer then holds the
input. -/
theorem push_written {p : Parser} {w : World D} {b : Addr} {mem : List Byte} {cells : List (Cell D)}
    {rest : List Addr} (hh : Holds p w.heap b mem cells rest) {buff : List Byte}
    (hbuff : buff.length ≤ p.buffSize) :
    ∃ use mem₁ heap₁,
      (if p.buffUse + buff.length ≥ p.buffSize then nmeaParserBuffClear p else p) =
        { p with buffUse := use } ∧
      use + buff.length ≤ p.buffSize ∧
      w.loadBytes b = some mem ∧
      copyTo mem use buff = some mem₁ ∧
      w.heap.store b (.bytes mem₁) = some heap₁ ∧
      Holds { p with buffUse := use + buff.length } heap₁ b mem₁ cells rest ∧
      mem₁.take (use + buff.length) = (forget p w mem cells rest).input buff := by
  obtain ⟨use, hclear, hroom, hinput, hless⟩ := kept_bytes ⟨b, mem, cells, rest, hh, rfl⟩ hbuff
  obtain ⟨mem₁, hcopy, hlen₁, htake₁⟩ := copyTo_eq mem buff use (by rw [hh.length]; exact hroom)
  obtain ⟨heap₁, hstore, hh₁⟩ := hh.write mem₁
    { p with buffUse := use + buff.length } rfl (hlen₁.trans hh.length) hroom
  have hload : w.loadBytes b = some mem := by simp [World.loadBytes, hh.bytes]
  refine ⟨use, mem₁, heap₁, hclear, hroom, hload, hcopy, hstore, hh₁, ?_⟩
  rw [htake₁, hinput]
  show _ = List.take use (mem.take p.buffUse) ++ buff
  rw [List.take_take, Nat.min_eq_left hless]

/-- **A push settles, harvests and holds back what its abstract counterpart does.** -/
theorem realPush_spec (env : Env) {p : Parser} {w : World D} {s : AbsParser D} (h : Rep p w s)
    {buff : List Byte} (hbuff : buff.length ≤ s.size) :
    ∃ p' w', nmeaParserRealPush env p buff w = some ((s.realPush env buff).1, p', w') ∧
      Rep p' w' (s.realPush env buff).2 := by
  obtain ⟨b, mem, cells, rest, hh, rfl⟩ := h
  obtain ⟨use, mem₁, heap₁, hclear, hroom, hload, hcopy, hstore, hh₁, hseen⟩ :=
    push_written hh hbuff
  have hseen_len : ((forget p w mem cells rest).input buff).length = use + buff.length := by
    rw [← hseen, List.length_take, hh₁.length]
    exact Nat.min_eq_left hroom
  have horigin : (((w.stream ++ buff).length : Int) - (use + buff.length : Nat) + (0 : Nat)) =
      (forget p w mem cells rest).origin buff := by
    rw [AbsParser.origin, hseen_len]
    exact Int.add_zero _
  obtain ⟨p', heap', mem', new, extra, hrun, hh', hnew, hextra, hsize, hbytes⟩ :=
    pushLoop_spec env (w := { w with heap := heap₁, stream := w.stream ++ buff })
      ((forget p w mem cells rest).input buff) hh₁ (Nat.zero_le _) hseen.symm
      (Nat.lt_succ_of_le hseen_len.le)
  simp only [horigin, hh.buffer] at hrun hnew hextra hbytes
  rw [hseen] at hbytes
  let harvested := (forget p w mem cells rest).reap env buff
  refine ⟨p', { w with
      heap := heap'
      mallocs := harvested.mallocs
      stream := w.stream ++ buff
      queued := w.queued ++ harvested.accepted }, ?_, b, mem', cells ++ new, extra ++ rest, hh', ?_⟩
  · simp only [nmeaParserRealPush, hh.buffer, hclear, hload, hcopy, World.store, hstore,
      Option.bind_eq_bind, Option.bind_some, Option.map_some, AbsParser.realPush, hseen_len]
    exact hrun
  · simp only [AbsParser.realPush, forget, hsize, hbytes, List.map_append, hnew,
      List.length_append, hextra, Nat.add_comm]
    rfl

end RttNmea
