import RttNmea.Operations

/-!
# The packet list is a queue

Six functions touch the list of packets. Whatever calls of them are made, in whatever order
and with whatever rt_malloc failures, its nodes are a chain from top_node to end_node and
hold what a list of packets holds that grows at one end and shrinks at the other.
-/

namespace RttNmea

open CText Framing

variable {D : Type} {env : Env}

/-- A call that touches the queue. -/
inductive QueueCall
  | realPush (buff : List Byte)
  | pop
  | peek
  | top
  | drop
  | queueClear

/-- What its caller is told: how many bytes were parsed, or the type of the oldest packet, or
also what the pack holds that pack_ptr was set to. -/
inductive Reply (D : Type)
  | parsed (n : Int)
  | type (ptype : PackType)
  | pack (ptype : PackType) (pack : Option (Packet D))
  | cleared

/-- Reading through pack_ptr, if it was set. -/
def World.readPack (w : World D) : Option Addr → Option (Option (Packet D))
  | none => some none
  | some a => (w.loadPack a).map some

def QueueCall.run [CDouble D] (env : Env) (p : Parser) (w : World D) :
    QueueCall → Option (Reply D × Parser × World D)
  | .realPush buff => do
    let (n, p, w) ← nmeaParserRealPush env p buff w
    return (.parsed n, p, w)
  | .pop => do
    let ((ptype, pack), p, w) ← nmeaParserPop p w
    let pack ← w.readPack pack
    return (.pack ptype pack, p, w)
  | .peek => do
    let (ptype, pack) ← nmeaParserPeek p w
    let pack ← w.readPack pack
    return (.pack ptype pack, p, w)
  | .top => do
    let ptype ← nmeaParserTop p w
    return (.type ptype, p, w)
  | .drop => do
    let (ptype, p, w) ← nmeaParserDrop p w
    return (.type ptype, p, w)
  | .queueClear => do
    let (p, w) ← nmeaParserQueueClear p w
    return (.cleared, p, w)

def runCalls [CDouble D] (env : Env) (p : Parser) (w : World D) :
    List QueueCall → Option (List (Reply D) × Parser × World D)
  | [] => some ([], p, w)
  | call :: calls => do
    let (reply, p, w) ← call.run env p w
    let (replies, p, w) ← runCalls env p w calls
    return (reply :: replies, p, w)

/-! ## The list -/

/-- A push appends the packets it accepts, pop and drop take the first one away, peek and top
only look at it. A pack that is popped is its caller's. -/
def QueueCall.onList [CDouble D] (env : Env) (s : AbsParser D) :
    QueueCall → Reply D × AbsParser D
  | .realPush buff => (.parsed (s.realPush env buff).1, (s.realPush env buff).2)
  | .pop => (.pack (frontType s.queue) s.queue.head?,
      { s with queue := s.queue.tail, leaks := s.leaks + (s.queue.take 1).length })
  | .peek => (.pack (frontType s.queue) s.queue.head?, s)
  | .top => (.type (frontType s.queue), s)
  | .drop => (.type (frontType s.queue), { s with queue := s.queue.tail })
  | .queueClear => (.cleared, { s with queue := [] })

def listCalls [CDouble D] (env : Env) (s : AbsParser D) :
    List QueueCall → List (Reply D) × AbsParser D
  | [] => ([], s)
  | call :: calls =>
    let r := call.onList env s
    let t := listCalls env r.2 calls
    (r.1 :: t.1, t.2)

/-- A push of more bytes than the buffer has room for. -/
def QueueCall.Overlong (size : Nat) (call : QueueCall) : Prop :=
  ∃ buff, call = .realPush buff ∧ size < buff.length

/-! ## The chain -/

/-- The nodes are chained: top_node is the first and end_node the last of them, each points at
the next, the last one nowhere, and none is met twice. -/
structure Chain (p : Parser) (w : World D) (nodes : List Addr) : Prop where
  top : p.topNode = nodes.head?
  last : p.endNode = nodes.getLast?
  acyclic : nodes.Nodup
  next : ∀ (i : Nat) (a : Addr), nodes[i]? = some a →
    ∃ node, w.loadNode a = some node ∧ node.nextNode = nodes[i + 1]?

/-- The node holds the packet: its type, and a pack with its members. -/
def NodeHolds (w : World D) (a : Addr) (packet : Packet D) : Prop :=
  ∃ node pack, w.loadNode a = some node ∧ node.packType = packet.packType ∧
    node.pack = some pack ∧ w.loadPack pack = some packet

theorem Chain.ends {p : Parser} {w : World D} {nodes : List Addr} (h : Chain p w nodes) :
    p.topNode = none ↔ p.endNode = none := by
  rw [h.top, h.last, List.head?_eq_none_iff, List.getLast?_eq_none_iff]

theorem addrs_sublist (cells : List (Cell D)) :
    List.Sublist (cells.map Cell.addr) (cellBlocks cells) := by
  induction cells with
  | nil => exact .slnil
  | cons c cells ih => exact (ih.cons c.packAddr).cons_cons c.addr

theorem Holds.load_cell {p : Parser} {w : World D} {b : Addr} {mem : List Byte}
    {cells : List (Cell D)} {rest : List Addr} (hh : Holds p w.heap b mem cells rest)
    {i : Nat} {c : Cell D} (hi : cells[i]? = some c) :
    w.loadNode c.addr =
      some ⟨c.packet.packType, some c.packAddr, cells[i + 1]?.map Cell.addr⟩ := by
  rw [World.loadNode, hh.linked.load_at hi]
  rfl

theorem Holds.chain {p : Parser} {w : World D} {b : Addr} {mem : List Byte}
    {cells : List (Cell D)} {rest : List Addr} (hh : Holds p w.heap b mem cells rest) :
    Chain p w (cells.map Cell.addr) where
  top := by simpa [Heap.firstAddr] using hh.top
  last := by simpa [Heap.lastAddr] using hh.last
  acyclic := by
    have hblocks := (List.nodup_append.mp (List.nodup_cons.mp hh.nodup).2).1
    exact (addrs_sublist cells).nodup hblocks
  next i a hi := by
    rw [List.getElem?_map] at hi
    obtain ⟨c, hc, rfl⟩ := Option.map_eq_some_iff.mp hi
    exact ⟨_, hh.load_cell hc, by simp⟩

theorem Holds.contents {p : Parser} {w : World D} {b : Addr} {mem : List Byte}
    {cells : List (Cell D)} {rest : List Addr} (hh : Holds p w.heap b mem cells rest) :
    List.Forall₂ (NodeHolds w) (cells.map Cell.addr) (cells.map Cell.packet) := by
  rw [List.forall₂_map_left_iff, List.forall₂_map_right_iff, List.forall₂_same]
  intro c hc
  obtain ⟨i, hi⟩ := List.mem_iff_getElem?.mp hc
  have hpack : w.loadPack c.packAddr = some c.packet := by
    rw [World.loadPack, hh.packs c hc]
  exact ⟨_, c.packAddr, hh.load_cell hi, rfl, rfl, hpack⟩

/-! ## One call -/

section Call

variable {p : Parser} {w : World D} {s : AbsParser D}

theorem front_spec (h : Rep p w s) :
    ∃ pack, nmeaParserPeek p w = some (frontType s.queue, pack) ∧
      nmeaParserTop p w = some (frontType s.queue) ∧ w.readPack pack = some s.queue.head? := by
  obtain ⟨b, mem, cells, rest, hh, rfl⟩ := h
  cases cells with
  | nil =>
    have htop : p.topNode = none := hh.top
    refine ⟨none, ?_, ?_, rfl⟩
    · simp [nmeaParserPeek, hh.buffer, htop, frontType, forget]
    · simp [nmeaParserTop, hh.buffer, htop, frontType, forget]
  | cons c cells =>
    obtain ⟨htop, hnode⟩ := hh.queued.top_node
    have hpack : w.loadPack c.packAddr = some c.packet := by
      rw [World.loadPack, hh.packs c List.mem_cons_self]
    refine ⟨some c.packAddr, ?_, ?_, ?_⟩
    · simp [nmeaParserPeek, hh.buffer, htop, hnode, frontType, forget]
    · simp [nmeaParserTop, hh.buffer, htop, hnode, frontType, forget]
    · simp [World.readPack, hpack, forget]

/-- nmea_parser_pop takes the oldest packet off the queue and leaves its pack to the caller. -/
theorem pop_spec (h : Rep p w s) :
    ∃ pack p' w', nmeaParserPop p w = some ((frontType s.queue, pack), p', w') ∧
      w'.readPack pack = some s.queue.head? ∧
      Rep p' w' { s with queue := s.queue.tail, leaks := s.leaks + (s.queue.take 1).length } := by
  obtain ⟨b, mem, cells, rest, hh, rfl⟩ := h
  cases cells with
  | nil =>
    have htop : p.topNode = none := hh.top
    refine ⟨none, p, w, ?_, rfl, b, mem, [], rest, hh, rfl⟩
    simp [nmeaParserPop, hh.buffer, htop, frontType, forget]
  | cons c cells =>
    obtain ⟨p', h, hpop, hq, hp', hother⟩ := hh.queued.pop_cons
    have hb : h.load b = w.heap.load b :=
      hother b (List.mem_cons_of_mem _ List.mem_cons_self)
    have hpack : h.load c.packAddr = some (.pack c.packet) := by
      rw [hother _ List.mem_cons_self, hh.packs c List.mem_cons_self]
    have hh' := hh.requeue (hq.perm (List.Perm.swap _ _ _)) hb (by rw [hp']; rfl)
    refine ⟨some c.packAddr, p', _, hpop, ?_, b, mem, cells, c.packAddr :: rest, hh', ?_⟩
    · simp [World.readPack, World.loadPack, hpack, forget]
    · rw [hp']
      rfl

theorem Rep.top_iff (h : Rep p w s) : p.topNode = none ↔ s.queue = [] := by
  constructor
  · exact h.queue_nil
  · intro hqueue
    obtain ⟨b, mem, cells, rest, hh, rfl⟩ := h
    have hcells : cells = [] := List.map_eq_nil_iff.mp hqueue
    rw [hh.top, hcells]
    rfl

/-- The loop of nmea_parser_queue_clear drops one packet after another. -/
theorem clearLoop_spec {fuel : Nat} (h : Rep p w s) (hfuel : s.queue.length < fuel) :
    ∃ p' w', queueClearLoop fuel p w = some (p', w') ∧ Rep p' w' { s with queue := [] } := by
  induction fuel generalizing p w s with
  | zero => exact absurd hfuel (Nat.not_lt_zero _)
  | succ fuel ih =>
    by_cases htop : p.topNode = none
    · have hqueue := h.top_iff.mp htop
      refine ⟨p, w, by simp [queueClearLoop, htop], ?_⟩
      rw [← hqueue]
      exact h
    · obtain ⟨p₁, w₁, hdrop, h₁⟩ := drop_spec h
      have hsome := List.length_pos_iff.mpr fun hnil => htop (h.top_iff.mpr hnil)
      have hshort : s.queue.tail.length < fuel := by
        rw [List.length_tail]
        omega
      obtain ⟨p', w', hrun, h'⟩ := ih h₁ hshort
      refine ⟨p', w', ?_, h'⟩
      rw [queueClearLoop, if_neg htop, hdrop]
      exact hrun

theorem queueClear_spec (h : Rep p w s) :
    ∃ p' w', nmeaParserQueueClear p w = some (p', w') ∧ Rep p' w' { s with queue := [] } := by
  have hle : s.queue.length ≤ w.heap.live.length := by
    obtain ⟨b, mem, cells, rest, hh, rfl⟩ := h
    simpa [forget] using hh.queued.cells_le
  exact clearLoop_spec h (Nat.lt_succ_of_le hle)

variable [CDouble D]

/-- More than the buffer has room for is copied past its end. -/
theorem realPush_overlong (env : Env) (h : Rep p w s) {buff : List Byte}
    (hlong : s.size < buff.length) : nmeaParserRealPush env p buff w = none := by
  have hsize := h.size
  obtain ⟨b, mem, cells, rest, hh, rfl⟩ := h
  have hload : w.loadBytes b = some mem := by simp [World.loadBytes, hh.bytes]
  have hclear : p.buffUse + buff.length ≥ p.buffSize := by omega
  have hcopy : copyTo mem (nmeaParserBuffClear p).buffUse buff = none := by
    refine if_neg ?_
    rw [hh.length]
    omega
  simp [nmeaParserRealPush, hh.buffer, if_pos hclear, hload, hcopy]

/-- Every other call does to the parser what its counterpart does to the list. -/
theorem call_spec (env : Env) (h : Rep p w s) {call : QueueCall}
    (hfit : ¬ call.Overlong s.size) :
    ∃ p' w', call.run env p w = some ((call.onList env s).1, p', w') ∧
      Rep p' w' (call.onList env s).2 := by
  cases call with
  | realPush buff =>
    have hle : buff.length ≤ s.size := Nat.not_lt.mp fun hlong => hfit ⟨buff, rfl, hlong⟩
    obtain ⟨p', w', hrun, h'⟩ := realPush_spec env h hle
    exact ⟨p', w', by simp [QueueCall.run, hrun, QueueCall.onList], h'⟩
  | pop =>
    obtain ⟨pack, p', w', hrun, hread, h'⟩ := pop_spec h
    exact ⟨p', w', by simp [QueueCall.run, hrun, hread, QueueCall.onList], h'⟩
  | peek =>
    obtain ⟨pack, hrun, -, hread⟩ := front_spec h
    exact ⟨p, w, by simp [QueueCall.run, hrun, hread, QueueCall.onList], h⟩
  | top =>
    obtain ⟨pack, -, hrun, -⟩ := front_spec h
    exact ⟨p, w, by simp [QueueCall.run, hrun, QueueCall.onList], h⟩
  | drop =>
    obtain ⟨p', w', hrun, h'⟩ := drop_spec h
    exact ⟨p', w', by simp [QueueCall.run, hrun, QueueCall.onList], h'⟩
  | queueClear =>
    obtain ⟨p', w', hrun, h'⟩ := queueClear_spec h
    exact ⟨p', w', by simp [QueueCall.run, hrun, QueueCall.onList], h'⟩

theorem onList_size (env : Env) (s : AbsParser D) (call : QueueCall) :
    (call.onList env s).2.size = s.size := by
  cases call <;> rfl

/-! ## Runs -/

theorem runCalls_spec (env : Env) (h : Rep p w s) {calls : List QueueCall}
    (hfit : ∀ call ∈ calls, ¬ call.Overlong s.size) :
    ∃ p' w', runCalls env p w calls = some ((listCalls env s calls).1, p', w') ∧
      Rep p' w' (listCalls env s calls).2 := by
  induction calls generalizing p w s with
  | nil => exact ⟨p, w, rfl, h⟩
  | cons call calls ih =>
    obtain ⟨p₁, w₁, hcall, h₁⟩ := call_spec env h (hfit call List.mem_cons_self)
    have hrest : ∀ c ∈ calls, ¬ c.Overlong (call.onList env s).2.size := by
      intro c hc
      rw [onList_size]
      exact hfit c (List.mem_cons_of_mem _ hc)
    obtain ⟨p', w', hrun, h'⟩ := ih h₁ hrest
    exact ⟨p', w', by simp [runCalls, hcall, hrun, listCalls], h'⟩

theorem runCalls_overlong (env : Env) (h : Rep p w s) {calls : List QueueCall}
    (hlong : ∃ call ∈ calls, call.Overlong s.size) : runCalls env p w calls = none := by
  induction calls generalizing p w s with
  | nil => simp at hlong
  | cons call calls ih =>
    by_cases hcall : call.Overlong s.size
    · obtain ⟨buff, rfl, hlen⟩ := hcall
      simp [runCalls, QueueCall.run, realPush_overlong env h hlen]
    · obtain ⟨p₁, w₁, hrun, h₁⟩ := call_spec env h hcall
      have hrest : ∃ c ∈ calls, c.Overlong (call.onList env s).2.size := by
        obtain ⟨c, hc, hover⟩ := hlong
        rw [onList_size]
        rcases List.mem_cons.mp hc with rfl | hc
        · exact absurd hover hcall
        · exact ⟨c, hc, hover⟩
      simp [runCalls, hrun, ih h₁ hrest]

end Call

/-- **On an initialised parser every row of calls is a row of calls on a list.** Only a push of
more than the buffer can hold, which nmea_parser_push never makes, ends it. -/
theorem packets_fifo [CDouble D] (env : Env) (w : World D) (hk : env.mallocOk w.mallocs = true)
    (calls : List QueueCall) :
    let p₀ := (nmeaParserInit env w).2.1
    let run := runCalls env p₀ (nmeaParserInit env w).2.2 calls
    let list := listCalls env (.start w) calls
    (run = none ↔ ∃ call ∈ calls, call.Overlong p₀.buffSize) ∧
      ∀ replies p w', run = some (replies, p, w') →
        replies = list.1 ∧ (p.topNode = none ↔ p.endNode = none) ∧
          ∃ nodes, Chain p w' nodes ∧ List.Forall₂ (NodeHolds w') nodes list.2.queue := by
  intro p₀ run list
  have h := (init_spec w hk).2
  have hsize : (AbsParser.start w).size = p₀.buffSize := h.size
  by_cases hlong : ∃ call ∈ calls, call.Overlong p₀.buffSize
  · have hrun : run = none := runCalls_overlong env h (hsize ▸ hlong)
    refine ⟨iff_of_true hrun hlong, fun replies p w' hsome => ?_⟩
    rw [hrun] at hsome
    exact absurd hsome (Option.some_ne_none _).symm
  · have hfit : ∀ call ∈ calls, ¬ call.Overlong (AbsParser.start w).size := by
      rw [hsize]
      exact fun call hc hover => hlong ⟨call, hc, hover⟩
    obtain ⟨p', w', hrun, h'⟩ := runCalls_spec env h hfit
    have hsome : run = some (list.1, p', w') := hrun
    refine ⟨iff_of_false (by simp [hsome]) hlong, fun replies p w₁ hr => ?_⟩
    obtain ⟨rfl, rfl, rfl⟩ : list.1 = replies ∧ p' = p ∧ w' = w₁ := by simpa [hsome] using hr
    obtain ⟨b, mem, cells, rest, hh, hs⟩ := h'
    have hqueue : list.2.queue = cells.map Cell.packet := congrArg AbsParser.queue hs
    rw [hqueue]
    exact ⟨rfl, hh.chain.ends, cells.map Cell.addr, hh.chain, hh.contents⟩

/-- Two packets are queued and taken off again, in between a push without memory. -/
theorem packets_fifo_test :
    let env := Env.zeroed fun k => k ≠ 5
    let start := nmeaParserInit env (World.empty : World Decimal)
    let gsv := cstr "$GPGSV,1,1,0*49\r\n"
    let calls : List QueueCall :=
      [.realPush gsv, .realPush gsv, .pop, .realPush gsv, .peek, .drop, .top, .queueClear]
    let list := listCalls env (.start (World.empty : World Decimal)) calls
    ∃ p w' nodes, runCalls env start.2.1 start.2.2 calls = some (list.1, p, w') ∧
      (p.topNode = none ↔ p.endNode = none) ∧ Chain p w' nodes ∧
      List.Forall₂ (NodeHolds w') nodes list.2.queue := by
  intro env start gsv calls list
  obtain ⟨hfault, hfifo⟩ := packets_fifo env (World.empty : World Decimal) (by decide) calls
  have hsome : runCalls env start.2.1 start.2.2 calls ≠ none := by
    rw [ne_eq, hfault]
    rintro ⟨call, hc, buff, rfl, hlong⟩
    obtain rfl : buff = gsv := by simpa [calls] using hc
    exact absurd hlong (by decide)
  obtain ⟨⟨replies, p, w'⟩, hrun⟩ := Option.ne_none_iff_exists'.mp hsome
  obtain ⟨rfl, hends, nodes, hchain, hholds⟩ := hfifo replies p w' hrun
  exact ⟨p, w', nodes, hrun, hends, hchain, hholds⟩

end RttNmea
