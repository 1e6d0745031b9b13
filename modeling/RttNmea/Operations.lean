import RttNmea.Refinement

/-!
# The other operations

Taking packets from the queue, nmea_parser_push and nmea_parse, each against its abstract
counterpart, and the runs made of them.
-/

namespace RttNmea

open CText Framing

variable {D : Type} {env : Env}

/-! ## The queue alone

nmea_parser_destroy empties the queue after the byte buffer is gone, so what the queue
operations need is stated without the buffer. -/

/-- The heap holds the queue `cells`, and nothing else but the blocks in `rest`. -/
structure Queued (p : Parser) (h : Heap (Block D)) (cells : List (Cell D))
    (rest : List Addr) : Prop where
  buffer : p.buffer ≠ none
  top : p.topNode = Heap.firstAddr Cell.addr cells
  last : p.endNode = Heap.lastAddr Cell.addr cells
  linked : Heap.Linked Cell.addr Cell.block h cells
  packs : ∀ c ∈ cells, h.load c.packAddr = some (.pack c.packet)
  ledger : h.live.Perm (cellBlocks cells ++ rest)

namespace Queued

variable {p : Parser} {h : Heap (Block D)} {c : Cell D} {cells : List (Cell D)}
  {rest rest' : List Addr}

theorem perm (hq : Queued p h cells rest) (hr : rest.Perm rest') : Queued p h cells rest' :=
  { hq with ledger := hq.ledger.trans (hr.append_left _) }

/-- A block that belongs to nothing can be freed, and no other block changes. -/
theorem release {x : Addr} (hq : Queued p h cells (x :: rest)) :
    ∃ h', h.free x = some h' ∧ Queued p h' cells rest ∧ ∀ a, a ≠ x → h'.load a = h.load a := by
  have hledger : h.live.Perm (x :: (cellBlocks cells ++ rest)) := hq.ledger.trans List.perm_middle
  obtain ⟨h', hf, hother, hlive⟩ := Heap.free_some (hledger.mem_iff.mpr List.mem_cons_self)
  have hnd := List.nodup_cons.mp (hledger.nodup_iff.mp h.live_nodup)
  have same : ∀ a ∈ cellBlocks cells, h'.load a = h.load a := by
    intro a ha
    refine hother a ?_
    rintro rfl
    exact hnd.1 (List.mem_append_left rest ha)
  refine ⟨h', hf, ?_, hother⟩
  exact
    { hq with
      linked := hq.linked.congr fun c hc => same _ (mem_cellBlocks_addr hc)
      packs := fun c hc => by rw [same _ (mem_cellBlocks_pack hc), hq.packs c hc]
      ledger := taken_back hledger hlive }

/-- The first cell leaves the queue; its two blocks then belong to nothing. -/
theorem unlink (hq : Queued p h (c :: cells) rest) :
    Queued (p.advance ⟨c.packet.packType, some c.packAddr, Heap.firstAddr Cell.addr cells⟩) h
      cells (c.addr :: c.packAddr :: rest) where
  buffer := hq.buffer
  top := rfl
  last := by
    show (if Heap.firstAddr Cell.addr cells = none then none else p.endNode) = _
    cases cells with
    | nil => rfl
    | cons d cells =>
      rw [if_neg (by simp [Heap.firstAddr]), hq.last]
      rfl
  linked := hq.linked.2
  packs d hd := hq.packs d (List.mem_cons_of_mem _ hd)
  ledger := hq.ledger.trans (List.perm_middle.trans (List.perm_middle.cons _)).symm

theorem top_node {w : World D} (hq : Queued p w.heap (c :: cells) rest) :
    p.topNode = some c.addr ∧ w.loadNode c.addr =
      some ⟨c.packet.packType, some c.packAddr, Heap.firstAddr Cell.addr cells⟩ := by
  refine ⟨hq.top, ?_⟩
  have hl : w.heap.load c.addr = some (c.block (Heap.firstAddr Cell.addr cells)) := hq.linked.1
  rw [World.loadNode, hl]
  rfl

/-- The heap is large enough to count the cells of the queue with. -/
theorem cells_le (hq : Queued p h cells rest) : cells.length ≤ h.live.length := by
  have hlen : (cellBlocks cells).length = 2 * cells.length := by
    simp [cellBlocks, List.length_flatMap, Nat.mul_comm]
  rw [hq.ledger.length_eq, List.length_append]
  omega

variable {w : World D}

/-- nmea_parser_pop frees the node and hands out the pack. -/
theorem pop_cons (hq : Queued p w.heap (c :: cells) rest) :
    ∃ p' h, nmeaParserPop p w =
        some ((c.packet.packType, some c.packAddr), p', { w with heap := h }) ∧
      Queued p' h cells (c.packAddr :: rest) ∧ p' = p.advance
        ⟨c.packet.packType, some c.packAddr, Heap.firstAddr Cell.addr cells⟩ ∧
      ∀ a ∈ c.packAddr :: rest, h.load a = w.heap.load a := by
  obtain ⟨htop, hnode⟩ := hq.top_node
  obtain ⟨b, hb⟩ := Option.ne_none_iff_exists'.mp hq.buffer
  obtain ⟨h, hf, hq', hother⟩ := hq.unlink.release
  refine ⟨_, h, ?_, hq', rfl, ?_⟩
  · simp [nmeaParserPop, hb, htop, hnode, World.rtFree, hf]
  · intro a ha
    refine hother a ?_
    rintro rfl
    have hnd := hq.unlink.ledger.nodup_iff.mp w.heap.live_nodup
    exact (List.nodup_cons.mp (List.nodup_append.mp hnd).2.1).1 ha

/-- nmea_parser_drop frees both blocks. -/
theorem drop_cons (hq : Queued p w.heap (c :: cells) rest) :
    ∃ p' h, nmeaParserDrop p w = some (c.packet.packType, p', { w with heap := h }) ∧
      Queued p' h cells rest ∧ p' = p.advance
        ⟨c.packet.packType, some c.packAddr, Heap.firstAddr Cell.addr cells⟩ ∧
      ∀ a ∈ rest, h.load a = w.heap.load a := by
  obtain ⟨htop, hnode⟩ := hq.top_node
  obtain ⟨b, hb⟩ := Option.ne_none_iff_exists'.mp hq.buffer
  obtain ⟨h₁, hf₁, hq₁, hother₁⟩ := (hq.unlink.perm (List.Perm.swap _ _ _)).release
  obtain ⟨h₂, hf₂, hq₂, hother₂⟩ := hq₁.release
  refine ⟨_, h₂, ?_, hq₂, rfl, ?_⟩
  · simp [nmeaParserDrop, hb, htop, hnode, World.rtFree, hf₁, hf₂]
  · intro a ha
    have hnd := hq.unlink.ledger.nodup_iff.mp w.heap.live_nodup
    have hnd := (List.nodup_append.mp hnd).2.1
    rw [hother₂ a, hother₁ a]
    · rintro rfl
      exact (List.nodup_cons.mp (List.nodup_cons.mp hnd).2).1 ha
    · rintro rfl
      exact (List.nodup_cons.mp hnd).1 (List.mem_cons_of_mem _ ha)

/-- The loop of nmea_parser_queue_clear frees every block of the queue. -/
theorem clear {fuel : Nat} (hq : Queued p w.heap cells rest) (hfuel : cells.length < fuel) :
    ∃ p' h, queueClearLoop fuel p w = some (p', { w with heap := h }) ∧ h.live.Perm rest := by
  induction cells generalizing fuel p w with
  | nil =>
    obtain ⟨fuel, rfl⟩ : ∃ f, fuel = f + 1 := ⟨fuel - 1, by omega⟩
    have htop : p.topNode = none := hq.top
    exact ⟨p, w.heap, by simp [queueClearLoop, htop], hq.ledger⟩
  | cons c cells ih =>
    obtain ⟨fuel, rfl⟩ : ∃ f, fuel = f + 1 := ⟨fuel - 1, by omega⟩
    obtain ⟨p₁, h₁, hdrop, hq₁, -, -⟩ := hq.drop_cons
    obtain ⟨p', h, hrun, hlive⟩ :=
      ih (w := { w with heap := h₁ }) hq₁ (Nat.lt_of_succ_lt_succ hfuel)
    refine ⟨p', h, ?_, hlive⟩
    have htop : p.topNode ≠ none := by simp [hq.top_node.1]
    rw [queueClearLoop, if_neg htop, hdrop]
    exact hrun

end Queued

/-! ## Queue and buffer -/

namespace Holds

variable {p : Parser} {w : World D} {b : Addr} {mem : List Byte} {c : Cell D}
  {cells : List (Cell D)} {rest : List Addr}

theorem queued (hh : Holds p w.heap b mem cells rest) : Queued p w.heap cells (b :: rest) where
  buffer := by rw [hh.buffer]; exact Option.some_ne_none _
  top := hh.top
  last := hh.last
  linked := hh.linked
  packs := hh.packs
  ledger := hh.ledger.trans List.perm_middle.symm

/-- The buffer is as before, the queue as given. -/
theorem requeue {p' : Parser} {h : Heap (Block D)} {cells' : List (Cell D)} {rest' : List Addr}
    (hh : Holds p w.heap b mem cells rest) (hq : Queued p' h cells' (b :: rest'))
    (hb : h.load b = w.heap.load b)
    (hp : p' = { p with topNode := p'.topNode, endNode := p'.endNode }) :
    Holds p' h b mem cells' rest' where
  buffer := by rw [hp]; exact hh.buffer
  bytes := hb.trans hh.bytes
  length := by rw [hp]; exact hh.length
  use := by rw [hp]; exact hh.use
  top := hq.top
  last := hq.last
  linked := hq.linked
  packs := hq.packs
  ledger := hq.ledger.trans List.perm_middle

end Holds

variable {p : Parser} {w : World D} {s : AbsParser D}

/-- The type of the oldest packet of a queue, GPNON if there is none. -/
def frontType : List (Packet D) → PackType
  | [] => .gpnon
  | packet :: _ => packet.packType

/-- nmea_parser_drop takes the first packet off the queue, if there is one. -/
theorem drop_spec (h : Rep p w s) :
    ∃ p' w', nmeaParserDrop p w = some (frontType s.queue, p', w') ∧
      Rep p' w' { s with queue := s.queue.tail } := by
  obtain ⟨b, mem, cells, rest, hh, rfl⟩ := h
  cases cells with
  | nil =>
    have htop : p.topNode = none := hh.top
    refine ⟨p, w, ?_, b, mem, [], rest, hh, rfl⟩
    simp [nmeaParserDrop, hh.buffer, htop, frontType, forget]
  | cons c cells =>
    obtain ⟨p', h, hdrop, hq, hp', hother⟩ := hh.queued.drop_cons
    have hh' := hh.requeue hq (hother b List.mem_cons_self) (by rw [hp']; rfl)
    refine ⟨p', _, hdrop, b, mem, cells, rest, hh', ?_⟩
    rw [hp']
    rfl

/-- After nmea_parser_destroy only the leaked blocks are live. -/
theorem destroy_spec (h : Rep p w s) :
    ∃ w', nmeaParserDestroy p w = some ({}, w') ∧ w'.heap.live.length = s.leaks ∧
      w' = { w with heap := w'.heap } := by
  obtain ⟨b, mem, cells, rest, hh, rfl⟩ := h
  obtain ⟨h₁, hf, hq, -⟩ := hh.queued.release
  obtain ⟨p', h₂, hclear, hlive⟩ :=
    hq.clear (w := { w with heap := h₁ }) (Nat.lt_succ_of_le hq.cells_le)
  refine ⟨{ w with heap := h₂ }, ?_, hlive.length_eq, rfl⟩
  simp only [nmeaParserDestroy, hh.buffer, World.rtFree, hf, nmeaParserQueueClear,
    Option.bind_eq_bind, Option.bind_some, Option.map_some, hclear, Option.pure_def]

/-! ## nmea_parse -/

section Parse

variable [CDouble D] {b : Addr} {mem : List Byte} {cells : List (Cell D)} {rest : List Addr}

/-- The loop of nmea_parse applies the whole queue and frees every block of it. -/
theorem applyLoop_spec (info : Option (Info D)) (nread : Nat) {fuel : Nat}
    (hh : Holds p w.heap b mem cells rest) (hfuel : cells.length < fuel) :
    ∃ p' h, applyLoop fuel nread p info w =
        some (nread + cells.length, p', foldInfo info (cells.map Cell.packet), { w with
          heap := h
          applied := w.applied ++ applyAll info (cells.map Cell.packet) }) ∧
      Holds p' h b mem [] rest ∧ p'.buffUse = p.buffUse ∧ p'.buffSize = p.buffSize := by
  induction cells generalizing fuel nread p w info with
  | nil =>
    obtain ⟨fuel, rfl⟩ : ∃ f, fuel = f + 1 := ⟨fuel - 1, by omega⟩
    have htop : p.topNode = none := hh.top
    refine ⟨p, w.heap, ?_, hh, rfl, rfl⟩
    simp [applyLoop, nmeaParserPop, hh.buffer, htop, foldInfo, applyAll]
  | cons c cells ih =>
    obtain ⟨fuel, rfl⟩ : ∃ f, fuel = f + 1 := ⟨fuel - 1, by omega⟩
    obtain ⟨p₁, h₁, hpop, hq₁, hp₁, hother₁⟩ := hh.queued.pop_cons
    obtain ⟨h₂, hf, hq₂, hother₂⟩ := hq₁.release
    have hbc : b ≠ c.packAddr := by
      rintro rfl
      exact (List.nodup_cons.mp hh.nodup).1
        (List.mem_append_left _ (mem_cellBlocks_pack List.mem_cons_self))
    have hload : h₁.load c.packAddr = some (.pack c.packet) := by
      rw [hother₁ _ List.mem_cons_self, hh.packs c List.mem_cons_self]
    have hb : h₂.load b = w.heap.load b := by
      rw [hother₂ b hbc, hother₁ b (List.mem_cons_of_mem _ List.mem_cons_self)]
    have hne : c.packet.packType ≠ .gpnon := by cases c.packet <;> exact fun h => by cases h
    obtain ⟨p', h, hrun, hh', huse, hsize⟩ :=
      ih (info.bind (packInfo c.packet)) (nread + 1) (w := { w with
          heap := h₂
          applied := w.applied ++ [(c.packet, info.bind (packInfo c.packet))] })
        (hh.requeue hq₂ hb (by rw [hp₁]; rfl))
        (Nat.lt_of_succ_lt_succ hfuel)
    refine ⟨p', h, ?_, hh', by rw [huse, hp₁]; rfl, by rw [hsize, hp₁]; rfl⟩
    simp only [applyLoop, hpop, Option.bind_eq_bind, Option.bind_some, hne, ↓reduceIte,
      World.loadPack, hload, ne_eq, not_true_eq_false, World.rtFree, hf, Option.map_some, hrun]
    simp [applyAll, foldInfo, Nat.add_assoc, Nat.add_comm]

/-- nmea_parser_real_push on one slice after another. -/
def pushEach (env : Env) (p : Parser) (w : World D) :
    List (List Byte) → Option (Int × Parser × World D)
  | [] => some (0, p, w)
  | c :: cs => do
    let (n, p, w) ← nmeaParserRealPush env p c w
    let (m, p, w) ← pushEach env p w cs
    return (n + m, p, w)

theorem pushEach_spec (h : Rep p w s) {slices : List (List Byte)}
    (hfit : ∀ c ∈ slices, c.length ≤ s.size) :
    ∃ p' w', pushEach env p w slices = some ((s.pushEach env slices).1, p', w') ∧
      Rep p' w' (s.pushEach env slices).2 := by
  induction slices generalizing p w s with
  | nil => exact ⟨p, w, rfl, h⟩
  | cons c cs ih =>
    obtain ⟨p₁, w₁, hrun₁, h₁⟩ := realPush_spec env h (hfit c List.mem_cons_self)
    obtain ⟨p₂, w₂, hrun₂, h₂⟩ := ih h₁ fun d hd => hfit d (List.mem_cons_of_mem _ hd)
    refine ⟨p₂, w₂, ?_, h₂⟩
    simp only [pushEach, hrun₁, hrun₂, Option.bind_eq_bind, Option.bind_some, Option.pure_def]
    rfl

theorem slices_fit {size n : Nat} (hpos : 0 < size) (buff : List Byte) :
    ∀ c ∈ (sliceSizes size n).map buff.take, c.length ≤ size := by
  intro c hc
  obtain ⟨k, hk, rfl⟩ := List.mem_map.mp hc
  exact Nat.le_trans (List.length_take_le _ _) (sliceSizes_le hpos hk)

/-- The loop of nmea_parser_push pushes slices, every one from the front of `buff`. -/
theorem pushSlices_eq (h : Rep p w s) (hpos : 0 < s.size) {buff : List Byte} {fuel k : Nat}
    (hfuel : k < fuel) (acc : Int) :
    pushSlices env buff fuel k acc p w =
      (pushEach env p w ((sliceSizes s.size k).map buff.take)).map fun r => (acc + r.1, r.2) := by
  have hsize := h.size
  induction fuel generalizing p w s k acc with
  | zero => omega
  | succ fuel ih =>
    by_cases hk : s.size < k
    · obtain ⟨p₁, w₁, hrun₁, h₁⟩ := realPush_spec env h
        (List.length_take_le s.size buff)
      have hmore : k - s.size ≠ 0 := by omega
      have hnext := ih (k := k - s.size) h₁ hpos (by omega)
        (acc + (s.realPush env (buff.take s.size)).1) h₁.size
      have hsame : (s.realPush env (buff.take s.size)).2.size = s.size := rfl
      rw [hsame] at hnext
      rw [sliceSizes_large hpos hk]
      simp only [pushSlices, ← hsize, gt_iff_lt, hk, ↓reduceIte, hrun₁, Option.bind_eq_bind,
        Option.bind_some, hmore, hnext, List.map_cons, pushEach]
      cases pushEach env p₁ w₁ ((sliceSizes s.size (k - s.size)).map buff.take) with
      | none => rfl
      | some r => simp [Int.add_assoc]
    · obtain ⟨p₁, w₁, hrun₁, -⟩ := realPush_spec env h
        (Nat.le_trans (List.length_take_le k buff) (Nat.not_lt.mp hk))
      rw [sliceSizes_small (Nat.not_lt.mp hk)]
      simp [pushSlices, ← hsize, hk, hrun₁, pushEach]

theorem push_eq (h : Rep p w s) (hpos : 0 < s.size) (buff : List Byte) :
    nmeaParserPush env p buff w =
      pushEach env p w ((sliceSizes s.size buff.length).map buff.take) := by
  rw [nmeaParserPush, pushSlices_eq h hpos (Nat.lt_succ_self _)]
  simp

theorem push_spec (env : Env) (h : Rep p w s) (hpos : 0 < s.size) (buff : List Byte) :
    ∃ p' w', nmeaParserPush env p buff w = some ((s.push env buff).1, p', w') ∧
      Rep p' w' (s.push env buff).2 := by
  rw [push_eq h hpos]
  exact pushEach_spec h (slices_fit hpos buff)

/-- **nmea_parse does what its abstract counterpart does.** -/
theorem parse_spec (env : Env) (h : Rep p w s) (hpos : 0 < s.size) (info : Option (Info D))
    (buff : List Byte) :
    ∃ p' w', nmeaParse env p buff info w =
        some ((s.parse env info buff).1, p', (s.parse env info buff).2.2, w') ∧
      Rep p' w' (s.parse env info buff).2.1 := by
  obtain ⟨p₁, w₁, hpush, h₁⟩ := push_spec env h hpos buff
  obtain ⟨b, mem, cells, rest, hh, habs⟩ := h₁
  obtain ⟨p', heap, hrun, hh', huse, hsize⟩ := applyLoop_spec info 0 hh
    (Nat.lt_succ_of_le hh.queued.cells_le)
  refine ⟨p', { w₁ with
      heap := heap
      applied := w₁.applied ++ applyAll info (cells.map Cell.packet) },
    ?_, b, mem, [], rest, hh', ?_⟩
  · simp only [nmeaParse, hpush, Option.bind_eq_bind, Option.bind_some, hrun, AbsParser.parse,
      habs]
    simp [forget]
  · simp only [AbsParser.parse, habs, AbsParser.flush, forget, huse, hsize]
    rfl

/-! ## Runs of nmea_parse -/

/-- nmea_parse on one chunk after another, and the sum of what it returned. -/
def parseAll (env : Env) (p : Parser) (info : Option (Info D)) (w : World D) :
    List (List Byte) → Option (Nat × Parser × Option (Info D) × World D)
  | [] => some (0, p, info, w)
  | c :: cs => do
    let (n, p, info, w) ← nmeaParse env p c info w
    let (m, p, info, w) ← parseAll env p info w cs
    return (n + m, p, info, w)

theorem parse_size (s : AbsParser D) (info : Option (Info D)) (buff : List Byte) :
    (s.parse env info buff).2.1.size = s.size := by
  have each : ∀ (slices : List (List Byte)) (s : AbsParser D),
      (s.pushEach env slices).2.size = s.size := by
    intro slices
    induction slices with
    | nil => exact fun s => rfl
    | cons c cs ih => exact fun s => ih (s.realPush env c).2
  exact each _ s

theorem push_applied (s : AbsParser D) (buff : List Byte) :
    (s.push env buff).2.applied = s.applied := by
  have each : ∀ (slices : List (List Byte)) (s : AbsParser D),
      (s.pushEach env slices).2.applied = s.applied := by
    intro slices
    induction slices with
    | nil => exact fun s => rfl
    | cons c cs ih => exact fun s => ih (s.realPush env c).2
  exact each _ s

theorem parseAll_spec (env : Env) (h : Rep p w s) (hpos : 0 < s.size) (info : Option (Info D))
    (chunks : List (List Byte)) :
    ∃ p' w', parseAll env p info w chunks =
        some ((s.parseAll env info chunks).1, p', (s.parseAll env info chunks).2.2, w') ∧
      Rep p' w' (s.parseAll env info chunks).2.1 := by
  induction chunks generalizing p w s info with
  | nil => exact ⟨p, w, rfl, h⟩
  | cons c cs ih =>
    obtain ⟨p₁, w₁, hrun₁, h₁⟩ := parse_spec env h hpos info c
    obtain ⟨p₂, w₂, hrun₂, h₂⟩ := ih h₁ (by rw [parse_size]; exact hpos) _
    refine ⟨p₂, w₂, ?_, h₂⟩
    simp only [parseAll, hrun₁, hrun₂, Option.bind_eq_bind, Option.bind_some, Option.pure_def]
    rfl

/-! ## Conditions on every push of a run -/

omit [CDouble D] in
/-- What the parse loop of a push settles, by the state before the push. -/
def pushPieces (env : Env) (p : Parser) (w : World D) (buff : List Byte) :
    List (List Byte × Int32) :=
  (drain (tailScanner env.abi)
    ((if p.buffUse + buff.length ≥ p.buffSize then [] else p.pending w) ++ buff)).1

omit [CDouble D] in
theorem pushPieces_eq (h : Rep p w s) (buff : List Byte) :
    pushPieces env p w buff = (s.settled env buff).1 := by
  rw [pushPieces, AbsParser.settled, AbsParser.input, h.pending, h.size, h.use.1]

/-- `ok` holds before each of these calls of nmea_parser_real_push. -/
def EachPush (env : Env) (ok : Parser → World D → List Byte → Prop) (p : Parser) (w : World D) :
    List (List Byte) → Prop
  | [] => True
  | c :: cs => ok p w c ∧
      ∀ n p' w', nmeaParserRealPush env p c w = some (n, p', w') → EachPush env ok p' w' cs

/-- `ok` holds before each call of nmea_parser_real_push that nmea_parse makes on these
chunks. -/
def EveryPush (env : Env) (ok : Parser → World D → List Byte → Prop) (p : Parser)
    (info : Option (Info D)) (w : World D) : List (List Byte) → Prop
  | [] => True
  | c :: cs => EachPush env ok p w ((sliceSizes p.buffSize c.length).map c.take) ∧
      ∀ n p' info' w', nmeaParse env p c info w = some (n, p', info', w') →
        EveryPush env ok p' info' w' cs

/-- The first push of a row, and the others after it. -/
theorem eachPush_cons {ok : Parser → World D → List Byte → Prop} {p p₁ : Parser} {w w₁ : World D}
    {c : List Byte} {n : Int} (hrun : nmeaParserRealPush env p c w = some (n, p₁, w₁))
    (cs : List (List Byte)) :
    EachPush env ok p w (c :: cs) ↔ ok p w c ∧ EachPush env ok p₁ w₁ cs := by
  rw [EachPush]
  refine and_congr_right fun _ => ⟨fun h => h _ _ _ hrun, fun h n' p' w' hrun' => ?_⟩
  rw [hrun] at hrun'
  cases hrun'
  exact h

/-- A chunk that fits the buffer is pushed at once. -/
theorem eachPush_small {ok : Parser → World D → List Byte → Prop} {p : Parser} {w : World D}
    {c : List Byte} (hfit : c.length ≤ p.buffSize) :
    EachPush env ok p w ((sliceSizes p.buffSize c.length).map c.take) ↔ ok p w c := by
  rw [sliceSizes_small hfit, List.map_singleton, List.take_length]
  exact and_iff_left fun _ _ _ _ => trivial

/-- The pushes of the first chunk of a run, and the others after it. -/
theorem everyPush_cons {ok : Parser → World D → List Byte → Prop} {p p₁ : Parser}
    {w w₁ : World D} {info info₁ : Option (Info D)} {c : List Byte} {n : Nat}
    (hrun : nmeaParse env p c info w = some (n, p₁, info₁, w₁)) (cs : List (List Byte)) :
    EveryPush env ok p info w (c :: cs) ↔
      EachPush env ok p w ((sliceSizes p.buffSize c.length).map c.take) ∧
        EveryPush env ok p₁ info₁ w₁ cs := by
  rw [EveryPush]
  refine and_congr_right fun _ => ⟨fun h => h _ _ _ _ hrun, fun h n' p' info' w' hrun' => ?_⟩
  rw [hrun] at hrun'
  cases hrun'
  exact h

/-- What each push keeps, a row of pushes keeps. -/
theorem eachPush_invariant {ok : Parser → World D → List Byte → Prop} {I : AbsParser D → Prop}
    (push : ∀ {p w s c}, Rep p w s → c.length ≤ s.size → ok p w c → I s → I (s.realPush env c).2)
    {slices : List (List Byte)} (h : Rep p w s) (hfit : ∀ c ∈ slices, c.length ≤ s.size)
    (hok : EachPush env ok p w slices) (hI : I s) : I (s.pushEach env slices).2 := by
  induction slices generalizing p w s with
  | nil => exact hI
  | cons c cs ih =>
    have hc := hfit c List.mem_cons_self
    obtain ⟨p₁, w₁, hrun, h₁⟩ := realPush_spec env h hc
    exact ih h₁ (fun d hd => hfit d (List.mem_cons_of_mem _ hd)) (hok.2 _ _ _ hrun)
      (push h hc hok.1 hI)

/-- **What each push and each application of the queue keep, a run keeps.** -/
theorem everyPush_invariant {ok : Parser → World D → List Byte → Prop}
    {I : AbsParser D → Option (Info D) → Prop}
    (push : ∀ {p w s info c}, Rep p w s → c.length ≤ s.size → ok p w c → I s info →
      I (s.realPush env c).2 info)
    (flush : ∀ {s info}, I s info → I (s.flush info) (foldInfo info s.queue))
    {chunks : List (List Byte)} {info : Option (Info D)} (h : Rep p w s) (hpos : 0 < s.size)
    (hok : EveryPush env ok p info w chunks) (hI : I s info) :
    I (s.parseAll env info chunks).2.1 (s.parseAll env info chunks).2.2 := by
  induction chunks generalizing p w s info with
  | nil => exact hI
  | cons c cs ih =>
    obtain ⟨p₁, w₁, hrun, h₁⟩ := parse_spec env h hpos info c
    have hpushed := eachPush_invariant (I := fun s => I s info) push h (slices_fit hpos c)
      (h.size ▸ hok.1) hI
    exact ih h₁ (by rw [parse_size]; exact hpos) (hok.2 _ _ _ _ hrun) (flush hpushed)

end Parse

end RttNmea
