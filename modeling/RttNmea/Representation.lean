import RttNmea.Abstract

/-!
# The queue in the heap

`Holds` says what a live parser owns: the byte buffer, and for each queued packet a node
block, chained to the next, and a pack block. The queueSentence lemmas say what one
sentence does to that, one lemma for each of its outcomes.
-/

namespace RttNmea

open CText Framing

variable {D : Type} {env : Env}

/-- A queued packet in the heap: its node block, its pack block, and what that holds. -/
structure Cell (D : Type) where
  addr : Addr
  packAddr : Addr
  packet : Packet D

def Cell.block (c : Cell D) (next : Option Addr) : Block D :=
  .node ⟨c.packet.packType, some c.packAddr, next⟩

/-- The two blocks of each queued packet. -/
def cellBlocks (cells : List (Cell D)) : List Addr :=
  cells.flatMap fun c => [c.addr, c.packAddr]

/-- The heap holds the byte buffer `mem` at `b`, the queue `cells`, and nothing else but
the blocks in `rest`. -/
structure Holds (p : Parser) (h : Heap (Block D)) (b : Addr) (mem : List Byte)
    (cells : List (Cell D)) (rest : List Addr) : Prop where
  buffer : p.buffer = some b
  bytes : h.load b = some (.bytes mem)
  length : mem.length = p.buffSize
  use : p.buffUse ≤ p.buffSize
  top : p.topNode = Heap.firstAddr Cell.addr cells
  last : p.endNode = Heap.lastAddr Cell.addr cells
  linked : Heap.Linked Cell.addr Cell.block h cells
  packs : ∀ c ∈ cells, h.load c.packAddr = some (.pack c.packet)
  ledger : h.live.Perm (b :: (cellBlocks cells ++ rest))

theorem mem_cellBlocks_addr {cells : List (Cell D)} {c : Cell D} (hc : c ∈ cells) :
    c.addr ∈ cellBlocks cells :=
  List.mem_flatMap.mpr ⟨c, hc, List.mem_cons_self⟩

theorem mem_cellBlocks_pack {cells : List (Cell D)} {c : Cell D} (hc : c ∈ cells) :
    c.packAddr ∈ cellBlocks cells :=
  List.mem_flatMap.mpr ⟨c, hc, List.mem_cons_of_mem _ List.mem_cons_self⟩

theorem cellBlocks_append (xs ys : List (Cell D)) :
    cellBlocks (xs ++ ys) = cellBlocks xs ++ cellBlocks ys :=
  List.flatMap_append

namespace Holds

variable {p : Parser} {h h' : Heap (Block D)} {b : Addr} {mem : List Byte}
  {cells : List (Cell D)} {rest rest' : List Addr}

theorem nodup (hh : Holds p h b mem cells rest) : (b :: (cellBlocks cells ++ rest)).Nodup :=
  hh.ledger.nodup_iff.mp h.live_nodup

theorem own_live (hh : Holds p h b mem cells rest) {a : Addr} (ha : a ∈ b :: cellBlocks cells) :
    a ∈ h.live := by
  refine hh.ledger.mem_iff.mpr ?_
  rcases List.mem_cons.mp ha with rfl | ha
  · exact List.mem_cons_self
  · exact List.mem_cons_of_mem _ (List.mem_append_left _ ha)

/-- The state survives a change of the heap that keeps its own blocks. -/
theorem transport (hh : Holds p h b mem cells rest)
    (same : ∀ a ∈ b :: cellBlocks cells, h'.load a = h.load a)
    (ledger : h'.live.Perm (b :: (cellBlocks cells ++ rest'))) :
    Holds p h' b mem cells rest' where
  buffer := hh.buffer
  bytes := by rw [same b List.mem_cons_self, hh.bytes]
  length := hh.length
  use := hh.use
  top := hh.top
  last := hh.last
  linked := hh.linked.congr fun c hc => same _ (List.mem_cons_of_mem _ (mem_cellBlocks_addr hc))
  packs c hc := by
    rw [same _ (List.mem_cons_of_mem _ (mem_cellBlocks_pack hc)), hh.packs c hc]
  ledger := ledger

/-- Writing the byte buffer changes nothing else. -/
theorem write (hh : Holds p h b mem cells rest) (mem' : List Byte) (p' : Parser)
    (hp : p' = { p with buffUse := p'.buffUse }) (hlen : mem'.length = p.buffSize)
    (huse : p'.buffUse ≤ p.buffSize) :
    ∃ h', h.store b (.bytes mem') = some h' ∧ Holds p' h' b mem' cells rest := by
  obtain ⟨h', hs, hself, hother, hlive⟩ :=
    Heap.store_some (hh.own_live List.mem_cons_self) (.bytes mem')
  have hnd := List.nodup_cons.mp hh.nodup
  have same : ∀ a ∈ cellBlocks cells, h'.load a = h.load a := by
    intro a ha
    refine hother a ?_
    rintro rfl
    exact hnd.1 (List.mem_append_left _ ha)
  refine ⟨h', hs, ?_⟩
  rw [hp]
  exact
    { buffer := hh.buffer
      bytes := hself
      length := hlen
      use := huse
      top := hh.top
      last := hh.last
      linked := hh.linked.congr fun c hc => same _ (mem_cellBlocks_addr hc)
      packs := fun c hc => by rw [same _ (mem_cellBlocks_pack hc), hh.packs c hc]
      ledger := hlive.trans hh.ledger }

/-- Two blocks the state does not own differ from all it owns, and from each other. -/
theorem spare_ne {x y : Addr} (hh : Holds p h b mem cells (x :: y :: rest)) :
    (∀ a ∈ b :: cellBlocks cells, a ≠ x ∧ a ≠ y) ∧ x ≠ y := by
  have hnd := hh.nodup
  rw [← List.cons_append, List.nodup_append] at hnd
  obtain ⟨-, hxy, hdis⟩ := hnd
  refine ⟨fun a ha => ⟨hdis a ha x List.mem_cons_self,
    hdis a ha y (List.mem_cons_of_mem _ List.mem_cons_self)⟩, ?_⟩
  rintro rfl
  exact (List.nodup_cons.mp hxy).1 List.mem_cons_self

/-- A linked cell joins the queue, and its blocks are no longer spare. -/
theorem append {c : Cell D} (hh : Holds p h b mem cells (c.addr :: c.packAddr :: rest))
    (same : ∀ a ∈ b :: cells.map Cell.packAddr, h'.load a = h.load a)
    (linked : Heap.Linked Cell.addr Cell.block h' (cells ++ [c]))
    (hpack : h'.load c.packAddr = some (.pack c.packet)) (hlive : h'.live.Perm h.live) :
    Holds { p with endNode := some c.addr, topNode := p.topNode.or (some c.addr) } h' b mem
      (cells ++ [c]) rest where
  buffer := hh.buffer
  bytes := by rw [same b List.mem_cons_self, hh.bytes]
  length := hh.length
  use := hh.use
  top := by
    show p.topNode.or (some c.addr) = _
    rw [hh.top]
    cases cells <;> rfl
  last := by simp [Heap.lastAddr]
  linked := linked
  packs d hd := by
    rcases List.mem_append.mp hd with hd | hd
    · rw [same _ (List.mem_cons_of_mem _ (List.mem_map_of_mem hd)), hh.packs d hd]
    · rw [List.mem_singleton.mp hd, hpack]
  ledger := by
    rw [cellBlocks_append, List.append_assoc]
    exact hlive.trans hh.ledger

end Holds

/-! ## One sentence -/

section Sentence

variable {p : Parser} {w : World D} {b : Addr} {mem : List Byte} {cells : List (Cell D)}
  {rest : List Addr}

theorem rtMalloc_fail {blk : Block D} (hk : env.mallocOk w.mallocs = false) :
    w.rtMalloc env blk = (none, { w with mallocs := w.mallocs + 1 }) := by
  simp [World.rtMalloc, hk]

theorem rtMalloc_ok {blk : Block D} (hk : env.mallocOk w.mallocs = true) :
    w.rtMalloc env blk =
      (some (w.heap.alloc env.alloc blk).1,
        { w with heap := (w.heap.alloc env.alloc blk).2, mallocs := w.mallocs + 1 }) := by
  simp [World.rtMalloc, hk]

/-- A block that is taken and given back leaves the ledger as it was. -/
theorem taken_back {a : Addr} {xs ys zs : List Addr} (hxs : xs.Perm (a :: ys))
    (hzs : xs.Perm (a :: zs)) : zs.Perm ys :=
  ((hxs.symm.trans hzs).cons_inv).symm

/-- The heap once node and pack are there and the node is filled in. -/
theorem node_and_pack (env : Env) (hh : Holds p w.heap b mem cells rest) (n : Node) (packet : Packet D)
    (fill : Addr → Node) :
    ∃ node h₁ pack h₂ h₃, w.heap.alloc env.alloc (.node n) = (node, h₁) ∧
      h₁.alloc env.alloc (.pack packet) = (pack, h₂) ∧ h₂.load node = some (.node n) ∧
      h₂.store node (.node (fill pack)) = some h₃ ∧
      h₃.load node = some (.node (fill pack)) ∧ h₃.load pack = some (.pack packet) ∧
      (∀ a ∈ b :: cellBlocks cells, h₃.load a = w.heap.load a) ∧
      node ∉ w.heap.live ∧ pack ∉ node :: w.heap.live ∧
      h₃.live.Perm (node :: pack :: w.heap.live) := by
  obtain ⟨node, h₁, ha₁, hfresh₁, hlive₁, hself₁, hother₁⟩ :=
    Heap.alloc_spec env.alloc w.heap (.node n)
  obtain ⟨pack, h₂, ha₂, hfresh₂, hlive₂, hself₂, hother₂⟩ :=
    Heap.alloc_spec env.alloc h₁ (.pack packet)
  have hnode : node ∈ h₁.live := hlive₁ ▸ List.mem_cons_self
  have hnode₂ : node ∈ h₂.live := hlive₂ ▸ List.mem_cons_of_mem _ hnode
  have hne : pack ≠ node := fun e => hfresh₂ (e ▸ hnode)
  obtain ⟨h₃, hs, hself₃, hother₃, hlive₃⟩ := Heap.store_some hnode₂ (.node (fill pack))
  refine ⟨node, h₁, pack, h₂, h₃, ha₁, ha₂, ?_, hs, hself₃, ?_, ?_, hfresh₁, ?_, ?_⟩
  · rw [hother₂ node hnode, hself₁]
  · rw [hother₃ pack hne, hself₂]
  · intro a hm
    have hl := hh.own_live hm
    have hl₁ : a ∈ h₁.live := hlive₁ ▸ List.mem_cons_of_mem _ hl
    rw [hother₃ a fun e => hfresh₁ (e ▸ hl), hother₂ a hl₁, hother₁ a hl]
  · rw [← hlive₁]
    exact hfresh₂
  · refine hlive₃.trans ?_
    rw [hlive₂, hlive₁]
    exact List.Perm.swap _ _ _

/-- Linking a filled node appends its cell to the queue. -/
theorem linkNode_spec {node pack : Addr} {n : Node} {packet : Packet D}
    (hh : Holds p w.heap b mem cells (node :: pack :: rest))
    (hn : w.heap.load node = some (.node n)) (hpack : w.heap.load pack = some (.pack packet))
    (hty : n.packType = packet.packType) (hpk : n.pack = some pack) :
    ∃ h p', linkNode p w node = some (p', { w with heap := h }) ∧
      Holds p' h b mem (cells ++ [⟨node, pack, packet⟩]) rest ∧ p'.buffUse = p.buffUse ∧
      p'.buffSize = p.buffSize := by
  obtain ⟨hne, hnp⟩ := hh.spare_ne
  have hblock : some (Block.node { n with nextNode := none }) =
      some (Cell.block ⟨node, pack, packet⟩ none) := by rw [Cell.block, ← hty, ← hpk]
  rcases List.eq_nil_or_concat cells with rfl | ⟨init, e, rfl⟩
  · have hend : p.endNode = none := hh.last
    obtain ⟨h₁, hs, hself, hother, hlive⟩ :=
      Heap.store_some (Heap.mem_live_of_load hn) (.node { n with nextNode := none })
    refine ⟨h₁, _, ?_, hh.append (c := ⟨node, pack, packet⟩) ?_ ⟨hself.trans hblock, trivial⟩ ?_
      hlive, rfl, rfl⟩
    · simp [linkNode, hend, World.loadNode, World.store, hn, hs]
    · exact fun a ha => hother a (hne a ha).1
    · exact (hother pack (Ne.symm hnp)).trans hpack
  · rw [List.concat_eq_append] at hh hne ⊢
    have hend : p.endNode = some e.addr := by rw [hh.last]; simp [Heap.lastAddr]
    have hload : w.heap.load e.addr = some (e.block none) := hh.linked.load_last
    have he : e.addr ∈ cellBlocks (init ++ [e]) := mem_cellBlocks_addr (by simp)
    have hene := hne e.addr (List.mem_cons_of_mem _ he)
    obtain ⟨h₁, hs₁, hself₁, hother₁, hlive₁⟩ :=
      Heap.store_some (Heap.mem_live_of_load hload) (e.block (some node))
    have hn₁ : h₁.load node = some (.node n) := (hother₁ node (Ne.symm hene.1)).trans hn
    obtain ⟨h₂, hs₂, hself₂, hother₂, hlive₂⟩ :=
      Heap.store_some (Heap.mem_live_of_load hn₁) (.node { n with nextNode := none })
    -- of the blocks the state owns, only the old last node has changed
    have same : ∀ a ∈ b :: cellBlocks (init ++ [e]), a ≠ e.addr →
        h₂.load a = w.heap.load a := by
      intro a ha hae
      rw [hother₂ a (hne a ha).1, hother₁ a hae]
    have hother : ∀ a ∈ b :: cellBlocks (init ++ [e]), w.heap.load a ≠ some (e.block none) →
        h₂.load a = w.heap.load a :=
      fun a ha hl => same a ha fun h => hl (h ▸ hload)
    have hinit : ∀ c ∈ init, c.addr ≠ e.addr := by
      intro c hc heq
      have hnd := (List.nodup_append.mp (List.nodup_cons.mp hh.nodup).2).1
      rw [cellBlocks_append] at hnd
      exact (List.nodup_append.mp hnd).2.2 _ (mem_cellBlocks_addr hc) _
        (mem_cellBlocks_addr (List.mem_singleton.mpr rfl)) heq
    refine ⟨h₂, _, ?_, hh.append (c := ⟨node, pack, packet⟩) ?_ ?_ ?_ (hlive₂.trans hlive₁),
      rfl, rfl⟩
    · simp only [Cell.block] at hload hs₁
      simp [linkNode, hend, World.loadNode, World.store, hload, hs₁, hn₁, hs₂]
    · intro a ha
      rcases List.mem_cons.mp ha with rfl | hm
      · refine hother _ List.mem_cons_self ?_
        rw [hh.bytes]
        exact fun h => by cases h
      · obtain ⟨c, hc, rfl⟩ := List.mem_map.mp hm
        refine hother _ (List.mem_cons_of_mem _ (mem_cellBlocks_pack hc)) ?_
        rw [hh.packs c hc]
        exact fun h => by cases h
    · refine hh.linked.snoc ?_ ((hother₂ _ hene.1).trans hself₁) (hself₂.trans hblock)
      intro c hc
      exact same _ (List.mem_cons_of_mem _ (mem_cellBlocks_addr (List.mem_append_left _ hc)))
        (hinit c hc)
    · rw [hother₂ pack (Ne.symm hnp), hother₁ pack (Ne.symm hene.2), hpack]

variable [CDouble D] {s : List Byte} (pos : Int)

/-- No memory for the node or for the pack: the heap ends as it began. -/
theorem queueSentence_memFail (hh : Holds p w.heap b mem cells rest)
    (ho : outcome env w.mallocs s = (.memFail : Outcome D)) :
    ∃ h, queueSentence env pos (nmeaPackType (s.drop 1)) s p w =
        some (false, p, { w with
          heap := h, mallocs := w.mallocs + mallocCalls env w.mallocs s }) ∧
      Holds p h b mem cells rest := by
  rcases outcome_memFail ho with hk | ⟨hk, hk', ok, packet, hp⟩
  · refine ⟨w.heap, ?_, hh⟩
    rw [queueSentence, rtMalloc_fail hk, mallocCalls_one (.inl hk)]
  · obtain ⟨a, h₁, ha, hfresh, hlive, -, hother⟩ := Heap.alloc_spec env.alloc w.heap
      (.node { env.freshNode w.mallocs with pack := none })
    have hin : a ∈ h₁.live := hlive ▸ List.mem_cons_self
    obtain ⟨h₂, hf, hother', hlive'⟩ := Heap.free_some hin
    refine ⟨h₂, ?_, hh.transport ?_ ((taken_back (hlive ▸ .refl _) hlive').trans hh.ledger)⟩
    · simp only [queueSentence, rtMalloc_ok hk, ha, hp, mallocCalls_two hk hp]
      rw [rtMalloc_fail hk']
      simp [World.rtFree, hf]
    · intro c hc
      have hc := hh.own_live hc
      rw [hother' c fun e => hfresh (e ▸ hc), hother c hc]

/-- An unknown sentence: its node is given back. -/
theorem queueSentence_ignored (hh : Holds p w.heap b mem cells rest)
    (ho : outcome env w.mallocs s = (.ignored : Outcome D)) :
    ∃ h, queueSentence env pos (nmeaPackType (s.drop 1)) s p w =
        some (true, p, { w with
          heap := h, mallocs := w.mallocs + mallocCalls env w.mallocs s }) ∧
      Holds p h b mem cells rest := by
  obtain ⟨hk, hp⟩ := outcome_ignored ho
  obtain ⟨a, h₁, ha, hfresh, hlive, -, hother⟩ := Heap.alloc_spec env.alloc w.heap
    (.node { env.freshNode w.mallocs with pack := none })
  have hin : a ∈ h₁.live := hlive ▸ List.mem_cons_self
  obtain ⟨h₂, hf, hother', hlive'⟩ := Heap.free_some hin
  refine ⟨h₂, ?_, hh.transport ?_ ((taken_back (hlive ▸ .refl _) hlive').trans hh.ledger)⟩
  · simp only [queueSentence, rtMalloc_ok hk, ha, hp, mallocCalls_one (.inr (parsePack_eq_none.mp hp))]
    simp [World.rtFree, hf]
  · intro c hc
    have hc := hh.own_live hc
    rw [hother' c fun e => hfresh (e ▸ hc), hother c hc]

/-- A sentence its field parser rejects: the node is given back, the pack is not. -/
theorem queueSentence_rejected (hh : Holds p w.heap b mem cells rest)
    (ho : outcome env w.mallocs s = (.rejected : Outcome D)) :
    ∃ h pack, queueSentence env pos (nmeaPackType (s.drop 1)) s p w =
        some (true, p, { w with
          heap := h, mallocs := w.mallocs + mallocCalls env w.mallocs s }) ∧
      Holds p h b mem cells (pack :: rest) := by
  obtain ⟨hk, hk', packet, hp⟩ := outcome_rejected ho
  obtain ⟨node, h₁, pack, h₂, h₃, ha₁, ha₂, hn, hs, -, -, hsame, hfresh, -, hlive⟩ :=
    node_and_pack env hh { env.freshNode w.mallocs with pack := none } packet
      fun pack => { env.freshNode w.mallocs with
        packType := nmeaPackType (s.drop 1), pack := some pack }
  have hin : node ∈ h₃.live := hlive.mem_iff.mpr List.mem_cons_self
  obtain ⟨h₄, hf, hother, hlive'⟩ := Heap.free_some hin
  refine ⟨h₄, pack, ?_, hh.transport ?_ ?_⟩
  · rw [mallocCalls_two hk hp]
    generalize nmeaPackType (s.drop 1) = ptype at hp hs ⊢
    simp only [queueSentence, rtMalloc_ok hk, ha₁, hp]
    rw [rtMalloc_ok hk']
    simp [World.rtFree, World.loadNode, World.store, ha₂, hn, hs, hf]
  · intro a hm
    rw [hother a fun e => hfresh (e ▸ hh.own_live hm), hsame a hm]
  · refine (taken_back hlive hlive').trans ((hh.ledger.cons pack).trans ?_)
    refine (List.Perm.swap _ _ _).trans (List.Perm.cons _ ?_)
    exact List.perm_middle.symm

/-- An accepted sentence: its packet is appended to the queue, and that is logged. -/
theorem queueSentence_accepted (hh : Holds p w.heap b mem cells rest) {packet : Packet D}
    (ho : outcome env w.mallocs s = .accepted packet) :
    ∃ h p' c, queueSentence env pos (nmeaPackType (s.drop 1)) s p w =
        some (true, p', { w with
          heap := h
          mallocs := w.mallocs + mallocCalls env w.mallocs s
          queued := w.queued ++ [(pos, packet)] }) ∧
      Holds p' h b mem (cells ++ [c]) rest ∧ c.packet = packet ∧
      p'.buffUse = p.buffUse ∧ p'.buffSize = p.buffSize := by
  obtain ⟨hk, hk', ok, hok, hp⟩ := outcome_accepted ho
  have hty := parsePack_packType hp
  rw [mallocCalls_two hk hp]
  generalize nmeaPackType (s.drop 1) = ptype at hp hty ⊢
  obtain ⟨node, h₁, pack, h₂, h₃, ha₁, ha₂, hn, hs, hn₃, hp₃, hsame, hfresh, hfresh', hlive⟩ :=
    node_and_pack env hh { env.freshNode w.mallocs with pack := none } packet
      fun pack => { env.freshNode w.mallocs with packType := ptype, pack := some pack }
  have hh₃ : Holds p h₃ b mem cells (node :: pack :: rest) := by
    refine hh.transport hsame (hlive.trans ?_)
    refine ((hh.ledger.cons pack).cons node).trans ?_
    have : (b :: (cellBlocks cells ++ node :: pack :: rest)).Perm
        (node :: pack :: (b :: (cellBlocks cells ++ rest))) := by
      rw [← List.cons_append, ← List.cons_append]
      exact List.perm_middle.trans (List.perm_middle.cons node)
    exact this.symm
  obtain ⟨h₄, p', hlink, hh₄, huse, hsize⟩ :=
    linkNode_spec (w := { w with heap := h₃, mallocs := w.mallocs + 2 }) hh₃ hn₃ hp₃ hty.symm rfl
  refine ⟨h₄, p', ⟨node, pack, packet⟩, ?_, hh₄, rfl, huse, hsize⟩
  simp only [queueSentence, rtMalloc_ok hk, ha₁, hp]
  rw [rtMalloc_ok hk']
  simp [World.loadNode, World.store, ha₂, hn, hs, hok, hlink]

end Sentence

end RttNmea
