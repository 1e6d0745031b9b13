import RttNmea.FindTail
import RttNmea.Info
import RttNmea.Lib.Heap

/-!
# The parser: nmea_parser_* and nmea_parse

The code works on a heap: the byte buffer, and for each queued packet a node block and a
pack block. A heap fault (a dead address, a block of the wrong kind, a store outside the
buffer) and a failed NMEA_ASSERT are `none`.

`World` also keeps three logs no function reads: the bytes handed to
nmea_parser_real_push, the sentences it queued and the packets nmea_parse applied.
-/

namespace RttNmea

open CText

variable {D : Type} [CDouble D]

/-- struct _nmea_parser_node. -/
structure Node where
  packType : PackType
  pack : Option Addr
  nextNode : Option Addr
  deriving DecidableEq, Repr

/-- What a heap block holds. -/
inductive Block (D : Type)
  | bytes (mem : List Byte)
  | node (n : Node)
  | pack (p : Packet D)

/-- nmea_parser_t. -/
structure Parser where
  topNode : Option Addr := none
  endNode : Option Addr := none
  buffer : Option Addr := none
  buffSize : Nat := 0
  buffUse : Nat := 0
  deriving DecidableEq, Repr

/-- What the code does not control: the target, where the allocator puts a block, which
rt_malloc calls succeed (by number), what the stack holds when a field parser starts (by
the number of rt_malloc calls before it), and what fresh memory holds. -/
structure Env where
  abi : Abi
  alloc : Allocator
  mallocOk : Nat → Bool
  stack : Nat → List Byte
  freshNode : Nat → Node
  freshByte : Nat → Byte

/-- Every rt_malloc succeeds. -/
def Env.MallocSucceeds (env : Env) : Prop := ∀ k, env.mallocOk k = true

/-- The stack time buffer is zeroed. -/
def Env.StackZeroed (env : Env) : Prop :=
  ∀ k, env.stack k = List.replicate nmeaTimeParseBuf 0

/-- A 32-bit target with unsigned char, zeroed memory everywhere, and rt_malloc as given. -/
def Env.zeroed (mallocOk : Nat → Bool) : Env where
  abi := ⟨false, 32, le_rfl⟩
  alloc := .bump
  mallocOk := mallocOk
  stack _ := List.replicate nmeaTimeParseBuf 0
  freshNode _ := ⟨.gpnon, none, none⟩
  freshByte _ := 0

/-- The heap, the number of rt_malloc calls so far, and the logs: the bytes handed on, the
sentences queued with their offset in those bytes, and the packets applied, each with the
summary after it. -/
structure World (D : Type) where
  heap : Heap (Block D)
  mallocs : Nat := 0
  stream : List Byte := []
  queued : List (Int × Packet D) := []
  applied : List (Packet D × Option (Info D)) := []

namespace World

omit [CDouble D]

def empty : World D where
  heap := ∅

def store (w : World D) (a : Addr) (b : Block D) : Option (World D) :=
  (w.heap.store a b).map fun h => { w with heap := h }

def loadBytes (w : World D) (a : Addr) : Option (List Byte) :=
  match w.heap.load a with
  | some (.bytes mem) => some mem
  | _ => none

def loadNode (w : World D) (a : Addr) : Option Node :=
  match w.heap.load a with
  | some (.node n) => some n
  | _ => none

def loadPack (w : World D) (a : Addr) : Option (Packet D) :=
  match w.heap.load a with
  | some (.pack p) => some p
  | _ => none

def rtMalloc (env : Env) (b : Block D) (w : World D) : Option Addr × World D :=
  let w' := { w with mallocs := w.mallocs + 1 }
  if env.mallocOk w.mallocs then
    let r := w.heap.alloc env.alloc b
    (some r.1, { w' with heap := r.2 })
  else (none, w')

def rtFree (w : World D) (a : Addr) : Option (World D) :=
  (w.heap.free a).map fun h => { w with heap := h }

end World

/-! ## init -/

/-- nmea_parser_init: 1, or -1 without memory. -/
def nmeaParserInit (env : Env) (w : World D) : Int × Parser × World D :=
  let buffSize := max nmeaDefParseBuff nmeaMinParseBuff
  match w.rtMalloc env (.bytes ((List.range buffSize).map env.freshByte)) with
  | (none, w) => (-1, {}, w)
  | (some a, w) => (1, { buffer := some a, buffSize := buffSize }, w)

/-! ## The packet queue -/

/-- nmea_parser_top. -/
def nmeaParserTop (p : Parser) (w : World D) : Option PackType := do
  let _ ← p.buffer
  match p.topNode with
  | none => return .gpnon
  | some a => return (← w.loadNode a).packType

/-- nmea_parser_peek: the type, and the pack written through pack_ptr. -/
def nmeaParserPeek (p : Parser) (w : World D) : Option (PackType × Option Addr) := do
  let _ ← p.buffer
  match p.topNode with
  | none => return (.gpnon, none)
  | some a =>
    let node ← w.loadNode a
    return (node.packType, node.pack)

/-- `top_node = node->next_node; if (!top_node) end_node = 0`. -/
def Parser.advance (p : Parser) (node : Node) : Parser :=
  { p with
    topNode := node.nextNode
    endNode := if node.nextNode = none then none else p.endNode }

/-- nmea_parser_pop. -/
def nmeaParserPop (p : Parser) (w : World D) :
    Option ((PackType × Option Addr) × Parser × World D) := do
  let _ ← p.buffer
  match p.topNode with
  | none => return ((.gpnon, none), p, w)
  | some a =>
    let node ← w.loadNode a
    let w ← w.rtFree a
    return ((node.packType, node.pack), p.advance node, w)

/-- nmea_parser_drop. -/
def nmeaParserDrop (p : Parser) (w : World D) : Option (PackType × Parser × World D) := do
  let _ ← p.buffer
  match p.topNode with
  | none => return (.gpnon, p, w)
  | some a =>
    let node ← w.loadNode a
    let w ← match node.pack with
      | some pk => w.rtFree pk
      | none => some w
    let w ← w.rtFree a
    return (node.packType, p.advance node, w)

/-- `while (parser->top_node) nmea_parser_drop(parser)`; each turn frees a node. -/
def queueClearLoop : Nat → Parser → World D → Option (Parser × World D)
  | 0, _, _ => none
  | fuel + 1, p, w =>
    if p.topNode = none then some (p, w)
    else do
      let (_, p, w) ← nmeaParserDrop p w
      queueClearLoop fuel p w

/-- nmea_parser_queue_clear. -/
def nmeaParserQueueClear (p : Parser) (w : World D) : Option (Parser × World D) :=
  queueClearLoop (w.heap.live.length + 1) p w

/-- nmea_parser_destroy. -/
def nmeaParserDestroy (p : Parser) (w : World D) : Option (Parser × World D) := do
  let b ← p.buffer
  let w ← w.rtFree b
  let (_, w) ← nmeaParserQueueClear p w
  return ({}, w)

/-! ## push -/

/-- nmea_parser_buff_clear. -/
def nmeaParserBuffClear (p : Parser) : Parser := { p with buffUse := 0 }

/-- rt_memcpy of `src` to offset `off` of the byte buffer. -/
def copyTo (mem : List Byte) (off : Nat) (src : List Byte) : Option (List Byte) :=
  if off + src.length ≤ mem.length then
    some (mem.take off ++ src ++ mem.drop (off + src.length))
  else none

/-- rt_memcpy of `n` bytes at offset `off` to the start of the byte buffer. -/
def copyDown (mem : List Byte) (off n : Nat) : List Byte :=
  (mem.drop off).take n ++ mem.drop n

/-- Linking an accepted node at the end of the queue, and the log of it. -/
def linkNode (p : Parser) (w : World D) (node : Addr) : Option (Parser × World D) := do
  let w ← match p.endNode with
    | some e => do
      let n ← w.loadNode e
      w.store e (.node { n with nextNode := some node })
    | none => some w
  let n ← w.loadNode node
  let w ← w.store node (.node { n with nextNode := none })
  return ({ p with endNode := some node, topNode := p.topNode.or (some node) }, w)

/-- What nmea_parser_real_push does with a sentence whose crc is right, found at offset
`pos` of the stream; false is `goto mem_fail`, its clean-up included. -/
def queueSentence (env : Env) (pos : Int) (ptype : PackType) (sentence : List Byte)
    (p : Parser) (w : World D) : Option (Bool × Parser × World D) :=
  match w.rtMalloc env (.node { env.freshNode w.mallocs with pack := none }) with
  | (none, w) => some (false, p, w)
  | (some node, w) =>
    match parsePack env.abi (env.stack w.mallocs) ptype sentence with
    | none => do
      let w ← w.rtFree node
      return (true, p, w)
    | some (ok, packet) =>
      match w.rtMalloc env (.pack packet) with
      | (none, w) => do
        let w ← w.rtFree node
        return (false, p, w)
      | (some pack, w) => do
        let n ← w.loadNode node
        let w ← w.store node (.node { n with packType := ptype, pack := some pack })
        if ok = 0 then
          -- the node is freed, the pack it points to is not
          let w ← w.rtFree node
          return (true, p, w)
        else
          let (p, w) ← linkNode p w node
          return (true, p, { w with queued := w.queued ++ [(pos, packet)] })

/-- The parse loop of nmea_parser_real_push on the byte buffer at `b`; each turn that goes
on moves nparsed forward. -/
def pushLoop (env : Env) (b : Addr) :
    Nat → Nat → Parser → World D → Option (Int × Parser × World D)
  | 0, _, _, _ => none
  | fuel + 1, nparsed, p, w => do
    let mem ← w.loadBytes b
    let rest := (mem.take p.buffUse).drop nparsed
    let (senSz, crc) := nmeaFindTail env.abi rest
    if senSz = 0 then
      if nparsed = 0 then return (0, p, w)
      else
        let p := { p with buffUse := p.buffUse - nparsed }
        let w ← w.store b (.bytes (copyDown mem nparsed p.buffUse))
        return (nparsed, p, w)
    else if 0 ≤ crc then
      let pos : Int := w.stream.length - p.buffUse + nparsed
      let (ok, p, w) ← queueSentence env pos (nmeaPackType (rest.drop 1)) (rest.take senSz) p w
      if ok then pushLoop env b fuel (nparsed + senSz) p w
      else return (-1, p, w)
    else pushLoop env b fuel (nparsed + senSz) p w

/-- nmea_parser_real_push. -/
def nmeaParserRealPush (env : Env) (p : Parser) (buff : List Byte) (w : World D) :
    Option (Int × Parser × World D) := do
  let b ← p.buffer
  let p := if p.buffUse + buff.length ≥ p.buffSize then nmeaParserBuffClear p else p
  let mem ← w.loadBytes b
  let mem ← copyTo mem p.buffUse buff
  let w ← w.store b (.bytes mem)
  let p := { p with buffUse := p.buffUse + buff.length }
  pushLoop env b (p.buffUse + 1) 0 p { w with stream := w.stream ++ buff }

/-- The loop of nmea_parser_push, with `buffSz` bytes to go. `buff` is never moved on. -/
def pushSlices (env : Env) (buff : List Byte) :
    Nat → Nat → Int → Parser → World D → Option (Int × Parser × World D)
  | 0, _, _, _, _ => none
  | fuel + 1, buffSz, nparsed, p, w => do
    let nparse := if buffSz > p.buffSize then p.buffSize else buffSz
    let (n, p, w) ← nmeaParserRealPush env p (buff.take nparse) w
    if buffSz - nparse = 0 then return (nparsed + n, p, w)
    else pushSlices env buff fuel (buffSz - nparse) (nparsed + n) p w

/-- nmea_parser_push. -/
def nmeaParserPush (env : Env) (p : Parser) (buff : List Byte) (w : World D) :
    Option (Int × Parser × World D) :=
  pushSlices env buff (buff.length + 1) buff.length 0 p w

/-! ## nmea_parse -/

/-- The loop of nmea_parse: pop, merge into info, free; each turn frees a node. -/
def applyLoop : Nat → Nat → Parser → Option (Info D) → World D →
    Option (Nat × Parser × Option (Info D) × World D)
  | 0, _, _, _, _ => none
  | fuel + 1, nread, p, info, w => do
    let ((ptype, pack), p, w) ← nmeaParserPop p w
    if ptype = .gpnon then return (nread, p, info, w)
    else
      let a ← pack
      let packet ← w.loadPack a
      -- the pack is read as the struct its packType names
      if packet.packType ≠ ptype then none
      else
        let info := info.bind (packInfo packet)
        let w ← w.rtFree a
        applyLoop fuel (nread + 1) p info { w with applied := w.applied ++ [(packet, info)] }

/-- nmea_parse: the number of packets, the parser and the summary after it. `info` is
`none` once an update has left its table. -/
def nmeaParse (env : Env) (p : Parser) (buff : List Byte) (info : Option (Info D))
    (w : World D) : Option (Nat × Parser × Option (Info D) × World D) := do
  let (_, p, w) ← nmeaParserPush env p buff w
  applyLoop (w.heap.live.length + 1) 0 p info w

end RttNmea
