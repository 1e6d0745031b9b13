import RttNmea.Parser

/-!
# The parser without its heap

What the parser is for: settle the bytes received so far into sentences, queue the packets
of those that are accepted, apply them. The queue is a list here and the buffer holds only
the bytes in use. `Refinement` shows that the code does exactly this.

* `outcome`: what becomes of one sentence whose crc is right;
* `harvest`: what becomes of a row of settled pieces, which a failed rt_malloc cuts short;
* `AbsParser.realPush`, `AbsParser.parse`: the operations.
-/

namespace RttNmea

open CText Framing

variable {D : Type} [CDouble D]

/-- What becomes of a sentence with a right crc. -/
inductive Outcome (D : Type)
  | memFail
  | ignored
  | rejected
  | accepted (packet : Packet D)

/-- The outcome for a sentence met after `k` calls of rt_malloc. -/
def outcome (env : Env) (k : Nat) (sentence : List Byte) : Outcome D :=
  if env.mallocOk k = false then .memFail
  else
    match parsePack env.abi (env.stack (k + 1)) (nmeaPackType (sentence.drop 1)) sentence with
    | none => .ignored
    | some (ok, packet) =>
      if env.mallocOk (k + 1) = false then .memFail
      else if ok = 0 then .rejected
      else .accepted packet

/-- How many rt_malloc calls a sentence with a right crc makes. -/
def mallocCalls (env : Env) (k : Nat) (sentence : List Byte) : Nat :=
  if env.mallocOk k = false ∨ nmeaPackType (sentence.drop 1) = .gpnon then 1 else 2

section
variable {env : Env} {k : Nat} {sentence : List Byte}

theorem parsePack_eq_none {abi : Abi} {stk : List Byte} {ptype : PackType} :
    (parsePack abi stk ptype sentence : Option (Int32 × Packet D)) = none ↔ ptype = .gpnon := by
  cases ptype <;> simp [parsePack]

theorem parsePack_packType {abi : Abi} {stk : List Byte} {ptype : PackType} {ok : Int32}
    {packet : Packet D} (h : parsePack abi stk ptype sentence = some (ok, packet)) :
    packet.packType = ptype := by
  cases ptype <;> simp only [parsePack, reduceCtorEq, Option.some.injEq, Prod.mk.injEq] at h <;>
    exact h.2 ▸ rfl

theorem outcome_memFail (h : outcome env k sentence = (.memFail : Outcome D)) :
    env.mallocOk k = false ∨
    env.mallocOk k = true ∧ env.mallocOk (k + 1) = false ∧
      ∃ ok packet, (parsePack env.abi (env.stack (k + 1)) (nmeaPackType (sentence.drop 1))
        sentence : Option (Int32 × Packet D)) = some (ok, packet) := by
  unfold outcome at h
  split at h
  · exact .inl ‹_›
  · rename_i hk
    split at h
    · cases h
    · rename_i ok packet hp
      split at h
      · exact .inr ⟨by simpa using hk, ‹_›, ok, packet, hp⟩
      · split at h <;> cases h

theorem outcome_ignored (h : outcome env k sentence = (.ignored : Outcome D)) :
    env.mallocOk k = true ∧
      (parsePack env.abi (env.stack (k + 1)) (nmeaPackType (sentence.drop 1)) sentence :
        Option (Int32 × Packet D)) = none := by
  unfold outcome at h
  split at h
  · cases h
  · rename_i hk
    split at h
    · exact ⟨by simpa using hk, ‹_›⟩
    · split at h
      · cases h
      · split at h <;> cases h

theorem outcome_rejected (h : outcome env k sentence = (.rejected : Outcome D)) :
    env.mallocOk k = true ∧ env.mallocOk (k + 1) = true ∧
      ∃ packet, (parsePack env.abi (env.stack (k + 1)) (nmeaPackType (sentence.drop 1))
        sentence : Option (Int32 × Packet D)) = some (0, packet) := by
  unfold outcome at h
  split at h
  · cases h
  · rename_i hk
    split at h
    · cases h
    · rename_i ok packet hp
      split at h
      · cases h
      · rename_i hk'
        split at h
        · rename_i hok
          exact ⟨by simpa using hk, by simpa using hk', packet, hok ▸ hp⟩
        · cases h

theorem outcome_accepted {packet : Packet D} (h : outcome env k sentence = .accepted packet) :
    env.mallocOk k = true ∧ env.mallocOk (k + 1) = true ∧
      ∃ ok, ok ≠ 0 ∧ parsePack env.abi (env.stack (k + 1)) (nmeaPackType (sentence.drop 1))
        sentence = some (ok, packet) := by
  unfold outcome at h
  split at h
  · cases h
  · rename_i hk
    split at h
    · cases h
    · rename_i ok packet' hp
      split at h
      · cases h
      · rename_i hk'
        split at h
        · cases h
        · rename_i hok
          cases h
          exact ⟨by simpa using hk, by simpa using hk', ok, hok, hp⟩

theorem mallocCalls_one (h : env.mallocOk k = false ∨ nmeaPackType (sentence.drop 1) = .gpnon) :
    mallocCalls env k sentence = 1 := if_pos h

theorem mallocCalls_two (hk : env.mallocOk k = true) {ok : Int32} {packet : Packet D}
    (hp : parsePack env.abi (env.stack (k + 1)) (nmeaPackType (sentence.drop 1)) sentence =
      some (ok, packet)) : mallocCalls env k sentence = 2 := by
  refine if_neg ?_
  rintro (h | h)
  · rw [hk] at h
    cases h
  · rw [parsePack_eq_none.mpr h] at hp
    cases hp

end

/-- What a row of settled pieces yields: the packets with their stream offsets, the calls
of rt_malloc made in all, whether one failed, and how many packs were left behind. -/
structure Harvest (D : Type) where
  accepted : List (Int × Packet D)
  mallocs : Nat
  failed : Bool
  leaked : Nat

def harvest (env : Env) (k : Nat) (pos : Int) : List (List Byte × Int32) → Harvest D
  | [] => ⟨[], k, false, 0⟩
  | (sentence, crc) :: pieces =>
    if crc < 0 then harvest env k (pos + sentence.length) pieces
    else
      let next := harvest env (k + mallocCalls env k sentence) (pos + sentence.length) pieces
      match outcome env k sentence with
      | .memFail => ⟨[], k + mallocCalls env k sentence, true, 0⟩
      | .ignored => next
      | .rejected => { next with leaked := next.leaked + 1 }
      | .accepted packet => { next with accepted := (pos, packet) :: next.accepted }

/-- The state of the parser, its heap forgotten but for the number of blocks that belong
to nothing. -/
structure AbsParser (D : Type) where
  size : Nat
  bytes : List Byte
  queue : List (Packet D)
  mallocs : Nat
  leaks : Nat
  stream : List Byte
  queued : List (Int × Packet D)
  applied : List (Packet D × Option (Info D))

namespace AbsParser

/-- The bytes the parse loop sees: what was held back, unless it has to be dropped to make
room, and the new ones. -/
def input (s : AbsParser D) (buff : List Byte) : List Byte :=
  (if s.bytes.length + buff.length ≥ s.size then [] else s.bytes) ++ buff

/-- The settled pieces of a push, and the bytes held back after it. -/
def settled (env : Env) (s : AbsParser D) (buff : List Byte) :
    List (List Byte × Int32) × List Byte :=
  drain (tailScanner env.abi) (s.input buff)

/-- The stream offset of the first byte the parse loop sees. -/
def origin (s : AbsParser D) (buff : List Byte) : Int :=
  (s.stream ++ buff).length - (s.input buff).length

def reap (env : Env) (s : AbsParser D) (buff : List Byte) : Harvest D :=
  harvest env s.mallocs (s.origin buff) (s.settled env buff).1

/-- A push: the packets of the settled pieces are queued and the rest is held back. After a
failed rt_malloc everything is held back, the pieces already queued included. -/
def realPush (env : Env) (s : AbsParser D) (buff : List Byte) : Int × AbsParser D :=
  let h := s.reap env buff
  let d := s.settled env buff
  (if h.failed then -1 else (s.input buff).length - d.2.length,
    { s with
      bytes := if h.failed then s.input buff else d.2
      queue := s.queue ++ h.accepted.map Prod.snd
      mallocs := h.mallocs
      leaks := s.leaks + h.leaked
      stream := s.stream ++ buff
      queued := s.queued ++ h.accepted })

end AbsParser

/-- The sizes of the slices nmea_parser_push cuts `n` bytes into. -/
def sliceSizes (size n : Nat) : List Nat :=
  if 0 < size ∧ size < n then size :: sliceSizes size (n - size) else [n]
termination_by n

/-- Pushing one slice after another. -/
def AbsParser.pushEach (env : Env) (s : AbsParser D) : List (List Byte) → Int × AbsParser D
  | [] => (0, s)
  | c :: cs =>
    let r := s.realPush env c
    let t := AbsParser.pushEach env r.2 cs
    (r.1 + t.1, t.2)

/-- nmea_parser_push: every slice is taken from the front of `buff`. -/
def AbsParser.push (env : Env) (s : AbsParser D) (buff : List Byte) : Int × AbsParser D :=
  s.pushEach env ((sliceSizes s.size buff.length).map buff.take)

/-- The packets applied one after another, each with the summary after it. -/
def applyAll (info : Option (Info D)) : List (Packet D) → List (Packet D × Option (Info D))
  | [] => []
  | p :: ps => (p, info.bind (packInfo p)) :: applyAll (info.bind (packInfo p)) ps

/-- The summary after all of them. -/
def foldInfo (info : Option (Info D)) (ps : List (Packet D)) : Option (Info D) :=
  ps.foldl (fun i p => i.bind (packInfo p)) info

/-- Taking everything from the queue and applying it. -/
def AbsParser.flush (s : AbsParser D) (info : Option (Info D)) : AbsParser D :=
  { s with queue := [], applied := s.applied ++ applyAll info s.queue }

/-- nmea_parse: the number of packets, the state and the summary after it. -/
def AbsParser.parse (env : Env) (s : AbsParser D) (info : Option (Info D)) (buff : List Byte) :
    Nat × AbsParser D × Option (Info D) :=
  let r := (s.push env buff).2
  (r.queue.length, r.flush info, foldInfo info r.queue)

/-- nmea_parse on one chunk after another. -/
def AbsParser.parseAll (env : Env) (s : AbsParser D) (info : Option (Info D)) :
    List (List Byte) → Nat × AbsParser D × Option (Info D)
  | [] => (0, s, info)
  | c :: cs =>
    let r := s.parse env info c
    let t := AbsParser.parseAll env r.2.1 r.2.2 cs
    (r.1 + t.1, t.2)

theorem sliceSizes_small {size n : Nat} (h : n ≤ size) : sliceSizes size n = [n] := by
  rw [sliceSizes, if_neg (by omega)]

theorem sliceSizes_large {size n : Nat} (hpos : 0 < size) (h : size < n) :
    sliceSizes size n = size :: sliceSizes size (n - size) := by
  rw [sliceSizes, if_pos ⟨hpos, h⟩]

theorem sliceSizes_le {size n k : Nat} (hpos : 0 < size) (hk : k ∈ sliceSizes size n) :
    k ≤ size := by
  induction n using Nat.strongRecOn with
  | ind n ih =>
    by_cases h : size < n
    · rw [sliceSizes_large hpos h] at hk
      rcases List.mem_cons.mp hk with rfl | hk
      · exact Nat.le_refl _
      · exact ih _ (by omega) hk
    · rw [sliceSizes_small (by omega), List.mem_singleton] at hk
      omega

/-- What fits the buffer is pushed in one slice. -/
theorem push_small {env : Env} {s : AbsParser D} {buff : List Byte}
    (h : buff.length ≤ s.size) : (s.push env buff).2 = (s.realPush env buff).2 := by
  simp [AbsParser.push, sliceSizes_small h, AbsParser.pushEach]

theorem applyAll_packets (info : Option (Info D)) (ps : List (Packet D)) :
    (applyAll info ps).map Prod.fst = ps := by
  induction ps generalizing info with
  | nil => rfl
  | cons p ps ih => simp [applyAll, ih]

theorem applyAll_append (info : Option (Info D)) (ps qs : List (Packet D)) :
    applyAll info (ps ++ qs) = applyAll info ps ++ applyAll (foldInfo info ps) qs := by
  induction ps generalizing info with
  | nil => rfl
  | cons p ps ih => simp [applyAll, foldInfo, ih]

theorem foldInfo_append (info : Option (Info D)) (ps qs : List (Packet D)) :
    foldInfo info (ps ++ qs) = foldInfo (foldInfo info ps) qs :=
  List.foldl_append

end RttNmea
