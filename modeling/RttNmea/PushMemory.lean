import RttNmea.Memcpy

/-!
# nmea_parser_real_push in memory

`realPushAt` is nmea_parser_real_push with the byte buffer and the caller's bytes at their
addresses and rt_memcpy between them. The heap block of the buffer shows what lies there.
-/

namespace RttNmea

open CText Framing

variable {D : Type} [CDouble D] {env : Env}

/-- A push that is over: what it returns, the memory, the parser and its heap, and nparsed at the
start of each turn of the sentence loop. -/
structure PushRun (D : Type) where
  result : Int
  memory : Memory Byte
  parser : Parser
  world : World D
  passes : List Nat

/-- The heap block `b` shows the `size` bytes at `base`. -/
def World.showBytes (w : World D) (b : Addr) (m : Memory Byte) (base : Int) (size : Nat) :
    Option (World D) := do
  let mem ← m.read base size
  w.store b (.bytes mem)

/-- The sentence loop. -/
def pushLoopAt (env : Env) (b : Addr) (base : Int) :
    Nat → Nat → Memory Byte → Parser → World D → Option (PushRun D)
  | 0, _, _, _, _ => none
  | fuel + 1, nparsed, m, p, w => do
    let rest ← m.read (base + nparsed) (p.buffUse - nparsed)
    let (senSz, crc) := nmeaFindTail env.abi rest
    if senSz = 0 then
      if nparsed = 0 then return ⟨0, m, p, w, [nparsed]⟩
      else
        let p := { p with buffUse := p.buffUse - nparsed }
        let m ← rtMemcpy env.abi m base (base + nparsed) p.buffUse
        let w ← w.showBytes b m base p.buffSize
        return ⟨nparsed, m, p, w, [nparsed]⟩
    else if 0 ≤ crc then
      let pos : Int := w.stream.length - p.buffUse + nparsed
      let (ok, p, w) ← queueSentence env pos (nmeaPackType (rest.drop 1)) (rest.take senSz) p w
      if ok then
        let run ← pushLoopAt env b base fuel (nparsed + senSz) m p w
        return { run with passes := nparsed :: run.passes }
      else return ⟨-1, m, p, w, [nparsed]⟩
    else
      let run ← pushLoopAt env b base fuel (nparsed + senSz) m p w
      return { run with passes := nparsed :: run.passes }

/-- nmea_parser_real_push of the `buffSz` bytes at `buff`, with the byte buffer at `base`. -/
def realPushAt (env : Env) (base buff : Int) (buffSz : Nat) (m : Memory Byte) (p : Parser)
    (w : World D) : Option (PushRun D) := do
  let b ← p.buffer
  let p := if p.buffUse + buffSz ≥ p.buffSize then nmeaParserBuffClear p else p
  let bytes ← m.read buff buffSz
  let m ← rtMemcpy env.abi m (base + p.buffUse) buff buffSz
  let w ← w.showBytes b m base p.buffSize
  let p := { p with buffUse := p.buffUse + buffSz }
  pushLoopAt env b base (p.buffUse + 1) 0 m p { w with stream := w.stream ++ bytes }

/-! ## One turn -/

variable {b : Addr} {base : Int} {mem : List Byte} {m : Memory Byte} {p : Parser} {w : World D}
  {cells : List (Cell D)} {spare : List Addr} {fuel nparsed : Nat}

/-- Whatever becomes of a sentence, the byte buffer is left as it is. -/
theorem queueSentence_keeps (env : Env) (hh : Holds p w.heap b mem cells spare) (pos : Int)
    (s : List Byte) :
    ∃ ok p' w' cells' spare', queueSentence env pos (nmeaPackType (s.drop 1)) s p w =
        some (ok, p', w') ∧
      Holds p' w'.heap b mem cells' spare' ∧ p'.buffUse = p.buffUse ∧
      p'.buffSize = p.buffSize := by
  cases ho : (outcome env w.mallocs s : Outcome D) with
  | memFail =>
    obtain ⟨heap, hq, hh'⟩ := queueSentence_memFail pos hh ho
    exact ⟨_, _, _, cells, spare, hq, hh', rfl, rfl⟩
  | ignored =>
    obtain ⟨heap, hq, hh'⟩ := queueSentence_ignored pos hh ho
    exact ⟨_, _, _, cells, spare, hq, hh', rfl, rfl⟩
  | rejected =>
    obtain ⟨heap, pack, hq, hh'⟩ := queueSentence_rejected pos hh ho
    exact ⟨_, _, _, cells, pack :: spare, hq, hh', rfl, rfl⟩
  | accepted packet =>
    obtain ⟨heap, p', c, hq, hh', -, huse, hsize⟩ := queueSentence_accepted pos hh ho
    exact ⟨_, _, _, cells ++ [c], spare, hq, hh', huse, hsize⟩

/-- What a run of the sentence loop from `nparsed` on leaves, the memory outside the buffer and the
turns it took. -/
structure LoopInside (base : Int) (b : Addr) (nparsed : Nat) (m : Memory Byte) (p : Parser)
    (run : PushRun D) : Prop where
  outside : ∀ a, a < base ∨ base + p.buffSize ≤ a → run.memory a = m a
  first : run.passes.head? = some nparsed
  forward : run.passes.Pairwise (· < ·)
  within : ∀ n ∈ run.passes, nparsed ≤ n ∧ n ≤ p.buffUse
  buffer : run.parser.buffer = some b
  shown : ∃ mem', run.world.loadBytes b = some mem' ∧
    run.memory.read base p.buffSize = some mem'

omit [CDouble D] in
/-- A turn that goes on is in front of all later ones. -/
theorem LoopInside.cons {run : PushRun D} {p' : Parser} {n : Nat} (hn : 0 < n)
    (hle : nparsed ≤ p.buffUse) (hp : p'.buffUse = p.buffUse ∧ p'.buffSize = p.buffSize)
    (h : LoopInside base b (nparsed + n) m p' run) :
    LoopInside base b nparsed m p { run with passes := nparsed :: run.passes } where
  outside a ha := h.outside a (hp.2 ▸ ha)
  first := rfl
  forward := by
    refine List.pairwise_cons.mpr ⟨fun k hk => ?_, h.forward⟩
    have hlater := h.within k hk
    omega
  within k hk := by
    rcases List.mem_cons.mp hk with rfl | hk
    · exact ⟨Nat.le_refl _, hle⟩
    · have hlater := h.within k hk
      rw [hp.1] at hlater
      omega
  buffer := h.buffer
  shown := hp.2 ▸ h.shown

omit [CDouble D] in
/-- The turn that waits: rt_memcpy moves the unread bytes to the front. -/
theorem compact_spec (env : Env) (hh : Holds p w.heap b mem cells spare)
    (hm : m.read base p.buffSize = some mem) (hn : nparsed ≤ p.buffUse) :
    ∃ m' w', rtMemcpy env.abi m base (base + nparsed) (p.buffUse - nparsed) = some m' ∧
      w.showBytes b m' base p.buffSize = some w' ∧
      w.store b (.bytes (copyDown mem nparsed (p.buffUse - nparsed))) = some w' ∧
      (∀ a, a < base ∨ base + p.buffSize ≤ a → m' a = m a) ∧
      ∃ mem', w'.loadBytes b = some mem' ∧ m'.read base p.buffSize = some mem' := by
  have huse := hh.use
  have hlen := hh.length
  have hmapped := Memory.Mapped.of_read hm
  have hsrc : m.Mapped (base + nparsed) (p.buffUse - nparsed) :=
    hmapped.sub (by omega) (by omega)
  have hdst : m.Mapped base (p.buffUse - nparsed) := hmapped.sub (Int.le_refl _) (by omega)
  obtain ⟨m', hcopy, hmoved⟩ := rtMemcpy_some env.abi hsrc hdst (.inl (by omega))
  have hdown : m'.read base mem.length = some (copyDown mem nparsed (p.buffUse - nparsed)) :=
    moved_copyDown (hlen.symm ▸ hm) (by omega) hmoved
  rw [hlen] at hdown
  obtain ⟨heap, hstore, hh'⟩ := hh.write (copyDown mem nparsed (p.buffUse - nparsed))
    { p with buffUse := p.buffUse - nparsed } rfl
    (by rw [copyDown_length _ _ _ (by omega), hlen]) (Nat.le_trans (Nat.sub_le _ _) huse)
  have hstored : w.store b (.bytes (copyDown mem nparsed (p.buffUse - nparsed))) =
      some { w with heap := heap } := by simp [World.store, hstore]
  refine ⟨m', { w with heap := heap }, hcopy, ?_, hstored, ?_, _, ?_, hdown⟩
  · simp only [World.showBytes, hdown, Option.bind_eq_bind, Option.bind_some, hstored]
  · intro a ha
    have hout : ¬ (base ≤ a ∧ a < base + (p.buffUse - nparsed : Nat)) := by omega
    rw [hmoved a, if_neg hout]
  · simp [World.loadBytes, hh'.bytes]

/-- **The sentence loop in memory is the sentence loop on the heap**, and stays in the buffer. -/
theorem pushLoopAt_spec (env : Env) (fuel : Nat) (hh : Holds p w.heap b mem cells spare)
    (hm : m.read base p.buffSize = some mem) (hn : nparsed ≤ p.buffUse)
    (hfuel : p.buffUse - nparsed < fuel) :
    ∃ run, pushLoopAt env b base fuel nparsed m p w = some run ∧
      pushLoop env b fuel nparsed p w = some (run.result, run.parser, run.world) ∧
      LoopInside base b nparsed m p run := by
  induction fuel generalizing nparsed p w cells spare with
  | zero => exact absurd hfuel (Nat.not_lt_zero _)
  | succ fuel ih =>
    have huse := hh.use
    have hlen := hh.length
    have hload : w.loadBytes b = some mem := by simp [World.loadBytes, hh.bytes]
    have hmem : m.read base mem.length = some mem := hlen.symm ▸ hm
    have hread : m.read (base + nparsed) (p.buffUse - nparsed) =
        some ((mem.take p.buffUse).drop nparsed) := by
      rw [Memory.read_part hmem (by omega), List.drop_take]
    have hrest : ((mem.take p.buffUse).drop nparsed).length = p.buffUse - nparsed := by
      rw [List.length_drop, List.length_take]
      omega
    generalize hunread : (mem.take p.buffUse).drop nparsed = unread at hread hrest
    have hlast : ∀ run : PushRun D, run.passes = [nparsed] →
        (∀ a, a < base ∨ base + p.buffSize ≤ a → run.memory a = m a) →
        run.parser.buffer = some b → (∃ mem', run.world.loadBytes b = some mem' ∧
          run.memory.read base p.buffSize = some mem') → LoopInside base b nparsed m p run := by
      intro run hpasses houtside hbuffer hshown
      refine ⟨houtside, by rw [hpasses]; rfl, by simp [hpasses], ?_, hbuffer, hshown⟩
      intro n hmem
      obtain rfl : n = nparsed := by simpa [hpasses] using hmem
      exact ⟨Nat.le_refl _, hn⟩
    obtain ⟨n, crc, hfind⟩ : ∃ n crc, nmeaFindTail env.abi unread = (n, crc) := ⟨_, _, rfl⟩
    by_cases hn0 : n = 0
    · have hwait := pushLoop_wait env fuel hload hunread (by rw [hfind]; exact hn0)
      by_cases h0 : nparsed = 0
      · refine ⟨⟨0, m, p, w, [nparsed]⟩, ?_, ?_, hlast _ rfl (fun _ _ => rfl) hh.buffer
          ⟨mem, hload, hm⟩⟩
        · rw [pushLoopAt, hread]
          simp [hfind, hn0, h0]
        · rw [hwait, if_pos h0]
      · obtain ⟨m', w', hcopy, hshow, hstore, houtside, hshown⟩ := compact_spec env hh hm hn
        refine ⟨⟨nparsed, m', { p with buffUse := p.buffUse - nparsed }, w', [nparsed]⟩, ?_, ?_,
          hlast _ rfl houtside hh.buffer hshown⟩
        · simp [pushLoopAt, hread, hfind, hn0, h0, hcopy, hshow]
        · rw [hwait, if_neg h0, hstore]
          rfl
    · have hle : n ≤ unread.length := by
        have hsettled := @findTail_le env.abi unread
        rw [hfind] at hsettled
        exact hsettled hn0
      have hnext : nparsed + n ≤ p.buffUse := by omega
      by_cases hcrc : crc < 0
      · obtain ⟨run, hrun, hsame, hinside⟩ := ih hh hm hnext (by omega)
        refine ⟨_, ?_, ?_, hinside.cons (Nat.pos_of_ne_zero hn0) hn ⟨rfl, rfl⟩⟩
        · simp [pushLoopAt, hread, hfind, hn0, Int32.not_le.mpr hcrc, hrun]
        · rw [pushLoop_skip env fuel hload hunread hfind hn0 hcrc, hsame]
      · obtain ⟨ok, p', w', cells', spare', hq, hh', huse', hsize'⟩ := queueSentence_keeps env hh
          ((w.stream.length : Int) - p.buffUse + nparsed) (unread.take n)
        have hturn := pushLoop_sentence env fuel hload hunread hfind hn0 hcrc hq
        rw [← packType_sentence hfind hn0 (Int32.not_lt.mp hcrc)] at hq
        cases ok with
        | true =>
          rw [← huse'] at hnext
          obtain ⟨run, hrun, hsame, hinside⟩ := ih hh' (hsize'.symm ▸ hm) hnext (by omega)
          refine ⟨_, ?_, ?_, hinside.cons (Nat.pos_of_ne_zero hn0) hn ⟨huse', hsize'⟩⟩
          · simp only [pushLoopAt, hread, hfind, hn0, Int32.not_lt.mp hcrc, hq, hrun, ↓reduceIte,
              Option.bind_eq_bind, Option.bind_some, Option.pure_def]
          · rw [hturn, if_pos rfl, hsame]
        | false =>
          have hload' : w'.loadBytes b = some mem := by simp [World.loadBytes, hh'.bytes]
          refine ⟨⟨-1, m, p', w', [nparsed]⟩, ?_, ?_,
            hlast _ rfl (fun _ _ => rfl) hh'.buffer ⟨mem, hload', hm⟩⟩
          · simp only [pushLoopAt, hread, hfind, hn0, Int32.not_lt.mp hcrc, hq, ↓reduceIte,
              Option.bind_eq_bind, Option.bind_some, Option.pure_def, Bool.false_eq_true]
          · rw [hturn]
            rfl

/-! ## A whole push -/

/-- What a push of bytes leaves, if the sentence loop sees `total`. -/
structure PushInside (env : Env) (base : Int) (total : List Byte) (m : Memory Byte) (p : Parser)
    (run : PushRun D) : Prop where
  /-- Nothing is stored outside the byte buffer. -/
  outside : ∀ a, a < base ∨ base + p.buffSize ≤ a → run.memory a = m a
  /-- Each turn begins behind the one before it, and not behind the bytes in use. -/
  first : run.passes.head? = some 0
  forward : run.passes.Pairwise (· < ·)
  within : ∀ n ∈ run.passes, n ≤ total.length
  use : run.parser.buffUse ≤ run.parser.buffSize
  size : run.parser.buffSize = p.buffSize
  /-- Without a failed rt_malloc what is kept is what was not parsed, and holds no sentence. -/
  kept : 0 ≤ run.result →
    run.memory.read base run.parser.buffUse = some (total.drop run.result.toNat) ∧
      run.result + run.parser.buffUse = total.length ∧
      (nmeaFindTail env.abi (total.drop run.result.toNat)).1 = 0

/-- What a push that returns a count leaves in the buffer. -/
theorem realPush_rest {s : AbsParser D} {bytes : List Byte}
    (hcount : 0 ≤ (s.realPush env bytes).1) :
    (s.realPush env bytes).2.bytes = (s.input bytes).drop (s.realPush env bytes).1.toNat ∧
      (s.realPush env bytes).1 + (s.realPush env bytes).2.bytes.length = (s.input bytes).length ∧
      (nmeaFindTail env.abi (s.realPush env bytes).2.bytes).1 = 0 := by
  have hfail : (s.reap env bytes).failed = false := by
    by_contra hfail
    have hneg : (s.realPush env bytes).1 = -1 := if_pos (by simpa using hfail)
    rw [hneg] at hcount
    exact absurd hcount (by decide)
  have hresult : (s.realPush env bytes).1 =
      (s.input bytes).length - (s.settled env bytes).2.length := by
    simp [AbsParser.realPush, hfail]
  have hbytes : (s.realPush env bytes).2.bytes = (s.settled env bytes).2 := by
    simp [AbsParser.realPush, hfail]
  have hwhole : ((s.settled env bytes).1.map Prod.fst).flatten ++ (s.settled env bytes).2 =
      s.input bytes := drain_flatten _
  have hlen := congrArg List.length hwhole
  rw [List.length_append] at hlen
  rw [hbytes, hresult]
  refine ⟨?_, by omega, cut_eq_none.mp (drain_rest _)⟩
  have hdrop : ((s.input bytes).length - (s.settled env bytes).2.length : Int).toNat =
      ((s.settled env bytes).1.map Prod.fst).flatten.length := by omega
  rw [hdrop, ← hwhole, List.drop_left]

/-- **A push stays in the byte buffer, ends, and keeps what it has not parsed**, wherever the buffer
and the bytes lie and rt_memcpy copies words or bytes. -/
theorem push_inside (env : Env) (hh : Holds p w.heap b mem cells spare)
    (hm : m.read base p.buffSize = some mem) {buff : Int} {bytes : List Byte}
    (hsize : bytes.length ≤ p.buffSize) (hbytes : m.read buff bytes.length = some bytes)
    (hclear : buff + bytes.length ≤ base ∨ base + p.buffSize ≤ buff) :
    ∃ run, realPushAt env base buff bytes.length m p w = some run ∧
      nmeaParserRealPush env p bytes w = some (run.result, run.parser, run.world) ∧
      PushInside env base ((if p.buffUse + bytes.length ≥ p.buffSize then []
        else mem.take p.buffUse) ++ bytes) m p run := by
  have hrep : Rep p w (forget p w mem cells spare) := ⟨b, mem, cells, spare, hh, rfl⟩
  have hlen := hh.length
  obtain ⟨use, mem₁, heap₁, hkeep, hroom, hload, hcopy, hstore, hh₁, hseen⟩ :=
    push_written hh hsize
  have hlen₁ : mem₁.length = p.buffSize := hh₁.length
  have hmapped := Memory.Mapped.of_read hm
  have hdst : m.Mapped (base + use) bytes.length := hmapped.sub (by omega) (by omega)
  obtain ⟨m₁, hmemcpy, hmoved⟩ :=
    rtMemcpy_some env.abi (Memory.Mapped.of_read hbytes) hdst (by omega)
  have hm₁ : m₁.read base p.buffSize = some mem₁ := by
    have hread := moved_copyTo (hlen.symm ▸ hm) hbytes hcopy hmoved
    rwa [hlen₁] at hread
  obtain ⟨run, hrun, hsame, hinside⟩ := pushLoopAt_spec
    (w := { w with heap := heap₁, stream := w.stream ++ bytes }) env (use + bytes.length + 1) hh₁
    hm₁ (Nat.zero_le _) (Nat.lt_succ_self _)
  simp only [hh.buffer] at hrun hsame
  have hpush : nmeaParserRealPush env p bytes w = some (run.result, run.parser, run.world) := by
    simp only [nmeaParserRealPush, hh.buffer, hkeep, hload, hcopy, World.store, hstore,
      Option.bind_eq_bind, Option.bind_some, Option.map_some]
    exact hsame
  refine ⟨run, ?_, hpush, ?_⟩
  · simp only [realPushAt, hh.buffer, hkeep, hbytes, hmemcpy, World.showBytes, hm₁, World.store,
      hstore, Option.bind_eq_bind, Option.bind_some, Option.map_some]
    exact hrun
  · obtain ⟨p', w', habs, hrep'⟩ := realPush_spec env hrep hsize
    obtain ⟨hresult, rfl, rfl⟩ : run.result = ((forget p w mem cells spare).realPush env bytes).1 ∧
        run.parser = p' ∧ run.world = w' := by simpa [hpush] using habs
    have htotal : (forget p w mem cells spare).input bytes =
        (if p.buffUse + bytes.length ≥ p.buffSize then [] else mem.take p.buffUse) ++ bytes := by
      rw [AbsParser.input, hrep.use.1, hrep.size]
      rfl
    have hlength : ((forget p w mem cells spare).input bytes).length = use + bytes.length := by
      rw [← hseen, List.length_take, hlen₁]
      exact Nat.min_eq_left hroom
    obtain ⟨mem', hload', hread'⟩ := hinside.shown
    have hsize' : run.parser.buffSize = p.buffSize := by
      rw [← hrep'.size, ← hrep.size]
      rfl
    have hpending : mem'.take run.parser.buffUse =
        ((forget p w mem cells spare).realPush env bytes).2.bytes := by
      rw [← hrep'.pending, Parser.pending, hinside.buffer, Option.bind_some, hload']
      rfl
    rw [← htotal]
    refine
      { outside := fun a ha => ?_
        first := hinside.first
        forward := hinside.forward
        within := fun n hn => ?_
        use := hrep'.use.2
        size := hsize'
        kept := fun hcount => ?_ }
    · have hout : ¬ (base + use ≤ a ∧ a < base + use + bytes.length) := by omega
      rw [hinside.outside a ha, hmoved a, if_neg hout]
    · rw [hlength]
      exact (hinside.within n hn).2
    · rw [hresult] at hcount ⊢
      obtain ⟨hrest, hsum, hwait⟩ := realPush_rest hcount
      rw [hrest] at hwait
      rw [hrep'.use.1] at hsum
      refine ⟨?_, hsum, hwait⟩
      have hlen' : mem'.length = p.buffSize := (Memory.read_eq_some.mp hread').1
      have hfit : 0 + run.parser.buffUse ≤ mem'.length := by
        have hle := hrep'.use.2
        omega
      have hfront := Memory.read_part (k := 0) (hlen'.symm ▸ hread') hfit
      rw [List.drop_zero, hpending, hrest] at hfront
      simpa using hfront

/-- A sentence and the front of the next, behind the buffer of a fresh parser at address 0. -/
theorem push_inside_test :
    let env := Env.zeroed fun k => k ≠ 3
    let start := nmeaParserInit env (World.empty : World Decimal)
    let bytes := cstr "$GPGSV,1,1,0*49\r\n$GPG"
    let size := start.2.1.buffSize
    ∃ mem run, realPushAt env 0 size bytes.length (.region 0 (mem ++ bytes)) start.2.1 start.2.2 =
        some run ∧
      nmeaParserRealPush env start.2.1 bytes start.2.2 =
        some (run.result, run.parser, run.world) ∧
      PushInside env 0 ((if start.2.1.buffUse + bytes.length ≥ size then []
        else mem.take start.2.1.buffUse) ++ bytes) (.region 0 (mem ++ bytes)) start.2.1 run := by
  intro env start bytes size
  have hinit : Rep start.2.1 start.2.2 (.start World.empty) := (init_spec World.empty rfl).2
  obtain ⟨b, mem, cells, rest, hh, -⟩ := hinit
  have hlen : mem.length = size := hh.length
  have hwhole : (Memory.region 0 (mem ++ bytes)).read 0 (mem ++ bytes).length =
      some (mem ++ bytes) := Memory.read_region
  have hm : (Memory.region 0 (mem ++ bytes)).read 0 size = some mem := by
    have hpart := Memory.read_part (k := 0) (n := size) hwhole (by simp [hlen])
    simpa [← hlen] using hpart
  have hbytes : (Memory.region 0 (mem ++ bytes)).read size bytes.length = some bytes := by
    have hpart := Memory.read_part (k := size) (n := bytes.length) hwhole (by simp [hlen])
    simpa [← hlen] using hpart
  exact ⟨mem, push_inside env hh hm (by decide) hbytes (.inr (Int.zero_add _).le)⟩

end RttNmea
