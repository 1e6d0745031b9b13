import RttNmea.Operations

/-!
# The ledger of live blocks

A run of init, parse, drop and destroy keeps the heap to the byte buffer and two blocks for
each queued packet, as long as no sentence is refused by its field parser after both its
blocks were allocated: such a sentence leaves its pack behind.
-/

namespace RttNmea

open CText Framing

variable {D : Type} [CDouble D] {env : Env}

/-! ## Refused sentences -/

/-- Among these pieces, met after `k` calls of rt_malloc, no sentence that gets both its
blocks is refused by its field parser. -/
def NoneRejected (D : Type) [CDouble D] (env : Env) (k : Nat) : List (List Byte × Int32) → Prop
  | [] => True
  | (sentence, crc) :: pieces =>
    if crc < 0 then NoneRejected D env k pieces
    else
      match (outcome env k sentence : Outcome D) with
      | .memFail => True
      | .rejected => False
      | .ignored | .accepted _ => NoneRejected D env (k + mallocCalls env k sentence) pieces

/-- Refused sentences are what leaks. -/
theorem noneRejected_iff {k : Nat} (pos : Int) {pieces : List (List Byte × Int32)} :
    NoneRejected D env k pieces ↔ (harvest env k pos pieces : Harvest D).leaked = 0 := by
  induction pieces generalizing k pos with
  | nil => simp [NoneRejected, harvest]
  | cons piece pieces ih =>
    obtain ⟨sentence, crc⟩ := piece
    simp only [NoneRejected, harvest]
    split
    · exact ih _
    · cases ho : (outcome env k sentence : Outcome D) with
      | memFail => simp
      | ignored => exact ih _
      | rejected => simp
      | accepted packet => exact ih _

/-- A push that refuses nothing leaks nothing. -/
theorem realPush_leaks {p : Parser} {w : World D} {s : AbsParser D} {c : List Byte}
    (h : Rep p w s) (hok : NoneRejected D env w.mallocs (pushPieces env p w c)) :
    (s.realPush env c).2.leaks = s.leaks := by
  rw [pushPieces_eq h, ← h.mallocs, noneRejected_iff (s.origin c)] at hok
  exact congrArg (s.leaks + ·) hok

/-! ## Runs of the API -/

/-- The calls of a program that uses one parser. -/
inductive Op
  | init
  | parse (buff : List Byte)
  | drop
  | destroy

structure Session (D : Type) where
  parser : Parser := {}
  info : Option (Info D)
  world : World D

def Op.run (env : Env) (st : Session D) : Op → Option (Session D)
  | .init =>
    let r := nmeaParserInit env st.world
    some { st with parser := r.2.1, world := r.2.2 }
  | .parse buff => do
    let (_, p, info, w) ← nmeaParse env st.parser buff st.info st.world
    return ⟨p, info, w⟩
  | .drop => do
    let (_, p, w) ← nmeaParserDrop st.parser st.world
    return { st with parser := p, world := w }
  | .destroy => do
    let (p, w) ← nmeaParserDestroy st.parser st.world
    return { st with parser := p, world := w }

def runOps (env : Env) (st : Session D) : List Op → Option (Session D)
  | [] => some st
  | op :: ops => do
    let st ← op.run env st
    runOps env st ops

/-- The call is made when it may be made (init on a parser that is not live, the others on
one that is), and no sentence it meets is refused after its blocks were allocated. -/
def Op.Keeps (env : Env) (st : Session D) : Op → Prop
  | .init => st.parser.buffer = none
  | .parse buff => st.parser.buffer ≠ none ∧
      EachPush env (fun p w c => NoneRejected D env w.mallocs (pushPieces env p w c))
        st.parser st.world ((sliceSizes st.parser.buffSize buff.length).map buff.take)
  | .drop | .destroy => st.parser.buffer ≠ none

def KeepsAll (env : Env) (st : Session D) : List Op → Prop
  | [] => True
  | op :: ops => op.Keeps env st ∧ ∀ st', op.run env st = some st' → KeepsAll env st' ops

section

omit [CDouble D]

/-- The live blocks are the byte buffer, if there is one, and a node and a pack for each
queued packet. -/
def Accounted (st : Session D) : Prop :=
  ∃ cells : List (Cell D), st.parser.topNode = Heap.firstAddr Cell.addr cells ∧
    Heap.Linked Cell.addr Cell.block st.world.heap cells ∧
    (∀ c ∈ cells, st.world.heap.load c.packAddr = some (.pack c.packet)) ∧
    st.world.heap.live.Perm (st.parser.buffer.toList ++ cellBlocks cells)

/-- What is live after a call: after nmea_parse only the byte buffer, after
nmea_parser_destroy nothing. -/
def Op.Leaves (st : Session D) : Op → Prop
  | .parse _ => ∃ b, st.parser.buffer = some b ∧ st.world.heap.live = [b]
  | .destroy => st.world.heap.live = []
  | .init | .drop => True

/-- Before init and after destroy. -/
structure Idle (st : Session D) : Prop where
  buffer : st.parser.buffer = none
  top : st.parser.topNode = none
  live : st.world.heap.live = []

/-- Between them: the heap is that of a parser that has lost nothing. -/
def Busy (st : Session D) : Prop :=
  ∃ s, Rep st.parser st.world s ∧ 0 < s.size ∧ s.leaks = 0

theorem Idle.accounted {st : Session D} (h : Idle st) : Accounted st := by
  refine ⟨[], h.top, trivial, fun c hc => absurd hc List.not_mem_nil, ?_⟩
  rw [h.buffer, h.live]
  exact .refl _

theorem Busy.buffer {st : Session D} (h : Busy st) : st.parser.buffer ≠ none := by
  obtain ⟨s, ⟨b, mem, cells, rest, hh, -⟩, -⟩ := h
  rw [hh.buffer]
  exact Option.some_ne_none b

theorem Busy.accounted {st : Session D} (h : Busy st) : Accounted st := by
  obtain ⟨s, ⟨b, mem, cells, rest, hh, rfl⟩, -, hleaks⟩ := h
  have hrest : rest = [] := List.length_eq_zero_iff.mp hleaks
  subst hrest
  refine ⟨cells, hh.top, hh.linked, hh.packs, ?_⟩
  rw [hh.buffer]
  simpa using hh.ledger

/-- An empty queue leaves one live block, the byte buffer. -/
theorem buffer_only {p : Parser} {w : World D} {s : AbsParser D} (h : Rep p w s)
    (hleaks : s.leaks = 0) (hqueue : s.queue = []) :
    ∃ b, p.buffer = some b ∧ w.heap.live = [b] := by
  obtain ⟨b, mem, cells, rest, hh, rfl⟩ := h
  have hrest : rest = [] := List.length_eq_zero_iff.mp hleaks
  have hcells : cells = [] := List.map_eq_nil_iff.mp hqueue
  subst hrest hcells
  exact ⟨b, hh.buffer, List.perm_singleton.mp hh.ledger⟩

end

/-! ## One call -/

theorem init_keeps (env : Env) {st : Session D} (h : Idle st) :
    ∃ st', Op.run env st .init = some st' ∧ (Idle st' ∨ Busy st') := by
  refine ⟨_, rfl, ?_⟩
  cases hk : env.mallocOk st.world.mallocs with
  | false =>
    left
    have hrun : nmeaParserInit env st.world =
        (-1, {}, { st.world with mallocs := st.world.mallocs + 1 }) := by
      simp only [nmeaParserInit]
      rw [rtMalloc_fail hk]
    simp only [hrun]
    exact ⟨rfl, rfl, h.live⟩
  | true =>
    right
    refine ⟨_, (init_spec st.world hk).2, Nat.zero_lt_succ _, ?_⟩
    simp [AbsParser.start, h.live]

theorem parse_keeps {st : Session D} {buff : List Byte} (h : Busy st)
    (hok : Op.Keeps env st (.parse buff)) :
    ∃ st', Op.run env st (.parse buff) = some st' ∧ Busy st' ∧
      ∃ b, st'.parser.buffer = some b ∧ st'.world.heap.live = [b] := by
  obtain ⟨s, hrep, hpos, hleaks⟩ := h
  obtain ⟨p, w, hrun, hrep'⟩ := parse_spec env hrep hpos st.info buff
  have hpushed : (s.push env buff).2.leaks = 0 := by
    refine eachPush_invariant (I := fun s => s.leaks = 0) ?_ hrep (slices_fit hpos buff)
      (hrep.size ▸ hok.2) hleaks
    intro p w s c h _ hok hI
    rw [realPush_leaks h hok, hI]
  refine ⟨⟨p, (s.parse env st.info buff).2.2, w⟩, ?_, ⟨_, hrep', ?_, hpushed⟩,
    buffer_only hrep' hpushed rfl⟩
  · simp [Op.run, hrun]
  · rw [parse_size]
    exact hpos

theorem drop_keeps (env : Env) {st : Session D} (h : Busy st) :
    ∃ st', Op.run env st .drop = some st' ∧ Busy st' := by
  obtain ⟨s, hrep, hpos, hleaks⟩ := h
  obtain ⟨p, w, hrun, hrep'⟩ := drop_spec hrep
  exact ⟨{ st with parser := p, world := w }, by simp [Op.run, hrun], _, hrep', hpos, hleaks⟩

theorem destroy_keeps (env : Env) {st : Session D} (h : Busy st) :
    ∃ st', Op.run env st .destroy = some st' ∧ Idle st' := by
  obtain ⟨s, hrep, -, hleaks⟩ := h
  obtain ⟨w, hrun, hlive, -⟩ := destroy_spec hrep
  refine ⟨{ st with parser := {}, world := w }, by simp [Op.run, hrun], rfl, rfl, ?_⟩
  exact List.length_eq_zero_iff.mp (hlive.trans hleaks)

theorem step_keeps {st : Session D} {op : Op} (h : Idle st ∨ Busy st) (hok : op.Keeps env st) :
    ∃ st', op.run env st = some st' ∧ (Idle st' ∨ Busy st') ∧ op.Leaves st' := by
  have busy : st.parser.buffer ≠ none → Busy st :=
    fun hb => h.resolve_left fun hi => hb hi.buffer
  cases op with
  | init =>
    have idle : Idle st := h.resolve_right fun hbusy => hbusy.buffer hok
    obtain ⟨st', hrun, h'⟩ := init_keeps env idle
    exact ⟨st', hrun, h', trivial⟩
  | parse buff =>
    obtain ⟨st', hrun, h', hleaves⟩ := parse_keeps (busy hok.1) hok
    exact ⟨st', hrun, .inr h', hleaves⟩
  | drop =>
    obtain ⟨st', hrun, h'⟩ := drop_keeps env (busy hok)
    exact ⟨st', hrun, .inr h', trivial⟩
  | destroy =>
    obtain ⟨st', hrun, h'⟩ := destroy_keeps env (busy hok)
    exact ⟨st', hrun, .inl h', h'.live⟩

/-! ## Runs -/

theorem run_keeps {st : Session D} (h : Idle st ∨ Busy st) {ops : List Op}
    (hok : KeepsAll env st ops) :
    ∃ st', runOps env st ops = some st' ∧ (Idle st' ∨ Busy st') ∧
      ∀ op, ops.getLast? = some op → op.Leaves st' := by
  induction ops generalizing st with
  | nil => exact ⟨st, rfl, h, fun op hop => by cases hop⟩
  | cons op ops ih =>
    obtain ⟨st₁, hrun₁, h₁, hleaves⟩ := step_keeps h hok.1
    obtain ⟨st₂, hrun₂, h₂, hlast⟩ := ih h₁ (hok.2 st₁ hrun₁)
    refine ⟨st₂, ?_, h₂, ?_⟩
    · rw [runOps, hrun₁]
      exact hrun₂
    · intro op' hop
      cases ops with
      | nil =>
        cases hop
        cases hrun₂
        exact hleaves
      | cons op₂ ops =>
        rw [List.getLast?_cons_cons] at hop
        exact hlast op' hop

/-- **The ledger.** From an empty heap, a run whose calls all meet the condition never
faults, so it frees no block twice, and the live blocks after it are exactly the byte buffer
and two blocks for each queued packet: after nmea_parse only the buffer, after
nmea_parser_destroy nothing. -/
theorem ledger_exact (info : Option (Info D)) {ops : List Op}
    (hok : KeepsAll env { info, world := .empty } ops) :
    ∃ st, runOps env { info, world := .empty } ops = some st ∧ Accounted st ∧
      ∀ op, ops.getLast? = some op → op.Leaves st := by
  obtain ⟨st, hrun, h, hlast⟩ := run_keeps (.inl ⟨rfl, rfl, rfl⟩) hok
  exact ⟨st, hrun, h.elim Idle.accounted Busy.accounted, hlast⟩

instance (k : Nat) (pieces : List (List Byte × Int32)) :
    Decidable (NoneRejected D env k pieces) :=
  decidable_of_iff _ (noneRejected_iff 0).symm

/-- One GSV sentence, parsed and destroyed. -/
theorem ledger_exact_gsv :
    ∃ st, runOps (.zeroed fun _ => true) { info := some .zeroed, world := (.empty : World Decimal) }
      [.init, .parse (cstr "$GPGSV,1,1,0*49\r\n"), .destroy] = some st ∧
      Accounted st ∧ st.world.heap.live = [] := by
  have hok : KeepsAll (D := Decimal) (.zeroed fun _ => true)
      { info := some .zeroed, world := .empty }
      [.init, .parse (cstr "$GPGSV,1,1,0*49\r\n"), .destroy] := by
    refine ⟨rfl, ?_⟩
    rintro _ ⟨⟩
    refine ⟨⟨?_, ?_⟩, ?_⟩
    · decide
    · rw [sliceSizes_small (by decide)]
      refine ⟨?_, fun _ _ _ _ => trivial⟩
      decide +kernel
    · intro st hst
      refine ⟨?_, fun _ _ => trivial⟩
      have hbuffer : some st.parser.buffer.isSome = some true := by
        refine (congrArg (Option.map fun st => st.parser.buffer.isSome) hst).symm.trans ?_
        decide +kernel
      exact Option.ne_none_iff_isSome.mpr (Option.some.inj hbuffer)
  obtain ⟨st, hrun, haccounted, hlast⟩ := ledger_exact (some .zeroed) hok
  exact ⟨st, hrun, haccounted, hlast .destroy rfl⟩

/-- "$GPGGA*56" CR LF, a right checksum and no fields: after nmea_parse both the buffer and
the pack of the refused sentence are live. -/
theorem refused_sentence_leaks :
    ∃ st, runOps (.zeroed fun _ => true) { info := some .zeroed, world := (.empty : World Decimal) }
        [.init, .parse (cstr "$GPGGA*56\r\n")] = some st ∧ ¬ Accounted st := by
  have hrun : ((runOps (.zeroed fun _ => true)
      { info := some .zeroed, world := (.empty : World Decimal) }
      [.init, .parse (cstr "$GPGGA*56\r\n")]).map fun st =>
        (st.parser.topNode, st.parser.buffer.toList.length, st.world.heap.live.length)) =
      some (none, 1, 2) := by decide +kernel
  obtain ⟨st, hst, hobs⟩ := Option.map_eq_some_iff.mp hrun
  obtain ⟨htop, hbuffer, hlive⟩ : st.parser.topNode = none ∧
      st.parser.buffer.toList.length = 1 ∧ st.world.heap.live.length = 2 := by
    simpa only [Prod.mk.injEq] using hobs
  refine ⟨st, hst, ?_⟩
  rintro ⟨cells, hfirst, -, -, hperm⟩
  cases cells with
  | nil =>
    have hlen := hperm.length_eq
    rw [hlive, List.length_append, hbuffer] at hlen
    cases hlen
  | cons c cells =>
    rw [htop] at hfirst
    cases hfirst

end RttNmea
