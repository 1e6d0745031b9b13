import RttNmea.Harvest
import RttNmea.Sentence

/-!
# At most once

After a failed rt_malloc the buffer keeps the bytes of the whole push, the sentences already
queued included, and the next push queues them again. So no sentence is queued twice as long
as a push that fails does so before it has queued anything.
-/

namespace RttNmea

open CText Framing

variable {D : Type} [CDouble D] {env : Env}

/-- Of these pieces, met after `k` calls of rt_malloc: once one is queued, no rt_malloc
fails any more. -/
def FailsFirst (D : Type) [CDouble D] (env : Env) (k : Nat) : List (List Byte × Int32) → Prop
  | [] => True
  | (sentence, crc) :: pieces =>
    if crc < 0 then FailsFirst D env k pieces
    else
      match (outcome env k sentence : Outcome D) with
      | .memFail => True
      | .ignored | .rejected => FailsFirst D env (k + mallocCalls env k sentence) pieces
      | .accepted _ =>
        ∀ i < mallocsNeeded pieces, env.mallocOk (k + mallocCalls env k sentence + i) = true

theorem failsFirst_iff (k : Nat) (pos : Int) (pieces : List (List Byte × Int32)) :
    FailsFirst D env k pieces ↔
      ((harvest env k pos pieces : Harvest D).failed = true →
        (harvest env k pos pieces : Harvest D).accepted = []) := by
  induction pieces generalizing k pos with
  | nil => exact ⟨fun _ _ => rfl, fun _ => trivial⟩
  | cons piece pieces ih =>
    obtain ⟨sentence, crc⟩ := piece
    simp only [FailsFirst, harvest]
    by_cases hcrc : crc < 0
    · rw [if_pos hcrc, if_pos hcrc]
      exact ih _ _
    · rw [if_neg hcrc, if_neg hcrc]
      cases (outcome env k sentence : Outcome D) with
      | memFail => exact ⟨fun _ _ => rfl, fun _ => trivial⟩
      | ignored => exact ih _ _
      | rejected => exact ih _ _
      | accepted packet =>
        dsimp only
        rw [← harvest_failed_iff (D := D) _ (pos + sentence.length) pieces]
        constructor
        · intro hok hfailed
          rw [hok] at hfailed
          cases hfailed
        · intro h
          by_contra hfailed
          cases h (Bool.not_eq_false _ ▸ hfailed)

instance (k : Nat) (pieces : List (List Byte × Int32)) : Decidable (FailsFirst D env k pieces) :=
  decidable_of_iff' _ (failsFirst_iff k 0 pieces)

/-! ## Where the packets come from -/

/-- The packet was read from a sentence that starts at its offset of the stream. -/
def LiesIn (env : Env) (stream : List Byte) (e : Int × Packet D) : Prop :=
  ∃ before sentence after k, stream = before ++ sentence ++ after ∧ e.1 = before.length ∧
    outcome env k sentence = .accepted e.2

theorem LiesIn.append {stream : List Byte} {e : Int × Packet D} (h : LiesIn env stream e)
    (ys : List Byte) : LiesIn env (stream ++ ys) e := by
  obtain ⟨before, sentence, after, k, rfl, hpos, ho⟩ := h
  exact ⟨before, sentence, after ++ ys, k, by simp, hpos, ho⟩

theorem harvest_liesIn (k : Nat) (before : List Byte) (pieces : List (List Byte × Int32))
    (rest : List Byte) :
    ∀ e ∈ (harvest env k before.length pieces : Harvest D).accepted,
      LiesIn env (before ++ ((pieces.map Prod.fst).flatten ++ rest)) e := by
  induction pieces generalizing k before with
  | nil => exact fun e he => absurd he List.not_mem_nil
  | cons piece pieces ih =>
    obtain ⟨sentence, crc⟩ := piece
    have later : ∀ k, ∀ e ∈ (harvest env k ((before.length : Int) + sentence.length) pieces :
        Harvest D).accepted,
        LiesIn env (before ++ ((((sentence, crc) :: pieces).map Prod.fst).flatten ++ rest)) e := by
      intro k e he
      have hlen : ((before ++ sentence).length : Int) = before.length + sentence.length := by
        rw [List.length_append]
        push_cast
        rfl
      have := ih k (before ++ sentence) e (hlen ▸ he)
      simpa using this
    simp only [harvest]
    by_cases hcrc : crc < 0
    · rw [if_pos hcrc]
      exact later k
    · rw [if_neg hcrc]
      cases ho : (outcome env k sentence : Outcome D) with
      | memFail => exact fun e he => absurd he List.not_mem_nil
      | ignored => exact later _
      | rejected => exact later _
      | accepted packet =>
        intro e he
        rcases List.mem_cons.mp he with rfl | he
        · exact ⟨before, sentence, (pieces.map Prod.fst).flatten ++ rest, k, by simp, rfl, ho⟩
        · exact later _ e he

/-! ## What a push keeps -/

/-- What has been queued since `base` lies in the stream at increasing offsets, in front of
the bytes held back, and has been applied or is still in the queue. -/
structure OnceSince (env : Env) (base s : AbsParser D) (new : List (Int × Packet D)) : Prop where
  queued : s.queued = base.queued ++ new
  increasing : (new.map Prod.fst).Pairwise (· < ·)
  before : ∀ e ∈ new, e.1 < (s.stream.length : Int) - s.bytes.length
  lies : ∀ e ∈ new, LiesIn env s.stream e
  held : s.bytes <:+ s.stream
  applied : s.applied.map Prod.fst ++ s.queue = base.applied.map Prod.fst ++ new.map Prod.snd

omit [CDouble D] in
/-- The pieces of a push and what it holds back make up what it sees. -/
theorem settled_span (env : Env) (s : AbsParser D) (c : List Byte) :
    span (s.settled env c).1 + (s.settled env c).2.length = (s.input c).length :=
  drain_length _

omit [CDouble D] in
/-- What a push sees is the end of the stream, from `origin` on. -/
theorem input_suffix {s : AbsParser D} (h : s.bytes <:+ s.stream) (c : List Byte) :
    ∃ before, s.stream ++ c = before ++ s.input c ∧ s.origin c = before.length ∧
      (s.stream.length : Int) - s.bytes.length ≤ before.length := by
  have hend : s.input c <:+ s.stream ++ c := by
    unfold AbsParser.input
    split
    · exact List.suffix_append _ _
    · obtain ⟨zs, hzs⟩ := h
      exact ⟨zs, by rw [← List.append_assoc, hzs]⟩
  have hinput : (s.input c).length ≤ s.bytes.length + c.length := by
    unfold AbsParser.input
    rw [List.length_append]
    split
    · rw [List.length_nil]
      omega
    · exact Nat.le_refl _
  obtain ⟨before, hbefore⟩ := hend
  have hlen := congrArg List.length hbefore
  rw [List.length_append, List.length_append] at hlen
  refine ⟨before, hbefore.symm, ?_, by omega⟩
  unfold AbsParser.origin
  rw [List.length_append]
  omega

theorem realPush_once {base s : AbsParser D} {new : List (Int × Packet D)}
    (h : OnceSince env base s new) {c : List Byte}
    (hclean : (s.reap env c).failed = true → (s.reap env c).accepted = []) :
    OnceSince env base (s.realPush env c).2 (new ++ (s.reap env c).accepted) := by
  obtain ⟨before, hstream, horigin, hge⟩ := input_suffix h.held c
  have hin := (@harvest_offsets D _ env s.mallocs (s.origin c) (s.settled env c).1).2
  have hspan := settled_span env s c
  have hlen := congrArg List.length hstream
  rw [List.length_append, List.length_append] at hlen
  -- the old entries lie in front of what the push sees, the new ones in its pieces
  have hold : ∀ e ∈ new, e.1 < before.length := by
    intro e he
    have := h.before e he
    omega
  constructor
  · rw [← List.append_assoc, ← h.queued]
    rfl
  · exact harvest_increasing h.increasing (fun e he => horigin ▸ hold e he) s.mallocs
      (s.settled env c).1
  · intro e he
    show e.1 < ((s.stream ++ c).length : Int) -
      (if (s.reap env c).failed then s.input c else (s.settled env c).2).length
    rw [List.length_append]
    rcases List.mem_append.mp he with he | he
    · have := hold e he
      split <;> omega
    · split
      · rename_i hfailed
        rw [hclean hfailed] at he
        cases he
      · have := (hin e he).2
        omega
  · intro e he
    show LiesIn env (s.stream ++ c) e
    rcases List.mem_append.mp he with he | he
    · exact (h.lies e he).append c
    · have := @harvest_liesIn D _ env s.mallocs before (s.settled env c).1
        (s.settled env c).2 e (horigin ▸ he)
      have hflat : ((s.settled env c).1.map Prod.fst).flatten ++ (s.settled env c).2 = s.input c :=
        drain_flatten _
      rwa [hflat, ← hstream] at this
  · show (if (s.reap env c).failed then s.input c else (s.settled env c).2) <:+ s.stream ++ c
    have hinput : s.input c <:+ s.stream ++ c := ⟨before, hstream.symm⟩
    split
    · exact hinput
    · have hrest : (s.settled env c).2 <:+ s.input c :=
        ⟨((s.settled env c).1.map Prod.fst).flatten, drain_flatten _⟩
      exact hrest.trans hinput
  · show s.applied.map Prod.fst ++ (s.queue ++ (s.reap env c).accepted.map Prod.snd) = _
    rw [← List.append_assoc, h.applied, List.map_append, List.append_assoc]

/-- Applying the queue moves its packets from the queue to the log. -/
theorem flush_packets (s : AbsParser D) (info : Option (Info D)) :
    (s.flush info).applied.map Prod.fst ++ (s.flush info).queue =
      s.applied.map Prod.fst ++ s.queue := by
  show (s.applied ++ applyAll info s.queue).map Prod.fst ++ [] = _
  rw [List.map_append, applyAll_packets, List.append_nil]

theorem flush_once {base s : AbsParser D} {new : List (Int × Packet D)}
    (h : OnceSince env base s new) (info : Option (Info D)) :
    OnceSince env base (s.flush info) new := by
  exact { queued := h.queued, increasing := h.increasing, before := h.before, lies := h.lies,
          held := h.held, applied := (flush_packets s info).trans h.applied }

/-! ## Runs -/

/-- nmea_parse leaves the queue empty. -/
theorem parseAll_queue {s : AbsParser D} (h : s.queue = []) (info : Option (Info D))
    (chunks : List (List Byte)) : (s.parseAll env info chunks).2.1.queue = [] := by
  induction chunks generalizing s info with
  | nil => exact h
  | cons c cs ih => exact ih (s := (s.parse env info c).2.1) rfl _

/-- The rt_malloc that fails in this push, if one does, comes before anything is queued. -/
def PushFailsFirst (D : Type) [CDouble D] (env : Env) (p : Parser) (w : World D)
    (c : List Byte) : Prop :=
  FailsFirst D env w.mallocs (pushPieces env p w c)

instance (p : Parser) (w : World D) (c : List Byte) : Decidable (PushFailsFirst D env p w c) :=
  inferInstanceAs (Decidable (FailsFirst D env _ _))

/-- **At most once.** On a fresh parser, if every push that fails does so before it has
queued anything, then no sentence of the stream is queued twice: the packets queued lie at
increasing offsets, and they are the packets applied, once each. -/
theorem queued_once (w : World D) (hk : env.mallocOk w.mallocs = true) (info : Option (Info D))
    {chunks : List (List Byte)}
    (hok : EveryPush env (PushFailsFirst D env) (nmeaParserInit env w).2.1 info
      (nmeaParserInit env w).2.2 chunks) :
    ∃ n p info' w' new, parseAll env (nmeaParserInit env w).2.1 info (nmeaParserInit env w).2.2
        chunks = some (n, p, info', w') ∧
      w'.queued = w.queued ++ new ∧ (new.map Prod.fst).Pairwise (· < ·) ∧
      (∀ e ∈ new, LiesIn env w'.stream e) ∧
      w'.applied.map Prod.fst = w.applied.map Prod.fst ++ new.map Prod.snd := by
  obtain ⟨-, hinit⟩ := init_spec w hk
  have hpos : 0 < (AbsParser.start w).size := Nat.zero_lt_succ _
  obtain ⟨p, w', hrun, hrep⟩ := parseAll_spec env hinit hpos info chunks
  have hstart : OnceSince env (.start w) (.start w) [] :=
    { queued := (List.append_nil _).symm
      increasing := .nil
      before := fun e he => absurd he List.not_mem_nil
      lies := fun e he => absurd he List.not_mem_nil
      held := List.nil_suffix
      applied := rfl }
  have honce := everyPush_invariant (I := fun s _ => ∃ new, OnceSince env (.start w) s new) ?_ ?_
    hinit hpos hok ⟨[], hstart⟩
  · obtain ⟨new, h⟩ := honce
    obtain ⟨hstream, hqueued, happlied⟩ := hrep.logs
    refine ⟨_, p, _, w', new, hrun, ?_, h.increasing, ?_, ?_⟩
    · rw [← hqueued, h.queued]
      rfl
    · rw [← hstream]
      exact h.lies
    · have hempty := @parseAll_queue D _ env (.start w) rfl info chunks
      have := h.applied
      rw [hempty, List.append_nil] at this
      rw [← happlied, this]
      rfl
  · intro p w s info c h _ hclean hI
    obtain ⟨new, hI⟩ := hI
    refine ⟨_, realPush_once hI ?_⟩
    have := (failsFirst_iff _ (s.origin c) _).mp hclean
    rwa [pushPieces_eq h, ← h.mallocs] at this
  · intro s info hI
    obtain ⟨new, hI⟩ := hI
    exact ⟨new, flush_once hI info⟩

/-- Memory for everything but the node of a first sentence. -/
def failsOnFirst : Env := .zeroed fun k => k != 1

/-- Memory for everything but the node of a second sentence. -/
def failsOnSecond : Env := .zeroed fun k => k != 3

/-- A GSV and a VTG sentence. -/
def gsvVtg : List Byte := cstr "$GPGSV,1,1,0*49\r\n$GPVTG,0,T,0,M,0,N,0,K*4E\r\n"

/-- What nmea_parser_init makes of an empty heap. -/
def freshOn (env : Env) : Parser × World Decimal := (nmeaParserInit env .empty).2

theorem retried_clean : EveryPush failsOnFirst (PushFailsFirst Decimal failsOnFirst)
    (freshOn failsOnFirst).1 (some .zeroed) (freshOn failsOnFirst).2
    [gsvVtg, Frame.gsvNone.bytes] := by
  have hsize : gsvVtg.length ≤ (freshOn failsOnFirst).1.buffSize := by decide +kernel
  have hfirst : PushFailsFirst Decimal failsOnFirst (freshOn failsOnFirst).1
      (freshOn failsOnFirst).2 gsvVtg := by decide +kernel
  have hsecond : (nmeaParse failsOnFirst (freshOn failsOnFirst).1 gsvVtg (some .zeroed)
      (freshOn failsOnFirst).2).map (fun r =>
        (decide (Frame.gsvNone.bytes.length ≤ r.2.1.buffSize),
          decide (PushFailsFirst Decimal failsOnFirst r.2.1 r.2.2.2 Frame.gsvNone.bytes))) =
      some (true, true) := by decide +kernel
  refine ⟨(eachPush_small hsize).mpr hfirst, fun n p info w hrun => ?_⟩
  rw [hrun] at hsecond
  obtain ⟨hroom, hclean⟩ := Prod.mk.inj (Option.some.inj hsecond)
  exact ⟨(eachPush_small (of_decide_eq_true hroom)).mpr (of_decide_eq_true hclean),
    fun _ _ _ _ _ => trivial⟩

/-- The first push fails at the node of its first sentence. The second delivers that sentence, the
one after it and its own, once each. -/
theorem queued_once_retried :
    ∃ n p info' w' new, parseAll failsOnFirst (freshOn failsOnFirst).1 (some .zeroed)
        (freshOn failsOnFirst).2 [gsvVtg, Frame.gsvNone.bytes] = some (n, p, info', w') ∧
      w'.queued = [] ++ new ∧ (new.map Prod.fst).Pairwise (· < ·) ∧
      (∀ e ∈ new, LiesIn failsOnFirst w'.stream e) ∧
      w'.applied.map Prod.fst = [] ++ new.map Prod.snd ∧ new.map Prod.fst = [0, 17, 44] := by
  obtain ⟨n, p, info', w', new, hrun, hqueued, hincreasing, hlies, happlied⟩ :=
    queued_once .empty rfl (some .zeroed) retried_clean
  have hplaces : (parseAll failsOnFirst (freshOn failsOnFirst).1 (some .zeroed)
      (freshOn failsOnFirst).2 [gsvVtg, Frame.gsvNone.bytes]).map (fun r =>
        r.2.2.2.queued.map Prod.fst) = some [0, 17, 44] := by decide +kernel
  refine ⟨n, p, info', w', new, hrun, hqueued, hincreasing, hlies, happlied, ?_⟩
  obtain ⟨r, hr, hplaces⟩ := Option.map_eq_some_iff.mp hplaces
  obtain rfl := Option.some.inj (hrun.symm.trans hr)
  have hnew : w'.queued = new := hqueued
  exact hnew ▸ hplaces

/-- The first sentence of a push is queued before the node of the second cannot be
allocated, and queued again by the next push. -/
theorem queued_twice :
    ∃ n p info' w', parseAll failsOnSecond (freshOn failsOnSecond).1 (some .zeroed)
        (freshOn failsOnSecond).2 [gsvVtg, Frame.gsvNone.bytes] = some (n, p, info', w') ∧
      w'.queued.map Prod.fst = [0, 0, 17, 44] ∧ w'.applied.length = 4 := by
  have hrun : ((parseAll failsOnSecond (freshOn failsOnSecond).1 (some .zeroed)
      (freshOn failsOnSecond).2 [gsvVtg, Frame.gsvNone.bytes]).map
      fun r => (r.2.2.2.queued.map Prod.fst, r.2.2.2.applied.length)) =
        some ([0, 0, 17, 44], 4) := by decide +kernel
  obtain ⟨⟨n, p, info', w'⟩, hrun, hobs⟩ := Option.map_eq_some_iff.mp hrun
  obtain ⟨hqueued, happlied⟩ := Prod.mk.inj hobs
  exact ⟨n, p, info', w', hrun, hqueued, happlied⟩

end RttNmea
