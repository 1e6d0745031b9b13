import RttNmea.Operations

/-!
# What a row of pieces yields

Laws of `harvest`: rows one after another, the offsets of the packets in the stream, and
exactly when an rt_malloc fails.
-/

namespace RttNmea

open CText Framing

variable {D : Type} [CDouble D] {env : Env}

/-- How many bytes the pieces take up. -/
def span (pieces : List (List Byte × Int32)) : Nat := (pieces.map Prod.fst).flatten.length

theorem span_cons (sentence : List Byte) (crc : Int32) (pieces : List (List Byte × Int32)) :
    span ((sentence, crc) :: pieces) = sentence.length + span pieces := by
  unfold span
  rw [List.map_cons, List.flatten_cons, List.length_append]

/-- Two rows one after another: the second yields nothing if the first fails. -/
theorem harvest_append (k : Nat) (pos : Int) (xs ys : List (List Byte × Int32)) :
    (harvest env k pos (xs ++ ys) : Harvest D) =
      let h := harvest env k pos xs
      let h' := harvest env h.mallocs (pos + span xs) ys
      if h.failed then h
      else ⟨h.accepted ++ h'.accepted, h'.mallocs, h'.failed, h.leaked + h'.leaked⟩ := by
  induction xs generalizing k pos with
  | nil => simp [harvest, span]
  | cons piece xs ih =>
    obtain ⟨sentence, crc⟩ := piece
    have hpos : pos + (span ((sentence, crc) :: xs) : Nat) = pos + sentence.length + span xs := by
      rw [span_cons]
      push_cast
      omega
    rw [hpos]
    simp only [List.cons_append, harvest]
    by_cases hcrc : crc < 0
    · simp only [if_pos hcrc]
      exact ih _ _
    · simp only [if_neg hcrc]
      cases (outcome env k sentence : Outcome D) with
      | memFail => rfl
      | ignored => exact ih _ _
      | rejected =>
        simp only [ih]
        split
        · rfl
        · simp only [Harvest.mk.injEq, true_and]
          omega
      | accepted packet =>
        simp only [ih]
        split <;> rfl

/-! ## Offsets -/

/-- A packet sits at the offset of its sentence, and sentences follow one another. -/
theorem harvest_offsets (k : Nat) (pos : Int) (pieces : List (List Byte × Int32)) :
    ((harvest env k pos pieces : Harvest D).accepted.map Prod.fst).Pairwise (· < ·) ∧
      ∀ e ∈ (harvest env k pos pieces : Harvest D).accepted, pos ≤ e.1 ∧ e.1 < pos + span pieces := by
  induction pieces generalizing k pos with
  | nil => exact ⟨.nil, fun e he => absurd he List.not_mem_nil⟩
  | cons piece pieces ih =>
    obtain ⟨sentence, crc⟩ := piece
    have later : ∀ k, (((harvest env k (pos + sentence.length) pieces : Harvest D).accepted.map
        Prod.fst).Pairwise (· < ·)) ∧
        ∀ e ∈ (harvest env k (pos + sentence.length) pieces : Harvest D).accepted,
          pos + sentence.length ≤ e.1 ∧ e.1 < pos + span ((sentence, crc) :: pieces) := by
      intro k
      obtain ⟨hincr, hin⟩ := ih k (pos + sentence.length)
      refine ⟨hincr, fun e he => ?_⟩
      have := hin e he
      rw [span_cons]
      push_cast
      omega
    have weaken : ∀ k, (((harvest env k (pos + sentence.length) pieces : Harvest D).accepted.map
        Prod.fst).Pairwise (· < ·)) ∧
        ∀ e ∈ (harvest env k (pos + sentence.length) pieces : Harvest D).accepted,
          pos ≤ e.1 ∧ e.1 < pos + span ((sentence, crc) :: pieces) := by
      intro k
      obtain ⟨hincr, hin⟩ := later k
      refine ⟨hincr, fun e he => ?_⟩
      have := hin e he
      omega
    simp only [harvest]
    by_cases hcrc : crc < 0
    · rw [if_pos hcrc]
      exact weaken k
    · rw [if_neg hcrc]
      cases ho : (outcome env k sentence : Outcome D) with
      | memFail => exact ⟨.nil, fun e he => absurd he List.not_mem_nil⟩
      | ignored => exact weaken _
      | rejected => exact weaken _
      | accepted packet =>
        -- a recognised sentence is not empty
        have hlen : 0 < sentence.length := by
          obtain ⟨-, -, ok, -, hp⟩ := outcome_accepted ho
          by_contra hnil
          have : sentence = [] := List.length_eq_zero_iff.mp (by omega)
          subst this
          cases hp.symm.trans (parsePack_eq_none.mpr rfl)
        obtain ⟨hincr, hin⟩ := later (k + mallocCalls env k sentence)
        constructor
        · rw [List.map_cons, List.pairwise_cons]
          refine ⟨fun o ho => ?_, hincr⟩
          obtain ⟨e, he, rfl⟩ := List.mem_map.mp ho
          have := (hin e he).1
          omega
        · intro e he
          rcases List.mem_cons.mp he with rfl | he
          · rw [span_cons]
            push_cast
            omega
          · have := hin e he
            omega

/-- The packets of a row of pieces follow those that lie in front of it. -/
theorem harvest_increasing {new : List (Int × Packet D)} {pos : Int}
    (hincr : (new.map Prod.fst).Pairwise (· < ·)) (hold : ∀ e ∈ new, e.1 < pos) (k : Nat)
    (pieces : List (List Byte × Int32)) :
    ((new ++ (harvest env k pos pieces).accepted).map Prod.fst).Pairwise (· < ·) := by
  obtain ⟨hincr', hin⟩ := @harvest_offsets D _ env k pos pieces
  rw [List.map_append, List.pairwise_append]
  refine ⟨hincr, hincr', ?_⟩
  intro o ho o' ho'
  obtain ⟨e, he, rfl⟩ := List.mem_map.mp ho
  obtain ⟨e', he', rfl⟩ := List.mem_map.mp ho'
  exact lt_of_lt_of_le (hold e he) (hin e' he').1

/-- The packets a push queues, of pieces met after `k` calls of rt_malloc. -/
def queuedBy (env : Env) (k : Nat) (pieces : List (List Byte × Int32)) : List (Packet D) :=
  (harvest env k 0 pieces).accepted.map Prod.snd

/-- They do not depend on where the pieces lie in the stream. -/
theorem harvest_packets (env : Env) (k : Nat) (pos : Int) (pieces : List (List Byte × Int32)) :
    ((harvest env k pos pieces).accepted.map Prod.snd : List (Packet D)) =
      queuedBy env k pieces := by
  have shift : ∀ (pos pos' : Int) (k : Nat),
      ((harvest env k pos pieces).accepted.map Prod.snd : List (Packet D)) =
        (harvest env k pos' pieces).accepted.map Prod.snd := by
    induction pieces with
    | nil => exact fun _ _ _ => rfl
    | cons piece pieces ih =>
      intro pos pos' k
      obtain ⟨sentence, crc⟩ := piece
      simp only [harvest]
      split
      · exact ih _ _ _
      · cases (outcome env k sentence : Outcome D) with
        | memFail => rfl
        | ignored => exact ih _ _ _
        | rejected => exact ih _ _ _
        | accepted packet => exact congrArg (packet :: ·) (ih _ _ _)
  exact shift pos 0 k

/-! ## Running out of memory -/

/-- The rt_malloc calls a piece makes if they succeed. -/
def callsNeeded (piece : List Byte × Int32) : Nat :=
  if piece.2 < 0 then 0 else if nmeaPackType (piece.1.drop 1) = .gpnon then 1 else 2

/-- The rt_malloc calls a row of pieces makes if they succeed. -/
def mallocsNeeded (pieces : List (List Byte × Int32)) : Nat := (pieces.map callsNeeded).sum

/-- A sentence fails just when one of the calls it needs fails; if none does, it makes them
all. -/
theorem outcome_memFail_iff (D : Type) [CDouble D] (env : Env) (k : Nat) (sentence : List Byte)
    {crc : Int32} (hcrc : ¬ crc < 0) :
    (outcome env k sentence = (.memFail : Outcome D) ∧
      ¬ ∀ i < callsNeeded (sentence, crc), env.mallocOk (k + i) = true) ∨
    (outcome env k sentence ≠ (.memFail : Outcome D) ∧
      mallocCalls env k sentence = callsNeeded (sentence, crc) ∧
      ∀ i < callsNeeded (sentence, crc), env.mallocOk (k + i) = true) := by
  have hneed : callsNeeded (sentence, crc) =
      if nmeaPackType (sentence.drop 1) = .gpnon then 1 else 2 := if_neg hcrc
  rw [hneed]
  unfold outcome
  cases hk : env.mallocOk k with
  | false =>
    left
    refine ⟨if_pos rfl, fun h => ?_⟩
    have := h 0 (by split <;> omega)
    rw [Nat.add_zero, hk] at this
    cases this
  | true =>
    rw [if_neg Bool.noConfusion]
    cases hp : (parsePack env.abi (env.stack (k + 1)) (nmeaPackType (sentence.drop 1)) sentence :
        Option (Int32 × Packet D)) with
    | none =>
      right
      have htype := parsePack_eq_none.mp hp
      rw [mallocCalls_one (.inr htype), if_pos htype]
      refine ⟨nofun, rfl, fun i hi => ?_⟩
      obtain rfl : i = 0 := by omega
      exact hk
    | some r =>
      obtain ⟨ok, packet⟩ := r
      have htype : nmeaPackType (sentence.drop 1) ≠ .gpnon := by
        intro htype
        cases hp.symm.trans (parsePack_eq_none.mpr htype)
      rw [mallocCalls_two hk hp, if_neg htype]
      cases hk' : env.mallocOk (k + 1) with
      | false =>
        left
        refine ⟨if_pos rfl, fun h => ?_⟩
        have := h 1 (by omega)
        rw [hk'] at this
        cases this
      | true =>
        right
        dsimp only
        rw [if_neg Bool.noConfusion]
        refine ⟨?_, rfl, fun i hi => ?_⟩
        · split <;> exact nofun
        · obtain rfl | rfl : i = 0 ∨ i = 1 := by omega
          · exact hk
          · exact hk'

/-- A row fails just when one of the calls it needs fails. -/
theorem harvest_failed_iff (k : Nat) (pos : Int) (pieces : List (List Byte × Int32)) :
    (harvest env k pos pieces : Harvest D).failed = false ↔
      ∀ i < mallocsNeeded pieces, env.mallocOk (k + i) = true := by
  induction pieces generalizing k pos with
  | nil => exact ⟨fun _ i hi => absurd hi (Nat.not_lt_zero i), fun _ => rfl⟩
  | cons piece pieces ih =>
    obtain ⟨sentence, crc⟩ := piece
    have hsum : mallocsNeeded ((sentence, crc) :: pieces) =
        callsNeeded (sentence, crc) + mallocsNeeded pieces := rfl
    rw [hsum]
    simp only [harvest]
    by_cases hcrc : crc < 0
    · have hnone : callsNeeded (sentence, crc) = 0 := if_pos hcrc
      rw [if_pos hcrc, hnone, Nat.zero_add]
      exact ih _ _
    · rw [if_neg hcrc]
      rcases outcome_memFail_iff D env k sentence hcrc with ⟨ho, hfail⟩ | ⟨ho, hcalls, hok⟩
      · rw [ho]
        constructor
        · intro h
          cases h
        · intro h
          exact absurd (fun i hi => h i (by omega)) hfail
      · have hnext : (harvest env (k + mallocCalls env k sentence) (pos + sentence.length) pieces :
            Harvest D).failed = false ↔
            ∀ i < callsNeeded (sentence, crc) + mallocsNeeded pieces,
              env.mallocOk (k + i) = true := by
          rw [ih, hcalls]
          constructor
          · intro h i hi
            by_cases hlow : i < callsNeeded (sentence, crc)
            · exact hok i hlow
            · have := h (i - callsNeeded (sentence, crc)) (by omega)
              rwa [show k + callsNeeded (sentence, crc) + (i - callsNeeded (sentence, crc)) = k + i
                by omega] at this
          · intro h i hi
            have := h (callsNeeded (sentence, crc) + i) (by omega)
            rwa [← Nat.add_assoc] at this
        cases hout : (outcome env k sentence : Outcome D) with
        | memFail => exact absurd hout ho
        | ignored => exact hnext
        | rejected => exact hnext
        | accepted packet => exact hnext

end RttNmea
