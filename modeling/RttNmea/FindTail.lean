import RttNmea.Packets
import RttNmea.Lib.Framing
import Mathlib.Data.List.Induction

/-!
# nmea_find_tail

The framing decision on the unread bytes of the parser's buffer: 0 is "wait for more", a
length with crc -1 is "skip this much", a length with a crc from 0 on is "a sentence of
this length".
-/

namespace RttNmea

open CText

abbrev dollar : Byte := 36
abbrev star : Byte := 42
abbrev comma : Byte := 44
abbrev cr : Byte := 13
abbrev lf : Byte := 10

/-- `(int)*buff`: a plain char promoted to int. -/
def charToInt (abi : Abi) (b : Byte) : Int32 :=
  if abi.charSigned then b.toInt8.toInt32 else b.toUInt32.toInt32

/-- The `'*' == *buff` branch of the loop, with `rest` the bytes after the '*'. The tail is
there when two more bytes and CR LF follow. -/
def findTailStar (abi : Abi) (rest : List Byte) (nread : Nat) (crc : Int32) : Nat × Int32 :=
  match rest with
  | h1 :: h2 :: c :: l :: _ =>
    if c = cr ∧ l = lf then
      let resCrc := nmeaAtoi abi [h1, h2] 16
      if resCrc ≠ crc then (nread + 5, -1)
      else if resCrc < 0 then (0, resCrc)
      else (nread + 5, resCrc)
    else (0, -1)
  | _ => (0, -1)

/-- The loop of nmea_find_tail: `buff` are the bytes not yet looked at, `nread` and `crc`
its counters. The result is the return value and *res_crc. -/
def findTailLoop (abi : Abi) : List Byte → Nat → Int32 → Nat × Int32
  | [], _, _ => (0, -1)
  | b :: buff, nread, crc =>
    if b = dollar ∧ nread ≠ 0 then (nread, -1)
    else if b = star then findTailStar abi buff nread crc
    else findTailLoop abi buff (nread + 1) (if nread ≠ 0 then crc ^^^ charToInt abi b else crc)

def nmeaFindTail (abi : Abi) (buff : List Byte) : Nat × Int32 := findTailLoop abi buff 0 0

/-! ## The three outcomes

All that is used about the loop: bytes without '*', and with '$' only in front, are passed
over, and the first '$' or '*' after them decides. -/

/-- The loop runs through these bytes. -/
def Quiet (pre : List Byte) : Prop := star ∉ pre ∧ dollar ∉ pre.tail

/-- The running crc over some bytes, the first of which is not counted. -/
def sentenceCrc (abi : Abi) (pre : List Byte) : Int32 :=
  pre.tail.foldl (fun crc b => crc ^^^ charToInt abi b) 0

variable {abi : Abi}

theorem quiet_nil : Quiet [] := by simp [Quiet]

theorem Quiet.left {xs ys : List Byte} (h : Quiet (xs ++ ys)) : Quiet xs := by
  obtain ⟨hs, hd⟩ := h
  refine ⟨fun hm => hs (List.mem_append_left _ hm), fun hm => hd ?_⟩
  cases xs with
  | nil => cases hm
  | cons x xs => exact List.mem_append_left _ hm

theorem findTailLoop_plain {body : List Byte} (hs : star ∉ body) (hd : dollar ∉ body)
    (rest : List Byte) (nread : Nat) (hn : nread ≠ 0) (crc : Int32) :
    findTailLoop abi (body ++ rest) nread crc =
      findTailLoop abi rest (nread + body.length)
        (body.foldl (fun crc b => crc ^^^ charToInt abi b) crc) := by
  induction body generalizing nread crc with
  | nil => rfl
  | cons b body ih =>
    have hbs : b ≠ star := fun h => hs (h ▸ List.mem_cons_self)
    have hbd : b ≠ dollar := fun h => hd (h ▸ List.mem_cons_self)
    rw [List.cons_append, findTailLoop, if_neg (fun h => hbd h.1), if_neg hbs, if_pos hn,
      ih (fun h => hs (List.mem_cons_of_mem _ h)) (fun h => hd (List.mem_cons_of_mem _ h))
        (nread + 1) (Nat.succ_ne_zero _), List.length_cons, List.foldl_cons]
    congr 1
    omega

/-- The loop reaches the end of quiet bytes with their number and their crc. -/
theorem findTail_quiet {pre : List Byte} (h : Quiet pre) (rest : List Byte) :
    nmeaFindTail abi (pre ++ rest) =
      findTailLoop abi rest pre.length (sentenceCrc abi pre) := by
  cases pre with
  | nil => rfl
  | cons b body =>
    have hbs : b ≠ star := fun e => h.1 (e ▸ List.mem_cons_self)
    rw [nmeaFindTail, List.cons_append, findTailLoop, if_neg (fun e => e.2 rfl), if_neg hbs,
      if_neg (fun e => e rfl), findTailLoop_plain (fun e => h.1 (List.mem_cons_of_mem _ e)) h.2 _ _
        Nat.one_ne_zero, List.length_cons, Nat.add_comm 1]
    rfl

theorem findTail_open {buff : List Byte} (h : Quiet buff) : nmeaFindTail abi buff = (0, -1) := by
  have := @findTail_quiet abi buff h []
  rwa [List.append_nil] at this

theorem findTail_dollar {pre : List Byte} (h : Quiet pre) (hne : pre ≠ []) (rest : List Byte) :
    nmeaFindTail abi (pre ++ dollar :: rest) = (pre.length, -1) := by
  have : pre.length ≠ 0 := fun e => hne (List.length_eq_zero_iff.mp e)
  rw [findTail_quiet h, findTailLoop, if_pos ⟨rfl, this⟩]

theorem findTail_star {pre : List Byte} (h : Quiet pre) (rest : List Byte) :
    nmeaFindTail abi (pre ++ star :: rest) =
      findTailStar abi rest pre.length (sentenceCrc abi pre) := by
  rw [findTail_quiet h, findTailLoop, if_neg (fun e => absurd e.1 (by decide)), if_pos rfl]

/-- What decides: nothing yet, a '$' behind the first byte, or a '*'. -/
theorem front_cases (buff : List Byte) :
    Quiet buff ∨
    (∃ pre rest, Quiet pre ∧ pre ≠ [] ∧ buff = pre ++ dollar :: rest) ∨
    ∃ pre rest, Quiet pre ∧ buff = pre ++ star :: rest := by
  induction buff using List.reverseRecOn with
  | nil => exact .inl quiet_nil
  | append_singleton buff b ih =>
    rcases ih with hq | ⟨pre, rest, hq, hne, rfl⟩ | ⟨pre, rest, hq, rfl⟩
    · by_cases hs : b = star
      · exact .inr (.inr ⟨buff, [], hq, by rw [hs]⟩)
      · by_cases hd : b = dollar ∧ buff ≠ []
        · exact .inr (.inl ⟨buff, [], hq, hd.2, by rw [hd.1]⟩)
        · refine .inl ⟨?_, ?_⟩
          · simpa [hq.1] using fun e => hs e.symm
          · cases buff with
            | nil => simp
            | cons c cs =>
              have hb : b ≠ dollar := fun e => hd ⟨e, List.cons_ne_nil _ _⟩
              have htail : dollar ∉ cs := hq.2
              simpa [htail] using fun e => hb e.symm
    · exact .inr (.inl ⟨pre, rest ++ [b], hq, hne, by simp⟩)
    · exact .inr (.inr ⟨pre, rest ++ [b], hq, by simp⟩)

/-! ## The decision at a '*' -/

/-- CR LF where the tail of a sentence has it. -/
def TailAt (rest : List Byte) : Prop := ∃ h1 h2 ys, rest = h1 :: h2 :: cr :: lf :: ys

theorem findTailStar_tail (h1 h2 : Byte) (ys : List Byte) (nread : Nat) (crc : Int32) :
    findTailStar abi (h1 :: h2 :: cr :: lf :: ys) nread crc =
      if nmeaAtoi abi [h1, h2] 16 ≠ crc then (nread + 5, -1)
      else if nmeaAtoi abi [h1, h2] 16 < 0 then (0, nmeaAtoi abi [h1, h2] 16)
      else (nread + 5, nmeaAtoi abi [h1, h2] 16) := by
  simp [findTailStar]

theorem findTailStar_wait {rest : List Byte} (h : ¬ TailAt rest) (nread : Nat) (crc : Int32) :
    findTailStar abi rest nread crc = (0, -1) := by
  unfold findTailStar
  split
  · rename_i h1 h2 c l ys
    split
    · rename_i hcl
      exact absurd ⟨h1, h2, ys, by rw [hcl.1, hcl.2]⟩ h
    · rfl
  · rfl

/-- A decision other than "wait" is a tail that was seen whole. -/
theorem findTailStar_settled {rest : List Byte} {nread : Nat} {crc : Int32}
    (h : (findTailStar abi rest nread crc).1 ≠ 0) :
    (findTailStar abi rest nread crc).1 = nread + 5 ∧ TailAt rest := by
  by_cases ht : TailAt rest
  · obtain ⟨h1, h2, ys, rfl⟩ := ht
    rw [findTailStar_tail] at h ⊢
    refine ⟨?_, h1, h2, ys, rfl⟩
    split
    · rfl
    · rename_i heq
      rw [if_neg heq] at h
      split
      · rename_i hneg
        rw [if_pos hneg] at h
        exact absurd rfl h
      · rfl
  · rw [findTailStar_wait ht] at h
    exact absurd rfl h

theorem findTailStar_append {rest : List Byte} (ys : List Byte) {nread : Nat} {crc : Int32}
    (h : (findTailStar abi rest nread crc).1 ≠ 0) :
    findTailStar abi (rest ++ ys) nread crc = findTailStar abi rest nread crc := by
  obtain ⟨-, h1, h2, zs, rfl⟩ := findTailStar_settled h
  simp only [List.cons_append, findTailStar_tail]

/-! ## The scanner -/

theorem findTail_le {buff : List Byte} (h : (nmeaFindTail abi buff).1 ≠ 0) :
    (nmeaFindTail abi buff).1 ≤ buff.length := by
  rcases front_cases buff with hq | ⟨pre, rest, hq, hne, rfl⟩ | ⟨pre, rest, hq, rfl⟩
  · rw [findTail_open hq]
    exact Nat.zero_le _
  · rw [findTail_dollar hq hne]
    simp
  · rw [findTail_star hq] at h ⊢
    obtain ⟨hlen, h1, h2, ys, rfl⟩ := findTailStar_settled h
    rw [hlen]
    simp only [List.length_append, List.length_cons]
    omega

/-- Once it has decided, nmea_find_tail keeps to its decision whatever else arrives. -/
theorem findTail_append {buff : List Byte} (ys : List Byte) (h : (nmeaFindTail abi buff).1 ≠ 0) :
    nmeaFindTail abi (buff ++ ys) = nmeaFindTail abi buff := by
  rcases front_cases buff with hq | ⟨pre, rest, hq, hne, rfl⟩ | ⟨pre, rest, hq, rfl⟩
  · rw [findTail_open hq] at h
    exact absurd rfl h
  · rw [List.append_assoc, List.cons_append, findTail_dollar hq hne, findTail_dollar hq hne]
  · rw [findTail_star hq] at h
    rw [List.append_assoc, List.cons_append, findTail_star hq, findTail_star hq,
      findTailStar_append ys h]

/-- nmea_find_tail as a scanner: a settled length comes with the crc it reports. -/
def tailScanner (abi : Abi) : Framing.Scanner Byte Int32 where
  cut buff :=
    if (nmeaFindTail abi buff).1 = 0 then none else some (nmeaFindTail abi buff)
  pos {buff n v} h := by
    split at h
    · cases h
    · rename_i hne
      have he : nmeaFindTail abi buff = (n, v) := Option.some.inj h
      rw [he] at hne
      exact Nat.pos_of_ne_zero hne
  le {buff n v} h := by
    split at h
    · cases h
    · rename_i hne
      have he : nmeaFindTail abi buff = (n, v) := Option.some.inj h
      have := findTail_le hne
      rwa [he] at this
  stable {buff n v} ys h := by
    split at h
    · cases h
    · rename_i hne
      rw [findTail_append ys hne, if_neg hne]
      exact h

theorem cut_eq_none {buff : List Byte} :
    (tailScanner abi).cut buff = none ↔ (nmeaFindTail abi buff).1 = 0 := by
  simp [tailScanner]

theorem cut_eq_some {buff : List Byte} {n : Nat} {crc : Int32} :
    (tailScanner abi).cut buff = some (n, crc) ↔ nmeaFindTail abi buff = (n, crc) ∧ n ≠ 0 := by
  unfold tailScanner
  simp only [ite_eq_iff, reduceCtorEq, and_false, false_or, Option.some.injEq]
  constructor
  · rintro ⟨hne, he⟩
    exact ⟨he, by rw [he] at hne; exact hne⟩
  · rintro ⟨he, hne⟩
    exact ⟨by rw [he]; exact hne, he⟩

/-- A right crc is reported for whole sentences only. -/
theorem sentence_shape {buff : List Byte} {n : Nat} {crc : Int32}
    (h : nmeaFindTail abi buff = (n, crc)) (hn : n ≠ 0) (hcrc : 0 ≤ crc) :
    ∃ pre h1 h2 ys, Quiet pre ∧ n = pre.length + 5 ∧
      buff = pre ++ star :: h1 :: h2 :: cr :: lf :: ys ∧
      nmeaAtoi abi [h1, h2] 16 = sentenceCrc abi pre ∧ crc = sentenceCrc abi pre := by
  have hneg : ¬ (0 : Int32) ≤ -1 := by decide
  rcases front_cases buff with hq | ⟨pre, rest, hq, hne, rfl⟩ | ⟨pre, rest, hq, rfl⟩
  · rw [findTail_open hq] at h
    exact absurd (congrArg Prod.fst h).symm hn
  · rw [findTail_dollar hq hne] at h
    have he : -1 = crc := congrArg Prod.snd h
    exact absurd (he ▸ hcrc) hneg
  · rw [findTail_star hq] at h
    obtain ⟨hlen, h1, h2, ys, rfl⟩ := findTailStar_settled (by rw [h]; exact hn)
    refine ⟨pre, h1, h2, ys, hq, ?_, rfl, ?_⟩
    · rw [← hlen, h]
    · rw [findTailStar_tail] at h
      split at h
      · have he : -1 = crc := congrArg Prod.snd h
        exact absurd (he ▸ hcrc) hneg
      · rename_i heq
        have heq : nmeaAtoi abi [h1, h2] 16 = sentenceCrc abi pre := not_not.mp heq
        split at h
        · exact absurd (congrArg Prod.fst h).symm hn
        · exact ⟨heq, (congrArg Prod.snd h).symm.trans heq⟩

/-- nmea_pack_type is given all unread bytes, but the sentence alone decides. -/
theorem packType_sentence {buff : List Byte} {n : Nat} {crc : Int32}
    (h : nmeaFindTail abi buff = (n, crc)) (hn : n ≠ 0) (hcrc : 0 ≤ crc) :
    nmeaPackType (buff.drop 1) = nmeaPackType ((buff.take n).drop 1) := by
  obtain ⟨pre, h1, h2, ys, -, rfl, rfl, -⟩ := sentence_shape h hn hcrc
  have htake : (pre ++ star :: h1 :: h2 :: cr :: lf :: ys).take (pre.length + 5) =
      pre ++ [star, h1, h2, cr, lf] := by
    rw [List.take_length_add_append]
    rfl
  rw [htake]
  cases pre with
  | nil =>
    have hshort : nmeaPackType (([] ++ [star, h1, h2, cr, lf]).drop 1) = .gpnon := if_pos (by simp)
    rw [hshort]
    by_contra hne
    obtain ⟨head, hmem, zs, hzs⟩ := packType_head hne
    -- the third byte is CR, which no header has
    have : ∀ e ∈ pheads, e.1[2]? ≠ some cr ∧ e.1.length = 5 := by decide
    obtain ⟨hcr, hlen⟩ : head[2]? ≠ some cr ∧ head.length = 5 := this _ hmem
    have hget : (head ++ zs)[2]? = some cr := by rw [hzs]; rfl
    rw [List.getElem?_append_left (by omega)] at hget
    exact hcr hget
  | cons b pre =>
    refine packType_congr ?_
    simp only [List.cons_append, List.drop_succ_cons, List.drop_zero]
    have : pre ++ star :: h1 :: h2 :: cr :: lf :: ys = (pre ++ [star, h1, h2, cr, lf]) ++ ys := by
      simp
    rw [this, List.take_append_of_le_length (by simp)]

end RttNmea
