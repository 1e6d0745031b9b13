import RttNmea.Operations

/-!
# Pushes larger than the buffer

nmea_parser_push cuts its input into slices of the buffer's size, but takes every slice from
the front of the input. It does what pushing the consecutive slices does exactly when the
input repeats itself with the period of the buffer.
-/

namespace RttNmea

open CText

variable {D : Type}

/-- The consecutive slices of `buff`: as many bytes as the buffer holds, and a shorter last
one. -/
def slices (size : Nat) (buff : List Byte) : List (List Byte) :=
  if 0 < size ∧ size < buff.length then buff.take size :: slices size (buff.drop size) else [buff]
termination_by buff.length
decreasing_by
  rw [List.length_drop]
  omega

theorem slices_small {size : Nat} {buff : List Byte} (h : buff.length ≤ size) :
    slices size buff = [buff] := by
  rw [slices, if_neg (by omega)]

theorem slices_large {size : Nat} {buff : List Byte} (hpos : 0 < size) (h : size < buff.length) :
    slices size buff = buff.take size :: slices size (buff.drop size) := by
  rw [slices, if_pos ⟨hpos, h⟩]

/-- Induction along the slices. -/
theorem slices_induction {size : Nat} (hpos : 0 < size) {P : List Byte → Prop}
    (small : ∀ buff, buff.length ≤ size → P buff)
    (large : ∀ buff, size < buff.length → P (buff.drop size) → P buff) (buff : List Byte) :
    P buff := by
  induction hl : buff.length using Nat.strongRecOn generalizing buff with
  | ind l ih =>
    by_cases h : size < buff.length
    · refine large buff h (ih _ ?_ _ rfl)
      rw [List.length_drop]
      omega
    · exact small buff (Nat.not_lt.mp h)

theorem slices_flatten {size : Nat} (hpos : 0 < size) (buff : List Byte) :
    (slices size buff).flatten = buff := by
  induction buff using slices_induction hpos with
  | small buff h => simp [slices_small h]
  | large buff h ih => rw [slices_large hpos h, List.flatten_cons, ih, List.take_append_drop]

theorem slices_lengths {size : Nat} (hpos : 0 < size) (buff : List Byte) :
    (slices size buff).map List.length = sliceSizes size buff.length := by
  induction buff using slices_induction hpos with
  | small buff h => rw [slices_small h, sliceSizes_small h, List.map_singleton]
  | large buff h ih =>
    rw [slices_large hpos h, sliceSizes_large hpos h, List.map_cons, ih, List.length_take,
      List.length_drop, Nat.min_eq_left (Nat.le_of_lt h)]

/-! ## What the code pushes -/

theorem sliceSizes_bound {size n k : Nat} (hpos : 0 < size) (hk : k ∈ sliceSizes size n) :
    k ≤ n := by
  induction n using Nat.strongRecOn with
  | ind n ih =>
    by_cases h : size < n
    · rw [sliceSizes_large hpos h] at hk
      rcases List.mem_cons.mp hk with rfl | hk
      · omega
      · have := ih _ (by omega) hk
        omega
    · rw [sliceSizes_small (by omega), List.mem_singleton] at hk
      omega

theorem taken_lengths {size : Nat} (hpos : 0 < size) (buff : List Byte) :
    ((sliceSizes size buff.length).map buff.take).map List.length =
      sliceSizes size buff.length := by
  rw [List.map_map]
  refine (List.map_congr_left fun k hk => ?_).trans (List.map_id _)
  exact (List.length_take ..).trans (Nat.min_eq_left (sliceSizes_bound hpos hk))

/-- Byte `i` of what the code pushes is byte `i % size` of its input. -/
theorem taken_getElem? {size : Nat} (hpos : 0 < size) (buff : List Byte) {n i : Nat}
    (hn : n ≤ buff.length) (hi : i < n) :
    ((sliceSizes size n).map buff.take).flatten[i]? = buff[i % size]? := by
  induction n using Nat.strongRecOn generalizing i with
  | ind n ih =>
    by_cases h : size < n
    · rw [sliceSizes_large hpos h, List.map_cons, List.flatten_cons]
      have hlen : (buff.take size).length = size := by
        rw [List.length_take]
        omega
      by_cases hlt : i < size
      · rw [List.getElem?_append_left (by omega), List.getElem?_take_of_lt hlt,
          Nat.mod_eq_of_lt hlt]
      · rw [List.getElem?_append_right (by omega), hlen, ih _ (by omega) (by omega) (by omega),
          Nat.mod_eq_sub_mod (Nat.not_lt.mp hlt)]
    · rw [sliceSizes_small (Nat.not_lt.mp h), Nat.mod_eq_of_lt (by omega)]
      simp [List.getElem?_take_of_lt hi]

/-- The code pushes as many bytes as it is given. -/
theorem taken_length {size : Nat} (hpos : 0 < size) (buff : List Byte) :
    ((sliceSizes size buff.length).map buff.take).flatten.length = buff.length := by
  rw [List.length_flatten, taken_lengths hpos, ← slices_lengths hpos, ← List.length_flatten,
    slices_flatten hpos]

/-- The code pushes `buff` itself just when `buff` has the period of the buffer. -/
theorem taken_eq_iff {size : Nat} (hpos : 0 < size) (buff : List Byte) :
    ((sliceSizes size buff.length).map buff.take).flatten = buff ↔
      ∀ i < buff.length, buff[i]? = buff[i % size]? := by
  constructor
  · intro h i hi
    rw [← taken_getElem? hpos buff (Nat.le_refl _) hi, h]
  · intro h
    refine List.ext_getElem? fun i => ?_
    by_cases hi : i < buff.length
    · rw [taken_getElem? hpos buff (Nat.le_refl _) hi, h i hi]
    · rw [List.getElem?_eq_none (by rw [taken_length hpos]; omega),
        List.getElem?_eq_none (by omega)]

/-- It then pushes the very slices. -/
theorem taken_eq_slices {size : Nat} (hpos : 0 < size) {buff : List Byte}
    (h : ((sliceSizes size buff.length).map buff.take).flatten = buff) :
    (sliceSizes size buff.length).map buff.take = slices size buff := by
  refine List.eq_iff_flatten_eq.mpr ⟨h.trans (slices_flatten hpos buff).symm, ?_⟩
  rw [taken_lengths hpos, slices_lengths hpos]

/-! ## nmea_parser_push -/

variable [CDouble D] {env : Env}

/-- The push ends in the state that pushing the consecutive slices ends in, and every byte
was handed on once and in order. -/
def PushedInOrder (env : Env) (st : ParserState D) (buff : List Byte) : Prop :=
  ∃ r r' p w, nmeaParserPush env st.parser buff st.world = some (r, p, w) ∧
    pushEach env st.parser st.world (slices st.parser.buffSize buff) = some (r', p, w) ∧
    w.stream = st.world.stream ++ buff

theorem pushEach_stream (s : AbsParser D) (cs : List (List Byte)) :
    (s.pushEach env cs).2.stream = s.stream ++ cs.flatten := by
  induction cs generalizing s with
  | nil => exact (List.append_nil _).symm
  | cons c cs ih =>
    refine (ih (s.realPush env c).2).trans ?_
    rw [List.flatten_cons, ← List.append_assoc]
    rfl

/-- The bytes nmea_parser_push hands on. -/
theorem push_stream (env : Env) (st : ParserState D) (buff : List Byte) :
    ∃ r p w, nmeaParserPush env st.parser buff st.world = some (r, p, w) ∧
      w.stream = st.world.stream ++
        ((sliceSizes st.parser.buffSize buff.length).map buff.take).flatten := by
  obtain ⟨p, w, hrun, h⟩ := push_spec env st.rep st.size_pos buff
  refine ⟨_, p, w, hrun, ?_⟩
  rw [← h.logs.1, ← st.rep.logs.1, ← st.rep.size]
  exact pushEach_stream _ _

/-- **nmea_parser_push hands on its input exactly when the input repeats itself with the
period of the buffer**; any input that fits the buffer does. -/
theorem pushedInOrder_iff (st : ParserState D) (buff : List Byte) :
    PushedInOrder env st buff ↔
      ∀ i < buff.length, buff[i]? = buff[i % st.parser.buffSize]? := by
  have hpos : 0 < st.parser.buffSize := st.rep.size ▸ st.size_pos
  obtain ⟨r, p, w, hrun, hstream⟩ := push_stream env st buff
  rw [← taken_eq_iff hpos]
  constructor
  · rintro ⟨r₁, r', p₁, w₁, hrun₁, -, hstream₁⟩
    have hw : w₁ = w := by
      rw [hrun] at hrun₁
      cases hrun₁
      rfl
    rw [hw, hstream] at hstream₁
    exact List.append_cancel_left hstream₁
  · intro h
    refine ⟨r, r, p, w, hrun, ?_, by rw [hstream, h]⟩
    rw [← taken_eq_slices hpos h, ← hrun, push_eq st.rep st.size_pos, st.rep.size]

/-- As many 'a' as the buffer of a fresh parser holds, and then a 'b': the 'b' is never
handed on. -/
theorem push_repeats_front :
    ¬ PushedInOrder (.zeroed fun _ => true) .zeroed
      (List.replicate nmeaDefParseBuff 97 ++ [98]) := by
  rintro ⟨r₁, r', p₁, w₁, hrun₁, -, hstream₁⟩
  obtain ⟨r, p, w, hrun, hstream⟩ := push_stream (.zeroed fun _ => true) .zeroed
    (List.replicate nmeaDefParseBuff 97 ++ [98])
  have hw : w₁ = w := by
    rw [hrun] at hrun₁
    cases hrun₁
    rfl
  rw [hw, hstream] at hstream₁
  have hpos : 0 < nmeaDefParseBuff := Nat.zero_lt_succ _
  have hlast := (taken_eq_iff hpos _).mp (List.append_cancel_left hstream₁) nmeaDefParseBuff
  rw [Nat.mod_self, List.getElem?_append_right (by simp), List.getElem?_append_left (by simpa)]
    at hlast
  simp [hpos] at hlast

end RttNmea
