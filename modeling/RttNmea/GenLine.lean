import RttNmea.Generate
import RttNmea.Sentence

/-!
# nmea_printf

What nmea_printf makes of a text that starts with '$': a sentence that nmea_find_tail accepts,
a buffer of blanks, or an access behind the buffer, by the room there is.
-/

namespace RttNmea

open CText Framing

variable {D : Type} [CPrint D] {abi : Abi}

/-! ## The buffer -/

theorem length_snprintf (buff s : List Byte) : (snprintf buff s).length = buff.length := by
  unfold snprintf
  split
  · rename_i hnil
    rw [hnil]
  · rename_i hne
    have hpos := List.length_pos_iff.mpr hne
    simp only [List.length_append, List.length_cons, List.length_take, List.length_drop]
    omega

/-- With room for the text and its NUL the whole text is there. -/
theorem snprintf_room {buff s : List Byte} (h : s.length < buff.length) :
    snprintf buff s = s ++ 0 :: buff.drop (s.length + 1) := by
  have hne : buff ≠ [] := List.length_pos_iff.mp (by omega)
  have hmin : min s.length (buff.length - 1) = s.length := by omega
  rw [snprintf, if_neg hne, List.take_of_length_le (by omega), hmin]

/-- With room for the text only its last byte is lost. -/
theorem snprintf_exact {buff s : List Byte} (hne : buff ≠ []) (h : s.length = buff.length) :
    snprintf buff s = s.dropLast ++ [0] := by
  have hpos := List.length_pos_iff.mpr hne
  have hdrop : buff.drop (min s.length (buff.length - 1) + 1) = [] :=
    List.drop_eq_nil_of_le (by omega)
  rw [snprintf, if_neg hne, hdrop, List.dropLast_eq_take, h]

/-- Behind a text that fits a second one is written as if both were one. -/
theorem snprintf_append {buff s : List Byte} (h : s.length < buff.length) (t : List Byte) :
    s ++ snprintf (0 :: buff.drop (s.length + 1)) t = snprintf buff (s ++ t) := by
  have hne : buff ≠ [] := List.length_pos_iff.mp (by omega)
  have hlen : (0 :: buff.drop (s.length + 1)).length - 1 = buff.length - 1 - s.length := by
    rw [List.length_cons, List.length_drop]
    omega
  have htake : (s ++ t).take (buff.length - 1) = s ++ t.take (buff.length - 1 - s.length) := by
    rw [List.take_append, List.take_of_length_le (by omega)]
  have hmin : s.length + 1 + min t.length (buff.length - 1 - s.length) =
      min (s ++ t).length (buff.length - 1) + 1 := by
    rw [List.length_append]
    omega
  rw [snprintf, snprintf, if_neg hne, if_neg (List.cons_ne_nil _ _), hlen, htake, List.append_assoc,
    List.drop_succ_cons, List.drop_drop, hmin]

/-! ## nmea_printf -/

def blanks (n : Nat) : List Byte := List.replicate n (ascii ' ')

/-- The tail nmea_printf puts behind a text: '*', the checksum, CR LF. -/
def crcTail (abi : Abi) (s : List Byte) : List Byte :=
  star :: (printfX true 2 (sentenceCrc abi s) ++ [cr, lf])

theorem crcTail_text (D : Type) [CPrint D] (crc : Int32) :
    printfText (cstr "*%02x\r\n") [(.int crc : Arg D)] =
      .ok (star :: (printfX true 2 crc ++ [cr, lf])) := by
  have hpieces : formatPieces none (cstr "*%02x\r\n") =
      [.lit star] ++ ([.conv { zero := true, width := 2 } (ascii 'x')] ++ [cr, lf].map .lit) := by
    decide
  have hconv : convText { zero := true, width := 2 } (ascii 'x') (.int crc : Arg D) =
      .ok (printfX true 2 crc) := rfl
  rw [printfText, hpieces]
  exact ((renders_lit star).append ((renders_conv hconv).append (renders_lits [cr, lf]))).text

/-- What nmea_printf does with a text: by the room there is for it and for its tail. -/
def putText (abi : Abi) (s buff : List Byte) : Option (Nat × List Byte) :=
  if buff = [] then some (0, [])
  else if buff.length < s.length then none
  else if buff.length < (s ++ crcTail abi s).length then some (buff.length, blanks buff.length)
  else some ((s ++ crcTail abi s).length, snprintf buff (s ++ crcTail abi s))

theorem nmeaPrintf_text {format : List Byte} {args : List (Arg D)} {s : List Byte}
    (htext : printfText format args = .ok s) (hs : s ≠ []) (buff : List Byte) :
    nmeaPrintf abi buff format args = putText abi s buff := by
  unfold nmeaPrintf putText
  by_cases hbuff : buff = []
  · rw [if_pos hbuff, if_pos hbuff, hbuff]
  rw [if_neg hbuff, if_neg hbuff, htext]
  dsimp only
  rw [if_neg hs]
  by_cases hlong : buff.length < s.length
  · rw [if_pos hlong, if_pos hlong]
  rw [if_neg hlong, if_neg hlong, crcTail_text]
  dsimp only
  by_cases hexact : s.length = buff.length
  · -- the NUL took the place of the last byte, but there is no room for the tail
    have hover : ∀ tail : List Byte, s.length + (star :: tail).length > buff.length := by
      intro tail
      rw [List.length_cons]
      omega
    have hblank : buff.length < (s ++ crcTail abi s).length := by
      rw [List.length_append]
      exact hover _
    rw [if_pos (hover _), if_pos hblank]
    rfl
  · have hroom : s.length < buff.length := by omega
    have hcrc : nmeaCalcCrc abi (((snprintf buff s).drop 1).take (s.length - 1)) =
        sentenceCrc abi s := by
      cases s with
      | nil => exact absurd rfl hs
      | cons b body =>
        rw [snprintf_room hroom]
        show nmeaCalcCrc abi ((body ++ _).take body.length) = _
        rw [List.take_left]
        rfl
    have hout : (snprintf buff s).take s.length ++
        snprintf ((snprintf buff s).drop s.length) (crcTail abi s) =
        snprintf buff (s ++ crcTail abi s) := by
      rw [snprintf_room hroom, List.take_left, List.drop_left, snprintf_append hroom]
    rw [hcrc]
    show (if s.length + (crcTail abi s).length > buff.length then _ else
      some (s.length + (crcTail abi s).length, (snprintf buff s).take s.length ++
        snprintf ((snprintf buff s).drop s.length) (crcTail abi s))) = _
    rw [hout, List.length_append]
    rfl

/-! ## Lines -/

/-- The text of a sentence up to the '*'. -/
structure Line where
  body : List Byte
  no_dollar : dollar ∉ body
  no_star : star ∉ body
  seven_bit : ∀ b ∈ body, b < 128

namespace Line

def text (l : Line) : List Byte := dollar :: l.body

/-- The line with its checksum. -/
def frame (l : Line) : Frame where
  body := l.body
  h1 := ascii ((xorAll l.body).toNat / 16).digitChar
  h2 := ascii ((xorAll l.body).toNat % 16).digitChar
  no_dollar := l.no_dollar
  no_star := l.no_star
  hex1 := isDigitOf_digitChar (Nat.le_refl 16)
    (Nat.div_lt_of_lt_mul (xorAll l.body).toNat_lt)
  hex2 := isDigitOf_digitChar (Nat.le_refl 16) (Nat.mod_lt _ (by decide))

theorem valid (l : Line) : l.frame.Valid := by
  have hlt : (xorAll l.body).toNat < 256 := (xorAll l.body).toNat_lt
  have h1 : digitVal l.frame.h1 = some ((xorAll l.body).toNat / 16) :=
    digitVal_digitChar (by omega)
  have h2 : digitVal l.frame.h2 = some ((xorAll l.body).toNat % 16) :=
    digitVal_digitChar (by omega)
  unfold Frame.Valid Frame.checksum
  rw [h1, h2, Option.getD_some, Option.getD_some]
  exact Nat.div_add_mod _ 16

theorem sevenBit (l : Line) : l.frame.SevenBit := l.seven_bit

theorem length_frame (l : Line) : l.frame.bytes.length = l.text.length + 5 := by
  rw [Frame.length_bytes]
  rfl

theorem bytes_eq (abi : Abi) (l : Line) : l.text ++ crcTail abi l.text = l.frame.bytes := by
  have hxor := xorAll_seven_bit l.seven_bit
  have hcrc : sentenceCrc abi l.text = Int32.ofNat (xorAll l.body).toNat := by
    rw [text, sentenceCrc_eq, charToInt_seven_bit hxor]
  unfold crcTail
  rw [hcrc, printfX_byte (xorAll l.body).toNat_lt]
  rfl

/-- nmea_printf with the text of the line. -/
def put (l : Line) (buff : List Byte) : Option (Nat × List Byte) :=
  if buff = [] then some (0, [])
  else if buff.length < l.text.length then none
  else if buff.length < l.frame.bytes.length then some (buff.length, blanks buff.length)
  else some (l.frame.bytes.length, snprintf buff l.frame.bytes)

/-- Less than the whole buffer was used: the line is there, with a NUL behind it. -/
theorem put_room {l : Line} {buff out : List Byte} {n : Nat} (h : l.put buff = some (n, out))
    (hroom : n < buff.length) :
    n = l.frame.bytes.length ∧ out = l.frame.bytes ++ 0 :: buff.drop (n + 1) := by
  unfold put at h
  split at h
  · rename_i hnil
    rw [hnil] at hroom
    exact absurd hroom (Nat.not_lt_zero n)
  · split at h
    · cases h
    · split at h
      · cases h
        exact absurd hroom (Nat.lt_irrefl _)
      · cases h
        exact ⟨rfl, snprintf_room hroom⟩

theorem verdict_nonneg (abi : Abi) (l : Line) :
    l.frame.verdict abi = Int32.ofNat l.frame.checksum ∧ 0 ≤ l.frame.verdict abi := by
  have hcrc := (Frame.valid_iff abi l.sevenBit).mp l.valid
  have hverdict : l.frame.verdict abi = Int32.ofNat l.frame.checksum := by
    rw [Frame.verdict, if_pos hcrc]
  refine ⟨hverdict, ?_⟩
  rw [hverdict, Int32.le_iff_toInt_le, Int32.toInt_ofNat_of_lt (by
    have := l.frame.checksum_lt
    omega)]
  exact Int.natCast_nonneg _

theorem putText_eq (abi : Abi) (l : Line) (buff : List Byte) :
    putText abi l.text buff = l.put buff := by
  rw [putText, bytes_eq, put]

theorem printf {l : Line} {format : List Byte} {args : List (Arg D)}
    (h : printfText format args = .ok l.text) (buff : List Byte) :
    nmeaPrintf abi buff format args = l.put buff := by
  rw [nmeaPrintf_text h (List.cons_ne_nil _ _), putText_eq]

end Line

/-! ## What nmea_find_tail makes of it -/

theorem quiet_blanks (n : Nat) : Quiet (blanks n) := by
  have hblank : ∀ b ∈ blanks n, b = ascii ' ' := fun b hb => List.eq_of_mem_replicate hb
  have hstar : star ≠ ascii ' ' := by decide
  have hdollar : dollar ≠ ascii ' ' := by decide
  exact ⟨fun hm => hstar (hblank _ hm), fun hm => hdollar (hblank _ (List.mem_of_mem_tail hm))⟩

theorem quiet_text {body : List Byte} (hd : dollar ∉ body) (hs : star ∉ body) :
    Quiet (dollar :: body) := by
  refine ⟨?_, hd⟩
  intro hm
  rcases List.mem_cons.mp hm with h | h
  · cases h
  · exact hs h

theorem charToInt_high {b : Byte} (h : ¬ b < 128) :
    (abi.charSigned = true → charToInt abi b < 0) ∧
      (abi.charSigned = false → charToInt abi b = Int32.ofNat b.toNat) := by
  have table : ∀ k < 128, (UInt8.ofNat (128 + k)).toInt8.toInt32 < 0 ∧
      (UInt8.ofNat (128 + k)).toUInt32.toInt32 = Int32.ofNat (128 + k) := by decide
  have hlt : b.toNat < 256 := b.toNat_lt
  have hge : 128 ≤ b.toNat := by
    have h128 : (128 : Byte).toNat = 128 := rfl
    rw [UInt8.lt_iff_toNat_lt, h128] at h
    omega
  obtain ⟨hsigned, hunsigned⟩ := table (b.toNat - 128) (by omega)
  rw [Nat.add_sub_cancel' hge, UInt8.ofNat_toNat] at hsigned hunsigned
  unfold charToInt
  constructor
  · intro hchar
    rwa [if_pos hchar]
  · intro hchar
    rwa [hchar, if_neg Bool.false_ne_true]

/-- A byte whose value as a char is not negative. -/
def Plus (abi : Abi) (b : Byte) : Prop := abi.charSigned = true → b < 128

instance (b : Byte) : Decidable (Plus abi b) := inferInstanceAs (Decidable (_ → _))

theorem charToInt_plus {b : Byte} (h : Plus abi b) : charToInt abi b = Int32.ofNat b.toNat := by
  by_cases hb : b < 128
  · exact charToInt_seven_bit hb
  · cases hchar : abi.charSigned with
    | true => exact absurd (h hchar) hb
    | false => exact (charToInt_high hb).2 hchar

theorem charToInt_minus {b : Byte} (h : ¬ Plus abi b) : charToInt abi b < 0 := by
  obtain ⟨hsigned, hb⟩ := Classical.not_imp.mp h
  exact (charToInt_high hb).1 hsigned

/-- Its checksum is printed with two hex digits, and read back. -/
theorem crcTail_plus {body : List Byte} (h : Plus abi (xorAll body)) :
    ∃ h1 h2, crcTail abi (dollar :: body) = [star, h1, h2, cr, lf] ∧
      nmeaAtoi abi [h1, h2] 16 = charToInt abi (xorAll body) := by
  have hlt : (xorAll body).toNat < 256 := (xorAll body).toNat_lt
  have hhigh : (xorAll body).toNat / 16 < 16 := by omega
  have hlow : (xorAll body).toNat % 16 < 16 := by omega
  refine ⟨ascii ((xorAll body).toNat / 16).digitChar, ascii ((xorAll body).toNat % 16).digitChar,
    ?_, ?_⟩
  · rw [crcTail, sentenceCrc_eq, charToInt_plus h, printfX_byte hlt]
    rfl
  · rw [atoi_hex (isDigitOf_digitChar (Nat.le_refl 16) hhigh)
      (isDigitOf_digitChar (Nat.le_refl 16) hlow), digitVal_digitChar hhigh,
      digitVal_digitChar hlow, Option.getD_some, Option.getD_some, charToInt_plus h, Nat.div_add_mod]

/-- Otherwise at least three digits stand between the '*' and the CR. -/
theorem crcTail_minus {body : List Byte} (h : ¬ Plus abi (xorAll body)) :
    ∃ h1 h2 h3 rest, crcTail abi (dollar :: body) = star :: h1 :: h2 :: h3 :: rest ∧ h3 ≠ cr ∧
      rest ≠ [] := by
  have hlong := printfX_neg (charToInt_minus h)
  have hdigits := printfX_digits 2 (charToInt abi (xorAll body))
  rw [crcTail, sentenceCrc_eq]
  cases hx : printfX true 2 (charToInt abi (xorAll body)) with
  | nil =>
    rw [hx] at hlong
    cases hlong
  | cons h1 x =>
    cases x with
    | nil =>
      rw [hx] at hlong
      simp at hlong
    | cons h2 x =>
      cases x with
      | nil =>
        rw [hx] at hlong
        simp at hlong
      | cons h3 x =>
        refine ⟨h1, h2, h3, x ++ [cr, lf], rfl, ?_, by simp⟩
        rintro rfl
        rw [hx] at hdigits
        have hcr := hdigits cr (by simp)
        exact absurd hcr (by decide)

section

variable {body : List Byte}

/-- A text with its tail is taken whole. -/
theorem findTail_printed (hd : dollar ∉ body) (hs : star ∉ body) (h : Plus abi (xorAll body))
    (ys : List Byte) :
    nmeaFindTail abi (dollar :: body ++ crcTail abi (dollar :: body) ++ ys) =
      (body.length + 6, charToInt abi (xorAll body)) := by
  obtain ⟨h1, h2, htail, hatoi⟩ := crcTail_plus h
  have hpos : ¬ charToInt abi (xorAll body) < 0 := by
    rw [charToInt_plus h]
    exact ofNat_nonneg (xorAll body).toNat_lt
  rw [List.append_assoc, htail]
  show nmeaFindTail abi (dollar :: body ++ star :: (h1 :: h2 :: cr :: lf :: ys)) = _
  rw [findTail_star (quiet_text hd hs), findTailStar_tail, hatoi, sentenceCrc_eq,
    if_neg (not_not.mpr rfl), if_neg hpos]
  rfl

/-- Without the LF it is waited for. -/
theorem findTail_cut (hd : dollar ∉ body) (hs : star ∉ body) {h1 h2 c : Byte} (hc : c ≠ lf) :
    nmeaFindTail abi (dollar :: body ++ [star, h1, h2, cr, c]) = (0, -1) := by
  rw [findTail_star (quiet_text hd hs)]
  apply findTailStar_wait
  rintro ⟨a, b, ys, htail⟩
  rw [List.cons.injEq, List.cons.injEq, List.cons.injEq, List.cons.injEq] at htail
  exact hc htail.2.2.2.1

/-- With a third digit it is waited for, too. -/
theorem findTail_third (hd : dollar ∉ body) (hs : star ∉ body) {h1 h2 h3 : Byte} (hcr : h3 ≠ cr)
    (rest : List Byte) :
    nmeaFindTail abi (dollar :: body ++ star :: h1 :: h2 :: h3 :: rest) = (0, -1) := by
  rw [findTail_star (quiet_text hd hs)]
  apply findTailStar_wait
  rintro ⟨a, b, ys, htail⟩
  rw [List.cons.injEq, List.cons.injEq, List.cons.injEq] at htail
  exact hcr htail.2.2.1

/-- **What nmea_printf writes is a sentence for nmea_find_tail just when the buffer is larger than
the sentence** and, where char is signed, the checksum is below 128. A buffer shorter than the text
is left. -/
theorem printf_found {format : List Byte} {args : List (Arg D)} (buff : List Byte)
    (htext : printfText format args = .ok (dollar :: body)) (hd : dollar ∉ body)
    (hs : star ∉ body) :
    (nmeaPrintf abi buff format args = none ↔ 0 < buff.length ∧ buff.length ≤ body.length) ∧
      ∀ n out, nmeaPrintf abi buff format args = some (n, out) →
        nmeaFindTail abi (out.take n) =
          if body.length + 6 < buff.length ∧ Plus abi (xorAll body) then
            (n, charToInt abi (xorAll body))
          else (0, -1) := by
  have hwait : nmeaFindTail abi [] = (0, -1) := rfl
  rw [nmeaPrintf_text htext (List.cons_ne_nil _ _), putText]
  by_cases hbuff : buff = []
  · subst hbuff
    rw [if_pos rfl]
    refine ⟨iff_of_false (Option.some_ne_none _) fun h => absurd h.1 (Nat.lt_irrefl 0), ?_⟩
    intro n out h
    cases h
    rw [if_neg fun h => absurd h.1 (Nat.not_lt_zero _)]
    exact hwait
  have hpos := List.length_pos_iff.mpr hbuff
  rw [if_neg hbuff, List.length_cons]
  by_cases hfault : buff.length < body.length + 1
  · rw [if_pos hfault]
    exact ⟨iff_of_true rfl ⟨hpos, by omega⟩, fun n out h => by cases h⟩
  rw [if_neg hfault]
  by_cases hblank : buff.length < (dollar :: body ++ crcTail abi (dollar :: body)).length
  · rw [if_pos hblank]
    refine ⟨iff_of_false (Option.some_ne_none _) fun h => by omega, ?_⟩
    intro n out h
    cases h
    have hall : (blanks buff.length).take buff.length = blanks buff.length :=
      List.take_of_length_le (Nat.le_of_eq List.length_replicate)
    rw [hall, findTail_open (quiet_blanks _), if_neg]
    rintro ⟨hlen, hplus⟩
    obtain ⟨h1, h2, htail, -⟩ := crcTail_plus hplus
    rw [htail, List.length_append] at hblank
    simp only [List.length_cons, List.length_nil] at hblank
    omega
  rw [if_neg hblank]
  refine ⟨iff_of_false (Option.some_ne_none _) fun h => by omega, ?_⟩
  intro n out h
  cases h
  by_cases hplus : Plus abi (xorAll body)
  · have hprinted := findTail_printed hd hs hplus []
    obtain ⟨h1, h2, htail, -⟩ := crcTail_plus hplus
    have hlen : (dollar :: body ++ crcTail abi (dollar :: body)).length = body.length + 6 := by
      rw [htail, List.length_append]
      rfl
    by_cases hroom : body.length + 6 < buff.length
    · rw [if_pos ⟨hroom, hplus⟩, snprintf_room (by omega), List.take_left]
      rw [List.append_nil] at hprinted
      rw [hprinted, hlen]
    · -- the LF made room for the NUL
      have hcut : (dollar :: body ++ [star, h1, h2, cr, lf]).dropLast ++ [0] =
          dollar :: body ++ [star, h1, h2, cr, 0] := by
        rw [List.dropLast_append_of_ne_nil (List.cons_ne_nil _ _), List.append_assoc]
        rfl
      have hall : (snprintf buff (dollar :: body ++ crcTail abi (dollar :: body))).take
          (dollar :: body ++ crcTail abi (dollar :: body)).length =
          dollar :: body ++ [star, h1, h2, cr, 0] := by
        rw [List.take_of_length_le (by rw [length_snprintf]; omega),
          snprintf_exact hbuff (by omega), htail, hcut]
      rw [hall, findTail_cut hd hs (by decide), if_neg fun h => hroom h.1]
  · obtain ⟨h1, h2, h3, rest, htail, hcr, hrest⟩ := crcTail_minus hplus
    rw [if_neg fun h => hplus h.2]
    have hfront : ∃ more, (snprintf buff (dollar :: body ++ crcTail abi (dollar :: body))).take
        (dollar :: body ++ crcTail abi (dollar :: body)).length =
        dollar :: body ++ star :: h1 :: h2 :: h3 :: more := by
      by_cases hroom : (dollar :: body ++ crcTail abi (dollar :: body)).length < buff.length
      · exact ⟨rest, by rw [snprintf_room hroom, List.take_left, htail]⟩
      · refine ⟨rest.dropLast ++ [0], ?_⟩
        have hsplit : dollar :: body ++ star :: h1 :: h2 :: h3 :: rest =
            (dollar :: body ++ [star, h1, h2, h3]) ++ rest := by simp
        rw [List.take_of_length_le (by rw [length_snprintf]; omega),
          snprintf_exact hbuff (by omega), htail, hsplit, List.dropLast_append_of_ne_nil hrest]
        simp
    obtain ⟨more, hmore⟩ := hfront
    rw [hmore, findTail_third hd hs hcr]

end

/-- One number, with room to spare. -/
theorem printf_found_five :
    let buff : List Byte := List.replicate 16 0
    let abi : Abi := ⟨true, 32, le_rfl⟩
    (nmeaPrintf abi buff (cstr "$A,%d") [(.int 5 : Arg Rat)] = none ↔
        0 < buff.length ∧ buff.length ≤ (cstr "A,5").length) ∧
      ∀ n out, nmeaPrintf abi buff (cstr "$A,%d") [(.int 5 : Arg Rat)] = some (n, out) →
        nmeaFindTail abi (out.take n) =
          if (cstr "A,5").length + 6 < buff.length ∧ Plus abi (xorAll (cstr "A,5")) then
            (n, charToInt abi (xorAll (cstr "A,5")))
          else (0, -1) :=
  printf_found (List.replicate 16 0) (by decide) (by decide) (by decide)

end RttNmea
