import RttNmea.FindTail

/-!
# Formats as rows of fields

The formats of the field parsers are made of bytes to match, unwidthed conversions and "%2d".
`scanItems` is what nmea_scanf does with such a row; on fields set off by commas it takes off
one field at a time.
-/

namespace RttNmea

open CText

variable {D : Type} [CDouble D]

/-- %C, %s, %f and %d. -/
inductive Conv
  | chr | str | dbl | int
  deriving DecidableEq, Repr

def Conv.letter : Conv → Byte
  | .chr => ascii 'C'
  | .str => ascii 's'
  | .dbl => ascii 'f'
  | .int => ascii 'd'

/-- A byte to match, a conversion without a width, or "%2d". -/
inductive Item
  | lit (c : Byte)
  | field (k : Conv)
  | two
  deriving DecidableEq, Repr

def Item.format : Item → List Byte
  | .lit c => [c]
  | .field k => [ascii '%', k.letter]
  | .two => [ascii '%', ascii '2', ascii 'd']

/-- The format of a row. -/
def formatOf (items : List Item) : List Byte := items.flatMap Item.format

/-- What a token stores: nothing if it is empty. -/
def stored (abi : Abi) (letter : Byte) (tok : List Byte) : Option (Stored D) :=
  if tok = [] then none else convert abi letter tok

/-- The size of a conversion's token at the front of a nonempty `buff`, with `next` the byte
of the format behind the conversion. -/
def fieldSize (k : Conv) (next : Byte) (buff : List Byte) : Nat :=
  if k = .chr ∧ buff.headD 0 ≠ next then 1
  else if next = 0 then buff.length
  else buff.idxOf next

/-- nmea_scanf on a row: the count it returns and what it stores. -/
def scanItems (abi : Abi) : List Item → List Byte → Nat × List (Option (Stored D))
  | [], _ => (0, [])
  | .lit c :: items, buff =>
    if buff.head? = some c then scanItems abi items buff.tail else (0, [])
  | .field k :: items, buff =>
    if buff = [] then (0, [])
    else
      let n := fieldSize k ((formatOf items).headD 0) buff
      let r := scanItems abi items (buff.drop n)
      (r.1 + 1, stored abi k.letter (buff.take n) :: r.2)
  | .two :: items, buff =>
    if buff.length < 2 then (0, [])
    else
      let r := scanItems abi items (buff.drop 2)
      (r.1 + 1, stored abi (ascii 'd') (buff.take 2) :: r.2)

/-! ## nmea_scanf on a row -/

variable {abi : Abi}

theorem scanLoop_nil_buff (format : List Byte) {s : ScanState D} (h : s.buff = []) :
    scanLoop abi format s = s := by
  cases format with
  | nil => rfl
  | cons c format => rw [scanLoop, if_pos h]

theorem convert_letter (k : Conv) (tok : List Byte) :
    convert abi k.letter tok ≠ (none : Option (Stored D)) := by
  cases k <;> exact Option.some_ne_none _

theorem letter_chr (k : Conv) : k.letter = ascii 'c' ∨ k.letter = ascii 'C' ↔ k = .chr := by
  cases k <;> decide

theorem tokenSize_field (k : Conv) (next : Byte) {buff : List Byte} (hb : buff ≠ []) :
    tokenSize k.letter next 0 buff = some (fieldSize k next buff) := by
  have hlen : 1 ≤ buff.length := List.length_pos_iff.mpr hb
  unfold tokenSize fieldSize
  simp only [letter_chr, true_and]
  by_cases hone : k = .chr ∧ buff.headD 0 ≠ next
  · rw [if_pos hone, if_pos hone, if_pos Nat.one_ne_zero, if_pos hlen]
  · rw [if_neg hone, if_neg hone, if_neg (fun h => h rfl)]
    split <;> rfl

/-- The type step on a token that could be cut off. -/
theorem scanType_some {type next : Byte} {s : ScanState D} {n : Nat}
    (hsize : tokenSize type next s.width s.buff = some n) (hb : s.buff ≠ [])
    (hconv : ∀ tok : List Byte, convert abi type tok ≠ (none : Option (Stored D))) :
    scanType abi type next s = .ok { s with
      tokType := .compare, width := n, buff := s.buff.drop n, tokCount := s.tokCount + 1
      args := s.args ++ [stored abi type (s.buff.take n)] } := by
  unfold scanType stored
  rw [hsize]
  by_cases hn : n = 0
  · subst hn
    simp
  · have htok : s.buff.take n ≠ [] := by
      intro h
      rcases List.take_eq_nil_iff.mp h with h | h
      · exact hn h
      · exact hb h
    obtain ⟨v, hv⟩ := Option.ne_none_iff_exists'.mp (hconv (s.buff.take n))
    simp only [if_neg hn, if_neg htok, hv]

theorem scanLoop_ok {c next : Byte} {format : List Byte} {s s' : ScanState D} (hb : s.buff ≠ [])
    (hnext : format.headD 0 = next) (hstep : scanStep abi c next s = .ok s') :
    scanLoop abi (c :: format) s = scanLoop abi format s' := by
  rw [scanLoop, if_neg hb, hnext, hstep]

theorem scanLoop_error {c next : Byte} {format : List Byte} {s s' : ScanState D}
    (hb : s.buff ≠ []) (hnext : format.headD 0 = next)
    (hstep : scanStep abi c next s = .error s') : scanLoop abi (c :: format) s = s' := by
  rw [scanLoop, if_neg hb, hnext, hstep]

theorem scanLoop_percent (format : List Byte) {s : ScanState D} (hs : s.tokType = .compare)
    (hb : s.buff ≠ []) :
    scanLoop abi (ascii '%' :: format) s =
      scanLoop abi format { s with tokType := .percent } := by
  apply scanLoop_ok hb rfl
  simp only [scanStep, hs, if_pos]

theorem scanLoop_lit {c : Byte} (hc : c ≠ ascii '%') (format : List Byte) {s : ScanState D}
    (hs : s.tokType = .compare) (hb : s.buff ≠ []) :
    scanLoop abi (c :: format) s =
      if s.buff.head? = some c then scanLoop abi format { s with buff := s.buff.tail }
      else { s with buff := s.buff.tail } := by
  by_cases hhead : s.buff.head? = some c
  · rw [if_pos hhead]
    apply scanLoop_ok hb rfl
    simp only [scanStep, hs, if_neg hc, if_pos hhead]
  · rw [if_neg hhead]
    apply scanLoop_error hb rfl
    simp only [scanStep, hs, if_neg hc, if_neg hhead]

theorem scanLoop_field (abi : Abi) (k : Conv) (format : List Byte) {s : ScanState D}
    (hs : s.tokType = .compare) (hb : s.buff ≠ []) :
    ∃ s', scanLoop abi (ascii '%' :: k.letter :: format) s = scanLoop abi format s' ∧
      s'.tokType = .compare ∧ s'.buff = s.buff.drop (fieldSize k (format.headD 0) s.buff) ∧
      s'.tokCount = s.tokCount + 1 ∧ s'.args = s.args ++
        [stored abi k.letter (s.buff.take (fieldSize k (format.headD 0) s.buff))] := by
  let n := fieldSize k (format.headD 0) s.buff
  refine ⟨{ s with
    tokType := .compare, width := n, begFmt := [], buff := s.buff.drop n
    tokCount := s.tokCount + 1, args := s.args ++ [stored abi k.letter (s.buff.take n)] },
    ?_, rfl, rfl, rfl, rfl⟩
  have hdigit : ¬ isDigit k.letter = true := by cases k <;> decide
  rw [scanLoop_percent _ hs hb]
  apply scanLoop_ok
  · exact hb
  · exact rfl
  · rw [scanStep, scanWidth, if_neg hdigit]
    apply scanType_some
    · exact tokenSize_field k _ hb
    · exact hb
    · exact convert_letter k

theorem atoi_digits {ds : List Byte} (hlen : ds.length < nmeaConvStrBuf)
    (hd : ∀ b ∈ ds, isDigit b = true) (hsmall : leadingNat 10 ds < 2 ^ 31) :
    nmeaAtoi abi ds 10 = Int32.ofNat (leadingNat 10 ds) := by
  rw [nmeaAtoi, if_pos hlen, strtol_digits abi hd hsmall]
  exact Int32.ofInt_eq_ofNat

/-- The steps of "%2d" up to the type step. -/
theorem scanLoop_width (format : List Byte) {s : ScanState D} (hs : s.tokType = .compare)
    (hb : s.buff ≠ []) :
    scanLoop abi (Item.two.format ++ format) s =
      match scanType abi (ascii 'd') (format.headD 0)
        { s with tokType := .type, width := 2, begFmt := [ascii '2'] } with
      | .ok s' => scanLoop abi format s'
      | .error s' => s' := by
  have hatoi : (nmeaAtoi abi [ascii '2'] 10).toNatClampNeg = 2 := by
    rw [atoi_digits (by decide) (List.all_eq_true.mp rfl) (by decide)]
    decide
  have hwide : scanLoop abi (ascii '2' :: ascii 'd' :: format) { s with tokType := .percent } =
      scanLoop abi (ascii 'd' :: format)
        { s with tokType := .width, width := 0, begFmt := [ascii '2'] } := by
    apply scanLoop_ok
    · exact hb
    · exact rfl
    · rfl
  have hdigit : ¬ isDigit (ascii 'd') = true := by decide
  have hfmt : [ascii '2'] ≠ [] := by decide
  have hstep : scanStep abi (ascii 'd') (format.headD 0)
      { s with tokType := .width, width := 0, begFmt := [ascii '2'] } =
      scanType abi (ascii 'd') (format.headD 0)
        { s with tokType := .type, width := 2, begFmt := [ascii '2'] } := by
    simp only [scanStep, scanWidth, if_neg hdigit, if_neg hfmt, hatoi]
  show scanLoop abi (ascii '%' :: ascii '2' :: ascii 'd' :: format) s = _
  rw [scanLoop_percent _ hs hb, hwide, scanLoop, if_neg hb]
  exact congrArg (fun r => match r with
    | .ok s' => scanLoop abi format s'
    | .error s' => s') hstep

theorem tokenSize_two (next : Byte) (buff : List Byte) :
    tokenSize (ascii 'd') next 2 buff = if 2 ≤ buff.length then some 2 else none := by
  have hwide : ¬ ((2 = 0) ∧ (ascii 'd' = ascii 'c' ∨ ascii 'd' = ascii 'C') ∧
      buff.headD 0 ≠ next) := fun h => absurd h.1 (by decide)
  unfold tokenSize
  simp only [if_neg hwide]
  rfl

theorem scanLoop_two (abi : Abi) (format : List Byte) {s : ScanState D} (hs : s.tokType = .compare)
    (hlen : 2 ≤ s.buff.length) :
    ∃ s', scanLoop abi (Item.two.format ++ format) s = scanLoop abi format s' ∧
      s'.tokType = .compare ∧ s'.buff = s.buff.drop 2 ∧ s'.tokCount = s.tokCount + 1 ∧
      s'.args = s.args ++ [stored abi (ascii 'd') (s.buff.take 2)] := by
  have hb : s.buff ≠ [] := List.length_pos_iff.mp (by omega)
  have hsize : tokenSize (ascii 'd') (format.headD 0) 2 s.buff = some 2 := by
    rw [tokenSize_two, if_pos hlen]
  refine ⟨{ s with
    tokType := .compare, width := 2, begFmt := [ascii '2'], buff := s.buff.drop 2
    tokCount := s.tokCount + 1
    args := s.args ++ [stored abi (ascii 'd') (s.buff.take 2)] }, ?_, rfl, rfl, rfl, rfl⟩
  have hconv : ∀ tok : List Byte, convert abi (ascii 'd') tok ≠ (none : Option (Stored D)) :=
    convert_letter .int
  have hok := scanType_some
    (s := { s with tokType := .type, width := 2, begFmt := [ascii '2'] }) hsize hb hconv
  rw [scanLoop_width format hs hb, hok]

theorem scanLoop_two_short (format : List Byte) {s : ScanState D} (hs : s.tokType = .compare)
    (hlen : s.buff.length < 2) :
    (scanLoop abi (Item.two.format ++ format) s).tokCount = s.tokCount ∧
      (scanLoop abi (Item.two.format ++ format) s).args = s.args := by
  by_cases hb : s.buff = []
  · rw [scanLoop_nil_buff _ hb]
    exact ⟨rfl, rfl⟩
  · have hsize : tokenSize (ascii 'd') (format.headD 0) 2 s.buff = none := by
      rw [tokenSize_two, if_neg (by omega)]
    rw [scanLoop_width format hs hb]
    unfold scanType
    rw [hsize]
    exact ⟨rfl, rfl⟩

/-- The bytes to match are not '%'. -/
def Plain (items : List Item) : Prop := ∀ item ∈ items, item ≠ .lit (ascii '%')

instance (items : List Item) : Decidable (Plain items) :=
  inferInstanceAs (Decidable (∀ item ∈ items, _))

/-- **nmea_scanf on the format of a row does what `scanItems` does.** -/
theorem scanLoop_items (abi : Abi) {items : List Item} (hplain : Plain items) {s : ScanState D}
    (hs : s.tokType = .compare) :
    (scanLoop abi (formatOf items) s).tokCount = s.tokCount + (scanItems (D := D) abi items s.buff).1 ∧
      (scanLoop abi (formatOf items) s).args = s.args ++ (scanItems abi items s.buff).2 := by
  induction items generalizing s with
  | nil =>
    show s.tokCount = s.tokCount + 0 ∧ s.args = s.args ++ []
    exact ⟨rfl, (List.append_nil _).symm⟩
  | cons item items ih =>
    have hrest : Plain items := fun i hi => hplain i (List.mem_cons_of_mem _ hi)
    cases item with
    | lit c =>
      have hc : c ≠ ascii '%' := fun h => hplain (.lit c) List.mem_cons_self (h ▸ rfl)
      by_cases hb : s.buff = []
      · rw [scanLoop_nil_buff _ hb, hb, scanItems]
        exact ⟨rfl, (List.append_nil _).symm⟩
      · show (scanLoop abi (c :: formatOf items) s).tokCount = _ ∧
          (scanLoop abi (c :: formatOf items) s).args = _
        rw [scanLoop_lit hc _ hs hb, scanItems]
        by_cases hhead : s.buff.head? = some c
        · rw [if_pos hhead, if_pos hhead]
          exact ih hrest hs
        · rw [if_neg hhead, if_neg hhead]
          exact ⟨rfl, (List.append_nil _).symm⟩
    | field k =>
      by_cases hb : s.buff = []
      · rw [scanLoop_nil_buff _ hb, scanItems, if_pos hb]
        exact ⟨rfl, (List.append_nil _).symm⟩
      · obtain ⟨s', hrun, hs', hbuff, hcount, hargs⟩ :=
          scanLoop_field abi k (formatOf items) hs hb
        obtain ⟨hcount', hargs'⟩ := ih hrest hs'
        show (scanLoop abi (ascii '%' :: k.letter :: formatOf items) s).tokCount = _ ∧
          (scanLoop abi (ascii '%' :: k.letter :: formatOf items) s).args = _
        rw [hrun, hcount', hargs', hcount, hargs, hbuff, scanItems, if_neg hb]
        constructor
        · dsimp only
          omega
        · rw [List.append_assoc]
          rfl
    | two =>
      by_cases hlen : s.buff.length < 2
      · rw [scanItems, if_pos hlen, List.append_nil]
        exact scanLoop_two_short (formatOf items) hs hlen
      · obtain ⟨s', hrun, hs', hbuff, hcount, hargs⟩ :=
          scanLoop_two abi (formatOf items) hs (Nat.not_lt.mp hlen)
        obtain ⟨hcount', hargs'⟩ := ih hrest hs'
        show (scanLoop abi (Item.two.format ++ formatOf items) s).tokCount = _ ∧
          (scanLoop abi (Item.two.format ++ formatOf items) s).args = _
        rw [hrun, hcount', hargs', hcount, hargs, hbuff, scanItems, if_neg hlen]
        constructor
        · dsimp only
          omega
        · rw [List.append_assoc]
          rfl

theorem scanf_items {items : List Item} (hplain : Plain items) (buff : List Byte) :
    (nmeaScanf abi buff (formatOf items) : Nat × List (Option (Stored D))) =
      scanItems abi items buff := by
  obtain ⟨hcount, hargs⟩ :=
    scanLoop_items (D := D) abi hplain (s := { buff := buff }) rfl
  rw [Nat.zero_add] at hcount
  exact Prod.ext hcount hargs

/-! ## Fields set off by commas -/

/-- What a field stores through its own argument. -/
def stores (abi : Abi) (k : Conv) (f : List Byte) : Option (Stored D) := stored abi k.letter f

/-- The text of a field with a comma after it: at most one byte for %C. -/
structure CommaField (k : Conv) (f : List Byte) : Prop where
  no_comma : comma ∉ f
  single : k = .chr → f.length ≤ 1

/-- The text of a field that may be the last. -/
structure FieldText (k : Conv) (f : List Byte) : Prop extends CommaField k f where
  no_star : star ∉ f

/-- The part of a format that reads these fields, each with the comma after it. -/
def commaItems (ks : List Conv) : List Item := ks.flatMap fun k => [.field k, .lit comma]

/-- The fields, each with a comma after it. -/
def commaText (fs : List (List Byte)) : List Byte := fs.flatMap fun f => f ++ [comma]

theorem idxOf_append_cons {f rest : List Byte} {c : Byte} (hc : c ∉ f) :
    (f ++ c :: rest).idxOf c = f.length := by
  rw [List.idxOf_append_of_notMem hc, List.idxOf_cons_self, Nat.add_zero]

/-- The token of a field is the field, empty or not. -/
theorem fieldSize_field {k : Conv} {f rest : List Byte} {c : Byte} (hc : c ∉ f) (h0 : c ≠ 0)
    (hsingle : k = .chr → f.length ≤ 1) : fieldSize k c (f ++ c :: rest) = f.length := by
  unfold fieldSize
  by_cases hone : k = .chr ∧ (f ++ c :: rest).headD 0 ≠ c
  · rw [if_pos hone]
    cases f with
    | nil => exact absurd rfl hone.2
    | cons b f =>
      have := hsingle hone.1
      simp only [List.length_cons] at this ⊢
      omega
  · rw [if_neg hone, if_neg h0, idxOf_append_cons hc]

theorem scan_field (items : List Item) {k : Conv} {f rest : List Byte} {c : Byte}
    (hitems : (formatOf items).headD 0 = c) (hc : c ∉ f) (h0 : c ≠ 0)
    (hsingle : k = .chr → f.length ≤ 1) :
    (scanItems abi (.field k :: items) (f ++ c :: rest) : Nat × List (Option (Stored D))) =
      ((scanItems (D := D) abi items (c :: rest)).1 + 1,
        stores abi k f :: (scanItems abi items (c :: rest)).2) := by
  have hne : f ++ c :: rest ≠ [] := by simp
  rw [scanItems, if_neg hne, hitems]
  dsimp only
  rw [fieldSize_field hc h0 hsingle, List.drop_left, List.take_left]
  rfl

theorem scan_lit {c : Byte} (items : List Item) (rest : List Byte) :
    (scanItems abi (.lit c :: items) (c :: rest) : Nat × List (Option (Stored D))) =
      scanItems abi items rest := by
  rw [scanItems, List.head?_cons, if_pos rfl, List.tail_cons]

/-- Fields with a comma after each are taken off one by one. -/
theorem scan_commas {ks : List Conv} {fs : List (List Byte)} (hfs : List.Forall₂ CommaField ks fs)
    (items : List Item) (rest : List Byte) :
    (scanItems abi (commaItems ks ++ items) (commaText fs ++ rest) :
        Nat × List (Option (Stored D))) =
      (ks.length + (scanItems (D := D) abi items rest).1,
        List.zipWith (stores abi) ks fs ++ (scanItems abi items rest).2) := by
  induction hfs with
  | nil => simp [commaItems, commaText]
  | @cons k f ks fs hf _ ih =>
    have hitems : commaItems (k :: ks) ++ items =
        .field k :: .lit comma :: (commaItems ks ++ items) := rfl
    have htext : commaText (f :: fs) ++ rest = f ++ comma :: (commaText fs ++ rest) := by
      simp [commaText]
    rw [hitems, htext, scan_field (c := comma) _ rfl hf.no_comma (by decide) hf.single, scan_lit,
      ih]
    simp only [List.length_cons, List.zipWith_cons_cons, List.cons_append, Prod.mk.injEq, and_true]
    omega

theorem scan_lits (cs : List Byte) (items : List Item) (rest : List Byte) :
    (scanItems abi (cs.map Item.lit ++ items) (cs ++ rest) : Nat × List (Option (Stored D))) =
      scanItems abi items rest := by
  induction cs with
  | nil => rfl
  | cons c cs ih =>
    rw [List.map_cons, List.cons_append, List.cons_append, scan_lit, ih]

/-- The last field of a format, with the '*' after it. -/
theorem scan_last {k : Conv} {f : List Byte} (hf : FieldText k f) (tail : List Byte) :
    (scanItems abi [.field k, .lit star] (f ++ star :: tail) : Nat × List (Option (Stored D))) =
      (1, [stores abi k f]) := by
  rw [scan_field (c := star) _ rfl hf.no_star (by decide) hf.single, scan_lit]
  rfl

/-! ## Scans that get through -/

/-- The conversions of a row. -/
def conversions (items : List Item) : Nat := items.countP fun | .lit _ => false | _ => true

theorem scan_count_le (items : List Item) (buff : List Byte) :
    (scanItems abi items buff : Nat × List (Option (Stored D))).1 ≤ conversions items := by
  induction items generalizing buff with
  | nil => exact Nat.le_refl _
  | cons item items ih =>
    cases item with
    | lit c =>
      rw [scanItems]
      split
      · exact ih _
      · exact Nat.zero_le _
    | field k =>
      have hcons : conversions (.field k :: items) = conversions items + 1 :=
        List.countP_cons_of_pos rfl
      rw [scanItems, hcons]
      split
      · exact Nat.zero_le _
      · exact Nat.succ_le_succ (ih _)
    | two =>
      have hcons : conversions (.two :: items) = conversions items + 1 :=
        List.countP_cons_of_pos rfl
      rw [scanItems, hcons]
      split
      · exact Nat.zero_le _
      · exact Nat.succ_le_succ (ih _)

/-- One more conversion than none: there are bytes left. -/
theorem scan_end (k : Conv) (items : List Item) (buff : List Byte) :
    1 ≤ (scanItems abi (.field k :: items) buff : Nat × List (Option (Stored D))).1 ↔ buff ≠ [] := by
  rw [scanItems]
  by_cases hb : buff = []
  · rw [if_pos hb]
    exact iff_of_false (Nat.not_succ_le_zero 0) fun h => h hb
  · rw [if_neg hb]
    exact iff_of_true (Nat.succ_le_succ (Nat.zero_le _)) hb

theorem scan_lit_ge {m : Nat} (hm : 0 < m) (c : Byte) (items : List Item) (buff : List Byte) :
    m ≤ (scanItems abi (.lit c :: items) buff : Nat × List (Option (Stored D))).1 ↔
      ∃ rest, buff = c :: rest ∧ m ≤ (scanItems (D := D) abi items rest).1 := by
  rw [scanItems]
  constructor
  · intro h
    by_cases hhead : buff.head? = some c
    · rw [if_pos hhead] at h
      exact ⟨buff.tail, (List.cons_head?_tail hhead).symm, h⟩
    · rw [if_neg hhead] at h
      exact absurd h (Nat.not_le.mpr hm)
  · rintro ⟨rest, rfl, h⟩
    rw [List.head?_cons, if_pos rfl]
    exact h

theorem scan_two_ge {m : Nat} (items : List Item) (buff : List Byte) :
    m + 1 ≤ (scanItems abi (.two :: items) buff : Nat × List (Option (Stored D))).1 ↔
      ∃ tok rest, tok.length = 2 ∧ buff = tok ++ rest ∧
        m ≤ (scanItems (D := D) abi items rest).1 := by
  rw [scanItems]
  constructor
  · intro h
    by_cases hlen : buff.length < 2
    · rw [if_pos hlen] at h
      exact absurd h (Nat.not_succ_le_zero m)
    · rw [if_neg hlen] at h
      refine ⟨buff.take 2, buff.drop 2, ?_, (List.take_append_drop 2 buff).symm,
        Nat.le_of_succ_le_succ h⟩
      rw [List.length_take]
      omega
  · rintro ⟨tok, rest, htok, rfl, h⟩
    have hlen : ¬ (tok ++ rest).length < 2 := by
      rw [List.length_append]
      omega
    rw [if_neg hlen]
    dsimp only
    rw [List.drop_left' htok]
    exact Nat.succ_le_succ h

/-- A token with a comma behind it is a field. -/
theorem commaField_taken {k : Conv} {buff : List Byte}
    (h : (buff.drop (fieldSize k comma buff)).head? = some comma) :
    CommaField k (buff.take (fieldSize k comma buff)) := by
  have h0 : comma ≠ 0 := by decide
  unfold fieldSize at h ⊢
  by_cases hone : k = .chr ∧ buff.headD 0 ≠ comma
  · rw [if_pos hone]
    cases buff with
    | nil => exact ⟨List.not_mem_nil, fun _ => Nat.zero_le _⟩
    | cons b buff =>
      refine ⟨?_, fun _ => Nat.le_refl _⟩
      intro hm
      exact hone.2 (List.mem_singleton.mp hm).symm
  · rw [if_neg hone, if_neg h0]
    constructor
    · intro hm
      have hmem := List.mem_of_mem_take hm
      exact Nat.lt_irrefl _ ((List.mem_take_iff_idxOf_lt hmem).mp hm)
    · intro hchr
      have hhead : buff.headD 0 = comma := not_not.mp fun hne => hone ⟨hchr, hne⟩
      cases buff with
      | nil => exact Nat.zero_le _
      | cons b buff =>
        have hb : b = comma := hhead
        subst hb
        rw [List.idxOf_cons_self]
        exact Nat.zero_le _

/-- **The scan gets past some fields just when they are there**, each with its comma. -/
theorem scan_commas_ge {m : Nat} (hm : 0 < m) {ks : List Conv} (items : List Item) (buff : List Byte) :
    ks.length + m ≤
        (scanItems abi (commaItems ks ++ items) buff : Nat × List (Option (Stored D))).1 ↔
      ∃ fs rest, List.Forall₂ CommaField ks fs ∧ buff = commaText fs ++ rest ∧
        m ≤ (scanItems (D := D) abi items rest).1 := by
  constructor
  · intro h
    induction ks generalizing buff with
    | nil =>
      rw [List.length_nil, Nat.zero_add] at h
      exact ⟨[], buff, .nil, rfl, h⟩
    | cons k ks ih =>
      have hitems : commaItems (k :: ks) ++ items =
          .field k :: .lit comma :: (commaItems ks ++ items) := rfl
      have hnext : (formatOf (.lit comma :: (commaItems ks ++ items))).headD 0 = comma := rfl
      rw [hitems, scanItems, hnext, List.length_cons] at h
      by_cases hb : buff = []
      · rw [if_pos hb] at h
        dsimp only at h
        omega
      · rw [if_neg hb] at h
        dsimp only at h
        have hpos : 0 < ks.length + m := by omega
        have hle : ks.length + m ≤ (scanItems (D := D) abi
            (.lit comma :: (commaItems ks ++ items)) (buff.drop (fieldSize k comma buff))).1 := by
          omega
        obtain ⟨rest, hrest, hcount⟩ := (scan_lit_ge hpos comma _ _).mp hle
        obtain ⟨fs, rest', hfs, htext, hend⟩ := ih rest hcount
        refine ⟨buff.take (fieldSize k comma buff) :: fs, rest', ?_, ?_, hend⟩
        · apply List.Forall₂.cons _ hfs
          apply commaField_taken
          rw [hrest]
          rfl
        · have hwhole := List.take_append_drop (fieldSize k comma buff) buff
          rw [hrest, htext] at hwhole
          have htail : commaText (buff.take (fieldSize k comma buff) :: fs) ++ rest' =
              buff.take (fieldSize k comma buff) ++ comma :: (commaText fs ++ rest') := by
            simp [commaText]
          exact hwhole.symm.trans htail.symm
  · rintro ⟨fs, rest, hfs, rfl, h⟩
    rw [scan_commas hfs]
    exact Nat.add_le_add_left h _

/-! ## The formats of the field parsers -/

/-- A header, fields with a comma after each, and a last field before the '*'. -/
def rowOf (head : List Byte) (init : List Conv) (last : Conv) : List Item :=
  head.map Item.lit ++ (commaItems init ++ [.field last, .lit star])

def ggaRow : List Item :=
  rowOf (cstr "$GPGGA,") [.str, .dbl, .chr, .dbl, .chr, .int, .int, .dbl, .dbl, .chr, .dbl, .chr,
    .dbl] .int

def gsaRow : List Item :=
  rowOf (cstr "$GPGSA,") (.chr :: List.replicate 13 .int ++ [.dbl, .dbl]) .dbl

def gsvRow : List Item := rowOf (cstr "$GPGSV,") (List.replicate 18 .int) .int

/-- The part of the RMC format behind the date. -/
def backItems : List Item := commaItems [.dbl, .chr] ++ [.field .chr, .lit star]

/-- The date is read as three conversions of two bytes. -/
def dateItems : List Item := .two :: .two :: .two :: .lit comma :: backItems

def rmcRow : List Item :=
  (cstr "$GPRMC,").map Item.lit ++
    (commaItems [.str, .chr, .dbl, .chr, .dbl, .chr, .dbl, .dbl] ++ dateItems)

theorem ggaFormat_eq : ggaFormat = formatOf ggaRow := by decide
theorem gsaFormat_eq : gsaFormat = formatOf gsaRow := by decide
theorem gsvFormat_eq : gsvFormat = formatOf gsvRow := by decide
theorem rmcFormat_eq : rmcFormat = formatOf rmcRow := by decide

theorem scanf_gga (buff : List Byte) :
    (nmeaScanf abi buff ggaFormat : Nat × List (Option (Stored D))) =
      scanItems abi ggaRow buff := by
  rw [ggaFormat_eq, scanf_items (by decide)]

theorem scanf_gsa (buff : List Byte) :
    (nmeaScanf abi buff gsaFormat : Nat × List (Option (Stored D))) =
      scanItems abi gsaRow buff := by
  rw [gsaFormat_eq, scanf_items (by decide)]

theorem scanf_gsv (buff : List Byte) :
    (nmeaScanf abi buff gsvFormat : Nat × List (Option (Stored D))) =
      scanItems abi gsvRow buff := by
  rw [gsvFormat_eq, scanf_items (by decide)]

theorem scanf_rmc (buff : List Byte) :
    (nmeaScanf abi buff rmcFormat : Nat × List (Option (Stored D))) =
      scanItems abi rmcRow buff := by
  rw [rmcFormat_eq, scanf_items (by decide)]

/-- A scan that counts anything has passed the header. -/
theorem scan_lits_inv {cs : List Byte} {items : List Item} {buff : List Byte}
    (h : (scanItems abi (cs.map Item.lit ++ items) buff : Nat × List (Option (Stored D))).1 ≠ 0) :
    ∃ rest, buff = cs ++ rest := by
  induction cs generalizing buff with
  | nil => exact ⟨buff, rfl⟩
  | cons c cs ih =>
    rw [List.map_cons, List.cons_append, scanItems] at h
    by_cases hhead : buff.head? = some c
    · rw [if_pos hhead] at h
      obtain ⟨rest, hrest⟩ := ih h
      exact ⟨rest, by rw [List.cons_append, ← hrest, List.cons_head?_tail hhead]⟩
    · rw [if_neg hhead] at h
      exact absurd rfl h

/-- Whether the first field of such a scan was stored: it is empty just when a comma follows
the header. -/
theorem first_field {head : List Byte} {items : List Item} {buff : List Byte}
    (h : (scanItems abi (head.map Item.lit ++ .field .str :: .lit comma :: items) buff :
      Nat × List (Option (Stored D))).1 ≠ 0) :
    (∃ s, (scanItems (D := D) abi (head.map Item.lit ++ .field .str :: .lit comma :: items)
      buff).2.head? = some (some (.str s))) ↔ ¬ head ++ [comma] <+: buff := by
  obtain ⟨rest, rfl⟩ := scan_lits_inv h
  rw [scan_lits] at h ⊢
  have hfirst : head ++ [comma] <+: head ++ rest ↔ rest.head? = some comma := by
    rw [List.prefix_append_right_inj]
    cases rest with
    | nil => simp
    | cons b rest => simp [eq_comm]
  have hne : rest ≠ [] := by
    rintro rfl
    exact h rfl
  obtain ⟨b, rest, rfl⟩ := List.exists_cons_of_ne_nil hne
  rw [hfirst, scanItems, if_neg hne]
  have hsize : fieldSize .str comma (b :: rest) = (b :: rest).idxOf comma := rfl
  show (∃ s, some (stored abi (ascii 's') ((b :: rest).take (fieldSize .str comma (b :: rest)))) =
    some (some (.str s))) ↔ ¬ some b = some comma
  rw [hsize]
  by_cases hb : b = comma
  · subst hb
    rw [List.idxOf_cons_self, List.take_zero]
    simp [stored]
  · rw [List.idxOf_cons_ne _ hb, List.take_succ_cons]
    have hstored : ∀ tok : List Byte, (stored abi (ascii 's') (b :: tok) : Option (Stored D)) =
        some (.str (b :: tok)) := fun _ => rfl
    rw [hstored]
    simp [hb]

end RttNmea
