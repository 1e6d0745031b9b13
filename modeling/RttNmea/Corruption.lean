import RttNmea.Delivery
import RttNmea.Fields
import Mathlib.Data.List.Chain

/-!
# One corrupted byte

Whatever one byte of a stream of well-formed sentences becomes (a checksum digit apart), the
packets applied are some of those of the intact stream: the sentence that was hit is skipped
or refused, or the parser waits behind it, and none is taken that was not sent.
-/

namespace RttNmea

open CText Framing

variable {D : Type} [CDouble D] {abi : Abi}

/-! ## Well-formed sentences -/

def isLetter (b : Byte) : Bool := (65 ≤ b.toNat && b.toNat ≤ 90) || (97 ≤ b.toNat && b.toNat ≤ 122)

def isNumeric (b : Byte) : Bool := isDigit b || b = ascii '.' || b = ascii '-'

/-- At most one letter, or digits, '.' and '-'. -/
def PlainField (x : List Byte) : Prop :=
  x.length ≤ 1 ∧ (∀ b ∈ x, isLetter b = true) ∨ ∀ b ∈ x, isNumeric b = true

/-- The fields of a sentence, each behind its comma. -/
def fieldsText (fields : List (List Byte)) : List Byte := fields.flatMap fun x => comma :: x

instance (x : List Byte) : Decidable (PlainField x) :=
  decidable_of_iff (x.length ≤ 1 ∧ x.all isLetter = true ∨ x.all isNumeric = true)
    (or_congr (and_congr_right' List.all_eq_true) List.all_eq_true)

/-- A header and plain fields, with a right checksum. -/
structure Frame.WellFormed (f : Frame) : Prop where
  valid : f.Valid
  body : ∃ head ∈ pheads.map Prod.fst, ∃ fields, (∀ x ∈ fields, PlainField x) ∧
    f.body = head ++ fieldsText fields

/-- A byte of the body of such a sentence. -/
def isPlain (b : Byte) : Bool := isLetter b || isNumeric b || b = comma

theorem plain_bounds {b : Byte} (h : isPlain b = true) : b < 128 ∧ b ≠ cr := by
  have table : ∀ k < 256, isPlain (UInt8.ofNat k) = true →
      UInt8.ofNat k < 128 ∧ UInt8.ofNat k ≠ cr := by decide +kernel
  have := table b.toNat (UInt8.toNat_lt b)
  rw [UInt8.ofNat_toNat] at this
  exact this h

/-- No 'P' behind a 'G': headers start with "GP". -/
def NotGp (a b : Byte) : Prop := ¬ (a = ascii 'G' ∧ b = ascii 'P')

instance (a b : Byte) : Decidable (NotGp a b) := inferInstanceAs (Decidable (¬ _))

theorem field_chain {x rest : List Byte} (hx : PlainField x) (hrest : rest.IsChain NotGp)
    (hhead : ∀ b ∈ rest.head?, b ≠ ascii 'P') : (x ++ rest).IsChain NotGp := by
  rcases hx with ⟨hlen, -⟩ | hnumeric
  · rcases x with _ | ⟨a, _ | ⟨b, x⟩⟩
    · exact hrest
    · exact List.isChain_cons.mpr ⟨fun b hb h => hhead b hb h.2, hrest⟩
    · simp at hlen
  · induction x with
    | nil => exact hrest
    | cons a x ih =>
      have ha : a ≠ ascii 'G' := by
        rintro rfl
        exact absurd (hnumeric _ List.mem_cons_self) (by decide)
      exact List.isChain_cons.mpr ⟨fun b _ h => ha h.1,
        ih fun b hb => hnumeric b (List.mem_cons_of_mem _ hb)⟩

theorem fields_head (fields : List (List Byte)) : ∀ b ∈ (fieldsText fields).head?, b ≠ ascii 'P' := by
  intro b hb
  cases fields with
  | nil => cases hb
  | cons x fields =>
    cases hb
    decide

theorem fields_chain {fields : List (List Byte)} (h : ∀ x ∈ fields, PlainField x) :
    (fieldsText fields).IsChain NotGp := by
  induction fields with
  | nil => exact .nil
  | cons x fields ih =>
    have hcomma : comma ≠ ascii 'G' := by decide
    have hrest := ih fun y hy => h y (List.mem_cons_of_mem _ hy)
    exact List.isChain_cons.mpr ⟨fun b _ hb => hcomma hb.1,
      field_chain (h x List.mem_cons_self) hrest (fields_head fields)⟩

namespace Frame.WellFormed

variable {f : Frame} (h : f.WellFormed)

include h

theorem plain : ∀ b ∈ f.body, isPlain b = true := by
  obtain ⟨head, hhead, fields, hfields, hbody⟩ := h.body
  have heads : ∀ head ∈ pheads.map Prod.fst, head.all isPlain = true := by decide
  intro b hb
  rw [hbody] at hb
  rcases List.mem_append.mp hb with hb | hb
  · exact List.all_eq_true.mp (heads head hhead) b hb
  · obtain ⟨x, hx, hb⟩ := List.mem_flatMap.mp hb
    unfold isPlain
    rcases List.mem_cons.mp hb with rfl | hb
    · decide
    · rcases hfields x hx with ⟨-, hletter⟩ | hnumeric
      · simp [hletter b hb]
      · simp [hnumeric b hb]

theorem no_cr : ∀ b ∈ f.body, b ≠ cr := fun b hb => (plain_bounds (h.plain b hb)).2

/-- The crc of the sentence is its checksum. -/
theorem crc (abi : Abi) : charToInt abi (xorAll f.body) = Int32.ofNat f.checksum :=
  (Frame.valid_iff abi fun b hb => (plain_bounds (h.plain b hb)).1).mp h.valid

/-- "GP" stands at the front of the body and nowhere else. -/
theorem chain : f.body.tail.IsChain NotGp := by
  obtain ⟨head, hhead, fields, hfields, hbody⟩ := h.body
  have heads : ∀ head ∈ pheads.map Prod.fst, head ≠ [] ∧ head.tail.IsChain NotGp := by decide
  obtain ⟨hne, hchain⟩ := heads head hhead
  rw [hbody, List.tail_append_of_ne_nil hne]
  exact hchain.append (fields_chain hfields) fun a _ b hb hgp => fields_head fields b hb hgp.2

/-- No header starts behind the first byte of the body. -/
theorem no_header {b1 b2 : List Byte} {c : Byte} (hbody : f.body = b1 ++ c :: b2)
    (ys : List Byte) : nmeaPackType (b2 ++ star :: ys) = .gpnon := by
  by_contra hne
  obtain ⟨head, hmem, zs, hzs⟩ := packType_head hne
  have heads : ∀ e ∈ pheads, e.1 = ascii 'G' :: ascii 'P' :: e.1.drop 2 := by decide
  have hhead : head = ascii 'G' :: ascii 'P' :: head.drop 2 := heads _ hmem
  rw [hhead] at hzs
  have hsuffix : b2 <:+ f.body.tail := by
    rw [hbody]
    cases b1 with
    | nil => exact List.suffix_refl _
    | cons b b1 => exact (List.suffix_cons c b2).trans (List.suffix_append b1 _)
  have hchain := h.chain.suffix hsuffix
  rcases b2 with _ | ⟨b, _ | ⟨b', b2⟩⟩
  · cases hzs
  · cases hzs
  · injection hzs with hb hzs
    injection hzs with hb' hzs
    subst hb hb'
    exact (List.isChain_cons_cons.mp hchain).1 ⟨rfl, rfl⟩

end Frame.WellFormed

/-! ## What a stream delivers -/

/-- The packets of the sentences settled in one pass, with memory for all of them. -/
def delivered (D : Type) [CDouble D] (abi : Abi) (xs : List Byte) : List (Packet D) :=
  (drain (tailScanner abi) xs).1.filterMap (piecePacket D abi)

theorem delivered_wait {xs : List Byte} (h : (tailScanner abi).cut xs = none) :
    delivered D abi xs = [] := by
  rw [delivered, drain_wait h]
  rfl

/-- A piece without a packet is passed over. -/
theorem delivered_skip {piece : List Byte} {crc : Int32} (ys : List Byte)
    (hcut : (tailScanner abi).cut (piece ++ ys) = some (piece.length, crc))
    (hnone : piecePacket D abi (piece, crc) = none) :
    delivered D abi (piece ++ ys) = delivered D abi ys := by
  rw [delivered, drain_take hcut, List.take_left, List.drop_left, List.filterMap_cons, hnone]
  rfl

theorem delivered_frames (frames : List Frame) (ys : List Byte) :
    delivered D abi (frames.flatMap Frame.bytes ++ ys) =
      (frames.map fun f => (f.bytes, f.verdict abi)).filterMap (piecePacket D abi) ++
        delivered D abi ys := by
  rw [delivered, drain_frames, List.filterMap_append]
  rfl

/-- Quiet bytes are dropped at the '$' of the next sentence, or wait for it. -/
theorem delivered_quiet {pre : List Byte} (hq : Quiet pre) (hne : pre ≠ []) (frames : List Frame) :
    delivered D abi (pre ++ frames.flatMap Frame.bytes) =
      delivered D abi (frames.flatMap Frame.bytes) := by
  cases frames with
  | nil =>
    have hwait : (tailScanner abi).cut pre = none := by
      rw [cut_eq_none, findTail_open hq]
    have hnil : (tailScanner abi).cut [] = none := cut_eq_none.mpr rfl
    rw [List.flatMap_nil, List.append_nil, delivered_wait hwait, delivered_wait hnil]
  | cons f frames =>
    have hcut : (tailScanner abi).cut (pre ++ (f :: frames).flatMap Frame.bytes) =
        some (pre.length, -1) := by
      apply cut_eq_some.mpr
      constructor
      · exact findTail_dollar hq hne _
      · exact fun h => hne (List.length_eq_zero_iff.mp h)
    exact delivered_skip _ hcut rfl

/-- A '*' whose tail is missing holds up everything behind it. -/
theorem delivered_stall {pre rest : List Byte} (hq : Quiet pre) (htail : ¬ TailAt rest) :
    delivered D abi (pre ++ star :: rest) = [] := by
  apply delivered_wait
  rw [cut_eq_none, findTail_star hq, findTailStar_wait htail]

/-- A sentence that does not start with '$' is refused by every field parser. -/
theorem parsePack_no_dollar {x : Byte} (hx : x ≠ dollar) (rest timeBuff : List Byte)
    (ptype : PackType) :
    (parsePack abi timeBuff ptype (x :: rest) : Option (Int32 × Packet D)) = none ∨
      ∃ packet : Packet D, parsePack abi timeBuff ptype (x :: rest) = some (0, packet) := by
  have hscan : ∀ format, nmeaScanf abi (x :: rest) (dollar :: format) =
      (0, ([] : List (Option (Stored D)))) := by
    intro format
    have hpercent : dollar ≠ ascii '%' := by decide
    have hhead : ¬ (x :: rest).head? = some dollar := fun h => hx (Option.some.inj h)
    unfold nmeaScanf
    rw [scanLoop_lit hpercent format rfl (List.cons_ne_nil _ _), if_neg hhead]
  have hgga : ggaFormat = dollar :: ggaFormat.tail := by decide
  have hgsa : gsaFormat = dollar :: gsaFormat.tail := by decide
  have hgsv : gsvFormat = dollar :: gsvFormat.tail := by decide
  have hrmc : rmcFormat = dollar :: rmcFormat.tail := by decide
  have hvtg : vtgFormat = dollar :: vtgFormat.tail := by decide
  have refused : ∀ {α : Type} {r : Bool × α} (pack : α → Packet D), r.1 = false →
      ∃ packet, some ((success r).1, pack (success r).2) = some (0, packet) := by
    intro α r pack h
    exact ⟨pack r.2, by rw [success, h]; rfl⟩
  cases ptype with
  | gpnon => exact .inl rfl
  | gpgga => exact .inr (refused .gga (by rw [ggaBody, hgga, hscan]; rfl))
  | gpgsa => exact .inr (refused .gsa (by rw [gsaBody, hgsa, hscan]; rfl))
  | gpgsv =>
    have hfew : (!(decide (Int32.ofNat 0 < gsvNsat 0 0 * 4 + 3) ||
        decide (Int32.ofNat 0 > 4 * 4 + 3))) = false := by decide
    have hzero : ∀ i, intAt ([] : List (Option (Stored D))) i 0 = 0 := fun _ => rfl
    have hbody : (gsvBody D abi (x :: rest)).1 = false := by
      rw [gsvBody, hgsv, hscan]
      simp only [hzero]
      exact hfew
    exact .inr (refused .gsv hbody)
  | gprmc => exact .inr (refused .rmc (by rw [rmcBody, hrmc, hscan]; rfl))
  | gpvtg =>
    have hcount : 0 ≠ 8 := by decide
    exact .inr (refused .vtg (by rw [vtgBody, hvtg, hscan]; dsimp only; rw [if_pos hcount]))

/-- So whatever its crc, it carries no packet. -/
theorem piecePacket_no_dollar {x : Byte} (hx : x ≠ dollar) (rest : List Byte) (crc : Int32) :
    piecePacket D abi (x :: rest, crc) = none := by
  unfold piecePacket sentencePacket
  split
  · rfl
  · rcases @parsePack_no_dollar D _ abi _ hx rest (List.replicate nmeaTimeParseBuf 0)
      (nmeaPackType ((x :: rest).drop 1)) with h | ⟨packet, h⟩
    · rw [h]
    · rw [h]
      rfl

/-- Nor does one whose header is not known. -/
theorem piecePacket_no_header {sentence : List Byte}
    (h : nmeaPackType (sentence.drop 1) = .gpnon) (crc : Int32) :
    piecePacket D abi (sentence, crc) = none := by
  unfold piecePacket sentencePacket
  split
  · rfl
  · rw [h]
    rfl

/-! ## One byte replaced -/

/-- A byte can be told from the xor of all. -/
theorem xorAll_cancel {b1 b2 : List Byte} {x c : Byte}
    (h : xorAll (b1 ++ x :: b2) = xorAll (b1 ++ c :: b2)) : x = c := by
  have cancel : ∀ (ys : List Byte) (a a' : Byte),
      ys.foldl (· ^^^ ·) a = ys.foldl (· ^^^ ·) a' → a = a' := by
    intro ys
    induction ys with
    | nil => exact fun a a' h => h
    | cons y ys ih => exact fun a a' h => (UInt8.xor_left_inj y).mp (ih _ _ h)
  unfold xorAll at h
  rw [List.foldl_append, List.foldl_append, List.foldl_cons, List.foldl_cons] at h
  exact (UInt8.xor_right_inj _).mp (cancel b2 _ _ h)

/-- The bytes of a frame with one byte replaced that is not a checksum digit. -/
inductive Frame.Corrupted (f : Frame) : List Byte → Prop
  | dollar (x : Byte) (h : x ≠ dollar) : f.Corrupted (x :: f.body ++ [star, f.h1, f.h2, cr, lf])
  | body (b1 b2 : List Byte) (c x : Byte) (hbody : f.body = b1 ++ c :: b2) (h : x ≠ c) :
      f.Corrupted (RttNmea.dollar :: (b1 ++ x :: b2) ++ [star, f.h1, f.h2, cr, lf])
  | star (x : Byte) (h : x ≠ star) :
      f.Corrupted (RttNmea.dollar :: f.body ++ [x, f.h1, f.h2, cr, lf])
  | cr (x : Byte) (h : x ≠ cr) :
      f.Corrupted (RttNmea.dollar :: f.body ++ [RttNmea.star, f.h1, f.h2, x, lf])
  | lf (x : Byte) (h : x ≠ lf) :
      f.Corrupted (RttNmea.dollar :: f.body ++ [RttNmea.star, f.h1, f.h2, RttNmea.cr, x])

/-- Where the tail of a sentence is looked for, there is no CR yet. -/
theorem no_tail {front : List Byte} (hfront : ∀ b ∈ front, b ≠ cr) {h1 h2 : Byte} (h1cr : h1 ≠ cr)
    (h2cr : h2 ≠ cr) (ys : List Byte) : ¬ TailAt (front ++ star :: h1 :: h2 :: ys) := by
  rintro ⟨a, b, zs, h⟩
  have hstar : star ≠ cr := by decide
  rcases front with _ | ⟨c1, _ | ⟨c2, _ | ⟨c3, front⟩⟩⟩
  · injection h with _ h
    injection h with _ h
    injection h with hc _
    exact h2cr hc
  · injection h with _ h
    injection h with _ h
    injection h with hc _
    exact h1cr hc
  · injection h with _ h
    injection h with _ h
    injection h with hc _
    exact hstar hc
  · injection h with _ h
    injection h with _ h
    injection h with hc _
    exact hfront c3 (by simp) hc

/-- Behind quiet bytes a tail with hex digits is settled, with some crc. -/
theorem cut_sentence {pre : List Byte} (hq : Quiet pre) {h1 h2 : Byte}
    (hex1 : isDigitOf 16 h1 = true) (hex2 : isDigitOf 16 h2 = true) (ys : List Byte) :
    ∃ crc, (tailScanner abi).cut (pre ++ star :: h1 :: h2 :: cr :: lf :: ys) =
      some (pre.length + 5, crc) := by
  have hcheck := @atoi_hex abi _ _ hex1 hex2
  have hnonneg : ¬ nmeaAtoi abi [h1, h2] 16 < 0 := by
    rw [hcheck]
    apply ofNat_nonneg
    have := digitVal_lt hex1
    have := digitVal_lt hex2
    omega
  by_cases hcrc : nmeaAtoi abi [h1, h2] 16 ≠ sentenceCrc abi pre
  · refine ⟨-1, cut_eq_some.mpr ⟨?_, Nat.succ_ne_zero _⟩⟩
    rw [findTail_star hq, findTailStar_tail, if_pos hcrc]
  · refine ⟨nmeaAtoi abi [h1, h2] 16, cut_eq_some.mpr ⟨?_, Nat.succ_ne_zero _⟩⟩
    rw [findTail_star hq, findTailStar_tail, if_neg hcrc, if_neg hnonneg]

theorem hex_bounds {b : Byte} (h : isDigitOf 16 b = true) : b ≠ cr ∧ b ≠ star ∧ b ≠ dollar := by
  refine ⟨?_, ?_, ?_⟩ <;> rintro rfl <;> cases h

/-- Behind the '*' there is neither '*' nor '$'. -/
theorem Frame.tail_quiet (f : Frame) :
    star ∉ [f.h1, f.h2, cr, lf] ∧ dollar ∉ [f.h1, f.h2, cr, lf] := by
  obtain ⟨-, h1star, h1dollar⟩ := hex_bounds f.hex1
  obtain ⟨-, h2star, h2dollar⟩ := hex_bounds f.hex2
  have hends : star ∉ [cr, lf] ∧ dollar ∉ [cr, lf] := by decide
  constructor
  · intro hm
    rcases List.mem_cons.mp hm with h | hm
    · exact h1star h.symm
    · rcases List.mem_cons.mp hm with h | hm
      · exact h2star h.symm
      · exact hends.1 hm
  · intro hm
    rcases List.mem_cons.mp hm with h | hm
    · exact h1dollar h.symm
    · rcases List.mem_cons.mp hm with h | hm
      · exact h2dollar h.symm
      · exact hends.2 hm

/-- **A corrupted sentence delivers nothing**, and the sentences behind it are delivered as
before or not at all. -/
theorem corrupted_delivers {f : Frame} (hf : f.WellFormed) {bytes : List Byte}
    (hbytes : f.Corrupted bytes) (frames : List Frame) :
    delivered D abi (bytes ++ frames.flatMap Frame.bytes) = [] ∨
      delivered D abi (bytes ++ frames.flatMap Frame.bytes) =
        delivered D abi (frames.flatMap Frame.bytes) := by
  have h1cr := (hex_bounds f.hex1).1
  have h2cr := (hex_bounds f.hex2).1
  have hds : dollar ≠ star := by decide
  cases hbytes with
  | dollar x hx =>
    by_cases hstar : x = star
    · -- a '*' in front
      left
      subst hstar
      have htail := no_tail hf.no_cr h1cr h2cr (cr :: lf :: frames.flatMap Frame.bytes)
      simpa using @delivered_stall D _ abi _ _ quiet_nil htail
    · -- the crc is still right, but no field parser takes it
      right
      have hquiet : Quiet (x :: f.body) := by
        refine ⟨?_, f.no_dollar⟩
        intro hm
        rcases List.mem_cons.mp hm with h | h
        · exact hstar h.symm
        · exact f.no_star h
      obtain ⟨crc, hcut⟩ := @cut_sentence abi _ hquiet _ _ f.hex1 f.hex2
        (frames.flatMap Frame.bytes)
      have hwhole : (tailScanner abi).cut (x :: f.body ++ [star, f.h1, f.h2, cr, lf] ++
          frames.flatMap Frame.bytes) =
          some ((x :: f.body ++ [star, f.h1, f.h2, cr, lf]).length, crc) := by
        simpa using hcut
      exact delivered_skip _ hwhole (piecePacket_no_dollar hx _ crc)
  | body b1 b2 c x hbody hx =>
    have hdollar1 : dollar ∉ b1 := fun h => f.no_dollar (hbody ▸ List.mem_append_left _ h)
    have hstar1 : star ∉ b1 := fun h => f.no_star (hbody ▸ List.mem_append_left _ h)
    have hdollar2 : dollar ∉ b2 := fun h =>
      f.no_dollar (hbody ▸ List.mem_append_right _ (List.mem_cons_of_mem _ h))
    have hstar2 : star ∉ b2 := fun h =>
      f.no_star (hbody ▸ List.mem_append_right _ (List.mem_cons_of_mem _ h))
    have hquiet : Quiet (dollar :: b1) := by
      refine ⟨?_, hdollar1⟩
      intro hm
      rcases List.mem_cons.mp hm with h | h
      · exact hds h.symm
      · exact hstar1 h
    by_cases hdollar : x = dollar
    · -- the parser starts again at the new '$', where no header stands
      right
      subst hdollar
      let g : Frame := { f with body := b2, no_dollar := hdollar2, no_star := hstar2 }
      have hsplit : dollar :: (b1 ++ dollar :: b2) ++ [star, f.h1, f.h2, cr, lf] ++
          frames.flatMap Frame.bytes =
          (dollar :: b1) ++ (g.bytes ++ frames.flatMap Frame.bytes) := by
        simp [g, Frame.bytes]
      have hcut : (tailScanner abi).cut ((dollar :: b1) ++ (g.bytes ++ frames.flatMap Frame.bytes)) =
          some ((dollar :: b1).length, -1) := by
        apply cut_eq_some.mpr
        constructor
        · exact findTail_dollar hquiet (List.cons_ne_nil _ _) _
        · exact Nat.succ_ne_zero _
      have hheader : nmeaPackType (g.bytes.drop 1) = .gpnon := hf.no_header hbody _
      rw [hsplit, delivered_skip _ hcut rfl,
        delivered_skip _ (g.cut _) (piecePacket_no_header hheader _)]
    · by_cases hstar : x = star
      · -- no tail behind the new '*'
        left
        subst hstar
        have hcr2 : ∀ b ∈ b2, b ≠ cr := fun b hb =>
          hf.no_cr b (hbody ▸ List.mem_append_right _ (List.mem_cons_of_mem _ hb))
        have htail := no_tail hcr2 h1cr h2cr (cr :: lf :: frames.flatMap Frame.bytes)
        simpa using @delivered_stall D _ abi _ _ hquiet htail
      · -- the crc is wrong now
        right
        let g : Frame :=
          { f with
            body := b1 ++ x :: b2
            no_dollar := by
              simp only [List.mem_append, List.mem_cons, not_or]
              exact ⟨hdollar1, Ne.symm hdollar, hdollar2⟩
            no_star := by
              simp only [List.mem_append, List.mem_cons, not_or]
              exact ⟨hstar1, Ne.symm hstar, hstar2⟩ }
        have hcrc : g.verdict abi < 0 := by
          rw [g.verdict_neg]
          intro heq
          have hxor := charToInt_injective (heq.trans (hf.crc abi).symm)
          rw [hbody] at hxor
          exact hx (xorAll_cancel hxor)
        exact delivered_skip _ (g.cut _) (if_pos hcrc)
  | star x hx =>
    right
    obtain ⟨hstar, hdollar⟩ := f.tail_quiet
    by_cases hxd : x = dollar
    · -- the parser starts again at the new '$', and at the next
      subst hxd
      have hquiet : Quiet (dollar :: [f.h1, f.h2, cr, lf]) := by
        refine ⟨?_, hdollar⟩
        intro hm
        rcases List.mem_cons.mp hm with h | h
        · exact hds h.symm
        · exact hstar h
      have hsplit : dollar :: f.body ++ [dollar, f.h1, f.h2, cr, lf] ++ frames.flatMap Frame.bytes =
          (dollar :: f.body) ++ (dollar :: [f.h1, f.h2, cr, lf] ++ frames.flatMap Frame.bytes) := by
        simp
      have hcut : (tailScanner abi).cut ((dollar :: f.body) ++
          (dollar :: [f.h1, f.h2, cr, lf] ++ frames.flatMap Frame.bytes)) =
          some ((dollar :: f.body).length, -1) := by
        apply cut_eq_some.mpr
        constructor
        · exact findTail_dollar f.quiet (List.cons_ne_nil _ _) _
        · exact Nat.succ_ne_zero _
      rw [hsplit, delivered_skip _ hcut rfl, delivered_quiet hquiet (List.cons_ne_nil _ _)]
    · have hquiet : Quiet (dollar :: f.body ++ [x, f.h1, f.h2, cr, lf]) := by
        constructor
        · intro hm
          rcases List.mem_append.mp hm with h | h
          · exact f.quiet.1 h
          · rcases List.mem_cons.mp h with h | h
            · exact hx h.symm
            · exact hstar h
        · intro hm
          rcases List.mem_append.mp hm with h | h
          · exact f.no_dollar h
          · rcases List.mem_cons.mp h with h | h
            · exact hxd h.symm
            · exact hdollar h
      exact delivered_quiet hquiet (List.cons_ne_nil _ _) frames
  | cr x hx =>
    left
    have htail : ¬ TailAt (f.h1 :: f.h2 :: x :: lf :: frames.flatMap Frame.bytes) := by
      rintro ⟨a, b, zs, h⟩
      injection h with _ h
      injection h with _ h
      injection h with hc _
      exact hx hc
    simpa using @delivered_stall D _ abi _ _ f.quiet htail
  | lf x hx =>
    left
    have htail : ¬ TailAt (f.h1 :: f.h2 :: cr :: x :: frames.flatMap Frame.bytes) := by
      rintro ⟨a, b, zs, h⟩
      injection h with _ h
      injection h with _ h
      injection h with _ h
      injection h with hl _
      exact hx hl
    simpa using @delivered_stall D _ abi _ _ f.quiet htail

/-! ## Streams -/

/-- Every position of a stream of frames lies in one of them. -/
theorem frame_at {frames : List Frame} {i : Nat} (hi : i < (frames.flatMap Frame.bytes).length) :
    ∃ before f after j, frames = before ++ f :: after ∧
      i = (before.flatMap Frame.bytes).length + j ∧ j < f.bytes.length := by
  induction frames generalizing i with
  | nil => exact absurd hi (Nat.not_lt_zero i)
  | cons f frames ih =>
    rw [List.flatMap_cons, List.length_append] at hi
    by_cases hf : i < f.bytes.length
    · exact ⟨[], f, frames, i, rfl, (Nat.zero_add i).symm, hf⟩
    · obtain ⟨before, g, after, j, rfl, hj, hlt⟩ := @ih (i - f.bytes.length) (by omega)
      refine ⟨f :: before, g, after, j, rfl, ?_, hlt⟩
      rw [List.flatMap_cons, List.length_append]
      omega

/-- Position `i` of the stream holds a checksum digit. -/
def ChecksumDigit (frames : List Frame) (i : Nat) : Prop :=
  ∃ before f after, frames = before ++ f :: after ∧
    (i = (before.flatMap Frame.bytes).length + (f.body.length + 2) ∨
      i = (before.flatMap Frame.bytes).length + (f.body.length + 3))

/-- Replacing one byte of a frame, by its position. -/
theorem Frame.corrupted_set (f : Frame) {j : Nat} (hj : j < f.bytes.length)
    (h2 : j ≠ f.body.length + 2) (h3 : j ≠ f.body.length + 3) {x : Byte}
    (hx : f.bytes[j]? ≠ some x) : f.Corrupted (f.bytes.set j x) := by
  rw [f.length_bytes] at hj
  cases j with
  | zero => exact .dollar x fun h => hx (congrArg some h.symm)
  | succ k =>
    have hbytes : f.bytes = dollar :: (f.body ++ [star, f.h1, f.h2, cr, lf]) := rfl
    rw [hbytes, List.getElem?_cons_succ] at hx
    rw [hbytes, List.set_cons_succ]
    by_cases hk : k < f.body.length
    · rw [List.getElem?_append_left hk, List.getElem?_eq_getElem hk] at hx
      rw [List.set_append_left _ _ hk, List.set_eq_take_append_cons_drop, if_pos hk]
      apply Frame.Corrupted.body
      · rw [← List.drop_eq_getElem_cons hk, List.take_append_drop]
      · exact fun h => hx (congrArg some h.symm)
    · obtain ⟨m, rfl⟩ : ∃ m, k = f.body.length + m := ⟨k - f.body.length, by omega⟩
      rw [List.getElem?_append_right (Nat.le_add_right _ _), Nat.add_sub_cancel_left] at hx
      rw [List.set_append_right _ _ (Nat.le_add_right _ _), Nat.add_sub_cancel_left]
      have hm : m = 0 ∨ m = 3 ∨ m = 4 := by omega
      rcases hm with rfl | rfl | rfl
      · exact .star x fun h => hx (congrArg some h.symm)
      · exact .cr x fun h => hx (congrArg some h.symm)
      · exact .lf x fun h => hx (congrArg some h.symm)

/-- The corrupted stream delivers some of what the intact one delivers. -/
theorem delivered_sublist {frames : List Frame} (hwell : ∀ f ∈ frames, f.WellFormed) {i : Nat}
    (hi : i < (frames.flatMap Frame.bytes).length) (hdigit : ¬ ChecksumDigit frames i) {x : Byte}
    (hx : (frames.flatMap Frame.bytes)[i]? ≠ some x) :
    (delivered D abi ((frames.flatMap Frame.bytes).set i x)).Sublist
      (delivered D abi (frames.flatMap Frame.bytes)) := by
  obtain ⟨before, f, after, j, hframes, rfl, hj⟩ := frame_at hi
  have hsplit : frames.flatMap Frame.bytes =
      before.flatMap Frame.bytes ++ (f.bytes ++ after.flatMap Frame.bytes) := by
    rw [hframes, List.flatMap_append, List.flatMap_cons]
  rw [hsplit, List.getElem?_append_right (Nat.le_add_right _ _), Nat.add_sub_cancel_left,
    List.getElem?_append_left hj] at hx
  have hcorrupted : f.Corrupted (f.bytes.set j x) := by
    apply f.corrupted_set hj
    · rintro rfl
      exact hdigit ⟨before, f, after, hframes, .inl rfl⟩
    · rintro rfl
      exact hdigit ⟨before, f, after, hframes, .inr rfl⟩
    · exact hx
  have hf : f.WellFormed := hwell f (hframes ▸ List.mem_append_right _ List.mem_cons_self)
  have hone : f.bytes ++ after.flatMap Frame.bytes = [f].flatMap Frame.bytes ++
      after.flatMap Frame.bytes := by simp
  rw [hsplit, List.set_append_right _ _ (Nat.le_add_right _ _), Nat.add_sub_cancel_left,
    List.set_append_left _ _ hj, delivered_frames, delivered_frames]
  apply List.Sublist.append_left
  rw [hone, delivered_frames]
  rcases @corrupted_delivers D _ abi f hf _ hcorrupted after with h | h
  · rw [h]
    exact List.nil_sublist _
  · rw [h]
    exact List.sublist_append_right _ _

variable {env : Env}

/-- nmea_parse on an empty buffer applies what was queued before and what the stream
delivers. -/
theorem parse_delivered (hm : env.MallocSucceeds) (hz : env.StackZeroed) (st : ParserState D)
    (hempty : st.parser.buffUse = 0) (info : Option (Info D)) {xs : List Byte}
    (hfit : xs.length ≤ st.parser.buffSize) :
    ∃ n p info' w, nmeaParse env st.parser xs info st.world = some (n, p, info', w) ∧
      w.applied.map Prod.fst = st.world.applied.map Prod.fst ++
        (st.abs.queue ++ delivered D env.abi xs) := by
  have hbytes : st.abs.bytes = [] := List.length_eq_zero_iff.mp (st.rep.use.1.trans hempty)
  obtain ⟨p, w, hrun, hrep⟩ := parse_spec env st.rep st.size_pos info xs
  obtain ⟨-, -, -, -, happlied, -⟩ :=
    parse_good hm hz (input_empty hbytes xs) (st.rep.size ▸ hfit) info
  refine ⟨_, p, _, w, hrun, ?_⟩
  rw [← hrep.logs.2.2, happlied, List.map_append, applyAll_packets, hbytes, List.nil_append,
    st.rep.logs.2.2]
  rfl

/-- **One corrupted byte forges no packet.** Well-formed sentences that fit the empty buffer,
and the same with one byte replaced that is no checksum digit: the packets applied for the
corrupted stream are some of those applied for the intact one, unaltered and in order. -/
theorem corruption_forges_nothing (hm : env.MallocSucceeds) (hz : env.StackZeroed)
    (st : ParserState D) (hempty : st.parser.buffUse = 0) (info : Option (Info D))
    {frames : List Frame} (hwell : ∀ f ∈ frames, f.WellFormed)
    (hfit : (frames.flatMap Frame.bytes).length ≤ st.parser.buffSize) {i : Nat}
    (hi : i < (frames.flatMap Frame.bytes).length) (hdigit : ¬ ChecksumDigit frames i) {x : Byte}
    (hx : (frames.flatMap Frame.bytes)[i]? ≠ some x) :
    ∃ n p info₁ w n' p' info₁' w' new new',
      nmeaParse env st.parser (frames.flatMap Frame.bytes) info st.world = some (n, p, info₁, w) ∧
      nmeaParse env st.parser ((frames.flatMap Frame.bytes).set i x) info st.world =
        some (n', p', info₁', w') ∧
      w.applied.map Prod.fst = st.world.applied.map Prod.fst ++ new ∧
      w'.applied.map Prod.fst = st.world.applied.map Prod.fst ++ new' ∧ new'.Sublist new := by
  obtain ⟨n, p, info₁, w, hrun, happlied⟩ := parse_delivered hm hz st hempty info hfit
  have hfit' : ((frames.flatMap Frame.bytes).set i x).length ≤ st.parser.buffSize := by
    rwa [List.length_set]
  obtain ⟨n', p', info₁', w', hrun', happlied'⟩ := parse_delivered hm hz st hempty info hfit'
  refine ⟨n, p, info₁, w, n', p', info₁', w', _, _, hrun, hrun', happlied, happlied', ?_⟩
  exact (delivered_sublist hwell hi hdigit hx).append_left _

theorem isDigitOf_four : isDigitOf 16 (ascii '4') = true := by decide

/-- A VTG sentence of zeros. -/
def Frame.vtgZero : Frame where
  body := cstr "GPVTG,0,T,0,M,0,N,0,K"
  h1 := ascii '4'
  h2 := ascii 'E'
  no_dollar := by decide
  no_star := by decide
  hex1 := isDigitOf_four
  hex2 := by decide

theorem gsv_vtg_wellFormed : ∀ f ∈ [Frame.gsvNone, Frame.vtgZero], f.WellFormed := by
  intro f hf
  rcases List.mem_pair.mp hf with rfl | rfl
  · exact ⟨by decide, cstr "GPGSV", by decide, [cstr "1", cstr "1", cstr "0"], by decide, by decide⟩
  · exact ⟨by decide, cstr "GPVTG", by decide, [cstr "0", cstr "T", cstr "0", cstr "M", cstr "0",
      cstr "N", cstr "0", cstr "K"], by decide, by decide⟩

/-- The '*' of a GSV sentence is lost: its bytes are dropped at the '$' of the VTG sentence behind
it, which is delivered. -/
theorem corruption_forges_nothing_star :
    let st := ParserState.zeroed
    let stream := [Frame.gsvNone, Frame.vtgZero].flatMap Frame.bytes
    ∃ n p info₁ w n' p' info₁' w' new new',
      nmeaParse (.zeroed fun _ => true) st.parser stream (some .zeroed) st.world =
        some (n, p, info₁, w) ∧
      nmeaParse (.zeroed fun _ => true) st.parser (stream.set 12 (ascii '#')) (some .zeroed)
        st.world = some (n', p', info₁', w') ∧
      w.applied.map Prod.fst = [] ++ new ∧ w'.applied.map Prod.fst = [] ++ new' ∧
      new'.Sublist new ∧ n = 2 ∧ n' = 1 := by
  intro st stream
  have hdigit : ¬ ChecksumDigit [Frame.gsvNone, Frame.vtgZero] 12 := by
    rintro ⟨before, f, after, hframes, hat⟩
    cases before with
    | nil =>
      cases hframes
      have hbody : Frame.gsvNone.body.length = 11 := rfl
      rw [List.flatMap_nil, List.length_nil, hbody] at hat
      omega
    | cons g gs =>
      obtain ⟨rfl, -⟩ := List.cons.inj hframes
      have hfirst : Frame.gsvNone.bytes.length = 17 := rfl
      rw [List.flatMap_cons, List.length_append, hfirst] at hat
      omega
  obtain ⟨n, p, info₁, w, n', p', info₁', w', new, new', hrun, hrun', hnew, hnew', hsub⟩ :=
    @corruption_forges_nothing Decimal _ (.zeroed fun _ => true) (fun _ => rfl) (fun _ => rfl) st
      (by decide +kernel) (some .zeroed) _ gsv_vtg_wellFormed (by decide +kernel) 12 (by decide)
      hdigit (ascii '#') (by decide)
  have hcounts : (nmeaParse (.zeroed fun _ => true) st.parser stream (some .zeroed) st.world).map
      Prod.fst = some 2 ∧ (nmeaParse (.zeroed fun _ => true) st.parser
        (stream.set 12 (ascii '#')) (some .zeroed) st.world).map Prod.fst = some 1 := by
    decide +kernel
  rw [hrun, hrun'] at hcounts
  exact ⟨n, p, info₁, w, n', p', info₁', w', new, new', hrun, hrun', hnew, hnew', hsub,
    Option.some.inj hcounts.1, Option.some.inj hcounts.2⟩

end RttNmea
