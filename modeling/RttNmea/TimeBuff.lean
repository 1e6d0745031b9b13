import RttNmea.Fields
import RttNmea.Operations
import RttNmea.Sentence

/-!
# The time buffer

nmea_parse_gga and nmea_parse_rmc read the time through "%s" into a buffer of 256 bytes on their
stack. nmea_scanf knows nothing of that size: it stores everything up to the next comma, or to
the end of the sentence, and a NUL. So the buffer is kept to exactly when less than 256 bytes
stand there.
-/

namespace RttNmea

open CText Framing

variable {D : Type} [CDouble D] {env : Env} {abi : Abi}

def ggaHead : List Byte := cstr "$GPGGA,"
def rmcHead : List Byte := cstr "$GPRMC,"

/-- Every byte stored through "%s", the NUL behind it included, is one of time_buff. -/
def StoresFit (args : List (Option (Stored D))) : Prop :=
  ∀ s, some (.str s) ∈ args → s.length + 1 ≤ nmeaTimeParseBuf

/-- The buffer starts with the header, and up to the next comma or its end there are more bytes
than time_buff has room for. -/
def LongTime (head buff : List Byte) : Prop :=
  ∃ rest, buff = head ++ rest ∧ nmeaTimeParseBuf ≤ (rest.takeWhile (· ≠ comma)).length

/-! ## One sentence -/

/-- Only "%s" stores a text. -/
theorem scan_no_str {items : List Item} (h : .field .str ∉ items) (buff s : List Byte) :
    some (.str s) ∉ (scanItems abi items buff : Nat × List (Option (Stored D))).2 := by
  have hstored : ∀ (k : Conv) (tok : List Byte), k ≠ .str →
      (stored abi k.letter tok : Option (Stored D)) ≠ some (.str s) := by
    intro k tok hk
    unfold stored
    split
    · exact nofun
    · cases k with
      | str => exact absurd rfl hk
      | chr => exact fun e => by cases e
      | dbl => exact fun e => by cases e
      | int => exact fun e => by cases e
  induction items generalizing buff with
  | nil => exact List.not_mem_nil
  | cons item items ih =>
    have hrest : .field .str ∉ items := fun hm => h (List.mem_cons_of_mem _ hm)
    cases item with
    | lit c =>
      rw [scanItems]
      split
      · exact ih hrest _
      · exact List.not_mem_nil
    | field k =>
      have hk : k ≠ .str := fun e => h (e ▸ List.mem_cons_self)
      rw [scanItems]
      split
      · exact List.not_mem_nil
      · intro hm
        rcases List.mem_cons.mp hm with hm | hm
        · exact hstored k _ hk hm.symm
        · exact ih hrest _ hm
    | two =>
      rw [scanItems]
      split
      · exact List.not_mem_nil
      · intro hm
        rcases List.mem_cons.mp hm with hm | hm
        · exact hstored .int _ (by decide) hm.symm
        · exact ih hrest _ hm

/-- The token of "%s" before a comma. -/
theorem take_fieldSize_str (buff : List Byte) :
    buff.take (fieldSize .str comma buff) = buff.takeWhile (· ≠ comma) := by
  have hsize : fieldSize .str comma buff = buff.idxOf comma := rfl
  rw [hsize]
  induction buff with
  | nil => rfl
  | cons b buff ih =>
    by_cases hb : b = comma
    · subst hb
      rw [List.idxOf_cons_self]
      rfl
    · rw [List.idxOf_cons_ne _ (fun e => hb e), List.take_succ_cons, ih rfl]
      simp [hb]

/-- Without the header nothing is stored. -/
theorem scan_no_head {head : List Byte} (items : List Item) {buff : List Byte}
    (h : ¬ ∃ rest, buff = head ++ rest) :
    (scanItems abi (head.map Item.lit ++ items) buff : Nat × List (Option (Stored D))) =
      (0, []) := by
  induction head generalizing buff with
  | nil => exact absurd ⟨buff, rfl⟩ h
  | cons c head ih =>
    rw [List.map_cons, List.cons_append, scanItems]
    split
    · rename_i hhead
      apply ih
      rintro ⟨rest, hrest⟩
      apply h
      exact ⟨rest, by rw [List.cons_append, ← hrest, List.cons_head?_tail hhead]⟩
    · rfl

/-- A row that starts with its header and "%s". -/
theorem storesFit_row {head : List Byte} {items : List Item} (h : .field .str ∉ items)
    (buff : List Byte) :
    StoresFit (scanItems abi (head.map Item.lit ++ .field .str :: .lit comma :: items) buff :
        Nat × List (Option (Stored D))).2 ↔ ¬ LongTime head buff := by
  by_cases hhead : ∃ rest, buff = head ++ rest
  · obtain ⟨rest, rfl⟩ := hhead
    have hlong : LongTime head (head ++ rest) ↔
        nmeaTimeParseBuf ≤ (rest.takeWhile (· ≠ comma)).length := by
      constructor
      · rintro ⟨rest', heq, hlen⟩
        rw [List.append_cancel_left heq]
        exact hlen
      · exact fun hlen => ⟨rest, rfl, hlen⟩
    rw [scan_lits, hlong, Nat.not_le]
    by_cases hrest : rest = []
    · subst hrest
      exact iff_of_true (fun s hs => absurd hs List.not_mem_nil) (by decide)
    · have hlater : .field .str ∉ .lit comma :: items := by
        intro hm
        rcases List.mem_cons.mp hm with hm | hm
        · cases hm
        · exact h hm
      have hnext : (formatOf (.lit comma :: items)).headD 0 = comma := rfl
      rw [scanItems, if_neg hrest]
      dsimp only
      rw [hnext, take_fieldSize_str]
      constructor
      · intro hfit
        by_cases htok : rest.takeWhile (· ≠ comma) = []
        · rw [htok]
          decide
        · apply hfit
          apply List.mem_cons.mpr
          left
          unfold stored
          rw [if_neg htok]
          rfl
      · intro hlen s hs
        rcases List.mem_cons.mp hs with hs | hs
        · unfold stored at hs
          split at hs
          · cases hs
          · cases hs
            exact hlen
        · exact absurd hs (scan_no_str hlater _ _)
  · rw [scan_no_head _ hhead]
    refine iff_of_true (fun s hs => absurd hs List.not_mem_nil) ?_
    rintro ⟨rest, hbuff, -⟩
    exact hhead ⟨rest, hbuff⟩

/-- What nmea_parse_gga stores. -/
theorem gga_fits (buff : List Byte) :
    StoresFit (nmeaScanf abi buff ggaFormat : Nat × List (Option (Stored D))).2 ↔
      ¬ LongTime ggaHead buff := by
  have hrow : ggaRow = ggaHead.map Item.lit ++ .field .str :: .lit comma :: (commaItems [.dbl,
    .chr, .dbl, .chr, .int, .int, .dbl, .dbl, .chr, .dbl, .chr, .dbl] ++
      [.field .int, .lit star]) := rfl
  rw [scanf_gga, hrow]
  exact storesFit_row (by decide) buff

/-- What nmea_parse_rmc stores. -/
theorem rmc_fits (buff : List Byte) :
    StoresFit (nmeaScanf abi buff rmcFormat : Nat × List (Option (Stored D))).2 ↔
      ¬ LongTime rmcHead buff := by
  have hrow : rmcRow = rmcHead.map Item.lit ++ .field .str :: .lit comma :: (commaItems [.chr,
    .dbl, .chr, .dbl, .chr, .dbl, .dbl] ++ dateItems) := rfl
  rw [scanf_rmc, hrow]
  exact storesFit_row (by decide) buff

/-- The field parser called for a sentence keeps to time_buff. -/
def SentenceFits (D : Type) [CDouble D] (abi : Abi) (sentence : List Byte) : Prop :=
  match nmeaPackType (sentence.drop 1) with
  | .gpgga => StoresFit (nmeaScanf abi sentence ggaFormat : Nat × List (Option (Stored D))).2
  | .gprmc => StoresFit (nmeaScanf abi sentence rmcFormat : Nat × List (Option (Stored D))).2
  | .gpnon | .gpgsa | .gpgsv | .gpvtg => True

/-- Neither header is followed by a long time. -/
def ShortTime (sentence : List Byte) : Prop :=
  ¬ LongTime ggaHead sentence ∧ ¬ LongTime rmcHead sentence

theorem sentenceFits_iff (sentence : List Byte) :
    SentenceFits D abi sentence ↔ ShortTime sentence := by
  have hgga : LongTime ggaHead sentence → nmeaPackType (sentence.drop 1) = .gpgga := by
    rintro ⟨rest, rfl, -⟩
    rfl
  have hrmc : LongTime rmcHead sentence → nmeaPackType (sentence.drop 1) = .gprmc := by
    rintro ⟨rest, rfl, -⟩
    rfl
  unfold SentenceFits ShortTime
  cases htype : nmeaPackType (sentence.drop 1) with
  | gpgga =>
    have hnot : ¬ LongTime rmcHead sentence := fun h => by
      have := hrmc h
      rw [htype] at this
      cases this
    dsimp only
    rw [gga_fits]
    exact ⟨fun h => ⟨h, hnot⟩, And.left⟩
  | gprmc =>
    have hnot : ¬ LongTime ggaHead sentence := fun h => by
      have := hgga h
      rw [htype] at this
      cases this
    dsimp only
    rw [rmc_fits]
    exact ⟨fun h => ⟨hnot, h⟩, And.right⟩
  | gpnon | gpgsa | gpgsv | gpvtg =>
    refine iff_of_true trivial ⟨fun h => ?_, fun h => ?_⟩
    · have := hgga h
      rw [htype] at this
      cases this
    · have := hrmc h
      rw [htype] at this
      cases this

/-! ## The sentences handed to a field parser -/

/-- The two blocks of a sentence of this type are there, after `k` calls of rt_malloc: the node,
and the pack that the field parser is to fill. A sentence of no known type has no pack. -/
def packThere (env : Env) (k : Nat) (sentence : List Byte) : Bool :=
  nmeaPackType (sentence.drop 1) ≠ .gpnon && env.mallocOk k && env.mallocOk (k + 1)

/-- The sentences the parse loop of nmea_parser_real_push hands to a field parser: all of a known
type and with a right crc for which rt_malloc gave a node and a pack. It goes on where `pushLoop`
does. -/
def loopHands (env : Env) (b : Addr) : Nat → Nat → Parser → World D → List (List Byte)
  | 0, _, _, _ => []
  | fuel + 1, nparsed, p, w =>
    match w.loadBytes b with
    | none => []
    | some mem =>
      let rest := (mem.take p.buffUse).drop nparsed
      let (senSz, crc) := nmeaFindTail env.abi rest
      if senSz = 0 then []
      else if 0 ≤ crc then
        let pos : Int := w.stream.length - p.buffUse + nparsed
        let later := match queueSentence env pos (nmeaPackType (rest.drop 1)) (rest.take senSz) p w with
          | some (true, p, w) => loopHands env b fuel (nparsed + senSz) p w
          | _ => []
        if packThere env w.mallocs (rest.take senSz) then rest.take senSz :: later else later
      else loopHands env b fuel (nparsed + senSz) p w

/-- The sentences nmea_parser_real_push hands to a field parser. -/
def pushHands (env : Env) (p : Parser) (buff : List Byte) (w : World D) : List (List Byte) :=
  (do
    let b ← p.buffer
    let p := if p.buffUse + buff.length ≥ p.buffSize then nmeaParserBuffClear p else p
    let mem ← w.loadBytes b
    let mem ← copyTo mem p.buffUse buff
    let w ← w.store b (.bytes mem)
    let p := { p with buffUse := p.buffUse + buff.length }
    return loopHands env b (p.buffUse + 1) 0 p { w with stream := w.stream ++ buff }).getD []

/-- Those of a row of pieces, met after `k` calls of rt_malloc. -/
def handed (D : Type) [CDouble D] (env : Env) (k : Nat) : List (List Byte × Int32) → List (List Byte)
  | [] => []
  | (sentence, crc) :: pieces =>
    if crc < 0 then handed D env k pieces
    else
      let later := match (outcome env k sentence : Outcome D) with
        | .memFail => []
        | _ => handed D env (k + mallocCalls env k sentence) pieces
      if packThere env k sentence then sentence :: later else later

/-- **The parse loop hands on the settled sentences.** -/
theorem loopHands_spec (env : Env) {b : Addr} {mem : List Byte} (unread : List Byte)
    {fuel nparsed : Nat} {p : Parser} {w : World D} {cells : List (Cell D)} {spare : List Addr}
    (hh : Holds p w.heap b mem cells spare) (hn : nparsed ≤ p.buffUse)
    (hunread : unread = (mem.take p.buffUse).drop nparsed) (hfuel : unread.length < fuel) :
    loopHands env b fuel nparsed p w =
      handed D env w.mallocs (drain (tailScanner env.abi) unread).1 := by
  have hload : w.loadBytes b = some mem := by simp [World.loadBytes, hh.bytes]
  induction unread using drain_induction (S := tailScanner env.abi)
    generalizing fuel nparsed p w cells spare with
  | wait xs hcut =>
    obtain ⟨fuel, rfl⟩ : ∃ f, fuel = f + 1 := ⟨fuel - 1, by omega⟩
    rw [drain_wait hcut]
    simp only [loopHands, hload, ← hunread, cut_eq_none.mp hcut, ↓reduceIte, handed]
  | take xs n crc hcut ih =>
    obtain ⟨fuel, rfl⟩ : ∃ f, fuel = f + 1 := ⟨fuel - 1, by omega⟩
    obtain ⟨hfind, hn0⟩ := cut_eq_some.mp hcut
    have hle := (tailScanner env.abi).le hcut
    have hxlen : xs.length ≤ p.buffUse - nparsed := by
      rw [hunread, List.length_drop, List.length_take]
      omega
    have hnext : xs.drop n = (mem.take p.buffUse).drop (nparsed + n) := by
      rw [hunread, List.drop_drop]
    have hshort : (xs.drop n).length < fuel := by
      rw [List.length_drop]
      omega
    rw [drain_take hcut]
    simp only [loopHands, hload, ← hunread, hfind, hn0, ↓reduceIte, handed]
    by_cases hcrc : crc < 0
    · rw [if_neg (Int32.not_le.mpr hcrc), if_pos hcrc]
      exact ih hh (by omega) hnext hshort hload
    · rw [if_pos (Int32.not_lt.mp hcrc), if_neg hcrc,
        packType_sentence hfind hn0 (Int32.not_lt.mp hcrc)]
      let pos : Int := (w.stream.length : Int) - p.buffUse + nparsed
      have hlater : (match queueSentence env pos (nmeaPackType ((xs.take n).drop 1)) (xs.take n) p w with
            | some (true, p, w) => loopHands env b fuel (nparsed + n) p w
            | _ => []) =
          match (outcome env w.mallocs (xs.take n) : Outcome D) with
            | .memFail => []
            | _ => handed D env (w.mallocs + mallocCalls env w.mallocs (xs.take n))
                (drain (tailScanner env.abi) (xs.drop n)).1 := by
        cases ho : (outcome env w.mallocs (xs.take n) : Outcome D) with
        | memFail =>
          obtain ⟨heap, hq, -⟩ := queueSentence_memFail pos hh ho
          rw [hq]
        | ignored =>
          obtain ⟨heap, hq, hh'⟩ := queueSentence_ignored pos hh ho
          rw [hq]
          exact ih (w := { w with
            heap := heap, mallocs := w.mallocs + mallocCalls env w.mallocs (xs.take n) })
            hh' (by omega) hnext hshort (by simp [World.loadBytes, hh'.bytes])
        | rejected =>
          obtain ⟨heap, pack, hq, hh'⟩ := queueSentence_rejected pos hh ho
          rw [hq]
          exact ih (w := { w with
            heap := heap, mallocs := w.mallocs + mallocCalls env w.mallocs (xs.take n) })
            hh' (by omega) hnext hshort (by simp [World.loadBytes, hh'.bytes])
        | accepted packet =>
          obtain ⟨heap, p₁, c, hq, hh', -, huse, -⟩ := queueSentence_accepted pos hh ho
          rw [hq]
          exact ih (p := p₁) (w := { w with
            heap := heap
            mallocs := w.mallocs + mallocCalls env w.mallocs (xs.take n)
            queued := w.queued ++ [(pos, packet)] })
            hh' (by omega) (huse ▸ hnext) hshort (by simp [World.loadBytes, hh'.bytes])
      exact congrArg (fun later =>
        if packThere env w.mallocs (xs.take n) then xs.take n :: later else later) hlater

/-- **A push hands on the sentences with a right crc among the pieces it settles.** -/
theorem pushHands_spec (env : Env) {p : Parser} {w : World D} {s : AbsParser D} (h : Rep p w s)
    {buff : List Byte} (hbuff : buff.length ≤ s.size) :
    pushHands env p buff w = handed D env w.mallocs (pushPieces env p w buff) := by
  rw [pushPieces_eq h]
  obtain ⟨b, mem, cells, rest, hh, rfl⟩ := h
  obtain ⟨use, mem₁, heap₁, hclear, -, hload, hcopy, hstore, hh₁, hseen⟩ := push_written hh hbuff
  have hshort : ((forget p w mem cells rest).input buff).length < use + buff.length + 1 := by
    rw [← hseen, List.length_take]
    omega
  have hspec := loopHands_spec env (w := { w with heap := heap₁, stream := w.stream ++ buff })
    ((forget p w mem cells rest).input buff) hh₁ (Nat.zero_le _) hseen.symm hshort
  simp only [pushHands, hh.buffer, hclear, hload, hcopy, World.store, hstore,
    Option.bind_eq_bind, Option.bind_some, Option.map_some, Option.pure_def, Option.getD_some]
  rw [hh.buffer] at hspec
  exact hspec

/-! ## Runs -/

/-- Two conditions that agree wherever a push can start agree over a row of pushes. -/
theorem eachPush_congr {ok ok' : Parser → World D → List Byte → Prop}
    (hsame : ∀ {p w s c}, Rep p w s → c.length ≤ s.size → (ok p w c ↔ ok' p w c))
    {p : Parser} {w : World D} {s : AbsParser D} (h : Rep p w s) {slices : List (List Byte)}
    (hfit : ∀ c ∈ slices, c.length ≤ s.size) :
    EachPush env ok p w slices ↔ EachPush env ok' p w slices := by
  induction slices generalizing p w s with
  | nil => exact Iff.rfl
  | cons c cs ih =>
    have hc := hfit c List.mem_cons_self
    obtain ⟨p₁, w₁, hrun, h₁⟩ := realPush_spec env h hc
    rw [eachPush_cons hrun, eachPush_cons hrun, hsame h hc,
      ih h₁ fun d hd => hfit d (List.mem_cons_of_mem _ hd)]

/-- The same over a run of nmea_parse. -/
theorem everyPush_congr {ok ok' : Parser → World D → List Byte → Prop}
    (hsame : ∀ {p w s c}, Rep p w s → c.length ≤ s.size → (ok p w c ↔ ok' p w c))
    {p : Parser} {w : World D} {s : AbsParser D} (h : Rep p w s) (hpos : 0 < s.size)
    (info : Option (Info D)) (chunks : List (List Byte)) :
    EveryPush env ok p info w chunks ↔ EveryPush env ok' p info w chunks := by
  induction chunks generalizing p w s info with
  | nil => exact Iff.rfl
  | cons c cs ih =>
    obtain ⟨p₁, w₁, hrun, h₁⟩ := parse_spec env h hpos info c
    rw [everyPush_cons hrun, everyPush_cons hrun,
      eachPush_congr hsame h (h.size ▸ slices_fit hpos c),
      ih h₁ (by rw [parse_size]; exact hpos)]

/-- Every field parser this push calls keeps to time_buff. -/
def PushStoresFit (D : Type) [CDouble D] (env : Env) (p : Parser) (w : World D) (c : List Byte) :
    Prop :=
  ∀ sentence ∈ pushHands env p c w, SentenceFits D env.abi sentence

/-- No sentence this push settles and hands on has a long time. -/
def PushShort (D : Type) [CDouble D] (env : Env) (p : Parser) (w : World D) (c : List Byte) :
    Prop :=
  ∀ sentence ∈ handed D env w.mallocs (pushPieces env p w c), ShortTime sentence

/-- **time_buff is kept to exactly as long as no time is long**: by the two field parsers on any
buffer, and by every push of any run of nmea_parse. -/
theorem timeBuff_kept_iff (st : ParserState D) (info : Option (Info D)) (chunks : List (List Byte))
    (buff : List Byte) :
    (StoresFit (nmeaScanf env.abi buff ggaFormat : Nat × List (Option (Stored D))).2 ↔
        ¬ LongTime ggaHead buff) ∧
      (StoresFit (nmeaScanf env.abi buff rmcFormat : Nat × List (Option (Stored D))).2 ↔
        ¬ LongTime rmcHead buff) ∧
      (EveryPush env (PushStoresFit D env) st.parser info st.world chunks ↔
        EveryPush env (PushShort D env) st.parser info st.world chunks) := by
  refine ⟨gga_fits buff, rmc_fits buff, ?_⟩
  apply everyPush_congr _ st.rep st.size_pos
  intro p w s c h hc
  unfold PushStoresFit PushShort
  rw [pushHands_spec env h hc]
  simp only [sentenceFits_iff]

theorem isDigitOf_seven : isDigitOf 16 (ascii '7') = true := by decide

/-- A GGA sentence with a right checksum whose first field has 256 digits. -/
def ggaLong : Frame where
  body := cstr "GPGGA," ++ List.replicate 256 (ascii '1')
  h1 := ascii '7'
  h2 := ascii 'A'
  no_dollar := by decide +kernel
  no_star := by decide +kernel
  hex1 := isDigitOf_seven
  hex2 := by decide

omit [CDouble D] in
theorem input_of_empty {s : AbsParser D} (h : s.bytes = []) (c : List Byte) : s.input c = c := by
  unfold AbsParser.input
  rw [h, ite_self, List.nil_append]

/-- A frame with a right checksum, given to an empty parser at once, is handed on. -/
theorem pushHands_frame (st : ParserState D) (hempty : st.abs.bytes = []) (f : Frame)
    (hcrc : ¬ f.verdict env.abi < 0) (hk : packThere env st.world.mallocs f.bytes = true)
    (hfits : f.bytes.length ≤ st.abs.size) :
    f.bytes ∈ pushHands env st.parser f.bytes st.world := by
  have hframes := drain_frames env.abi [f] []
  rw [List.flatMap_singleton, List.append_nil, List.map_singleton] at hframes
  rw [pushHands_spec env st.rep hfits, pushPieces_eq st.rep, AbsParser.settled,
    input_of_empty hempty, hframes, List.singleton_append, handed, if_neg hcrc, hk]
  exact List.mem_cons_self

/-- It fits the byte buffer, is handed on, and runs over time_buff. -/
theorem timeBuff_overrun :
    ggaLong.bytes.length ≤ nmeaDefParseBuff ∧
      ¬ EveryPush (.zeroed fun _ => true) (PushStoresFit Decimal (.zeroed fun _ => true))
        ParserState.zeroed.parser (some .zeroed) ParserState.zeroed.world [ggaLong.bytes] := by
  have hsize : ggaLong.bytes.length = 268 := by decide +kernel
  have hfits : ggaLong.bytes.length ≤ ParserState.zeroed.parser.buffSize := by
    rw [hsize]
    decide
  have hcrc : ¬ ggaLong.verdict (Env.zeroed fun _ => true).abi < 0 := by decide +kernel
  have hlong : LongTime ggaHead ggaLong.bytes := by
    refine ⟨List.replicate 256 (ascii '1') ++ [star, ascii '7', ascii 'A', cr, lf], ?_, ?_⟩
    · decide +kernel
    · decide +kernel
  have hpack : packThere (.zeroed fun _ => true) 0 ggaLong.bytes = true := by decide +kernel
  have hhanded := @pushHands_frame Decimal _ (.zeroed fun _ => true) .zeroed rfl ggaLong hcrc
    hpack hfits
  refine ⟨by rw [hsize]; decide, ?_⟩
  generalize ggaLong.bytes = c at *
  rintro ⟨hpush, -⟩
  have hshort := (sentenceFits_iff c).mp ((eachPush_small hfits).mp hpush c hhanded)
  exact hshort.1 hlong

end RttNmea
