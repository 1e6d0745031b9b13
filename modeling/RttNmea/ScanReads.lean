import RttNmea.Fields
import RttNmea.Lib.Memory

/-!
# nmea_scanf in memory

`nmeaScanfAt` is nmea_scanf with its pointers: `buff` moves through a memory, every byte is
read where it lies, and each argument taken by va_arg may be null. Reading a byte that is not
there is a fault. `Scanf` has the same function on the bytes still unread.
-/

namespace RttNmea

open CText

variable {D : Type} [CDouble D]

/-- The locals of nmea_scanf. `toks` is no local: it lists the tokens counted so far, where each
begins and how long it is. -/
structure ScanRegs (D : Type) where
  buff : Int
  tokType : Toks := .compare
  width : Int32 := 0
  begFmt : List Byte := []
  tokCount : Nat := 0
  args : List (Option (Stored D)) := []
  toks : List (Int × Int) := []

/-- What a call of nmea_scanf is given: the platform, the memory, end_buf, and which of the
pointers after the format are not null. -/
structure ScanCall where
  abi : Abi
  mem : Memory Byte
  endBuf : Int
  target : Nat → Bool

/-- A size as rt_memcpy takes it, unsigned. -/
def ScanCall.size (call : ScanCall) (n : Int32) : Nat := (n.toInt % 2 ^ call.abi.longBits).toNat

/-- nmea_atoi on a text in memory. -/
def ScanCall.nmeaAtoi (call : ScanCall) (str : Int) (strSz : Int32) (radix : Nat) : Option Int32 :=
  if strSz < 256 then do
    let buff ← call.mem.read str (call.size strSz)
    return Int32.ofInt (strtol call.abi radix buff)
  else some 0

/-- nmea_atof on a text in memory. -/
def ScanCall.nmeaAtof (call : ScanCall) (str : Int) (strSz : Int32) : Option D :=
  if strSz < 256 then do
    let buff ← call.mem.read str (call.size strSz)
    return CDouble.strtod (text buff)
  else some CDouble.zero

/-- What the first switch on the type stores: a character, a string or a fraction. -/
def ScanCall.loadText (call : ScanCall) (type : Byte) (begTok : Int) (width : Int32) :
    Option (Stored D) :=
  if type = ascii 'c' ∨ type = ascii 'C' then (call.mem begTok).map .chr
  else if type = ascii 's' ∨ type = ascii 'S' then
    (call.mem.read begTok (call.size width)).map .str
  else (call.nmeaAtof begTok width).map .dbl

/-- The types of the first switch. -/
def textType (type : Byte) : Bool := type ∈ cstr "cCsSfgGeE"

/-- The second switch: the radix of a number, if the type is one. -/
def radixOf (type : Byte) : Option Nat :=
  if type = ascii 'd' ∨ type = ascii 'i' ∨ type = ascii 'u' then some 10
  else if type = ascii 'x' ∨ type = ascii 'X' then some 16
  else if type = ascii 'o' then some 8
  else none

/-- From the second va_arg on, where an `int` is stored. `false` is `goto fail`. -/
def ScanCall.storeInt (call : ScanCall) (type : Byte) (begTok : Int) (r : ScanRegs D) :
    Option (Bool × ScanRegs D) :=
  let untouched := { r with args := r.args ++ [none] }
  if call.target r.args.length = false ∨ r.width = 0 then some (true, untouched)
  else
    match radixOf type with
    | none => some (false, untouched)
    | some radix => do
      let n ← call.nmeaAtoi begTok r.width radix
      return (true, { r with args := r.args ++ [some (.int n)] })

/-- From the count on: the token runs from beg_tok to buff. -/
def ScanCall.storeToken (call : ScanCall) (type : Byte) (begTok : Int) (r : ScanRegs D) :
    Option (Bool × ScanRegs D) :=
  if call.endBuf < r.buff then some (false, r)
  else
    let r := { r with
      tokType := .compare
      tokCount := r.tokCount + 1
      width := Int32.ofInt (r.buff - begTok)
      toks := r.toks ++ [(begTok, r.buff - begTok)] }
    if textType type then do
      let value ←
        if r.width ≠ 0 ∧ call.target r.args.length = true then
          (call.loadText type begTok r.width).map some
        else some none
      let stored := { r with args := r.args ++ [value] }
      -- a null pointer falls through to the second va_arg
      if call.target r.args.length then return (true, stored)
      else call.storeInt type begTok stored
    else call.storeInt type begTok r

/-- The width, 1 for a %c that has none and is not in front of `next` = format[1]. -/
def ScanCall.tokenWidth (call : ScanCall) (type next : Byte) (r : ScanRegs D) : Option Int32 :=
  if r.width = 0 ∧ (type = ascii 'c' ∨ type = ascii 'C') then
    (call.mem r.buff).map fun b => if b ≠ next then 1 else r.width
  else some r.width

/-- case NMEA_TOKS_TYPE. -/
def ScanCall.scanType (call : ScanCall) (type next : Byte) (r : ScanRegs D) :
    Option (Bool × ScanRegs D) := do
  let begTok := r.buff
  let width ← call.tokenWidth type next r
  if width ≠ 0 then
    if r.buff + width.toInt ≤ call.endBuf then
      call.storeToken type begTok { r with width := width, buff := r.buff + width.toInt }
    else return (false, { r with width := width })
  else if next = 0 then
    call.storeToken type begTok { r with width := width, buff := call.endBuf }
  else
    let found ← call.mem.find next r.buff (call.endBuf - r.buff).toNat
    call.storeToken type begTok { r with width := width, buff := found.getD call.endBuf }

/-- case NMEA_TOKS_WIDTH. The width is read from the format, not from the buffer. -/
def ScanCall.scanWidth (call : ScanCall) (c next : Byte) (r : ScanRegs D) :
    Option (Bool × ScanRegs D) :=
  if isDigit c then some (true, { r with begFmt := r.begFmt ++ [c] })
  else if r.begFmt = [] then call.scanType c next { r with tokType := .type }
  else call.scanType c next
    { r with tokType := .type, width := RttNmea.nmeaAtoi call.abi r.begFmt 10 }

/-- One turn of the loop. -/
def ScanCall.scanStep (call : ScanCall) (c next : Byte) (r : ScanRegs D) :
    Option (Bool × ScanRegs D) :=
  match r.tokType with
  | .compare =>
    if c = ascii '%' then some (true, { r with tokType := .percent })
    else do
      let b ← call.mem r.buff
      return (b = c, { r with buff := r.buff + 1 })
  | .percent => call.scanWidth c next { r with width := 0, begFmt := [], tokType := .width }
  | .width => call.scanWidth c next r
  | .type => call.scanType c next r

/-- for (; *format && buff < end_buf; ++format). -/
def ScanCall.scanLoop (call : ScanCall) : List Byte → ScanRegs D → Option (ScanRegs D)
  | [], r => some r
  | c :: format, r =>
    if call.endBuf ≤ r.buff then some r
    else do
      let (more, r) ← call.scanStep c (format.headD 0) r
      if more then call.scanLoop format r else return r

/-- nmea_scanf on the `buffSz` bytes at `buff`, with its locals as it returns. -/
def nmeaScanfAt (abi : Abi) (mem : Memory Byte) (buff : Int) (buffSz : Nat) (format : List Byte)
    (target : Nat → Bool) : Option (ScanRegs D) :=
  ScanCall.scanLoop ⟨abi, mem, buff + buffSz, target⟩ format { buff }

/-! ## Formats -/

/-- %[width]type. -/
structure Specifier where
  width : List Byte
  type : Byte
  digits : ∀ b ∈ width, isDigit b = true
  small : leadingNat 10 width < 2 ^ 16
  known : type ∈ cstr "csfdiuxo"

/-- What a format is made of: a character to match, other than '%', or a specifier. -/
inductive Directive
  | lit (c : Byte) (plain : c ≠ ascii '%' ∧ c ≠ 0)
  | spec (s : Specifier)

def Directive.text : Directive → List Byte
  | .lit c _ => [c]
  | .spec s => ascii '%' :: (s.width ++ [s.type])

/-- The format string, without its NUL. -/
def formatText (ds : List Directive) : List Byte := ds.flatMap Directive.text

/-- How many specifiers there are. -/
def specifiers (ds : List Directive) : Nat :=
  ds.countP fun | .lit _ _ => false | .spec _ => true

/-- The width a specifier is scanned with: nmea_atoi gives up on 256 digits. -/
def Specifier.size (s : Specifier) : Nat :=
  if s.width.length < nmeaConvStrBuf then leadingNat 10 s.width else 0

/-- How many bytes a directive takes off the front of a nonempty `buff`. -/
def Directive.takes (next : Byte) (buff : List Byte) : Directive → Option Nat
  | .lit c _ => if buff.head? = some c then some 1 else none
  | .spec s => tokenSize s.type next s.size buff

/-- The pieces of the buffer that the directives match, one each, as far as they get. -/
def pieces : List Directive → List Byte → List (List Byte)
  | [], _ => []
  | d :: ds, buff =>
    if buff = [] then []
    else
      match d.takes ((formatText ds).headD 0) buff with
      | none => []
      | some n => buff.take n :: pieces ds (buff.drop n)

/-- The pieces that are tokens: where each begins, with the first piece at `a`, and its length. -/
def tokensAt (a : Int) : List Directive → List (List Byte) → List (Int × Int)
  | .lit _ _ :: ds, p :: ps => tokensAt (a + p.length) ds ps
  | .spec _ :: ds, p :: ps => (a, p.length) :: tokensAt (a + p.length) ds ps
  | _, _ => []

/-- What the tokens store. -/
def valuesOf (abi : Abi) : List Directive → List (List Byte) → List (Option (Stored D))
  | .lit _ _ :: ds, _ :: ps => valuesOf abi ds ps
  | .spec s :: ds, p :: ps => stored abi s.type p :: valuesOf abi ds ps
  | _, _ => []

/-- A character matches itself, a specifier with a width that many bytes. -/
def Directive.Matches (piece : List Byte) : Directive → Prop
  | .lit c _ => piece = [c]
  | .spec s => s.size ≠ 0 → piece.length = s.size

section Pieces

theorem tokenSize_le {type next : Byte} {width n : Nat} {buff : List Byte}
    (h : tokenSize type next width buff = some n) : n ≤ buff.length := by
  unfold tokenSize at h
  dsimp only at h
  generalize (if width = 0 ∧ (type = ascii 'c' ∨ type = ascii 'C') ∧ buff.headD 0 ≠ next then 1
    else width) = w at h
  by_cases hw : w ≠ 0
  · rw [if_pos hw] at h
    obtain ⟨hle, hn⟩ := Option.ite_none_right_eq_some.mp h
    exact Option.some.inj hn ▸ hle
  · rw [if_neg hw] at h
    by_cases hnext : next = 0
    · rw [if_pos hnext] at h
      exact (Option.some.inj h).ge
    · rw [if_neg hnext] at h
      exact Option.some.inj h ▸ List.idxOf_le_length

theorem tokenSize_width {type next : Byte} {width n : Nat} {buff : List Byte} (hw : width ≠ 0)
    (h : tokenSize type next width buff = some n) : n = width := by
  have hwide : ¬ (width = 0 ∧ (type = ascii 'c' ∨ type = ascii 'C') ∧ buff.headD 0 ≠ next) :=
    fun hc => hw hc.1
  unfold tokenSize at h
  simp only [if_neg hwide, if_pos hw] at h
  obtain ⟨-, hn⟩ := Option.ite_none_right_eq_some.mp h
  exact (Option.some.inj hn).symm

theorem takes_lit {c next : Byte} {plain : c ≠ ascii '%' ∧ c ≠ 0} {n : Nat} {buff : List Byte} :
    (Directive.lit c plain).takes next buff = some n ↔ buff.head? = some c ∧ n = 1 := by
  simp [Directive.takes, eq_comm]

theorem takes_le {d : Directive} {next : Byte} {n : Nat} {buff : List Byte}
    (h : d.takes next buff = some n) : n ≤ buff.length := by
  cases d with
  | lit c plain =>
    obtain ⟨hhead, rfl⟩ := takes_lit.mp h
    obtain ⟨tail, rfl⟩ := List.head?_eq_some_iff.mp hhead
    exact Nat.succ_le_succ (Nat.zero_le _)
  | spec s => exact tokenSize_le h

theorem takes_matches {d : Directive} {next : Byte} {n : Nat} {buff : List Byte}
    (h : d.takes next buff = some n) : d.Matches (buff.take n) := by
  have hle := takes_le h
  cases d with
  | lit c plain =>
    obtain ⟨hhead, rfl⟩ := takes_lit.mp h
    obtain ⟨tail, rfl⟩ := List.head?_eq_some_iff.mp hhead
    rfl
  | spec s =>
    intro hwidth
    rw [List.length_take, Nat.min_eq_left hle]
    exact tokenSize_width hwidth h

/-- The pieces lie side by side from the front of the buffer on, one for each directive that is
reached. -/
theorem pieces_spec (ds : List Directive) (buff : List Byte) :
    (pieces ds buff).flatten <+: buff ∧
      List.Forall₂ (fun d piece => d.Matches piece) (ds.take (pieces ds buff).length)
        (pieces ds buff) := by
  induction ds generalizing buff with
  | nil => exact ⟨List.nil_prefix, .nil⟩
  | cons d ds ih =>
    unfold pieces
    split
    · exact ⟨List.nil_prefix, .nil⟩
    · split
      · exact ⟨List.nil_prefix, .nil⟩
      · rename_i n hn
        obtain ⟨hfront, hmatch⟩ := ih (buff.drop n)
        constructor
        · have hwhole := List.take_append_drop n buff
          rw [List.flatten_cons]
          nth_rewrite 3 [← hwhole]
          exact (List.prefix_append_right_inj _).mpr hfront
        · rw [List.length_cons, List.take_succ_cons]
          exact .cons (takes_matches hn) hmatch

theorem tokens_values (abi : Abi) (a : Int) (ds : List Directive) (ps : List (List Byte)) :
    (tokensAt a ds ps).length = (valuesOf abi ds ps : List (Option (Stored D))).length ∧
      (tokensAt a ds ps).length ≤ specifiers ds := by
  induction ds generalizing a ps with
  | nil => exact ⟨rfl, Nat.le_refl _⟩
  | cons d ds ih =>
    cases ps with
    | nil => cases d <;> exact ⟨rfl, Nat.zero_le _⟩
    | cons p ps =>
      obtain ⟨hlen, hle⟩ := ih (a + p.length) ps
      cases d with
      | lit c plain => exact ⟨hlen, hle⟩
      | spec s =>
        have hcount : specifiers (.spec s :: ds) = specifiers ds + 1 := List.countP_cons_of_pos rfl
        rw [hcount]
        exact ⟨congrArg Nat.succ hlen, Nat.succ_le_succ hle⟩

end Pieces

/-! ## A call on a buffer of its own -/

/-- The memory holds the buffer and nothing else, and no pointer is null. -/
structure ScanCall.On (call : ScanCall) (base : Int) (bytes : List Byte) : Prop where
  mem : call.mem = .region base bytes
  endBuf : call.endBuf = base + bytes.length
  target : ∀ k, call.target k = true
  size : bytes.length < 2 ^ 31

section Call

variable {call : ScanCall} {base : Int} {bytes : List Byte} {type next : Byte} {k n : Nat}
  {r : ScanRegs D}

theorem toInt_length (h : n < 2 ^ 31) : (Int32.ofInt n).toInt = n := by
  rw [Int32.toInt_ofInt]
  have hwords : Int32.size = 2 ^ 32 := rfl
  rw [hwords]
  exact Int.bmod_eq_of_le (by omega) (by omega)

theorem ofInt_length_ne (h : n < 2 ^ 31) : Int32.ofInt n ≠ 0 ↔ n ≠ 0 := by
  rw [ne_eq, ← Int32.toInt_inj, toInt_length h]
  have hzero : (0 : Int32).toInt = 0 := by decide
  rw [hzero]
  omega

/-- The size of a token is not changed on its way to rt_memcpy. -/
theorem ScanCall.size_length (call : ScanCall) (h : n < 2 ^ 31) :
    call.size (Int32.ofInt n) = n := by
  have hbits := call.abi.longBits_ge
  have hpow : (2 : Int) ^ 32 ≤ 2 ^ call.abi.longBits := pow_le_pow_right₀ (by omega) hbits
  rw [ScanCall.size, toInt_length h, Int.emod_eq_of_lt (by omega) (by omega)]
  exact Int.toNat_natCast n

theorem convBuf_length (h : n < 2 ^ 31) : Int32.ofInt n < 256 ↔ n < nmeaConvStrBuf := by
  have hbuf : (256 : Int32).toInt = 256 := by decide
  rw [Int32.lt_iff_toInt_lt, toInt_length h, hbuf, nmeaConvStrBuf]
  omega

omit [CDouble D] in
theorem length_piece (h : k + n ≤ bytes.length) : ((bytes.drop k).take n).length = n := by
  rw [List.length_take, List.length_drop]
  omega

namespace ScanCall.On

variable (on : call.On base bytes)

include on

omit [CDouble D] in
theorem fits (h : k + n ≤ bytes.length) : n < 2 ^ 31 := by
  have hsize := on.size
  omega

theorem read (h : k + n ≤ bytes.length) :
    call.mem.read (base + k) n = some ((bytes.drop k).take n) := by
  rw [on.mem]
  exact Memory.read_part Memory.read_region h

theorem byte (hk : k < bytes.length) : call.mem (base + k) = some ((bytes.drop k).headD 0) := by
  rw [on.mem, Memory.region_at, List.drop_eq_getElem_cons hk, List.getElem?_eq_getElem hk]
  rfl

theorem nmeaAtoi (h : k + n ≤ bytes.length) (radix : Nat) :
    call.nmeaAtoi (base + k) (Int32.ofInt n) radix =
      some (RttNmea.nmeaAtoi call.abi ((bytes.drop k).take n) radix) := by
  have hn := on.fits h
  unfold ScanCall.nmeaAtoi RttNmea.nmeaAtoi
  rw [length_piece h, call.size_length hn, on.read h]
  by_cases hfits : n < nmeaConvStrBuf
  · rw [if_pos ((convBuf_length hn).mpr hfits), if_pos hfits]
    rfl
  · rw [if_neg (mt (convBuf_length hn).mp hfits), if_neg hfits]

theorem nmeaAtof (h : k + n ≤ bytes.length) :
    call.nmeaAtof (base + k) (Int32.ofInt n) =
      some (RttNmea.nmeaAtof ((bytes.drop k).take n) : D) := by
  have hn := on.fits h
  unfold ScanCall.nmeaAtof RttNmea.nmeaAtof
  rw [length_piece h, call.size_length hn, on.read h]
  by_cases hfits : n < nmeaConvStrBuf
  · rw [if_pos ((convBuf_length hn).mpr hfits), if_pos hfits]
    rfl
  · rw [if_neg (mt (convBuf_length hn).mp hfits), if_neg hfits]

end ScanCall.On

/-- What a specifier may store, by its type. -/
theorem known_cases (h : type ∈ cstr "csfdiuxo") :
    type = ascii 'c' ∨ type = ascii 's' ∨ type = ascii 'f' ∨
      textType type = false ∧ ∃ radix, radixOf type = some radix ∧
        ∀ (abi : Abi) (tok : List Byte),
          convert abi type tok = some (.int (RttNmea.nmeaAtoi abi tok radix) : Stored D) := by
  have hlist : cstr "csfdiuxo" = [ascii 'c', ascii 's', ascii 'f', ascii 'd', ascii 'i', ascii 'u',
    ascii 'x', ascii 'o'] := rfl
  rw [hlist] at h
  simp only [List.mem_cons, List.not_mem_nil, or_false] at h
  obtain rfl | rfl | rfl | rfl | rfl | rfl | rfl | rfl := h
  · exact .inl rfl
  · exact .inr (.inl rfl)
  · exact .inr (.inr (.inl rfl))
  · exact .inr (.inr (.inr ⟨rfl, 10, rfl, fun _ _ => rfl⟩))
  · exact .inr (.inr (.inr ⟨rfl, 10, rfl, fun _ _ => rfl⟩))
  · exact .inr (.inr (.inr ⟨rfl, 10, rfl, fun _ _ => rfl⟩))
  · exact .inr (.inr (.inr ⟨rfl, 16, rfl, fun _ _ => rfl⟩))
  · exact .inr (.inr (.inr ⟨rfl, 8, rfl, fun _ _ => rfl⟩))

theorem loadText_spec (on : call.On base bytes)
    (htext : type = ascii 'c' ∨ type = ascii 's' ∨ type = ascii 'f') (h : k + n ≤ bytes.length)
    (hn : n ≠ 0) :
    call.loadText type (base + k) (Int32.ofInt n) =
      (convert call.abi type ((bytes.drop k).take n) : Option (Stored D)) := by
  have hsmall := on.fits h
  obtain rfl | rfl | rfl := htext
  · have hhead : ((bytes.drop k).take n).headD 0 = (bytes.drop k).headD 0 := by
      rw [List.headD_eq_head?_getD, List.headD_eq_head?_getD, List.head?_take, if_neg hn]
    show (call.mem (base + k)).map Stored.chr = some (.chr (((bytes.drop k).take n).headD 0))
    rw [on.byte (by omega), hhead]
    rfl
  · show (call.mem.read (base + k) (call.size (Int32.ofInt n))).map Stored.str =
      some (.str ((bytes.drop k).take n))
    rw [call.size_length hsmall, on.read h]
    rfl
  · show (call.nmeaAtof (base + k) (Int32.ofInt n)).map Stored.dbl =
      some (.dbl (RttNmea.nmeaAtof ((bytes.drop k).take n)))
    rw [on.nmeaAtof h]
    rfl

/-- A token that is in the buffer is counted, and stored through one argument. -/
theorem storeToken_spec (on : call.On base bytes) (hknown : type ∈ cstr "csfdiuxo")
    (h : k + n ≤ bytes.length) (hbuff : r.buff = base + k + n) :
    call.storeToken type (base + k) r = some (true, { r with
      tokType := .compare, width := Int32.ofInt n, tokCount := r.tokCount + 1
      args := r.args ++ [stored call.abi type ((bytes.drop k).take n)]
      toks := r.toks ++ [(base + k, (n : Int))] }) := by
  have hsmall := on.fits h
  have hend : ¬ call.endBuf < r.buff := by
    rw [on.endBuf, hbuff]
    omega
  have hlen : r.buff - (base + k) = n := by
    rw [hbuff]
    omega
  have hempty : (bytes.drop k).take n = [] ↔ n = 0 := by
    rw [← List.length_eq_zero_iff, List.length_take, List.length_drop]
    omega
  unfold ScanCall.storeToken
  rw [if_neg hend, hlen]
  by_cases htext : type = ascii 'c' ∨ type = ascii 's' ∨ type = ascii 'f'
  · have htype : textType type = true := by
      obtain rfl | rfl | rfl := htext <;> rfl
    by_cases hn : n = 0
    · simp [htype, on.target, stored, hn]
    · have hload := loadText_spec (D := D) on htext h hn
      have hvalue : ∃ v : Stored D, convert call.abi type ((bytes.drop k).take n) = some v := by
        obtain rfl | rfl | rfl := htext <;> exact ⟨_, rfl⟩
      obtain ⟨v, hv⟩ := hvalue
      simp [htype, on.target, stored, hempty, hn, (ofInt_length_ne hsmall).mpr hn, hload, hv]
  · obtain ⟨htype, radix, hradix, hvalue⟩ : textType type = false ∧ ∃ radix,
        radixOf type = some radix ∧ ∀ (abi : Abi) (tok : List Byte),
          convert abi type tok = some (.int (RttNmea.nmeaAtoi abi tok radix) : Stored D) := by
      obtain hc | hs | hf | hint := known_cases (D := D) hknown
      · exact absurd (.inl hc) htext
      · exact absurd (.inr (.inl hs)) htext
      · exact absurd (.inr (.inr hf)) htext
      · exact hint
    by_cases hn : n = 0
    · simp [htype, ScanCall.storeInt, on.target, stored, hn]
    · simp [htype, ScanCall.storeInt, on.target, stored, hempty, hn,
        (ofInt_length_ne hsmall).mpr hn, hradix, on.nmeaAtoi h, hvalue]

/-- The registers once a token of `n` bytes at offset `k` is stored. -/
def ScanRegs.token (r : ScanRegs D) (abi : Abi) (type : Byte) (base : Int) (bytes : List Byte)
    (k n : Nat) : ScanRegs D :=
  { r with
    buff := base + k + n
    tokType := .compare
    width := Int32.ofInt n
    tokCount := r.tokCount + 1
    args := r.args ++ [stored abi type ((bytes.drop k).take n)]
    toks := r.toks ++ [(base + k, (n : Int))] }

omit [CDouble D] in
theorem tokenWidth_spec (type next : Byte) (on : call.On base bytes) (hk : k < bytes.length)
    (hbuff : r.buff = base + k) {w : Nat} (hw : r.width.toInt = w) :
    ∃ width, call.tokenWidth type next r = some width ∧
      width.toInt = (if w = 0 ∧ (type = ascii 'c' ∨ type = ascii 'C') ∧
        (bytes.drop k).headD 0 ≠ next then 1 else w : Nat) := by
  have hzero : r.width = 0 ↔ w = 0 := by
    have h0 : (0 : Int32).toInt = 0 := by decide
    rw [← Int32.toInt_inj, hw, h0]
    omega
  have hone : (1 : Int32).toInt = 1 := by decide
  unfold ScanCall.tokenWidth
  rw [hbuff, on.byte hk]
  by_cases hchar : w = 0 ∧ (type = ascii 'c' ∨ type = ascii 'C')
  · have hchar' : r.width = 0 ∧ (type = ascii 'c' ∨ type = ascii 'C') :=
      ⟨hzero.mpr hchar.1, hchar.2⟩
    by_cases hnext : (bytes.drop k).headD 0 ≠ next
    · refine ⟨1, ?_, ?_⟩
      · simp only [if_pos hchar', Option.map_some, if_pos hnext]
      · rw [if_pos ⟨hchar.1, hchar.2, hnext⟩]
        exact hone
    · refine ⟨r.width, ?_, ?_⟩
      · simp only [if_pos hchar', Option.map_some, if_neg hnext]
      · rw [if_neg fun h => hnext h.2.2]
        exact hw
  · refine ⟨r.width, if_neg fun h => hchar ⟨hzero.mp h.1, h.2⟩, ?_⟩
    rw [if_neg fun h => hchar ⟨h.1, h.2.1⟩]
    exact hw

/-- The type step stays in the buffer: it takes a token off, or ends the scan. -/
theorem scanType_spec (next : Byte) (on : call.On base bytes) (hknown : type ∈ cstr "csfdiuxo")
    (hk : k < bytes.length) (hbuff : r.buff = base + k) {w : Nat} (hw : r.width.toInt = w) :
    match tokenSize type next w (bytes.drop k) with
    | none => ∃ width, call.scanType type next r = some (false, { r with width := width })
    | some n => call.scanType type next r =
        some (true, r.token call.abi type base bytes k n) := by
  obtain ⟨width, hrun, hwidth⟩ := tokenWidth_spec type next on hk hbuff hw
  have hlen : (bytes.drop k).length = bytes.length - k := List.length_drop
  have hstore : ∀ n, k + n ≤ bytes.length →
      call.storeToken type (base + k) { r with width := width, buff := base + k + n } =
        some (true, r.token call.abi type base bytes k n) :=
    fun n hn => storeToken_spec on hknown hn rfl
  have hzero : (0 : Int32).toInt = 0 := by decide
  unfold ScanCall.scanType tokenSize
  dsimp only
  rw [hrun]
  generalize (if w = 0 ∧ (type = ascii 'c' ∨ type = ascii 'C') ∧
    (bytes.drop k).headD 0 ≠ next then 1 else w) = w' at hwidth ⊢
  have hnonzero : width ≠ 0 ↔ w' ≠ 0 := by
    rw [ne_eq, ← Int32.toInt_inj, hwidth, hzero]
    omega
  simp only [Option.bind_eq_bind, Option.bind_some]
  by_cases hw0 : w' ≠ 0
  · rw [if_pos hw0, if_pos (hnonzero.mpr hw0), hwidth, on.endBuf, hbuff]
    by_cases hfits : k + w' ≤ bytes.length
    · have hroom : base + k + w' ≤ base + bytes.length := by omega
      have hroom' : w' ≤ (bytes.drop k).length := by omega
      rw [if_pos hroom, if_pos hroom']
      exact hstore w' hfits
    · have hroom : ¬ base + k + w' ≤ base + bytes.length := by omega
      have hroom' : ¬ w' ≤ (bytes.drop k).length := by omega
      rw [if_neg hroom, if_neg hroom']
      exact ⟨width, rfl⟩
  · rw [if_neg hw0, if_neg (mt hnonzero.mp hw0)]
    by_cases hnext : next = 0
    · have hend : call.endBuf = base + k + (bytes.length - k : Nat) := by
        rw [on.endBuf]
        omega
      rw [if_pos hnext, if_pos hnext, hend, hlen, hbuff]
      exact hstore (bytes.length - k) (by omega)
    · have hcount : (call.endBuf - r.buff).toNat = bytes.length - k := by
        rw [on.endBuf, hbuff]
        omega
      have hfound : (if next ∈ bytes.drop k then
          some (base + (k + (bytes.drop k).idxOf next : Nat)) else none).getD call.endBuf =
          base + k + ((bytes.drop k).idxOf next : Nat) := by
        by_cases hmem : next ∈ bytes.drop k
        · rw [if_pos hmem, Option.getD_some]
          omega
        · rw [if_neg hmem, Option.getD_none, List.idxOf_of_notMem hmem, hlen, on.endBuf]
          omega
      have hidx : (bytes.drop k).idxOf next ≤ (bytes.drop k).length := List.idxOf_le_length
      rw [if_neg hnext, if_neg hnext, hcount, hbuff, on.mem, Memory.find_region next hk.le]
      simp only [Option.bind_some, hfound]
      exact hstore ((bytes.drop k).idxOf next) (by omega)

/-! ## One directive -/

/-- What is counted and stored on the way from one state of the registers to another, over the
pieces these directives match. -/
structure Counted (abi : Abi) (ds : List Directive) (ps : List (List Byte)) (r r' : ScanRegs D) :
    Prop where
  count : r'.tokCount = r.tokCount + (tokensAt r.buff ds ps).length
  args : r'.args = r.args ++ valuesOf abi ds ps
  toks : r'.toks = r.toks ++ tokensAt r.buff ds ps

theorem Counted.cons {abi : Abi} {d : Directive} {ds : List Directive} {p : List Byte}
    {ps : List (List Byte)} {r₁ r₂ r₃ : ScanRegs D} (first : Counted abi [d] [p] r₁ r₂)
    (hbuff : r₂.buff = r₁.buff + p.length) (rest : Counted abi ds ps r₂ r₃) :
    Counted abi (d :: ds) (p :: ps) r₁ r₃ := by
  obtain ⟨hcount, hargs, htoks⟩ := first
  obtain ⟨hcount', hargs', htoks'⟩ := rest
  rw [hbuff] at hcount' htoks'
  rw [hcount] at hcount'
  rw [hargs, List.append_assoc] at hargs'
  rw [htoks, List.append_assoc] at htoks'
  cases d with
  | lit c plain => exact ⟨hcount', hargs', htoks'⟩
  | spec s =>
    refine ⟨?_, hargs', htoks'⟩
    rw [hcount']
    simp only [tokensAt, List.length_cons, List.length_nil]
    omega

/-- A turn of the loop, while bytes are left. -/
theorem scanLoop_turn (on : call.On base bytes) (hk : k < bytes.length) (hbuff : r.buff = base + k)
    (c : Byte) (format : List Byte) :
    call.scanLoop (c :: format) r = (call.scanStep c (format.headD 0) r).bind fun x =>
      if x.1 then call.scanLoop format x.2 else some x.2 := by
  have hmore : ¬ call.endBuf ≤ r.buff := by
    rw [on.endBuf, hbuff]
    omega
  rw [ScanCall.scanLoop, if_neg hmore]
  rfl

theorem scanLoop_width_digits (on : call.On base bytes) (hk : k < bytes.length)
    (hbuff : r.buff = base + k) (htok : r.tokType = .width) {digits : List Byte}
    (hdigits : ∀ b ∈ digits, isDigit b = true) (format : List Byte) :
    call.scanLoop (digits ++ format) r =
      call.scanLoop format { r with begFmt := r.begFmt ++ digits } := by
  induction digits generalizing r with
  | nil => rw [List.append_nil, List.nil_append]
  | cons b digits ih =>
    have hb : isDigit b = true := hdigits b List.mem_cons_self
    have hstep : call.scanStep b ((digits ++ format).headD 0) r =
        some (true, { r with begFmt := r.begFmt ++ [b] }) := by
      simp only [ScanCall.scanStep, htok, ScanCall.scanWidth, if_pos hb]
    have hrest := ih (r := { r with begFmt := r.begFmt ++ [b] }) hbuff htok
      fun c hc => hdigits c (List.mem_cons_of_mem _ hc)
    rw [List.cons_append, scanLoop_turn on hk hbuff, hstep]
    simp only [Option.bind_some, if_true, hrest, List.append_assoc, List.singleton_append]

/-- Behind the '%' the scan is that of a width that has no digits so far. -/
theorem scanLoop_after_percent (on : call.On base bytes) (hk : k < bytes.length)
    (hbuff : r.buff = base + k) {format : List Byte} (hne : format ≠ []) :
    call.scanLoop format { r with tokType := .percent } =
      call.scanLoop format { r with tokType := .width, width := 0, begFmt := [] } := by
  obtain ⟨c, format, rfl⟩ := List.exists_cons_of_ne_nil hne
  have hpercent := scanLoop_turn (r := { r with tokType := .percent }) on hk hbuff c format
  have hwidth := scanLoop_turn (r := { r with tokType := .width, width := 0, begFmt := [] }) on hk
    hbuff c format
  rw [hpercent, hwidth]
  rfl

theorem known_not_digit (h : type ∈ cstr "csfdiuxo") : isDigit type = false := by
  have hall : ∀ b ∈ cstr "csfdiuxo", isDigit b = false := by decide +kernel
  exact hall type h

/-- The width the specifier is scanned with. -/
theorem width_spec (abi : Abi) (s : Specifier) :
    (if s.width = [] then (0 : Int32) else RttNmea.nmeaAtoi abi s.width 10).toInt = s.size := by
  have hsmall := s.small
  unfold Specifier.size
  by_cases hnone : s.width = []
  · rw [if_pos hnone, hnone]
    rfl
  · rw [if_neg hnone]
    by_cases hlen : s.width.length < nmeaConvStrBuf
    · have hnat : (Int32.ofNat (leadingNat 10 s.width)) = Int32.ofInt (leadingNat 10 s.width) :=
        Int32.ofInt_eq_ofNat.symm
      rw [if_pos hlen, atoi_digits hlen s.digits (by omega), hnat, toInt_length (by omega)]
    · rw [if_neg hlen, RttNmea.nmeaAtoi, if_neg hlen]
      rfl

/-- A specifier up to its type step. -/
theorem scanLoop_specifier (on : call.On base bytes) (hk : k < bytes.length)
    (hbuff : r.buff = base + k) (htok : r.tokType = .compare) (s : Specifier)
    (format : List Byte) :
    ∃ width : Int32, width.toInt = s.size ∧
      call.scanLoop ((Directive.spec s).text ++ format) r =
        (call.scanType s.type (format.headD 0)
            { r with tokType := .type, width := width, begFmt := s.width }).bind fun x =>
          if x.1 then call.scanLoop format x.2 else some x.2 := by
  refine ⟨_, width_spec call.abi s, ?_⟩
  have hstep : call.scanStep (ascii '%') ((s.width ++ [s.type] ++ format).headD 0) r =
      some (true, { r with tokType := .percent }) := by
    simp only [ScanCall.scanStep, htok, if_pos]
  have hne : s.width ++ [s.type] ++ format ≠ [] := by simp
  have htype : ¬ isDigit s.type = true := by
    rw [known_not_digit s.known]
    exact Bool.false_ne_true
  have hdigits := scanLoop_width_digits (r := { r with tokType := .width, width := 0, begFmt := [] })
    on hk hbuff rfl s.digits (s.type :: format)
  have hturn := scanLoop_turn (r := { r with tokType := .width, width := 0, begFmt := s.width }) on hk
    hbuff s.type format
  show call.scanLoop (ascii '%' :: (s.width ++ [s.type] ++ format)) r = _
  rw [scanLoop_turn on hk hbuff, hstep, Option.bind_some, if_pos rfl,
    scanLoop_after_percent on hk hbuff hne, List.append_assoc, List.singleton_append, hdigits,
    List.nil_append, hturn]
  simp only [ScanCall.scanStep, ScanCall.scanWidth, if_neg htype]
  split <;> rfl

/-- **A directive stays in the buffer**: it matches the piece it takes, or ends the scan. -/
theorem directive_spec (on : call.On base bytes) (hk : k < bytes.length)
    (hbuff : r.buff = base + k) (htok : r.tokType = .compare) (d : Directive)
    (format : List Byte) :
    match d.takes (format.headD 0) (bytes.drop k) with
    | none => ∃ r', call.scanLoop (d.text ++ format) r = some r' ∧ Counted call.abi [] [] r r'
    | some n => ∃ r', call.scanLoop (d.text ++ format) r = call.scanLoop format r' ∧
        r'.tokType = .compare ∧ r'.buff = base + (k + n : Nat) ∧
        Counted call.abi [d] [(bytes.drop k).take n] r r' := by
  have hsame : ∀ r' : ScanRegs D, r'.tokCount = r.tokCount → r'.args = r.args → r'.toks = r.toks →
      Counted call.abi [] [] r r' := fun r' hcount hargs htoks =>
    ⟨hcount, hargs.trans (List.append_nil _).symm, htoks.trans (List.append_nil _).symm⟩
  cases d with
  | lit c plain =>
    have hhead : (bytes.drop k).head? = some ((bytes.drop k).headD 0) := by
      rw [List.drop_eq_getElem_cons hk]
      rfl
    have hstep : call.scanStep c (format.headD 0) r =
        some (decide ((bytes.drop k).headD 0 = c), { r with buff := r.buff + 1 }) := by
      simp only [ScanCall.scanStep, htok, if_neg plain.1, hbuff, on.byte hk, Option.bind_eq_bind,
        Option.bind_some, Option.pure_def]
    have hrun : call.scanLoop ((Directive.lit c plain).text ++ format) r =
        if (bytes.drop k).headD 0 = c then call.scanLoop format { r with buff := r.buff + 1 }
        else some { r with buff := r.buff + 1 } := by
      show call.scanLoop (c :: format) r = _
      rw [scanLoop_turn on hk hbuff, hstep, Option.bind_some]
      simp only [decide_eq_true_eq]
    rw [Directive.takes, hhead, hrun]
    by_cases hc : (bytes.drop k).headD 0 = c
    · rw [if_pos hc, if_pos (congrArg some hc)]
      refine ⟨_, rfl, htok, ?_, rfl, (List.append_nil _).symm, (List.append_nil _).symm⟩
      show r.buff + 1 = _
      rw [hbuff]
      omega
    · rw [if_neg hc, if_neg (mt Option.some.inj hc)]
      exact ⟨_, rfl, hsame _ rfl rfl rfl⟩
  | spec s =>
    obtain ⟨width, hwidth, hrun⟩ := scanLoop_specifier on hk hbuff htok s format
    have htype := scanType_spec (r := { r with tokType := .type, width := width, begFmt := s.width })
      (format.headD 0) on s.known hk hbuff hwidth
    rw [Directive.takes, hrun]
    cases hsize : tokenSize s.type (format.headD 0) s.size (bytes.drop k) with
    | none =>
      rw [hsize] at htype
      obtain ⟨last, hstop⟩ := htype
      rw [hstop]
      exact ⟨_, rfl, hsame _ rfl rfl rfl⟩
    | some n =>
      rw [hsize] at htype
      have hle : n ≤ (bytes.drop k).length := tokenSize_le hsize
      have hlen : ((bytes.drop k).take n).length = n := by
        rw [List.length_take]
        exact Nat.min_eq_left hle
      refine ⟨_, by rw [htype]; rfl, rfl, ?_, rfl, rfl, ?_⟩
      · show base + (k : Int) + n = _
        omega
      · simp only [ScanRegs.token, tokensAt, hlen, hbuff]

/-- **The whole scan stays in the buffer**, and its tokens are pieces of it. -/
theorem scanLoop_spec (on : call.On base bytes) (hk : k ≤ bytes.length) (hbuff : r.buff = base + k)
    (htok : r.tokType = .compare) (ds : List Directive) :
    ∃ r', call.scanLoop (formatText ds) r = some r' ∧
      Counted call.abi ds (pieces ds (bytes.drop k)) r r' := by
  induction ds generalizing r k with
  | nil =>
    exact ⟨r, rfl, rfl, (List.append_nil _).symm, (List.append_nil _).symm⟩
  | cons d ds ih =>
    have hformat : formatText (d :: ds) = d.text ++ formatText ds := rfl
    rw [hformat, pieces]
    by_cases hend : bytes.drop k = []
    · have hlast : call.endBuf ≤ r.buff := by
        have hle := List.drop_eq_nil_iff.mp hend
        rw [on.endBuf, hbuff]
        omega
      have hstop : call.scanLoop (d.text ++ formatText ds) r = some r := by
        cases d <;> exact if_pos hlast
      rw [if_pos hend, hstop]
      refine ⟨r, rfl, ?_⟩
      cases d <;> exact ⟨rfl, (List.append_nil _).symm, (List.append_nil _).symm⟩
    · have hlt : k < bytes.length := by
        have hpos := List.length_pos_iff.mpr hend
        rw [List.length_drop] at hpos
        omega
      have hdirective := directive_spec on hlt hbuff htok d (formatText ds)
      rw [if_neg hend]
      cases htakes : d.takes ((formatText ds).headD 0) (bytes.drop k) with
      | none =>
        rw [htakes] at hdirective
        obtain ⟨r', hrun, hcounted⟩ := hdirective
        refine ⟨r', hrun, ?_⟩
        cases d <;> exact ⟨hcounted.count, hcounted.args, hcounted.toks⟩
      | some n =>
        rw [htakes] at hdirective
        obtain ⟨r₁, hrun, htok₁, hbuff₁, hfirst⟩ := hdirective
        have hle := takes_le htakes
        rw [List.length_drop] at hle
        obtain ⟨r', hrest, hcounted⟩ := ih (r := r₁) (k := k + n) (by omega) hbuff₁ htok₁
        refine ⟨r', hrun.trans hrest, ?_⟩
        rw [← List.drop_drop] at hcounted
        apply hfirst.cons _ hcounted
        rw [hbuff₁, hbuff, List.length_take, List.length_drop]
        omega

end Call

/-! ## The same scan on the bytes still unread -/

section Unread

variable (abi : Abi) {s : ScanState D}

theorem unread_width_digits (hb : s.buff ≠ []) (htok : s.tokType = .width) {digits : List Byte}
    (hdigits : ∀ b ∈ digits, isDigit b = true) (format : List Byte) :
    scanLoop abi (digits ++ format) s =
      scanLoop abi format { s with begFmt := s.begFmt ++ digits } := by
  induction digits generalizing s with
  | nil => rw [List.append_nil, List.nil_append]
  | cons b digits ih =>
    have hdigit : isDigit b = true := hdigits b List.mem_cons_self
    have hstep : scanStep abi b ((digits ++ format).headD 0) s =
        .ok { s with begFmt := s.begFmt ++ [b] } := by
      simp only [scanStep, htok, scanWidth, if_pos hdigit]
    have hrest := ih (s := { s with begFmt := s.begFmt ++ [b] }) hb htok
      fun c hc => hdigits c (List.mem_cons_of_mem _ hc)
    rw [List.cons_append, scanLoop_ok hb rfl hstep, hrest, List.append_assoc, List.singleton_append]

/-- A specifier up to its type step. -/
theorem unread_specifier (hb : s.buff ≠ []) (htok : s.tokType = .compare) (sp : Specifier)
    (format : List Byte) :
    scanLoop abi ((Directive.spec sp).text ++ format) s =
      match scanType abi sp.type (format.headD 0)
        { s with tokType := .type, width := sp.size, begFmt := sp.width } with
      | .ok s' => scanLoop abi format s'
      | .error s' => s' := by
  have htype : ¬ isDigit sp.type = true := by
    rw [known_not_digit sp.known]
    exact Bool.false_ne_true
  have hsize := width_spec abi sp
  have hfirst : scanLoop abi (sp.width ++ sp.type :: format) { s with tokType := .percent } =
      scanLoop abi (sp.width ++ sp.type :: format)
        { s with tokType := .width, width := 0, begFmt := [] } := by
    obtain ⟨c, rest, hc⟩ := List.exists_cons_of_ne_nil
      (List.append_ne_nil_of_right_ne_nil sp.width (List.cons_ne_nil sp.type format))
    rw [hc, scanLoop, scanLoop, if_neg hb, if_neg hb]
    rfl
  have hstep : scanStep abi sp.type (format.headD 0)
      { s with tokType := .width, width := 0, begFmt := sp.width } =
      scanType abi sp.type (format.headD 0)
        { s with tokType := .type, width := sp.size, begFmt := sp.width } := by
    simp only [scanStep, scanWidth, if_neg htype]
    by_cases hnone : sp.width = []
    · rw [if_pos hnone] at hsize ⊢
      have hzero : 0 = sp.size := Int.ofNat.inj hsize
      rw [← hzero]
    · rw [if_neg hnone] at hsize ⊢
      have hclamp : (nmeaAtoi abi sp.width 10).toNatClampNeg = sp.size :=
        (congrArg Int.toNat hsize).trans (Int.toNat_natCast sp.size)
      rw [hclamp]
  have hdigits := unread_width_digits abi
    (s := { s with tokType := .width, width := 0, begFmt := [] }) hb rfl sp.digits
    (sp.type :: format)
  show scanLoop abi (ascii '%' :: (sp.width ++ [sp.type] ++ format)) s = _
  rw [scanLoop_percent _ htok hb, List.append_assoc, List.singleton_append, hfirst, hdigits,
    List.nil_append, scanLoop, if_neg hb]
  exact congrArg (fun r => match r with
    | .ok s' => scanLoop abi format s'
    | .error s' => s') hstep

theorem known_converts {type : Byte} (h : type ∈ cstr "csfdiuxo") (tok : List Byte) :
    convert abi type tok ≠ (none : Option (Stored D)) := by
  obtain rfl | rfl | rfl | ⟨-, radix, -, hint⟩ := known_cases (D := D) h
  · exact Option.some_ne_none _
  · exact Option.some_ne_none _
  · exact Option.some_ne_none _
  · rw [hint]
    exact Option.some_ne_none _

theorem unread_directive (hb : s.buff ≠ []) (htok : s.tokType = .compare) (d : Directive)
    (format : List Byte) :
    match d.takes (format.headD 0) s.buff with
    | none => (scanLoop abi (d.text ++ format) s).tokCount = s.tokCount ∧
        (scanLoop abi (d.text ++ format) s).args = s.args
    | some n => ∃ s', scanLoop abi (d.text ++ format) s = scanLoop abi format s' ∧
        s'.tokType = .compare ∧ s'.buff = s.buff.drop n ∧
        s'.tokCount = s.tokCount +
          (valuesOf abi [d] [s.buff.take n] : List (Option (Stored D))).length ∧
        s'.args = s.args ++ valuesOf abi [d] [s.buff.take n] := by
  cases d with
  | lit c plain =>
    have hrun : scanLoop abi (c :: format) s = _ := scanLoop_lit plain.1 format htok hb
    have htext : (Directive.lit c plain).text ++ format = c :: format := rfl
    rw [Directive.takes, htext, hrun]
    by_cases hc : s.buff.head? = some c
    · rw [if_pos hc, if_pos hc]
      exact ⟨_, rfl, htok, (List.drop_one).symm, rfl, (List.append_nil _).symm⟩
    · rw [if_neg hc, if_neg hc]
      exact ⟨rfl, rfl⟩
  | spec sp =>
    rw [Directive.takes, unread_specifier abi hb htok sp format]
    cases hsize : tokenSize sp.type (format.headD 0) sp.size s.buff with
    | none =>
      unfold scanType
      rw [hsize]
      exact ⟨rfl, rfl⟩
    | some n =>
      have hok := scanType_some
        (s := { s with tokType := .type, width := sp.size, begFmt := sp.width }) hsize hb
        (known_converts abi sp.known)
      rw [hok]
      exact ⟨_, rfl, rfl, rfl, rfl, rfl⟩

/-- nmea_scanf counts and stores the tokens among the pieces. -/
theorem unread_spec (htok : s.tokType = .compare) (ds : List Directive) :
    (scanLoop abi (formatText ds) s).tokCount =
        s.tokCount + (valuesOf abi ds (pieces ds s.buff) : List (Option (Stored D))).length ∧
      (scanLoop abi (formatText ds) s).args = s.args ++ valuesOf abi ds (pieces ds s.buff) := by
  induction ds generalizing s with
  | nil => exact ⟨rfl, (List.append_nil _).symm⟩
  | cons d ds ih =>
    have hformat : formatText (d :: ds) = d.text ++ formatText ds := rfl
    rw [hformat, pieces]
    by_cases hb : s.buff = []
    · rw [if_pos hb, scanLoop_nil_buff _ hb]
      cases d <;> exact ⟨rfl, (List.append_nil _).symm⟩
    · have hdirective := unread_directive abi hb htok d (formatText ds)
      rw [if_neg hb]
      cases htakes : d.takes ((formatText ds).headD 0) s.buff with
      | none =>
        rw [htakes] at hdirective
        obtain ⟨hcount, hargs⟩ := hdirective
        rw [hcount, hargs]
        cases d <;> exact ⟨rfl, (List.append_nil _).symm⟩
      | some n =>
        rw [htakes] at hdirective
        obtain ⟨s', hrun, htok', hbuff', hcount, hargs⟩ := hdirective
        obtain ⟨hcount', hargs'⟩ := ih htok'
        rw [hrun, hcount', hargs', hcount, hargs, hbuff']
        cases d with
        | lit c plain => exact ⟨rfl, by rw [List.append_assoc]; rfl⟩
        | spec sp =>
          refine ⟨?_, by rw [List.append_assoc]; rfl⟩
          simp only [valuesOf, List.length_cons, List.length_nil]
          omega

end Unread

/-- **nmea_scanf stays inside its input.** It ends without a read outside the buffer, its tokens
are pieces of the buffer side by side in the order of the format, and it counts one for each
target it takes, at most one for each specifier. It does what it does on the bytes unread. -/
theorem scanf_inside (abi : Abi) (base : Int) (bytes : List Byte) (hsize : bytes.length < 2 ^ 31)
    (ds : List Directive) (target : Nat → Bool) (htarget : ∀ k, target k = true) :
    ∃ r : ScanRegs D, nmeaScanfAt abi (.region base bytes) base bytes.length (formatText ds) target =
        some r ∧
      r.tokCount = r.args.length ∧ r.tokCount ≤ specifiers ds ∧
      (r.tokCount, r.args) = nmeaScanf abi bytes (formatText ds) ∧
      ∃ ps, ps.flatten <+: bytes ∧
        List.Forall₂ (fun d piece => d.Matches piece) (ds.take ps.length) ps ∧
        r.toks = tokensAt base ds ps := by
  have on : ScanCall.On ⟨abi, .region base bytes, base + bytes.length, target⟩ base bytes :=
    ⟨rfl, rfl, htarget, hsize⟩
  have hbegin : base = base + (0 : Nat) := (Int.add_zero base).symm
  obtain ⟨r, hrun, hcount, hargs, htoks⟩ := scanLoop_spec (D := D) (r := { buff := base }) on
    (Nat.zero_le _) hbegin rfl ds
  rw [List.drop_zero] at hcount hargs htoks
  obtain ⟨hlen, hle⟩ := tokens_values (D := D) abi base ds (pieces ds bytes)
  obtain ⟨hfront, hmatch⟩ := pieces_spec ds bytes
  obtain ⟨hcount', hargs'⟩ := unread_spec (D := D) abi (s := { buff := bytes }) rfl ds
  rw [Nat.zero_add] at hcount hcount'
  rw [List.nil_append] at hargs htoks hargs'
  refine ⟨r, hrun, ?_, ?_, ?_, pieces ds bytes, hfront, hmatch, htoks⟩
  · rw [hcount, hargs]
    exact hlen
  · rw [hcount]
    exact hle
  · apply Prod.ext
    · exact (hcount.trans hlen).trans hcount'.symm
    · exact hargs.trans hargs'.symm

/-- "V%2d,%c" on a buffer at address 100 with more bytes than it matches. -/
theorem scanf_inside_test :
    let abi : Abi := ⟨false, 32, le_rfl⟩
    let two : Specifier := ⟨cstr "2", ascii 'd', by decide +kernel, by decide, by decide⟩
    let chr : Specifier := ⟨[], ascii 'c', by simp, by decide, by decide⟩
    let ds : List Directive := [.lit (ascii 'V') (by decide), .spec two,
      .lit (ascii ',') (by decide), .spec chr]
    let bytes := cstr "V12,AB"
    formatText ds = cstr "V%2d,%c" ∧
      ∃ r : ScanRegs Decimal, nmeaScanfAt abi (.region 100 bytes) 100 bytes.length (formatText ds)
          (fun _ => true) = some r ∧
        r.tokCount = r.args.length ∧ r.tokCount ≤ specifiers ds ∧
        (r.tokCount, r.args) = nmeaScanf abi bytes (formatText ds) ∧
        ∃ ps, ps.flatten <+: bytes ∧
          List.Forall₂ (fun d piece => d.Matches piece) (ds.take ps.length) ps ∧
          r.toks = tokensAt 100 ds ps := by
  intro abi two chr ds bytes
  exact ⟨by decide, scanf_inside abi 100 bytes (by decide) ds (fun _ => true) fun _ => rfl⟩

end RttNmea
