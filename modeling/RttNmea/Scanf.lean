import RttNmea.Types

/-!
# nmea_atoi, nmea_atof and nmea_scanf

`nmeaScanf` walks the format one character at a time, as the source does: a four-state
machine over the format, with the bytes still unread in `buff`. What it stores through its
arguments is returned as a list, one entry for each argument taken, in order; `none` marks
an argument that was taken but not written, because its token is empty.
-/

namespace RttNmea

open CText

variable {D : Type} [CDouble D]

/-- nmea_atoi: the digits go through a 256-byte copy; a longer text gives 0. The `long`
that strtol returns is narrowed to `int`. -/
def nmeaAtoi (abi : Abi) (str : List Byte) (radix : Nat) : Int32 :=
  if str.length < nmeaConvStrBuf then Int32.ofInt (strtol abi radix str) else 0

/-- nmea_atof. -/
def nmeaAtof (str : List Byte) : D :=
  if str.length < nmeaConvStrBuf then CDouble.strtod (text str) else CDouble.zero

/-- NMEA_TOKS_*. -/
inductive Toks
  | compare | percent | width | type
  deriving DecidableEq, Repr

/-- What is stored through one argument. -/
inductive Stored (D : Type)
  | chr (b : Byte)
  | str (s : List Byte)
  | dbl (x : D)
  | int (n : Int32)
  deriving DecidableEq, Repr

/-- The locals of nmea_scanf. `begFmt` holds the format bytes from beg_fmt up to format,
`args` what was done with each argument taken so far. -/
structure ScanState (D : Type) where
  tokType : Toks := .compare
  width : Nat := 0
  begFmt : List Byte := []
  buff : List Byte
  tokCount : Nat := 0
  args : List (Option (Stored D)) := []

/-- The value a nonempty token stores, by conversion character; `none` for a character
that is no conversion. -/
def convert (abi : Abi) (type : Byte) (tok : List Byte) : Option (Stored D) :=
  if type = ascii 'c' ∨ type = ascii 'C' then some (.chr (tok.headD 0))
  else if type = ascii 's' ∨ type = ascii 'S' then some (.str tok)
  else if type = ascii 'f' ∨ type = ascii 'g' ∨ type = ascii 'G' ∨ type = ascii 'e' ∨
      type = ascii 'E' then some (.dbl (nmeaAtof tok))
  else if type = ascii 'd' ∨ type = ascii 'i' ∨ type = ascii 'u' then
    some (.int (nmeaAtoi abi tok 10))
  else if type = ascii 'x' ∨ type = ascii 'X' then some (.int (nmeaAtoi abi tok 16))
  else if type = ascii 'o' then some (.int (nmeaAtoi abi tok 8))
  else none

/-- How many bytes the token at the front of a nonempty `buff` takes; `none` if a width
asks for more than there are. `next` is format[1], 0 at the end of the format. Without a
width the token runs to the next occurrence of `next`, or to the end of the buffer. -/
def tokenSize (type next : Byte) (width : Nat) (buff : List Byte) : Option Nat :=
  let width :=
    if width = 0 ∧ (type = ascii 'c' ∨ type = ascii 'C') ∧ buff.headD 0 ≠ next then 1
    else width
  if width ≠ 0 then if width ≤ buff.length then some width else none
  else if next = 0 then some buff.length
  else some (buff.idxOf next)

/-- case NMEA_TOKS_TYPE. `error` is `goto fail`. -/
def scanType (abi : Abi) (type next : Byte) (s : ScanState D) :
    Except (ScanState D) (ScanState D) :=
  match tokenSize type next s.width s.buff with
  | none => .error s
  | some n =>
    let tok := s.buff.take n
    let s := { s with
      tokType := .compare, width := n, buff := s.buff.drop n, tokCount := s.tokCount + 1 }
    if n = 0 then .ok { s with args := s.args ++ [none] }
    else match convert abi type tok with
      | some v => .ok { s with args := s.args ++ [some v] }
      | none => .error { s with args := s.args ++ [none] }

/-- case NMEA_TOKS_WIDTH, falling through to NMEA_TOKS_TYPE at the first non-digit. -/
def scanWidth (abi : Abi) (c next : Byte) (s : ScanState D) :
    Except (ScanState D) (ScanState D) :=
  if isDigit c then .ok { s with begFmt := s.begFmt ++ [c] }
  else
    let s := { s with tokType := .type }
    if s.begFmt = [] then scanType abi c next s
    else scanType abi c next { s with width := (nmeaAtoi abi s.begFmt 10).toNatClampNeg }

/-- One turn of the loop, on format character `c` with `next` after it, while bytes are
left. NMEA_TOKS_PERCENT falls through to NMEA_TOKS_WIDTH. -/
def scanStep (abi : Abi) (c next : Byte) (s : ScanState D) :
    Except (ScanState D) (ScanState D) :=
  match s.tokType with
  | .compare =>
    if c = ascii '%' then .ok { s with tokType := .percent }
    else if s.buff.head? = some c then .ok { s with buff := s.buff.tail }
    else .error { s with buff := s.buff.tail }
  | .percent => scanWidth abi c next { s with width := 0, begFmt := [], tokType := .width }
  | .width => scanWidth abi c next s
  | .type => scanType abi c next s

/-- for (; *format && buff < end_buf; ++format). -/
def scanLoop (abi : Abi) : List Byte → ScanState D → ScanState D
  | [], s => s
  | c :: format, s =>
    if s.buff = [] then s
    else match scanStep abi c (format.headD 0) s with
      | .ok s' => scanLoop abi format s'
      | .error s' => s'

/-- nmea_scanf: the count it returns, and what it stored. -/
def nmeaScanf (abi : Abi) (buff : List Byte) (format : List Byte) :
    Nat × List (Option (Stored D)) :=
  let s := scanLoop abi format { buff }
  (s.tokCount, s.args)

end RttNmea
