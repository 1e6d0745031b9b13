import RttNmea.Forms

/-!
# strtod

`strtod` is a parameter of the model. Where a number is read straight from a message, what
counts is that the conversion stops at the ',' or the '*' behind the field.
-/

namespace RttNmea

open CText

/-- What the C library says of `strtod` on a text with a separator in it (in the "C" locale, where
the separators are no part of a number), and on no text. -/
structure StrtodLaws {D : Type} (zero : D) (strtod : List Byte → D) : Prop where
  nil : strtod [] = zero
  stop : ∀ {f rest : List Byte} {sep : Byte}, sep = comma ∨ sep = star →
    strtod (f ++ sep :: rest) = strtod f

/-! ## Decimals -/

theorem Decimal.read_stop {sep : Byte} (hsep : sep = comma ∨ sep = star) (f rest : List Byte) :
    Decimal.read (f ++ sep :: rest) = Decimal.read f := by
  have hstops : Stops 10 sep := by
    rcases hsep with rfl | rfl
    · exact stops_comma
    · exact stops_star
  have hdigit : isDigit sep = false := by
    rcases hsep with rfl | rfl <;> decide
  have hdot : sep ≠ ascii '.' := by
    rcases hsep with rfl | rfl <;> decide
  unfold Decimal.read
  simp only [dropWhile_stop hstops.space, splitSign_stop hstops, takeWhile_stop hdigit,
    dropWhile_stop hdigit]
  cases (splitSign (f.dropWhile isSpace)).2.dropWhile isDigit with
  | nil => simp [hdot]
  | cons b s => simp only [List.cons_append, takeWhile_stop hdigit]

theorem decimalLaws : StrtodLaws (CDouble.zero : Decimal) CDouble.strtod where
  nil := rfl
  stop hsep := Decimal.read_stop hsep _ _

/-- The rational that the decimal at the front of a text stands for. -/
def ratStrtod (s : List Byte) : Rat := (Decimal.read s).mantissa / 10 ^ (Decimal.read s).scale

theorem ratLaws : StrtodLaws 0 ratStrtod where
  nil := by decide +kernel
  stop hsep := by
    unfold ratStrtod
    rw [Decimal.read_stop hsep]

end RttNmea
