/-!
# Decimal numerals

A numeral is a whole number of units of a power of ten. `Decimal.trim` gives equal numerals one
form, so that reading a numeral does not depend on how many zeros it was written with.
-/

namespace Storyboard

/-- The number `digits * 10 ^ exponent`. -/
structure Decimal where
  digits : Nat
  exponent : Int
  deriving DecidableEq, Repr

namespace Decimal

/-- Moves the zeros at the end of `digits` into the exponent. -/
def trim (d : Decimal) : Decimal :=
  if h : d.digits = 0 then ⟨0, 0⟩
  else if d.digits % 10 = 0 then trim ⟨d.digits / 10, d.exponent + 1⟩
  else d
termination_by d.digits
decreasing_by exact Nat.div_lt_self (Nat.pos_of_ne_zero h) (by decide)

/-- How many decimal digits `n` is written with. -/
def width (n : Nat) : Nat :=
  (Nat.toDigits 10 n).length

/-- The double nearest to the numeral, of two the one with the even mantissa. The bounds on the
exponent only keep hopeless powers of ten from being computed: every double lies between `10 ^ -324`
and `10 ^ 309`. -/
def toFloat (d : Decimal) : Float :=
  let d := d.trim
  if d.digits = 0 then 0.0
  else if 400 < d.exponent + width d.digits then 1.0 / 0.0
  else if d.exponent + width d.digits < -400 then 0.0
  else Float.ofScientific d.digits (decide (d.exponent < 0)) d.exponent.natAbs

/-- The whole number that a row of decimal digits spells. -/
def ofDigits (cs : List Char) : Nat :=
  Nat.ofDigitChars 10 cs 0

/-- The numeral with `whole` before the point and `fraction` after it. -/
def ofParts (whole fraction : List Char) (exponent : Int) : Decimal :=
  ⟨ofDigits (whole ++ fraction), exponent - fraction.length⟩

/-- A whole number with an optional sign. -/
def signedInt? : List Char → Option Int
  | '+' :: cs => natural? cs
  | '-' :: cs => (natural? cs).map fun n => -n
  | cs => natural? cs
where
  natural? (cs : List Char) : Option Int :=
    if !cs.isEmpty && cs.all Char.isDigit then some (ofDigits cs) else none

/-- The power of ten at the end of a numeral; 0 if there is none. -/
def power? : List Char → Option Int
  | [] => some 0
  | c :: cs => if c = 'e' ∨ c = 'E' then signedInt? cs else none

end Decimal

/-- A numeral read with its sign; a negative zero keeps the sign. -/
def signedFloat (negative : Bool) (d : Decimal) : Float :=
  if negative then -d.toFloat else d.toFloat

end Storyboard
