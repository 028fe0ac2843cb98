import Storyboard.Decimal.Shortest

/-!
# Numerals as text

A layout says which exponents are written without a power of ten, whether a whole number keeps
`.0`, and where an exact tie goes. Each format that writes doubles owns one layout.
-/

namespace Storyboard

structure Layout where
  tie : Tie
  /-- Exponents of the leading digit that are written in place. -/
  inPlace : Int → Bool
  /-- A whole number ends in `.0`. -/
  pointZero : Bool

namespace Decimal

/-- The digits in place, without a power of ten. -/
def placed (pointZero : Bool) (d : Decimal) : List Char :=
  let ds := Nat.toDigits 10 d.digits
  if 0 ≤ d.exponent then
    ds ++ List.replicate d.exponent.toNat '0' ++ (if pointZero then ['.', '0'] else [])
  else
    let after := d.exponent.natAbs
    if ds.length ≤ after then
      ['0', '.'] ++ List.replicate (after - ds.length) '0' ++ ds
    else
      ds.take (ds.length - after) ++ '.' :: ds.drop (ds.length - after)

/-- One digit, the others after a point, and the power of ten with its sign. -/
def scientific (lead : Int) (d : Decimal) : List Char :=
  let power := 'e' :: (if lead < 0 then '-' else '+') :: Nat.toDigits 10 lead.natAbs
  match Nat.toDigits 10 d.digits with
  | [] => power
  | [c] => c :: power
  | c :: cs => c :: '.' :: cs ++ power

/-- The numeral in the layout. -/
def write (layout : Layout) (d : Decimal) : List Char :=
  let lead := d.exponent + width d.digits - 1
  if layout.inPlace lead then d.placed layout.pointZero else d.scientific lead

end Decimal

/-- The shortest numeral of a finite double, without its sign. -/
def shortestDecimal (tie : Tie) (x : Float) (b : Binary) : Decimal :=
  if b.mantissa = 0 then ⟨0, 0⟩ else b.shortest tie x.abs

/-- A finite double in the layout, or nothing. -/
def Layout.finite? (layout : Layout) (x : Float) : Option (List Char) :=
  (Binary.ofFloat? x).map fun b =>
    (if isSigned x then ['-'] else []) ++ (shortestDecimal layout.tie x b).write layout

/-- Numbers in messages: all digits in place, whole numbers without a point. -/
def messageLayout : Layout :=
  ⟨.up, fun _ => true, false⟩

/-- A number as messages show it. -/
def messageNumber (x : Float) : String :=
  match messageLayout.finite? x with
  | some cs => String.ofList cs
  | none => if x.isNaN then "NaN" else if isSigned x then "-inf" else "inf"

end Storyboard
