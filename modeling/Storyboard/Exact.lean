/-!
# Exact values of doubles

A finite double is a whole number times a power of two. Counting frames and choosing digits both
work on that exact value, so neither adds a rounding of its own.
-/

namespace Storyboard

/-- A non-negative number `mantissa * 2 ^ exponent`. -/
structure Binary where
  mantissa : Nat
  exponent : Int
  deriving DecidableEq, Repr

namespace Binary

/-- The value as a fraction of whole numbers. -/
def numerator (b : Binary) : Nat :=
  b.mantissa * Nat.pow 2 b.exponent.toNat

def denominator (b : Binary) : Nat :=
  Nat.pow 2 (-b.exponent).toNat

/-- The magnitude of a finite double. -/
def ofFloat? (x : Float) : Option Binary :=
  match x.toModel.unpack with
  | .finite _ m e _ => some ⟨m, e⟩
  | .zero _ => some ⟨0, 0⟩
  | _ => none

end Binary

/-- The sign bit is set; so it is for a negative zero. -/
def isSigned (x : Float) : Bool :=
  match x.toModel.unpack with
  | .finite .negative _ _ _ | .zero .negative | .infinity .negative => true
  | _ => false

/-- The rational number that a finite double stands for. -/
def exactValue? (x : Float) : Option Rat :=
  (Binary.ofFloat? x).map fun b =>
    let r := mkRat b.numerator b.denominator
    if isSigned x then -r else r

end Storyboard
