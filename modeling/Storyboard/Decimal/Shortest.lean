import Storyboard.Decimal.Basic
import Storyboard.Exact

/-!
# Shortest numerals

The shortest numeral of a double is the one with the fewest digits that reads back as that double,
and of those the nearest. On a grid of `n` digits only the two points around the value can qualify,
so the search tries those two for `n = 1, 2, …`. The exact expansion ends the search: it is the
value itself.
-/

namespace Storyboard

/-- What becomes of a value halfway between two numerals. -/
inductive Tie where
  | even
  | up
  deriving DecidableEq, Repr

namespace Binary

/-- The exponent of the leading decimal digit. Every double is at least `10 ^ -324`, so a scale of
`10 ^ 330` leaves at least one digit. -/
def leadingExponent (b : Binary) : Int :=
  (Decimal.width (b.numerator * Nat.pow 10 330 / b.denominator) : Int) - 331

/-- The value written out in full: a denominator `2 ^ k` divides `10 ^ k`. -/
def exactDecimal (b : Binary) : Decimal :=
  Decimal.trim ⟨b.numerator * Nat.pow 5 (-b.exponent).toNat, -((-b.exponent).toNat : Int)⟩

/-- The two numerals around the value on the grid of multiples of `10 ^ place`, the nearer first. -/
def around (tie : Tie) (b : Binary) (place : Int) : Decimal × Decimal :=
  let num := b.numerator * Nat.pow 10 (-place).toNat
  let den := b.denominator * Nat.pow 10 place.toNat
  let below := num / den
  let low : Decimal := Decimal.trim ⟨below, place⟩
  let high : Decimal := Decimal.trim ⟨below + 1, place⟩
  let twice := 2 * (num % den)
  let highFirst := den < twice ∨ (den = twice ∧ (tie = .up ∨ below % 2 = 1))
  if highFirst then (high, low) else (low, high)

/-- The numeral with at most `n` digits that reads back as `x`, if there is one. -/
def candidate? (tie : Tie) (x : Float) (b : Binary) (lead : Int) (n : Nat) : Option Decimal :=
  let (first, second) := around tie b (lead + 1 - n)
  if first.toFloat = x then some first
  else if second.toFloat = x then some second
  else none

/-- The shortest numeral of the positive double `x` with the exact value `b`. -/
def shortest (tie : Tie) (x : Float) (b : Binary) : Decimal :=
  let exact := b.exactDecimal
  let lead := b.leadingExponent
  ((List.range (Decimal.width exact.digits)).findSome? fun n =>
    candidate? tie x b lead (n + 1)).getD exact

end Binary
end Storyboard
