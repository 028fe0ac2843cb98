import Storyboard.Decimal.Basic

/-!
# Numerals of a script

An optional minus, digits, and an optional fraction. A point without a digit after it is not part
of the numeral.
-/

namespace Storyboard.Script

structure Numeral where
  negative : Bool
  whole : List Char
  /-- Empty if there is no fraction. -/
  fraction : List Char
  deriving DecidableEq, Repr

namespace Numeral

/-- The characters it is written with. -/
def text (n : Numeral) : List Char :=
  (if n.negative then ['-'] else []) ++ n.whole ++
    (if n.fraction.isEmpty then [] else '.' :: n.fraction)

def value (n : Numeral) : Float :=
  signedFloat n.negative (Decimal.ofParts n.whole n.fraction 0)

/-- It is a plain row of digits. -/
def isInteger (n : Numeral) : Bool :=
  !n.negative && n.fraction.isEmpty

/-- A minus at the front of `cs`, and what follows. -/
def signAhead : List Char → Bool × List Char
  | '-' :: cs => (true, cs)
  | cs => (false, cs)

/-- The digits after a point at the front of `cs`, and what follows; a point without digits stays. -/
def fractionAhead : List Char → List Char × List Char
  | '.' :: cs =>
    if (cs.takeWhile Char.isDigit).isEmpty then ([], '.' :: cs)
    else (cs.takeWhile Char.isDigit, cs.dropWhile Char.isDigit)
  | cs => ([], cs)

/-- The longest numeral at the front of `cs`, and what follows. -/
def ahead? (cs : List Char) : Option (Numeral × List Char) :=
  let (negative, body) := signAhead cs
  let whole := body.takeWhile Char.isDigit
  if whole.isEmpty then none
  else
    let (fraction, rest) := fractionAhead (body.dropWhile Char.isDigit)
    some (⟨negative, whole, fraction⟩, rest)

theorem sign_append (cs : List Char) :
    (if (signAhead cs).1 then ['-'] else []) ++ (signAhead cs).2 = cs := by
  unfold signAhead
  split <;> simp

theorem fraction_append (cs : List Char) :
    (if (fractionAhead cs).1.isEmpty then [] else '.' :: (fractionAhead cs).1) ++
      (fractionAhead cs).2 = cs := by
  unfold fractionAhead
  split
  · split
    · simp
    · simp_all [List.takeWhile_append_dropWhile]
  · simp

theorem ahead?_append {cs rest : List Char} {n : Numeral} (h : ahead? cs = some (n, rest)) :
    n.text ++ rest = cs := by
  simp only [ahead?] at h
  split at h
  · simp at h
  · cases h
    simp only [text, List.append_assoc, fraction_append, List.takeWhile_append_dropWhile, sign_append]

theorem ahead?_whole_ne_nil {cs rest : List Char} {n : Numeral} (h : ahead? cs = some (n, rest)) :
    n.whole ≠ [] := by
  simp only [ahead?] at h
  split at h
  · simp at h
  · cases h
    simp_all

theorem text_ne_nil {n : Numeral} (h : n.whole ≠ []) : n.text ≠ [] := by
  simp [text, h]

end Numeral
end Storyboard.Script
