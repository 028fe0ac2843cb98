import Storyboard.Proofs.Double.Order

/-!
# Doubles in a row

Doubles that are numbers are compared as their ranks are: first by sign and kind, then by exponent,
then by mantissa. So their order is total and transitive (`le_iff_place`, `lt_iff_place`); the two
zeros have one rank.
-/

open Float.Model

namespace Storyboard.Double

open UnpackedFloat (Sign)

/-- Where a number stands among the others. -/
def rank : UnpackedFloat → ℤ ×ₗ ℤ ×ₗ ℤ
  | .infinity .negative => toLex (-2, toLex (0, 0))
  | .finite .negative m e _ => toLex (-1, toLex (-e, -m))
  | .zero _ => toLex (0, toLex (0, 0))
  | .finite .positive m e _ => toLex (1, toLex (e, m))
  | .infinity .positive => toLex (2, toLex (0, 0))
  | .notANumber => toLex (3, toLex (0, 0))

/-- The rank of a double. -/
def place (x : Float) : ℤ ×ₗ ℤ ×ₗ ℤ :=
  rank x.toModel.unpack

variable {u v : UnpackedFloat} {x y z : Float}

theorem compare_rank (a b c a' b' c' : ℤ) :
    compare (toLex (a, toLex (b, c)) : ℤ ×ₗ ℤ ×ₗ ℤ) (toLex (a', toLex (b', c'))) =
      (compare a a').then ((compare b b').then (compare c c')) := by
  simp only [Prod.Lex.compare_def, compareLex, compareOn, ofLex_toLex]

theorem compare_neg (a b : ℤ) : compare (-a) (-b) = (compare a b).swap := by
  rcases lt_trichotomy a b with less | same | more
  · rw [compare_lt_iff_lt.2 less, compare_gt_iff_gt.2 (neg_lt_neg less)]
    rfl
  · rw [same, compare_eq_iff_eq.2 rfl, compare_eq_iff_eq.2 rfl]
    rfl
  · rw [compare_gt_iff_gt.2 more, compare_lt_iff_lt.2 (neg_lt_neg more)]
    rfl

theorem compare_natCast (m n : Nat) : compare (m : ℤ) n = compare m n := by
  rcases lt_trichotomy m n with less | same | more
  · rw [compare_lt_iff_lt.2 less, compare_lt_iff_lt.2 (Int.ofNat_lt.2 less)]
  · rw [same, compare_eq_iff_eq.2 rfl, compare_eq_iff_eq.2 rfl]
  · rw [compare_gt_iff_gt.2 more, compare_gt_iff_gt.2 (Int.ofNat_lt.2 more)]

/-- Numbers compare as their ranks do. -/
theorem compare_eq_rank (hu : u.isNaN = false) (hv : v.isNaN = false) :
    u.compare v = some (compare (rank u) (rank v)) := by
  -- Unless both are finite and have one sign, the sign and the kind decide.
  cases u with
  | notANumber => cases hu
  | infinity s =>
    cases v with
    | notANumber => cases hv
    | infinity t => cases s <;> cases t <;> rfl
    | zero t => cases s <;> rfl
    | finite t n f pos => cases s <;> cases t <;> rfl
  | zero s =>
    cases v with
    | notANumber => cases hv
    | infinity t => cases t <;> rfl
    | zero t => rfl
    | finite t n f pos => cases t <;> rfl
  | finite s m e pos =>
    cases v with
    | notANumber => cases hv
    | infinity t => cases s <;> cases t <;> rfl
    | zero t => cases s <;> rfl
    | finite t n f pos' =>
      cases s <;> cases t
      case negative.negative =>
        change some ((compare e f).then (compare m n)).swap = _
        rw [rank, rank, compare_rank, compare_neg e f, compare_neg m n, compare_natCast,
          Ordering.swap_then]
        rfl
      case positive.positive =>
        change some ((compare e f).then (compare m n)) = _
        rw [rank, rank, compare_rank, compare_natCast]
        rfl
      all_goals rfl

theorem rank_infinity_le (hu : u.isNaN = false) : rank (.infinity .negative) ≤ rank u := by
  cases u with
  | notANumber => cases hu
  | infinity s => cases s <;> decide
  | zero s => cases s <;> decide
  | finite s m e pos => cases s <;> simp [rank, Prod.Lex.toLex_le_toLex]

/-- Doubles that are numbers are in the order of their ranks, so that their order is total. -/
theorem le_iff_place (hx : x.isNaN = false) (hy : y.isNaN = false) : x ≤ y ↔ place x ≤ place y := by
  rw [le_iff, UnpackedFloat.le, compare_eq_rank hx hy, Option.any_some]
  rw [Ordering.isLE_iff_ne_gt]
  exact compare_le_iff_le

theorem lt_iff_place (hx : x.isNaN = false) (hy : y.isNaN = false) : x < y ↔ place x < place y := by
  rw [lt_iff rfl, compare_eq_rank hx hy, Option.some.injEq]
  exact compare_lt_iff_lt

theorem infinity_le (hx : x.isNaN = false) (infinite : y.toModel.unpack = .infinity .negative) :
    y ≤ x := by
  have number : y.isNaN = false := congrArg UnpackedFloat.isNaN infinite
  rw [le_iff_place number hx, place, infinite]
  exact rank_infinity_le hx

theorem le_of_not_lt (hx : x.isNaN = false) (hy : y.isNaN = false) (h : ¬ x < y) : y ≤ x := by
  rw [lt_iff_place hx hy, not_lt] at h
  exact (le_iff_place hy hx).2 h

theorem not_le_of_lt (less : x < y) : ¬ y ≤ x := by
  obtain ⟨hx, hy⟩ := isNaN_of_le (le_of_lt less)
  rw [lt_iff_place hx hy] at less
  rw [le_iff_place hy hx]
  exact not_le.2 less

/-- Nothing is below minus infinity. -/
theorem not_lt_infinity (infinite : y.toModel.unpack = .infinity .negative) : ¬ x < y := by
  intro less
  have number := (isNaN_of_le (le_of_lt less)).1
  exact not_le_of_lt less (infinity_le number infinite)

theorem le_trans (first : x ≤ y) (second : y ≤ z) : x ≤ z := by
  obtain ⟨hx, hy⟩ := isNaN_of_le first
  have hz := (isNaN_of_le second).2
  rw [le_iff_place hx hy] at first
  rw [le_iff_place hy hz] at second
  exact (le_iff_place hx hz).2 (first.trans second)

theorem lt_of_le_of_lt (first : x ≤ y) (second : y < z) : x < z := by
  obtain ⟨hx, hy⟩ := isNaN_of_le first
  have hz := (isNaN_of_le (le_of_lt second)).2
  rw [le_iff_place hx hy] at first
  rw [lt_iff_place hy hz] at second
  exact (lt_iff_place hx hz).2 (first.trans_lt second)

theorem lt_of_lt_of_le (first : x < y) (second : y ≤ z) : x < z := by
  obtain ⟨hx, hy⟩ := isNaN_of_le (le_of_lt first)
  have hz := (isNaN_of_le second).2
  rw [lt_iff_place hx hy] at first
  rw [le_iff_place hy hz] at second
  exact (lt_iff_place hx hz).2 (first.trans_le second)

/-- Doubles in one place are equal, apart from the zeros. -/
theorem eq_of_place {m : Nat} {e : Int} {pos : 0 < m}
    (positive : y.toModel.unpack = .finite .positive m e pos) (same : place x = place y) :
    x = y := by
  apply eq_of_unpack
  rw [place, place, positive] at same
  rw [positive]
  generalize x.toModel.unpack = u at same ⊢
  cases u with
  | notANumber => cases same
  | infinity s => cases s <;> cases same
  | zero => cases same
  | finite s n f pos' =>
    cases s with
    | positive =>
      simp only [rank, EmbeddingLike.apply_eq_iff_eq, Prod.mk.injEq, true_and, Nat.cast_inj] at same
      obtain ⟨rfl, rfl⟩ := same
      rfl
    | negative => cases same

end Storyboard.Double
