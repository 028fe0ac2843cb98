import Storyboard.Proofs.Double.Arithmetic

open Float.Model

namespace Storyboard.Double

open UnpackedFloat (Sign)

variable {m n : Nat} {e f : Int} {x y : Float}

/-- The greatest double below 1. -/
def belowOne : Float := 0.9999999999999999

/-- Its value. -/
def nearlyOne : ℚ := 1 - 1 / 2 ^ 53

theorem isFinite_belowOne : belowOne.isFinite := by
  decide

theorem belowOne_lt : belowOne < 1.0 := by
  decide

theorem valueOf_belowOne : valueOf belowOne = nearlyOne := by
  change unit .positive * magnitude (2 ^ 53 - 1) (-53) = nearlyOne
  norm_num [unit, magnitude, nearlyOne]

theorem nearlyOne_nonneg : 0 ≤ nearlyOne := by
  norm_num [nearlyOne]

/-- With all bits set, a mantissa is the last one before a power of two. -/
theorem magnitude_ones (e : Int) : magnitude (2 ^ 53 - 1) e = magnitude (2 ^ 53) e * nearlyOne := by
  unfold magnitude nearlyOne
  norm_num
  ring

/-- The gap between canonical numbers is at least one place of the lower one, or of the exponent
just below that of the higher one. -/
theorem magnitude_le_of_lt (canonical : Canonical m e) (canonical' : Canonical n f)
    (less : magnitude m e < magnitude n f) : magnitude m e ≤ magnitude n f * nearlyOne := by
  have bits := canonical.bits
  have bits' := canonical'.bits
  rcases lt_trichotomy e f with lower | rfl | higher
  · have leading : 2 ^ 52 ≤ n := by
      have := canonical.least
      exact canonical'.leading.resolve_right (by omega)
    have power : magnitude (2 ^ 53) (f - 1) = magnitude (2 ^ 52) f := by
      rw [magnitude_two_pow, magnitude_two_pow]
      congr 1
      push_cast
      ring
    calc magnitude m e ≤ magnitude (2 ^ 53 - 1) e := magnitude_mono (by omega)
      _ ≤ magnitude (2 ^ 53 - 1) (f - 1) := by
        exact mul_le_mul_of_nonneg_left (zpow_le_zpow_right₀ one_le_two (by omega)) (by norm_num)
      _ = magnitude (2 ^ 52) f * nearlyOne := by rw [magnitude_ones, power]
      _ ≤ magnitude n f * nearlyOne :=
        mul_le_mul_of_nonneg_right (magnitude_mono leading) nearlyOne_nonneg
  · have fewer : m + 1 ≤ n := by
      by_contra more
      exact absurd less (not_lt.2 (magnitude_mono (by omega)))
    have step : (m : ℚ) + 1 ≤ n := by exact_mod_cast fewer
    have small : (n : ℚ) ≤ 2 ^ 53 := by exact_mod_cast bits'.le
    have scaled : (m : ℚ) ≤ n * nearlyOne := by
      unfold nearlyOne
      linarith
    calc magnitude m e ≤ n * nearlyOne * 2 ^ e :=
        mul_le_mul_of_nonneg_right scaled (two_zpow_pos e).le
      _ = magnitude n e * nearlyOne := by
        unfold magnitude
        ring
  · exact absurd less (not_lt.2 (magnitude_lt canonical' canonical (.inl higher)).le)

/-- Between neighbouring doubles there is a gap: what is below a positive double is less by at least
the `2 ^ 53`-rd part of it. -/
theorem valueOf_le_of_lt (hx : x.isFinite) (hy : y.isFinite) (pos : 0 < valueOf y)
    (less : valueOf x < valueOf y) : valueOf x ≤ valueOf y * nearlyOne := by
  have properX := proper_unpack hx
  have properY := proper_unpack hy
  have positive := mul_nonneg pos.le nearlyOne_nonneg
  unfold valueOf at *
  generalize x.toModel.unpack = u at properX less ⊢
  generalize y.toModel.unpack = v at properY pos less positive ⊢
  cases properX with
  | zero s => exact positive
  | @finite s m e canonical hm =>
    cases properY with
    | zero t => exact absurd pos (lt_irrefl 0)
    | @finite t n f canonical' hn =>
      have above := magnitude_pos (e := e) hm
      have below := magnitude_pos (e := f) hn
      cases s <;> cases t <;> simp only [value, unit, one_mul, neg_one_mul] at pos less positive ⊢
      case positive.positive => exact magnitude_le_of_lt canonical canonical' less
      all_goals linarith

end Storyboard.Double
