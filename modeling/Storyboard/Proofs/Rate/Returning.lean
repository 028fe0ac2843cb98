import Storyboard.Proofs.Double.Drift
import Storyboard.Proofs.Rate.Covering

/-!
# Frames that are counted again

The length of a number of frames is turned back into a number of frames. On the way four operations
round, and what they change grows with the number, while the noise that is taken off does not. Main
statement: at every rate up to `2 ^ 21` frames come back as they were, up to `2 ^ 50` at most one is
added, and of up to `2 ^ 53` frames no more than four are added or lost (`count_returns`).
-/

namespace Storyboard

open Double

namespace Double.IsRounded

variable {x : Float}

/-- Zero is not rounded. -/
theorem of_zero (rounded : IsRounded 0 x) : x.isFinite ∧ valueOf x = 0 := by
  have self : IsRounded 0 0.0 := isRounded_valueOf isFinite_zero
  have above := self.le rounded le_rfl
  have below := rounded.le self le_rfl
  have finite := isFinite_of_le isFinite_zero isFinite_zero rounded.isNaN above below
  refine ⟨finite, le_antisymm ?_ ?_⟩
  · exact (le_iff_valueOf finite isFinite_zero).1 below
  · exact (le_iff_valueOf isFinite_zero finite).1 above

end Double.IsRounded

namespace Rate

variable {r : Rate} {k : UInt64} {n : UInt32} {p : ℚ}

theorem moderate_word (pos : 0 < n) : Moderate 32 (n.toNat : ℚ) where
  lower := by
    have one_le : (1 : ℚ) ≤ n.toNat := by
      exact_mod_cast Nat.succ_le_of_lt (UInt32.lt_iff_toNat_lt.1 pos)
    exact one_le.trans' (by norm_num)
  upper := by
    have below : n.toNat ≤ 2 ^ 32 := n.toNat_lt.le
    exact_mod_cast below

theorem moderate_frames (pos : 0 < k.toNat) (few : k.toNat ≤ 2 ^ 53) :
    Moderate 53 (k.toNat : ℚ) where
  lower := by
    have one_le : (1 : ℚ) ≤ k.toNat := by exact_mod_cast pos
    exact one_le.trans' (by norm_num)
  upper := by exact_mod_cast few

/-- Numbers of frames up to `2 ^ 53` are doubles. -/
theorem toFloat_frames (pos : 0 < k.toNat) (few : k.toNat ≤ 2 ^ 53) :
    k.toFloat.isFinite ∧ valueOf k.toFloat = k.toNat := by
  rcases few.lt_or_eq with short | last
  · obtain ⟨m, e, hm, unpack, -, exact⟩ := toFloat_exact pos short
    constructor
    · change k.toFloat.toModel.unpack.isFinite
      rw [unpack]
      rfl
    · rw [valueOf, unpack, value, unit, one_mul, exact]
  · rw [last]
    obtain rfl : k = 9007199254740992 := UInt64.toNat_inj.1 last
    constructor
    · rfl
    · change unit .positive * magnitude (2 ^ 52) 1 = _
      norm_num [unit, magnitude]

/-- On the way to seconds two operations round. -/
theorem lengthOf_drift (num : 0 < r.num) (den : 0 < r.den) (pos : 0 < k.toNat)
    (few : k.toNat ≤ 2 ^ 53) :
    (r.lengthOf k).isFinite ∧ Moderate 119 (valueOf (r.lengthOf k)) ∧
      Drift 2 ((k.toNat : ℚ) * r.den.toNat / r.num.toNat) (valueOf (r.lengthOf k)) := by
  obtain ⟨framesFinite, frames⟩ := toFloat_frames pos few
  obtain ⟨numFinite, numValue⟩ := toFloat_word num
  obtain ⟨denFinite, denValue⟩ := toFloat_word den
  have product := isRounded_mul framesFinite denFinite
  rw [frames, denValue] at product
  have whole := (moderate_frames pos few).mul (moderate_word den)
  obtain ⟨productFinite, first⟩ := product.drift whole (by decide)
  have positive := (moderate_word num).pos
  have quotient := isRounded_div productFinite numFinite (by rw [numValue]; exact positive.ne')
  rw [numValue] at quotient
  have divided := (whole.of_drift first (by decide)).div (moderate_word num)
  obtain ⟨finite, second⟩ := quotient.drift divided (by decide)
  exact ⟨finite, divided.of_drift second (by decide), (first.div positive).trans second⟩

/-- The rate itself is rounded once. -/
theorem perSecond_drift (num : 0 < r.num) (den : 0 < r.den) :
    r.perSecond.isFinite ∧ Moderate 65 (valueOf r.perSecond) ∧
      Drift 1 ((r.num.toNat : ℚ) / r.den.toNat) (valueOf r.perSecond) := by
  obtain ⟨numFinite, numValue⟩ := toFloat_word num
  obtain ⟨denFinite, denValue⟩ := toFloat_word den
  have nonzero : valueOf r.den.toFloat ≠ 0 := by
    rw [denValue]
    exact (moderate_word den).pos.ne'
  have quotient : IsRounded _ r.perSecond := isRounded_div numFinite denFinite nonzero
  rw [numValue, denValue] at quotient
  have divided := (moderate_word num).div (moderate_word den)
  obtain ⟨finite, drift⟩ := quotient.drift divided (by decide)
  exact ⟨finite, divided.of_drift drift (by decide), drift⟩

/-- The product that frames are counted on, for the length of `k` frames. -/
def returned (r : Rate) (k : UInt64) : Float :=
  r.lengthOf k * r.perSecond

theorem returned_zero (num : 0 < r.num) (den : 0 < r.den) :
    (r.returned 0).isFinite ∧ valueOf (r.returned 0) = 0 := by
  obtain ⟨numFinite, numValue⟩ := toFloat_word num
  obtain ⟨denFinite, -⟩ := toFloat_word den
  have none : (0 : UInt64).toFloat.isFinite := rfl
  have zero : valueOf (0 : UInt64).toFloat = 0 := rfl
  have product := isRounded_mul none denFinite
  rw [zero, zero_mul] at product
  obtain ⟨productFinite, productZero⟩ := product.of_zero
  have quotient : IsRounded _ (r.lengthOf 0) :=
    isRounded_div productFinite numFinite (by rw [numValue]; exact (moderate_word num).pos.ne')
  rw [productZero, zero_div] at quotient
  obtain ⟨lengthFinite, lengthZero⟩ := quotient.of_zero
  have last : IsRounded _ (r.returned 0) :=
    isRounded_mul lengthFinite (perSecond_drift num den).1
  rw [lengthZero, zero_mul] at last
  exact last.of_zero

/-- All in all four operations round. -/
theorem returned_drift (num : 0 < r.num) (den : 0 < r.den) (few : k.toNat ≤ 2 ^ 53) :
    (r.returned k).isFinite ∧ Drift 4 (k.toNat : ℚ) (valueOf (r.returned k)) := by
  obtain ⟨rateFinite, rateModerate, rate⟩ := perSecond_drift num den
  have hnum := (moderate_word num).pos
  have hden := (moderate_word den).pos
  rcases Nat.eq_zero_or_pos k.toNat with none | pos
  · obtain rfl : k = 0 := UInt64.toNat_inj.1 none
    obtain ⟨finite, zero⟩ := returned_zero num den
    exact ⟨finite, by simp [zero], by simp [zero]⟩
  · obtain ⟨lengthFinite, lengthModerate, length⟩ := lengthOf_drift num den pos few
    have product : IsRounded _ (r.returned k) := isRounded_mul lengthFinite rateFinite
    have nonneg : (0 : ℚ) ≤ k.toNat * r.den.toNat / r.num.toNat :=
      div_nonneg (mul_nonneg (Nat.cast_nonneg _) hden.le) hnum.le
    have exact : Drift 3 (k.toNat : ℚ) (valueOf (r.lengthOf k) * valueOf r.perSecond) := by
      have both := length.mul rate nonneg (div_nonneg hnum.le hden.le)
      rwa [div_mul_div_comm, mul_assoc, mul_comm (r.den.toNat : ℚ),
        mul_div_cancel_right₀ _ (mul_pos hnum hden).ne'] at both
    obtain ⟨finite, last⟩ := product.drift (lengthModerate.mul rateModerate) (by decide)
    exact ⟨finite, exact.trans last⟩

/-- What four roundings make of a number of frames, in bounds that are linear in it. -/
theorem returned_bounds (num : 0 < r.num) (den : 0 < r.den) (few : k.toNat ≤ 2 ^ 53) :
    let frames : ℚ := k.toNat
    frames - frames / 2 ^ 51 ≤ valueOf (r.returned k) ∧
      valueOf (r.returned k) ≤ frames + frames * (1 / 2 ^ 51 + 1 / 2 ^ 100) := by
  intro frames
  obtain ⟨-, lower, upper⟩ := returned_drift num den few
  have nonneg : 0 ≤ frames := Nat.cast_nonneg _
  have least : 1 - 1 / 2 ^ 51 ≤ (1 - roundoff) ^ 4 := by norm_num [roundoff]
  have most : (1 + roundoff) ^ 4 ≤ 1 + (1 / 2 ^ 51 + 1 / 2 ^ 100) := by norm_num [roundoff]
  have below := mul_le_mul_of_nonneg_left least nonneg
  have above := mul_le_mul_of_nonneg_left most nonneg
  constructor <;> linarith

theorem wholeFrames_zero : wholeFrames 0 = 0 := by
  have below : ⌊0 - noise⌋ = -1 := by
    rw [Int.floor_eq_iff]
    norm_num [noise]
  rw [wholeFrames_eq, below]
  rfl

/-- The product is counted up, once the noise is taken off. -/
theorem returned_count (num : 0 < r.num) (den : 0 < r.den) (few : k.toNat ≤ 2 ^ 53) :
    ((r.framesCovering (r.lengthOf k)).toNat : ℤ) = ⌊valueOf (r.returned k) - noise⌋ + 1 := by
  obtain ⟨finite, drift⟩ := returned_drift num den few
  have count := framesCovering_of_finite finite
  change r.framesCovering (r.lengthOf k) = if valueOf (r.returned k) ≤ 0 then 0 else _ at count
  rw [count, ← wholeFrames_eq]
  rcases (drift.nonneg (Nat.cast_nonneg _)).eq_or_lt with zero | pos
  · rw [← zero, if_pos le_rfl, wholeFrames_zero]
    rfl
  · have fits : valueOf (r.returned k) ≤ 2 ^ 64 - 1 := by
      have bound : (k.toNat : ℚ) ≤ 2 ^ 53 := by exact_mod_cast few
      have := (returned_bounds num den few).2
      linarith
    rw [if_neg (not_le.2 pos)]
    exact_mod_cast toNat_saturate_wholeFrames pos fits

/-- Counting the length of `k` frames gives at most `n` just if the product comes back beyond `n`
by less than the noise, or not at all. -/
theorem count_le_iff (num : 0 < r.num) (den : 0 < r.den) (few : k.toNat ≤ 2 ^ 53) (n : ℤ) :
    ((r.framesCovering (r.lengthOf k)).toNat : ℤ) ≤ n ↔ valueOf (r.returned k) < n + noise := by
  rw [returned_count num den few, Int.add_one_le_iff, Int.floor_lt, sub_lt_iff_lt_add]

/-- It gives at least `n` just if the product is beyond `n - 1` by the noise or more. -/
theorem le_count_iff (num : 0 < r.num) (den : 0 < r.den) (few : k.toNat ≤ 2 ^ 53) (n : ℤ) :
    n ≤ ((r.framesCovering (r.lengthOf k)).toNat : ℤ) ↔
      n - 1 + noise ≤ valueOf (r.returned k) := by
  rw [returned_count num den few, ← sub_le_iff_le_add, Int.le_floor, le_sub_iff_add_le]
  push_cast
  rfl

end Rate

/-- `p` is the product that the frames are counted on again. -/
theorem count_returns {r : Rate} (num : 0 < r.num) (den : 0 < r.den) {k : UInt64}
    (few : k.toNat ≤ 2 ^ 53) :
    let p := valueOf (r.lengthOf k * r.perSecond)
    let count := (r.framesCovering (r.lengthOf k)).toNat
    (count = k.toNat ↔ k.toNat - 1 + valueOf 1e-9 ≤ p ∧ p < k.toNat + valueOf 1e-9) ∧
      (k.toNat ≤ 2 ^ 21 → count = k.toNat) ∧
      (k.toNat ≤ 2 ^ 50 → count = k.toNat ∨ count = k.toNat + 1) ∧
      count ≤ k.toNat + 4 ∧ k.toNat ≤ count + 4 := by
  intro p count
  have atMost (n : ℤ) : (count : ℤ) ≤ n ↔ p < n + Rate.noise := Rate.count_le_iff num den few n
  have atLeast (n : ℤ) : n ≤ (count : ℤ) ↔ n - 1 + Rate.noise ≤ p := Rate.le_count_iff num den few n
  obtain ⟨lower, upper⟩ : (k.toNat : ℚ) - k.toNat / 2 ^ 51 ≤ p ∧
      p ≤ k.toNat + k.toNat * (1 / 2 ^ 51 + 1 / 2 ^ 100) := Rate.returned_bounds num den few
  have exactly : count = k.toNat ↔ k.toNat - 1 + Rate.noise ≤ p ∧ p < k.toNat + Rate.noise := by
    rw [← Nat.cast_inj (R := ℤ), le_antisymm_iff, atMost, atLeast, and_comm, Int.cast_natCast]
  have noise : 1 / 2 ^ 30 + 1 / 2 ^ 79 < Rate.noise ∧ 2 * Rate.noise < 1 := by
    norm_num [Rate.noise]
  rw [Rate.valueOf_noise]
  refine ⟨exactly, ?_, ?_, ?_, ?_⟩
  · intro short
    have bound : (k.toNat : ℚ) ≤ 2 ^ 21 := by exact_mod_cast short
    exact exactly.2 ⟨by linarith, by linarith⟩
  · intro middling
    have bound : (k.toNat : ℚ) ≤ 2 ^ 50 := by exact_mod_cast middling
    have least := (atLeast k.toNat).2 (by push_cast; linarith)
    have most := (atMost (k.toNat + 1)).2 (by push_cast; linarith)
    omega
  · have bound : (k.toNat : ℚ) ≤ 2 ^ 53 := by exact_mod_cast few
    have most := (atMost (k.toNat + 4)).2 (by push_cast; linarith)
    omega
  · have bound : (k.toNat : ℚ) ≤ 2 ^ 53 := by exact_mod_cast few
    have least := (atLeast (k.toNat - 4)).2 (by push_cast; linarith)
    omega

/-- Frames of a film as it is shown on television. -/
def film : Rate := ⟨24000, 1001⟩

theorem film_more : film.framesCovering (film.lengthOf 8388609) = 8388610 := by
  decide +kernel

/-- A few frames come back, and of more than `2 ^ 23` there is one more. -/
theorem film_returns :
    (film.framesCovering (film.lengthOf 123)).toNat = 123 ∧
      (film.framesCovering (film.lengthOf 8388609)).toNat = 8388609 + 1 ∧
      let p := valueOf (film.lengthOf 8388609 * film.perSecond)
      ¬ (8388609 - 1 + valueOf 1e-9 ≤ p ∧ p < 8388609 + valueOf 1e-9) := by
  have num : 0 < film.num := by decide
  have den : 0 < film.den := by decide
  obtain ⟨-, few, -⟩ := count_returns num den (k := 123) (by decide)
  obtain ⟨exactly, -, several, -⟩ := count_returns num den (k := 8388609) (by decide)
  have changed : (film.framesCovering (film.lengthOf 8388609)).toNat ≠ 8388609 := by
    rw [film_more]
    decide
  exact ⟨few (by decide), (several (by decide)).resolve_left changed,
    fun inside => changed (exactly.2 inside)⟩

/-- Not all numbers of frames come back. -/
theorem film_longer :
    ¬ ∀ (r : Rate) (k : UInt64), 0 < r.num → 0 < r.den → k.toNat ≤ 2 ^ 53 →
      r.framesCovering (r.lengthOf k) = k := by
  intro always
  have same := always film 8388609 (by decide) (by decide) (by decide)
  rw [film_more] at same
  exact absurd same (by decide)

end Storyboard
