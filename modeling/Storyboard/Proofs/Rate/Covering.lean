import Storyboard.Proofs.Double.Spacing
import Storyboard.Proofs.Rate.FrameCount

namespace Storyboard

open Double

variable {x : Float}

namespace Rate

/-- The noise is a double itself. -/
theorem valueOf_noise : valueOf 1e-9 = noise := by
  change unit .positive * magnitude 4835703278458517 (-82) = noise
  norm_num [unit, magnitude, noise]

/-- Whole frames reach the product up to noise, and one fewer would fall short. -/
theorem wholeFrames_bounds (p : ℚ) : (wholeFrames p : ℚ) - 1 < p ∧ p < wholeFrames p + noise := by
  have pos := noise_pos
  have floor := Int.floor_le (p - noise)
  have next := Int.lt_floor_add_one (p - noise)
  rw [wholeFrames_eq]
  push_cast
  constructor <;> linarith

theorem wholeFrames_nonneg {p : ℚ} (pos : 0 < p) : 0 ≤ wholeFrames p := by
  have covered := (wholeFrames_bounds p).2
  have small := two_noise_lt_one
  have : (-1 : ℚ) < wholeFrames p := by linarith
  have : -1 < wholeFrames p := by exact_mod_cast this
  omega

/-- There is no double between the largest word and the next power of two. -/
theorem valueOf_le_word (finite : x.isFinite) (fits : valueOf x < 2 ^ 64) :
    valueOf x ≤ 2 ^ 64 - 1 := by
  have power : valueOf 18446744073709551616.0 = 2 ^ 64 := by
    change unit .positive * magnitude (2 ^ 52) 12 = 2 ^ 64
    norm_num [unit, magnitude]
  have gap := valueOf_le_of_lt (y := 18446744073709551616.0) finite (by decide)
    (by norm_num [power]) (by rwa [power])
  rw [power] at gap
  have : (2 : ℚ) ^ 64 * nearlyOne ≤ 2 ^ 64 - 1 := by norm_num [nearlyOne]
  linarith

/-- What fits into a word is counted in full. -/
theorem toNat_saturate_wholeFrames {p : ℚ} (pos : 0 < p) (fits : p ≤ 2 ^ 64 - 1) :
    ((saturate (wholeFrames p)).toNat : ℚ) = wholeFrames p := by
  have nonneg := wholeFrames_nonneg pos
  have below : wholeFrames p < 2 ^ 64 := by
    have fewer := (wholeFrames_bounds p).1
    have : (wholeFrames p : ℚ) < 2 ^ 64 := by linarith
    exact_mod_cast this
  have whole : ((wholeFrames p).toNat : ℤ) = wholeFrames p := Int.toNat_of_nonneg nonneg
  rw [toNat_saturate, min_eq_left (by omega)]
  exact_mod_cast whole

end Rate

namespace FramePlan

variable {rate : Rate} {secs : Float} {plan : FramePlan}

/-- A plan has the frames that its rate counts, and at least one. -/
theorem frameCount_of_ofDuration (accepted : ofDuration rate secs = .ok plan) :
    plan.frameCount = max (rate.framesCovering secs) 1 := by
  rw [ofDuration] at accepted
  split at accepted
  · cases accepted
  · cases accepted
    rfl

/-- The count as a number. -/
theorem toNat_frameCount (accepted : ofDuration rate secs = .ok plan)
    (finite : (secs * rate.perSecond).isFinite) (fits : valueOf (secs * rate.perSecond) < 2 ^ 64) :
    (plan.frameCount.toNat : ℚ) =
      let p := valueOf (secs * rate.perSecond)
      max (if p ≤ 0 then 0 else (Rate.wholeFrames p : ℚ)) 1 := by
  rw [frameCount_of_ofDuration accepted, toNat_max_one, Nat.cast_max, Nat.cast_one,
    Rate.framesCovering_of_finite finite]
  simp only
  by_cases none : valueOf (secs * rate.perSecond) ≤ 0
  · rw [if_pos none, if_pos none]
    rfl
  · rw [if_neg none, if_neg none,
      Rate.toNat_saturate_wholeFrames (not_le.1 none) (Rate.valueOf_le_word finite fits)]

end FramePlan

/-- At every rate and for every length that is accepted: there is a frame, the last frame is needed
unless it is the only one, and only noise is left uncovered. -/
theorem covers_tightly {rate : Rate} {secs : Float} {plan : FramePlan}
    (accepted : FramePlan.ofDuration rate secs = .ok plan)
    (finite : (secs * rate.perSecond).isFinite) (fits : valueOf (secs * rate.perSecond) < 2 ^ 64) :
    let p := valueOf (secs * rate.perSecond)
    let n : ℚ := plan.frameCount.toNat
    1 ≤ n ∧ (n = 1 ∨ n - 1 < p) ∧ p < n + valueOf 1e-9 := by
  intro p n
  have count : n = max (if p ≤ 0 then 0 else (Rate.wholeFrames p : ℚ)) 1 :=
    FramePlan.toNat_frameCount accepted finite fits
  have noise := Rate.noise_pos
  obtain ⟨needed, covered⟩ := Rate.wholeFrames_bounds p
  rw [Rate.valueOf_noise]
  by_cases none : p ≤ 0
  · rw [if_pos none, max_eq_right zero_le_one] at count
    exact ⟨count.ge, .inl count, by linarith⟩
  · rw [if_neg none] at count
    rcases le_total (Rate.wholeFrames p : ℚ) 1 with single | several
    · rw [max_eq_right single] at count
      exact ⟨count.ge, .inl count, by linarith⟩
    · rw [max_eq_left several] at count
      exact ⟨by linarith, .inr (by linarith), by linarith⟩

/-- Seven hundredths of a second at a hundred frames per second: the product is above 7, but only by
noise. -/
theorem noisy_covered :
    ∃ plan, FramePlan.ofDuration ⟨100, 1⟩ 0.07 = .ok plan ∧ plan.frameCount = 7 ∧
      let p := valueOf (0.07 * (⟨100, 1⟩ : Rate).perSecond)
      let n : ℚ := plan.frameCount.toNat
      7 < p ∧ 1 ≤ n ∧ (n = 1 ∨ n - 1 < p) ∧ p < n + valueOf 1e-9 := by
  have length : IsLength 0.07 := ⟨by decide, by decide⟩
  have accepted := FramePlan.ofDuration_of_isLength length ⟨100, 1⟩
  have product : valueOf (0.07 * (⟨100, 1⟩ : Rate).perSecond) = 7 + 1 / 2 ^ 50 := by
    change unit .positive * magnitude 7881299347898369 (-50) = _
    norm_num [unit, magnitude]
  refine ⟨_, accepted, by decide +kernel, ?_, covers_tightly accepted (by decide +kernel) ?_⟩
  · rw [product]
    norm_num
  · rw [product]
    norm_num

end Storyboard
