import Storyboard.Proofs.Double.Arithmetic
import Storyboard.Proofs.Sampling.Accepted

/-!
# How many frames a length gets

Frames are counted on the exact value of a product of doubles. Main statement: a longer scene never
gets fewer frames, as long as that product is finite (`longer_not_fewer`). A length whose product is
too large for a double gets a single frame (`overlong_fewer`).
-/

namespace Storyboard

open Double Float.Model

variable {x y : Float}

theorem mkRat_eq_magnitude (m : Nat) (e : Int) :
    mkRat (Binary.numerator ⟨m, e⟩) (Binary.denominator ⟨m, e⟩) = magnitude m e := by
  rw [Rat.mkRat_eq_div]
  have split : (2 : ℚ) ^ e = 2 ^ e.toNat / 2 ^ (-e).toNat := by
    rw [← zpow_natCast, ← zpow_natCast, ← zpow_sub₀ two_ne_zero]
    congr 1
    omega
  rw [magnitude, split, ← mul_div_assoc]
  simp [Binary.numerator, Binary.denominator]

theorem exactValue?_of_finite (finite : x.isFinite) : exactValue? x = some (valueOf x) := by
  change x.toModel.unpack.isFinite at finite
  unfold exactValue? Binary.ofFloat? isSigned valueOf
  generalize x.toModel.unpack = u at finite
  cases u with
  | notANumber => cases finite
  | infinity => cases finite
  | zero s => cases s <;> rfl
  | finite s m e pos =>
    cases s <;> simp [mkRat_eq_magnitude, value, unit]

theorem exactValue?_of_not_finite (infinite : ¬ x.isFinite) : exactValue? x = none := by
  change ¬ x.toModel.unpack.isFinite at infinite
  unfold exactValue? Binary.ofFloat?
  generalize x.toModel.unpack = u at infinite
  cases u with
  | notANumber => rfl
  | infinity => rfl
  | zero => exact absurd rfl infinite
  | finite => exact absurd rfl infinite

namespace Rate

variable {r : Rate}

theorem toFloat_word {n : UInt32} (pos : 0 < n) :
    n.toFloat.isFinite ∧ valueOf n.toFloat = n.toNat := by
  have positive : 0 < n.toUInt64.toNat := UInt32.lt_iff_toNat_lt.1 pos
  have short : n.toUInt64.toNat < 2 ^ 53 := lt_trans n.toNat_lt (by decide)
  obtain ⟨m, e, hm, unpack, -, exact⟩ := toFloat_exact positive short
  change n.toFloat.toModel.unpack = _ at unpack
  constructor
  · change n.toFloat.toModel.unpack.isFinite
    rw [unpack]
    rfl
  · rw [valueOf, unpack, value, unit, one_mul, exact]
    rfl

/-- The frames per second of a rate are a finite double, though it need not be the exact
quotient. -/
theorem perSecond_finite (num : 0 < r.num) (den : 0 < r.den) :
    r.perSecond.isFinite ∧ 0 ≤ valueOf r.perSecond := by
  obtain ⟨numFinite, numValue⟩ := toFloat_word num
  obtain ⟨denFinite, denValue⟩ := toFloat_word den
  have one_le : (1 : ℚ) ≤ r.den.toNat := by
    exact_mod_cast Nat.succ_le_of_lt (UInt32.lt_iff_toNat_lt.1 den)
  have nonneg : (0 : ℚ) ≤ r.num.toNat := Nat.cast_nonneg _
  have rounded : IsRounded (valueOf r.num.toFloat / valueOf r.den.toFloat) r.perSecond :=
    isRounded_div numFinite denFinite (by rw [denValue]; linarith)
  rw [numValue, denValue] at rounded
  have zero : (0.0 : Float).isFinite := rfl
  have above : 0.0 ≤ r.perSecond :=
    (isRounded_valueOf zero).le rounded (div_nonneg nonneg (by linarith))
  have below : r.perSecond ≤ r.num.toFloat := by
    refine rounded.le (isRounded_valueOf numFinite) ?_
    rw [numValue]
    exact div_le_self nonneg one_le
  have finite := isFinite_of_le zero numFinite rounded.isNaN above below
  exact ⟨finite, (le_iff_valueOf zero finite).1 above⟩

theorem noise_pos : 0 < noise := by
  rw [noise]
  norm_num

theorem two_noise_lt_one : 2 * noise < 1 := by
  rw [noise]
  norm_num

theorem nearest_bounds (p : ℚ) : (nearest p : ℚ) ≤ p + 1 / 2 ∧ p + 1 / 2 < nearest p + 1 :=
  ⟨Int.floor_le (p + 1 / 2), Int.lt_floor_add_one (p + 1 / 2)⟩

theorem abs_lt_iff {a b : ℚ} : a.abs < b ↔ -b < a ∧ a < b := by
  rcases le_total 0 a with nonneg | nonpos
  · rw [Rat.abs_of_nonneg nonneg]
    exact ⟨fun less => ⟨by linarith, less⟩, fun both => both.2⟩
  · rw [Rat.abs_of_nonpos nonpos]
    exact ⟨fun less => ⟨by linarith, by linarith⟩, fun both => by linarith⟩

/-- The next whole number up, once the noise is taken off. -/
theorem wholeFrames_eq (p : ℚ) : wholeFrames p = ⌊p - noise⌋ + 1 := by
  generalize hn : ⌊p - noise⌋ + 1 = n
  have floor : ⌊p - noise⌋ = n - 1 := by omega
  rw [Int.floor_eq_iff] at floor
  push_cast at floor
  obtain ⟨above, below⟩ := floor
  have pos := noise_pos
  have small := two_noise_lt_one
  obtain ⟨lower, upper⟩ := nearest_bounds p
  rw [wholeFrames]
  by_cases near : (p - nearest p).abs < noise
  · rw [if_pos near]
    rw [abs_lt_iff] at near
    have le : ((n : ℤ) : ℚ) < nearest p + 1 := by linarith
    have ge : ((nearest p : ℤ) : ℚ) < n + 1 := by linarith
    have le : n < nearest p + 1 := by exact_mod_cast le
    have ge : nearest p < n + 1 := by exact_mod_cast ge
    omega
  · rw [if_neg near]
    rw [abs_lt_iff] at near
    have le : p ≤ n := by
      -- Above `n` there would only be noise, and `n` would be the nearest.
      by_contra more
      have more : (n : ℚ) < p := not_le.1 more
      have le : ((n : ℤ) : ℚ) < nearest p + 1 := by linarith
      have ge : ((nearest p : ℤ) : ℚ) < n + 1 := by linarith
      have le : n < nearest p + 1 := by exact_mod_cast le
      have ge : nearest p < n + 1 := by exact_mod_cast ge
      obtain rfl : nearest p = n := by omega
      exact near ⟨by linarith, by linarith⟩
    have up : p.ceil ≤ n := Rat.ceil_le_iff.2 le
    have down : n - 1 < p.ceil := by
      rw [Rat.lt_ceil_iff]
      push_cast
      linarith
    omega

theorem wholeFrames_mono {p q : ℚ} (le : p ≤ q) : wholeFrames p ≤ wholeFrames q := by
  rw [wholeFrames_eq, wholeFrames_eq]
  have := Int.floor_le_floor (sub_le_sub_right le noise)
  omega

theorem toNat_saturate (n : Int) : (saturate n).toNat = min n.toNat (2 ^ 64 - 1) := by
  unfold saturate
  split
  · rename_i fits
    change n.toNat < 2 ^ 64 at fits
    rw [UInt64.toNat_ofNat_of_lt' fits]
    omega
  · rename_i large
    change ¬ n.toNat < 2 ^ 64 at large
    rw [UInt64.toNat_ofNat_of_lt' (by decide)]
    change 2 ^ 64 - 1 = _
    omega

/-- For a finite product, counting goes by its exact value. -/
theorem framesCovering_of_finite {secs : Float} (finite : (secs * r.perSecond).isFinite) :
    r.framesCovering secs =
      let p := valueOf (secs * r.perSecond)
      if p ≤ 0 then 0 else saturate (wholeFrames p) := by
  rw [framesCovering, exactValue?_of_finite finite]

/-- The count goes up with the product. -/
theorem framesCovering_mono {x y : Float} (hx : (x * r.perSecond).isFinite)
    (hy : (y * r.perSecond).isFinite)
    (le : valueOf (x * r.perSecond) ≤ valueOf (y * r.perSecond)) :
    r.framesCovering x ≤ r.framesCovering y := by
  rw [framesCovering_of_finite hx, framesCovering_of_finite hy, UInt64.le_iff_toNat_le]
  simp only
  by_cases none : valueOf (x * r.perSecond) ≤ 0
  · rw [if_pos none]
    exact Nat.zero_le _
  · have some : ¬ valueOf (y * r.perSecond) ≤ 0 := fun zero => none (le.trans zero)
    rw [if_neg none, if_neg some, toNat_saturate, toNat_saturate]
    have := Int.toNat_le_toNat (wholeFrames_mono le)
    omega

end Rate

theorem toNat_max_one (n : UInt64) : (max n 1).toNat = max n.toNat 1 := by
  change (if n ≤ 1 then 1 else n).toNat = _
  split
  · rename_i below
    rw [UInt64.le_iff_toNat_le] at below
    exact (max_eq_right below).symm
  · rename_i above
    rw [UInt64.le_iff_toNat_le] at above
    exact (max_eq_left (not_le.1 above).le).symm

theorem max_one_mono {a b : UInt64} (le : a ≤ b) : max a 1 ≤ max b 1 := by
  rw [UInt64.le_iff_toNat_le] at le ⊢
  rw [toNat_max_one, toNat_max_one]
  exact max_le_max_right 1 le

/-- A longer scene has at least as many frames, unless its length has no finite product with the
rate: then it has one. -/
theorem longer_not_fewer {rate : Rate} (num : 0 < rate.num) (den : 0 < rate.den)
    {shorter longer : Float} (length : IsLength shorter) (finite : longer.isFinite)
    (le : shorter ≤ longer) :
    ∃ p q, FramePlan.ofDuration rate shorter = .ok p ∧ FramePlan.ofDuration rate longer = .ok q ∧
      ((longer * rate.perSecond).isFinite → p.frameCount ≤ q.frameCount) ∧
      (¬ (longer * rate.perSecond).isFinite → q.frameCount = 1) := by
  refine ⟨_, _, FramePlan.ofDuration_of_isLength length rate,
    FramePlan.ofDuration_of_isLength (length.of_le finite le) rate, ?_, ?_⟩
  · intro product
    obtain ⟨rateFinite, rateNonneg⟩ := rate.perSecond_finite num den
    have zero : (0.0 : Float).isFinite := rfl
    have first := isRounded_mul length.finite rateFinite
    have second := isRounded_mul finite rateFinite
    have ordered := mul_le_mul_of_nonneg_right ((le_iff_valueOf length.finite finite).1 le) rateNonneg
    have below := first.le second ordered
    have above : 0.0 ≤ shorter * rate.perSecond :=
      (isRounded_valueOf zero).le first
        (mul_nonneg ((le_iff_valueOf zero length.finite).1 length.nonneg) rateNonneg)
    have product' := isFinite_of_le zero product first.isNaN above below
    exact max_one_mono (Rate.framesCovering_mono product' product
      ((le_iff_valueOf product' product).1 below))
  · intro overflow
    rw [Rate.framesCovering, exactValue?_of_not_finite overflow]
    rfl

/-- The greatest double. -/
def greatestLength : Float := 1.7976931348623157e308

/-- Two great lengths at thirty frames per second: one whose product with the rate is finite, and the
greatest one. -/
theorem great_lengths :
    ((1e300 : Float).isFinite ∧ (1e18 : Float) ≤ 1e300 ∧
      (1e300 * (⟨30, 1⟩ : Rate).perSecond).isFinite) ∧
    (greatestLength.isFinite ∧ 0.0 ≤ greatestLength ∧ 1.0 ≤ greatestLength) ∧
      ¬ max ((⟨30, 1⟩ : Rate).framesCovering 1.0) 1 ≤
        max ((⟨30, 1⟩ : Rate).framesCovering greatestLength) 1 := by
  decide +kernel

/-- At thirty frames per second, a length that fills the word and a still longer one. -/
theorem endless_not_fewer :
    ∃ p q, FramePlan.ofDuration ⟨30, 1⟩ 1e18 = .ok p ∧ FramePlan.ofDuration ⟨30, 1⟩ 1e300 = .ok q ∧
      p.frameCount ≤ q.frameCount := by
  have length : IsLength 1e18 := ⟨by decide, by decide⟩
  obtain ⟨⟨finite, le, product⟩, -⟩ := great_lengths
  have rate : 0 < (⟨30, 1⟩ : Rate).num ∧ 0 < (⟨30, 1⟩ : Rate).den := by decide
  obtain ⟨p, q, first, second, fewer, -⟩ := longer_not_fewer rate.1 rate.2 length finite le
  exact ⟨p, q, first, second, fewer product⟩

/-- The greatest length gets one frame, and so fewer than a second. -/
theorem overlong_fewer :
    ¬ ∀ (rate : Rate) (shorter longer : Float), 0 < rate.num → 0 < rate.den → IsLength shorter →
      longer.isFinite → shorter ≤ longer → ∀ p q, FramePlan.ofDuration rate shorter = .ok p →
        FramePlan.ofDuration rate longer = .ok q → p.frameCount ≤ q.frameCount := by
  intro never
  obtain ⟨-, ⟨finite, nonneg, le⟩, fewer⟩ := great_lengths
  have second : IsLength 1.0 := ⟨by decide, by decide⟩
  have longest : IsLength greatestLength := ⟨finite, nonneg⟩
  have ordered := never ⟨30, 1⟩ 1.0 greatestLength (by decide) (by decide) second finite le _ _
    (FramePlan.ofDuration_of_isLength second _) (FramePlan.ofDuration_of_isLength longest _)
  exact fewer ordered

end Storyboard
