import Storyboard.Proofs.Double.Stored

open Float.Model

namespace Storyboard.Double

open UnpackedFloat (Sign ExtendedMantissa Accuracy shiftToExponent shiftToTargetExponent
  roundWithAccuracy)

/-- A mantissa without its last `k` bits: the nearest one, and of two the even one. -/
def rounded (m k : Nat) : Nat :=
  (ExtendedMantissa.ofMantissaAndAccuracy m .exact >>> k).roundedMantissa

theorem shiftRight_succ (em : ExtendedMantissa) (k : Nat) :
    em >>> (k + 1) = (em >>> k).shiftRightOne := rfl

theorem shiftRight_mantissa (em : ExtendedMantissa) (k : Nat) :
    (em >>> k).mantissa = em.mantissa / 2 ^ k := by
  induction k with
  | zero => simp [HShiftRight.hShiftRight, Nat.repeat]
  | succ k ih =>
    rw [shiftRight_succ, ExtendedMantissa.shiftRightOne, ih, Nat.div_div_eq_div_mul, Nat.pow_succ]

/-- Zeros that are shifted out leave no remainder. -/
theorem shiftRight_exact {m k : Nat} (h : 2 ^ k ∣ m) :
    ExtendedMantissa.ofMantissaAndAccuracy m .exact >>> k = ⟨m / 2 ^ k, false, false⟩ := by
  induction k with
  | zero => simp [HShiftRight.hShiftRight, Nat.repeat, ExtendedMantissa.ofMantissaAndAccuracy]
  | succ k ih =>
    obtain ⟨c, rfl⟩ := h
    have half : 2 ^ (k + 1) * c / 2 ^ k = 2 * c := by
      rw [Nat.pow_succ, Nat.mul_assoc, Nat.mul_div_cancel_left _ (Nat.two_pow_pos k)]
    rw [shiftRight_succ, ih ⟨2 * c, by rw [Nat.pow_succ, Nat.mul_assoc]⟩, half,
      Nat.mul_div_cancel_left _ (Nat.two_pow_pos _)]
    simp [ExtendedMantissa.shiftRightOne]

theorem rounded_of_dvd {m k : Nat} (h : 2 ^ k ∣ m) : rounded m k = m / 2 ^ k := by
  rw [rounded, shiftRight_exact h]
  rfl

theorem roundedMantissa_bounds (em : ExtendedMantissa) :
    em.mantissa ≤ em.roundedMantissa ∧ em.roundedMantissa ≤ em.mantissa + 1 := by
  obtain ⟨n, r, t⟩ := em
  cases r <;> cases t <;>
    simp only [ExtendedMantissa.roundedMantissa, ExtendedMantissa.accuracy,
      Accuracy.roundToNearestEven] <;> omega

theorem mantissa_ofMantissaAndAccuracy (m : Nat) (acc : Accuracy) :
    (ExtendedMantissa.ofMantissaAndAccuracy m acc).mantissa = m := by
  cases acc with
  | exact => rfl
  | inexact o => cases o <;> rfl

/-- A shift loses less than one place, and rounding adds at most that one. -/
theorem shifted_bounds (m k : Nat) (acc : Accuracy) :
    let n := (ExtendedMantissa.ofMantissaAndAccuracy m acc >>> k).roundedMantissa
    m / 2 ^ k ≤ n ∧ n ≤ m / 2 ^ k + 1 := by
  have floor : (ExtendedMantissa.ofMantissaAndAccuracy m acc >>> k).mantissa = m / 2 ^ k := by
    rw [shiftRight_mantissa, mantissa_ofMantissaAndAccuracy]
  rw [← floor]
  exact roundedMantissa_bounds _

theorem rounded_bounds (m k : Nat) : m / 2 ^ k ≤ rounded m k ∧ rounded m k ≤ m / 2 ^ k + 1 :=
  shifted_bounds m k .exact

/-- The exponent that a number is stored with. -/
def storedExponent (m : Nat) (e : Int) : Int :=
  max ((m.log2 : Int) + e - 52) (-1074)

theorem targetExponent_eq (m : Nat) (e : Int) :
    Format.binary64.targetExponent (totalExponent m e) = storedExponent m e := by
  simp only [Format.targetExponent, totalExponent, storedExponent]
  change max ((m.log2 : Int) + 1 + e - (53 : Nat)) (-1074) = _
  omega

theorem shift_stays {m : Nat} {e : Int} (bits : m < 2 ^ 53) (least : -1074 ≤ e) :
    shiftToTargetExponent Format.binary64 m e .exact = (⟨m, false, false⟩, e) := by
  have short : m.log2 ≤ 52 := by
    by_cases h : m = 0
    · subst h; decide
    · have := (Nat.log2_lt h).2 bits
      omega
  have none : (storedExponent m e - e).toNat = 0 := by
    unfold storedExponent
    omega
  simp only [shiftToTargetExponent, shiftToExponent, targetExponent_eq, none]
  simp [HShiftRight.hShiftRight, Nat.repeat, ExtendedMantissa.ofMantissaAndAccuracy]

/-- A mantissa that has been rounded up to a power of two needs one place more. -/
theorem shift_carries {e : Int} (least : -1074 ≤ e) :
    shiftToTargetExponent Format.binary64 (2 ^ 53) e .exact = (⟨2 ^ 52, false, false⟩, e + 1) := by
  have one : (storedExponent (2 ^ 53) e - e).toNat = 1 := by
    unfold storedExponent
    rw [Nat.log2_two_pow]
    omega
  simp only [shiftToTargetExponent, shiftToExponent, targetExponent_eq, one]
  rfl

theorem div_lt_of_log2 {m k : Nat} (h : m.log2 ≤ 52 + k) : m / 2 ^ k < 2 ^ 53 := by
  rw [Nat.div_lt_iff_lt_mul (Nat.two_pow_pos k), ← Nat.pow_add]
  exact Nat.lt_of_lt_of_le Nat.lt_log2_self (Nat.pow_le_pow_right (by decide) (by omega))

/-- The number `m * 2 ^ e` with a sign, which a zero has too. -/
def signed (s : Sign) (m : Nat) (e : Int) : UnpackedFloat :=
  if h : m = 0 then .zero s else .finite s m e (Nat.pos_of_ne_zero h)

/-- Rounding is done twice, the second time for the place that the first one may add. -/
theorem roundWithAccuracy_eq_signed (s : Sign) (m : Nat) (e : Int) (acc : Accuracy) :
    roundWithAccuracy Format.binary64 s m e acc =
      let first := shiftToTargetExponent Format.binary64 m e acc
      let last := shiftToTargetExponent Format.binary64 first.1.roundedMantissa first.2 .exact
      signed s last.1.mantissa last.2 := rfl

/-- One more bit is taken off if rounding has carried into a 54th one. -/
theorem roundWithAccuracy_carries (s : Sign) (m : Nat) (e : Int) (acc : Accuracy) :
    let k := (storedExponent m e - e).toNat
    let n := (ExtendedMantissa.ofMantissaAndAccuracy m acc >>> k).roundedMantissa
    roundWithAccuracy Format.binary64 s m e acc =
      if n < 2 ^ 53 then signed s n (e + k) else signed s (2 ^ 52) (e + k + 1) := by
  intro k n
  have first : shiftToTargetExponent Format.binary64 m e acc =
      (ExtendedMantissa.ofMantissaAndAccuracy m acc >>> k, e + k) := by
    simp only [shiftToTargetExponent, shiftToExponent, targetExponent_eq]
    rfl
  have least : -1074 ≤ e + k := by
    unfold k storedExponent
    omega
  have floor : m / 2 ^ k < 2 ^ 53 := div_lt_of_log2 (by unfold k storedExponent; omega)
  have bounds : m / 2 ^ k ≤ n ∧ n ≤ m / 2 ^ k + 1 := shifted_bounds m k acc
  rw [roundWithAccuracy_eq_signed, first]
  change (let last := shiftToTargetExponent Format.binary64 n (e + k) .exact
    signed s last.1.mantissa last.2) = _
  by_cases small : n < 2 ^ 53
  · rw [shift_stays small least, if_pos small]
  · rw [show n = 2 ^ 53 by omega, shift_carries least, if_neg (by decide)]

theorem roundWithAccuracy_eq (s : Sign) (m : Nat) (e : Int) :
    let k := (storedExponent m e - e).toNat
    roundWithAccuracy Format.binary64 s m e .exact =
      if rounded m k < 2 ^ 53 then signed s (rounded m k) (e + k)
      else signed s (2 ^ 52) (e + k + 1) :=
  roundWithAccuracy_carries s m e .exact

/-- Rounding only takes bits off, so it needs a mantissa with enough of them, unless the exponent
could not be less anyway. -/
def Roundable (m : Nat) (e : Int) : Prop :=
  52 ≤ m.log2 ∨ e ≤ -1074

/-- `m * 2 ^ e` has no fraction. -/
def Whole (m : Nat) (e : Int) : Prop :=
  2 ^ (-e).toNat ∣ m

/-- Rounding keeps numbers whole. -/
theorem rounded_whole {m k : Nat} {e : Int} (h : Whole m e) : Whole (rounded m k) (e + k) := by
  unfold Whole at h ⊢
  by_cases up : 0 ≤ e + k
  · rw [show (-(e + k)).toNat = 0 by omega]
    exact Nat.one_dvd _
  · rw [show (-e).toNat = k + (-(e + k)).toNat by omega, Nat.pow_add] at h
    obtain ⟨c, rfl⟩ := h
    rw [Nat.mul_assoc, rounded_of_dvd ⟨_, rfl⟩, Nat.mul_div_cancel_left _ (Nat.two_pow_pos k)]
    exact ⟨c, rfl⟩

/-- Rounding takes bits off the end of a mantissa; what it gives is canonical, and whole if the
number was. -/
theorem exists_rounded {m : Nat} {e : Int} (h : Roundable m e) (s : Sign) :
    ∃ n f, roundWithAccuracy Format.binary64 s m e .exact = signed s n f ∧ Canonical n f ∧
      (Whole m e → Whole n f) := by
  rw [roundWithAccuracy_eq]
  generalize hk : (storedExponent m e - e).toNat = k
  have least : -1074 ≤ e + k := by
    unfold storedExponent at hk
    omega
  have floor : m / 2 ^ k < 2 ^ 53 := div_lt_of_log2 (by unfold storedExponent at hk; omega)
  have bounds := rounded_bounds m k
  have leading : 2 ^ 52 ≤ rounded m k ∨ e + k = -1074 := by
    by_cases bottom : e + k = -1074
    · exact .inr bottom
    · have long : m.log2 = 52 + k := by
        unfold Roundable at h
        unfold storedExponent at hk
        omega
      have nonzero : m ≠ 0 := by
        rintro rfl
        simp at long
        omega
      have : 2 ^ 52 ≤ m / 2 ^ k := by
        rw [Nat.le_div_iff_mul_le (Nat.two_pow_pos k), ← Nat.pow_add, ← long]
        exact Nat.log2_self_le nonzero
      exact .inl (by omega)
  by_cases small : rounded m k < 2 ^ 53
  · rw [if_pos small]
    exact ⟨_, _, rfl, ⟨small, least, leading⟩, rounded_whole⟩
  · rw [if_neg small]
    refine ⟨_, _, rfl, ⟨by decide, by omega, .inl (Nat.le_refl _)⟩, fun whole => ?_⟩
    have carried := rounded_whole (k := k) whole
    unfold Whole at carried ⊢
    rw [show rounded m k = 2 ^ 53 by omega, Nat.pow_dvd_pow_iff_le_right (by decide)] at carried
    exact Nat.pow_dvd_pow 2 (by omega)

end Storyboard.Double
