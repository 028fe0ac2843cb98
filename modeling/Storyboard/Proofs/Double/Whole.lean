import Storyboard.Proofs.Double.Rounding
import Storyboard.Decimal.Basic
import Storyboard.Exact

open Float.Model

namespace Storyboard.Double

open UnpackedFloat (Sign)

/-- A double without a sign and without a fraction; it may be too large to be finite. -/
inductive Integral : UnpackedFloat → Prop where
  | infinity : Integral (.infinity .positive)
  | finite {m : Nat} {e : Int} (whole : Whole m e) : Integral (signed .positive m e)

theorem integral_pack_zero : Integral (Float.Model.pack (.zero .positive)).unpack := by
  rw [unpack_pack_zero]
  exact .finite (m := 0) (e := 0) (Nat.dvd_zero _)

theorem integral_pack_infinity : Integral (Float.Model.pack (.infinity .positive)).unpack := by
  rw [unpack_pack_infinity]
  exact .infinity

/-- What is rounded from a whole number is a whole number, or an infinity. -/
theorem integral_pack_round {m : Nat} {e : Int} (h : Roundable m e) (whole : Whole m e) :
    Integral (Float.Model.pack
      (UnpackedFloat.roundWithAccuracy Format.binary64 .positive m e .exact)).unpack := by
  obtain ⟨n, f, eq, canonical, keeps⟩ := exists_rounded h .positive
  rw [eq]
  by_cases zero : n = 0
  · subst zero
    exact integral_pack_zero
  · have pos := Nat.pos_of_ne_zero zero
    have stored : signed .positive n f = .finite .positive n f pos := dif_neg zero
    rw [stored]
    by_cases fits : f < 972
    · rw [unpack_pack pos canonical fits, ← stored]
      exact .finite (keeps whole)
    · rw [unpack_pack_large _ pos (by omega)]
      exact .infinity

theorem roundable_of_le {m : Nat} (e : Int) (h : 2 ^ 52 ≤ m) : Roundable m e :=
  .inl ((Nat.le_log2 (by omega)).2 h)

/-- A whole number that is not zero has bits enough to be canonical. -/
theorem Canonical.leading_of_whole {m : Nat} {e : Int} (canonical : Canonical m e) (pos : 0 < m)
    (whole : Whole m e) : 2 ^ 52 ≤ m := by
  obtain ⟨bits, least, leading | rfl⟩ := canonical
  · exact leading
  · have : 2 ^ 53 ∣ m := Nat.dvd_trans (Nat.pow_dvd_pow 2 (by decide)) whole
    have := Nat.le_of_dvd pos this
    omega

theorem Whole.mul {m n : Nat} {e f : Int} (hm : Whole m e) (hn : Whole n f) :
    Whole (m * n) (e + f) := by
  unfold Whole at *
  apply Nat.dvd_trans (Nat.pow_dvd_pow 2 (show (-(e + f)).toNat ≤ (-e).toNat + (-f).toNat by omega))
  rw [Nat.pow_add]
  exact Nat.mul_dvd_mul hm hn

/-- The product of whole numbers is whole even when it is rounded. -/
theorem integral_mul {x y : Float} {m : Nat} {e : Int} {pos : 0 < m}
    (hx : Integral x.toModel.unpack) (hy : y.toModel.unpack = .finite .positive m e pos)
    (whole : Whole m e) : Integral (x * y).toModel.unpack := by
  change Integral (Float.Model.pack (UnpackedFloat.mul Format.binary64 x.toModel.unpack
    y.toModel.unpack)).unpack
  have leading := (canonical_unpack hy).leading_of_whole pos whole
  rw [hy]
  generalize x.toModel.unpack = u at hx ⊢
  cases hx with
  | infinity => exact integral_pack_infinity
  | @finite n f hn =>
    by_cases zero : n = 0
    · subst zero
      exact integral_pack_zero
    · rw [signed, dif_neg zero]
      have : 1 * 2 ^ 52 ≤ n * m := Nat.mul_le_mul (Nat.pos_of_ne_zero zero) leading
      exact integral_pack_round (roundable_of_le _ (by omega)) (hn.mul whole)

theorem integral_toFloat (n : UInt64) : Integral n.toFloat.toModel.unpack := by
  change Integral (Float.Model.pack
    (UnpackedFloat.normalize Format.binary64 (n.toNat : Int) 0 .positive)).unpack
  unfold UnpackedFloat.normalize
  by_cases zero : n.toNat = 0
  · rw [zero]
    exact integral_pack_zero
  · have gt : compare (n.toNat : Int) 0 = .gt := by
      rw [Int.compare_eq_gt]
      omega
    rw [gt]
    simp only [UnpackedFloat.round, UnpackedFloat.decreaseExponent, targetExponent_eq,
      Int.toNat_natCast]
    generalize hk : (0 - storedExponent n.toNat 0).toNat = k
    have hlog : n.toNat.log2 < 64 := (Nat.log2_lt zero).2 n.toNat_lt
    have long : 52 ≤ n.toNat.log2 + k := by
      unfold storedExponent at hk
      omega
    rw [Nat.shiftLeft_eq]
    apply integral_pack_round
    · apply roundable_of_le
      calc 2 ^ 52 ≤ 2 ^ (n.toNat.log2 + k) := Nat.pow_le_pow_right (by decide) long
        _ = 2 ^ n.toNat.log2 * 2 ^ k := Nat.pow_add ..
        _ ≤ n.toNat * 2 ^ k := Nat.mul_le_mul_right _ (Nat.log2_self_le zero)
    · unfold Whole
      rw [show (-(0 - (k : Int))).toNat = k by omega]
      exact Nat.dvd_mul_left _ _

/-- The unpacked number is above zero and has neither a sign nor a fraction. -/
def isPositiveWhole : UnpackedFloat → Bool
  | .finite .positive m e _ => decide (2 ^ (-e).toNat ∣ m)
  | _ => false

theorem powersOfTen_whole :
    Float.exactlyRepresentablePowersOfTen.all (fun x => isPositiveWhole x.toModel.unpack) := by
  decide +kernel

theorem exists_of_isPositiveWhole {u : UnpackedFloat} (h : isPositiveWhole u) :
    ∃ m e, ∃ pos : 0 < m, u = .finite .positive m e pos ∧ Whole m e := by
  unfold isPositiveWhole at h
  split at h
  · rename_i m e pos
    exact ⟨m, e, pos, rfl, (decide_eq_true_iff (p := 2 ^ (-e).toNat ∣ m)).1 h⟩
  · cases h

/-- Digits with an exponent that is not negative are read as a double without a fraction. -/
theorem integral_ofScientific (m e : Nat) :
    Integral (Float.ofScientific m false e).toModel.unpack := by
  unfold Float.ofScientific
  split
  · rename_i fast
    have listed := Array.all_eq_true.1 powersOfTen_whole e
      (by simp [Float.exactlyRepresentablePowersOfTen]; omega)
    obtain ⟨n, f, pos, eq, whole⟩ := exists_of_isPositiveWhole listed
    exact integral_mul (integral_toFloat _) eq whole
  · change Integral (Float.Model.pack
      (UnpackedFloat.ofScientific Format.binary64 m (e : Int))).unpack
    unfold UnpackedFloat.ofScientific
    by_cases zero : m = 0
    · rw [dif_pos zero]
      exact integral_pack_zero
    · rw [dif_neg zero]
      split
      · exact integral_pack_infinity
      · rw [if_neg (by omega), if_pos (by omega)]
        have one := Nat.pos_of_ne_zero zero
        have ten : 0 < 10 ^ (e : Int).toNat := Nat.pow_pos (by decide)
        simp only [UnpackedFloat.mul]
        apply integral_pack_round
        · apply roundable_of_le
          rw [Nat.shiftLeft_eq]
          change 2 ^ 52 ≤ m * 2 ^ 53 * _
          have : 1 * 2 ^ 53 ≤ m * 2 ^ 53 := Nat.mul_le_mul_right _ one
          have : (m * 2 ^ 53) * 1 ≤ m * 2 ^ 53 * 10 ^ (e : Int).toNat := Nat.mul_le_mul_left _ ten
          omega
        · unfold Whole
          rw [Nat.shiftLeft_eq]
          change 2 ^ 53 ∣ m * 2 ^ 53 * _
          exact Nat.dvd_mul_right_of_dvd (Nat.dvd_mul_left _ _) _

theorem trim_exponent_nonneg (d : Decimal) (h : 0 ≤ d.exponent) : 0 ≤ d.trim.exponent := by
  fun_induction Decimal.trim d with
  | case1 => exact Int.le_refl 0
  | case2 d _ _ ih =>
    apply ih
    change 0 ≤ d.exponent + 1
    omega
  | case3 => exact h

/-- A numeral without a fraction is read as a double without one, however large it is. -/
theorem integral_decimal {d : Decimal} (h : 0 ≤ d.exponent) :
    Integral d.toFloat.toModel.unpack := by
  have nonneg := trim_exponent_nonneg d h
  have sign : decide (d.trim.exponent < 0) = false := decide_eq_false (by omega)
  simp only [Decimal.toFloat, sign]
  split
  · exact integral_pack_zero
  split
  · exact integral_pack_infinity
  split
  · exact integral_pack_zero
  · exact integral_ofScientific _ _

/-- The number `m * 2 ^ e` without its fraction. -/
def truncated (m : Nat) (e : Int) : Nat :=
  m * 2 ^ e.toNat / 2 ^ (-e).toNat

theorem truncated_zero (e : Int) : truncated 0 e = 0 := by
  simp [truncated]

theorem mkRat_whole {m : Nat} {e : Int} (whole : Whole m e) :
    mkRat (Binary.numerator ⟨m, e⟩) (Binary.denominator ⟨m, e⟩) = truncated m e := by
  have pos := Nat.two_pow_pos (-e).toNat
  obtain ⟨c, hc⟩ := Nat.dvd_mul_right_of_dvd whole (2 ^ e.toNat)
  have numerator : Binary.numerator ⟨m, e⟩ = 2 ^ (-e).toNat * c := hc
  have denominator : Binary.denominator ⟨m, e⟩ = 2 ^ (-e).toNat * 1 := (Nat.mul_one _).symm
  have value : truncated m e = c := by
    rw [truncated, hc, Nat.mul_div_cancel_left _ pos]
  rw [numerator, denominator, value, Int.natCast_mul, Rat.mkRat_mul_left (Nat.ne_of_gt pos)]
  exact Rat.mkRat_one c

theorem exactValue?_signed {x : Float} {m : Nat} {e : Int}
    (h : x.toModel.unpack = signed .positive m e) (whole : Whole m e) :
    exactValue? x = some (truncated m e : Rat) := by
  unfold exactValue? Binary.ofFloat? isSigned
  rw [h]
  by_cases zero : m = 0
  · subst zero
    rw [truncated_zero]
    rfl
  · rw [signed, dif_neg zero]
    exact congrArg some (mkRat_whole whole)

/-- A double without a sign is cut to a whole number, and to the largest word beyond it. -/
theorem toUInt64_signed {x : Float} {m : Nat} {e : Int}
    (h : x.toModel.unpack = signed .positive m e) :
    x.toUInt64 = UInt64.ofNatClamp (truncated m e) := by
  change UnpackedFloat.toUInt64 x.toModel.unpack = _
  rw [h]
  by_cases zero : m = 0
  · subst zero
    rw [truncated_zero]
    rfl
  · rw [signed, dif_neg zero]
    have shift : (0 - (e - (e - 0).toNat)).toNat = (-e).toNat := by omega
    simp only [UnpackedFloat.toUInt64, UnpackedFloat.toInt, UnpackedFloat.roundToInt,
      UnpackedFloat.decreaseExponent, UnpackedFloat.shiftToExponent, Sign.apply,
      shiftRight_mantissa, shift, truncated]
    rw [Nat.shiftLeft_eq, Int.sub_zero]
    rfl

theorem lt_iff {x y : Float} {u : UnpackedFloat} (h : x.toModel.unpack = u) :
    x < y ↔ u.compare y.toModel.unpack = some .lt := by
  subst h
  have model : x < y ↔ x.toModel < y.toModel := decide_eq_true_iff
  rw [model]
  exact beq_iff_eq (a := x.toModel.unpack.compare y.toModel.unpack)

/-- Doubles above `2 ^ 64` have the exponent 12 or more. -/
theorem size_le_truncated {x : Float} {m : Nat} {e : Int}
    (h : x.toModel.unpack = signed .positive m e) (large : 18446744073709551616.0 < x) :
    UInt64.size ≤ truncated m e := by
  have compared : UnpackedFloat.compare (.finite .positive (2 ^ 52) 12 (by decide))
      (signed .positive m e) = some .lt := by
    rw [← h]
    exact (lt_iff rfl).1 large
  by_cases zero : m = 0
  · subst zero
    cases compared
  · rw [signed, dif_neg zero] at compared h
    obtain ⟨-, -, leading⟩ := canonical_unpack h
    have order : (compare 12 e).then (compare (2 ^ 52) m) = .lt := Option.some.inj compared
    rw [Ordering.then_eq_lt] at order
    -- Canonical numbers are in the order of their exponents, and then of their mantissas.
    have exponent : 12 ≤ e := by
      rcases order with less | ⟨same, -⟩
      · have := Int.compare_eq_lt.1 less
        omega
      · have := Int.compare_eq_eq.1 same
        omega
    have mantissa : 2 ^ 52 ≤ m := by omega
    rw [truncated, show (-e).toNat = 0 by omega, Nat.pow_zero, Nat.div_one]
    calc UInt64.size = 2 ^ 52 * 2 ^ 12 := by decide
      _ ≤ m * 2 ^ e.toNat := Nat.mul_le_mul mantissa (Nat.pow_le_pow_right (by decide) (by omega))

/-- A double without a fraction has a natural number as its value, and the word made of it is that
number unless it is too large for one. -/
theorem Integral.exists_value {x : Float} (h : Integral x.toModel.unpack) (finite : x.isFinite) :
    ∃ n : Nat, exactValue? x = some (n : Rat) ∧ x.toUInt64 = UInt64.ofNatClamp n ∧
      (18446744073709551616.0 < x → UInt64.size ≤ n) := by
  change x.toModel.unpack.isFinite at finite
  generalize hu : x.toModel.unpack = u at h finite
  cases h with
  | infinity => cases finite
  | finite whole =>
    exact ⟨_, exactValue?_signed hu whole, toUInt64_signed hu, size_le_truncated hu⟩

theorem not_le_zero_iff {x : Float} (finite : x.isFinite) : ¬ x ≤ 0.0 ↔ 0.0 < x := by
  change x.toModel.unpack.isFinite at finite
  have zero : (0.0 : Float).toModel.unpack = .zero .positive := rfl
  have le : x ≤ 0.0 ↔ UnpackedFloat.le x.toModel.unpack (.zero .positive) := by
    rw [← zero]
    exact decide_eq_true_iff (p := x.toModel ≤ (0.0 : Float).toModel)
  rw [le, lt_iff zero]
  generalize x.toModel.unpack = u at finite
  rcases u with _ | s | s | ⟨s, m, e, pos⟩
  · cases finite
  · cases finite
  · cases s <;> decide
  · cases s <;> simp [UnpackedFloat.le, UnpackedFloat.compare]

end Storyboard.Double
