import Storyboard.Proofs.Double.Values

open Float.Model

namespace Storyboard.Double

open UnpackedFloat (Sign Accuracy roundWithAccuracy divCore)

variable {u v : UnpackedFloat} {m n : Nat} {e f : Int} {q : ℚ} {x y : Float}

theorem stands_exact (m : Nat) : Stands (.ofMantissaAndAccuracy m .exact) m :=
  .whole m

/-- The last step of every operation: what it knows of the exact mantissa is enough to round to the
nearest double. -/
theorem rounds_roundWithAccuracy {acc : Accuracy} (s : Sign) (enough : Roundable m e)
    (stands : Stands (.ofMantissaAndAccuracy m acc) q) :
    Rounds (unit s * (q * 2 ^ e)) (roundWithAccuracy Format.binary64 s m e acc) := by
  obtain ⟨n, f, eq, rounds⟩ := exists_roundsTo s enough stands
  rw [eq]
  exact .signed s rounds

/-- Bits are put on the end where there are not enough of them. -/
theorem rounds_round (s : Sign) (pos : 0 < m) (e : Int) :
    Rounds (unit s * magnitude m e) (UnpackedFloat.round Format.binary64 s m e) := by
  simp only [UnpackedFloat.round, UnpackedFloat.decreaseExponent, targetExponent_eq]
  generalize hk : (e - storedExponent m e).toNat = k
  have same : magnitude m e = (m * 2 ^ k : Nat) * 2 ^ (e - k) := by
    change _ = magnitude (m * 2 ^ k) (e - k)
    rw [magnitude_shift, sub_add_cancel]
  rw [Nat.shiftLeft_eq, same]
  refine rounds_roundWithAccuracy s ?_ (stands_exact _)
  unfold Roundable
  rw [log2_mul_two_pow pos]
  unfold storedExponent at hk
  omega

/-- Sums come in as an integer with an exponent, which need not be canonical. -/
theorem rounds_normalize (z : Int) (e : Int) :
    Rounds (z * 2 ^ e) (UnpackedFloat.normalize Format.binary64 z e .positive) := by
  rw [UnpackedFloat.normalize]
  rcases lt_trichotomy z 0 with below | rfl | above
  · have parts : (z : ℚ) * 2 ^ e = unit .negative * magnitude (-z).toNat e := by
      have size : (((-z).toNat : Nat) : ℚ) = -z := by
        exact_mod_cast Int.toNat_of_nonneg (by omega : 0 ≤ -z)
      rw [unit, magnitude, size]
      ring
    rw [Int.compare_eq_lt.2 below, parts]
    exact rounds_round .negative (by omega) e
  · rw [Int.cast_zero, zero_mul]
    exact rounds_zero .positive
  · have parts : (z : ℚ) * 2 ^ e = unit .positive * magnitude z.toNat e := by
      have size : ((z.toNat : Nat) : ℚ) = z := by
        exact_mod_cast Int.toNat_of_nonneg above.le
      rw [unit, magnitude, size, one_mul]
    rw [Int.compare_eq_gt.2 above, parts]
    exact rounds_round .positive (by omega) e

theorem cast_apply (s : Sign) (m : Nat) : ((s.apply (m : Int) : Int) : ℚ) = unit s * m := by
  cases s <;> simp [Sign.apply, unit]

/-- A number with its exponent lowered to that of another. -/
theorem value_lowered (s : Sign) (pos : 0 < m) {E : Int} (le : E ≤ e) :
    ((s.apply ((m <<< (e - E).toNat : Nat) : Int) : Int) : ℚ) * 2 ^ E =
      value (.finite s m e pos) := by
  rw [cast_apply, mul_assoc, Nat.shiftLeft_eq]
  change _ * magnitude _ _ = _
  rw [magnitude_lower le]
  rfl

theorem rounds_add (hu : Proper u) (hv : Proper v) :
    Rounds (value u + value v) (UnpackedFloat.add Format.binary64 u v) := by
  cases hu with
  | zero s =>
    rw [value_zero, zero_add]
    cases hv with
    | zero t =>
      rw [value_zero, UnpackedFloat.add]
      split <;> exact rounds_zero _
    | finite t canonical pos => exact rounds_of_proper (.finite t canonical pos)
  | @finite s m e canonical pos =>
    cases hv with
    | zero t =>
      rw [value_zero, add_zero]
      exact rounds_of_proper (.finite s canonical pos)
    | @finite t n f canonical' pos' =>
      rw [← value_lowered s pos (min_le_left e f), ← value_lowered t pos' (min_le_right e f),
        ← add_mul, ← Int.cast_add]
      exact rounds_normalize _ _

theorem value_neg (s : Sign) (pos : 0 < m) :
    value (.finite (-s) m e pos) = -value (.finite s m e pos) := by
  cases s <;> simp [value, unit]

theorem rounds_sub (hu : Proper u) (hv : Proper v) :
    Rounds (value u - value v) (UnpackedFloat.sub Format.binary64 u v) := by
  cases hu with
  | zero s =>
    cases hv with
    | zero t =>
      rw [value_zero, value_zero, sub_zero, UnpackedFloat.sub]
      split <;> exact rounds_zero _
    | finite t canonical pos =>
      rw [value_zero, zero_sub, ← value_neg]
      exact rounds_of_proper (.finite (-t) canonical pos)
  | @finite s m e canonical pos =>
    cases hv with
    | zero t =>
      rw [value_zero, sub_zero]
      exact rounds_of_proper (.finite s canonical pos)
    | @finite t n f canonical' pos' =>
      rw [← value_lowered s pos (min_le_left e f), ← value_lowered t pos' (min_le_right e f),
        ← sub_mul, ← Int.cast_sub]
      exact rounds_normalize _ _

theorem unit_mul (s t : Sign) : unit (s * t) = unit s * unit t := by
  cases s <;> cases t <;> simp [unit]

theorem unit_div (s t : Sign) : unit (s / t) = unit s / unit t := by
  cases s <;> cases t <;> simp [unit] <;> rfl

theorem Canonical.roundable_mul (canonical : Canonical m e) (canonical' : Canonical n f)
    (pos : 0 < m) (pos' : 0 < n) : Roundable (m * n) (e + f) := by
  unfold Roundable
  rcases canonical.leading with leading | rfl
  · have : m * 1 ≤ m * n := Nat.mul_le_mul_left m pos'
    exact .inl ((Nat.le_log2 (by omega)).2 (by omega))
  · rcases canonical'.leading with leading | rfl
    · have : 1 * n ≤ m * n := Nat.mul_le_mul_right n pos
      exact .inl ((Nat.le_log2 (by omega)).2 (by omega))
    · exact .inr (by decide)

theorem rounds_mul (hu : Proper u) (hv : Proper v) :
    Rounds (value u * value v) (UnpackedFloat.mul Format.binary64 u v) := by
  cases hu with
  | zero s =>
    rw [value_zero, zero_mul]
    cases hv <;> exact rounds_zero _
  | @finite s m e canonical pos =>
    cases hv with
    | zero t =>
      rw [value_zero, mul_zero]
      exact rounds_zero _
    | @finite t n f canonical' pos' =>
      have parts : value (.finite s m e pos) * value (.finite t n f pos') =
          unit (s * t) * (((m * n : Nat) : ℚ) * 2 ^ (e + f)) := by
        change _ = unit (s * t) * magnitude (m * n) (e + f)
        rw [unit_mul, ← magnitude_mul, value, value]
        ring
      rw [parts]
      exact rounds_roundWithAccuracy _ (canonical.roundable_mul canonical' pos pos')
        (stands_exact _)

/-- The quotient is taken with enough bits. -/
theorem roundable_quotient (pos : 0 < m) (pos' : 0 < n) {T : Int} (le : T ≤ e - f)
    (target : T ≤ (m.log2 : Int) + e - (n.log2 + f) - 53 ∨ T ≤ -1074) :
    Roundable (m * 2 ^ (e - f - T).toNat / n) T := by
  rcases target with target | target
  · left
    have size : n * 2 ^ 52 ≤ m * 2 ^ (e - f - T).toNat := by
      calc n * 2 ^ 52 ≤ 2 ^ (n.log2 + 1) * 2 ^ 52 := Nat.mul_le_mul_right _ Nat.lt_log2_self.le
        _ = 2 ^ (n.log2 + 53) := by rw [← Nat.pow_add]
        _ ≤ 2 ^ (m.log2 + (e - f - T).toNat) := Nat.pow_le_pow_right (by decide) (by omega)
        _ = 2 ^ m.log2 * 2 ^ (e - f - T).toNat := Nat.pow_add ..
        _ ≤ m * 2 ^ (e - f - T).toNat :=
          Nat.mul_le_mul_right _ (Nat.log2_self_le (Nat.ne_of_gt pos))
    have leading : 2 ^ 52 ≤ m * 2 ^ (e - f - T).toNat / n :=
      (Nat.le_div_iff_mul_le pos').2 (by rwa [Nat.mul_comm])
    exact (Nat.le_log2 (by omega)).2 leading
  · exact .inr target

/-- The quotient is computed with enough bits, and the remainder only says whether it is exact. -/
theorem rounds_div (hu : Proper u) (t : Sign) (f : Int) (pos' : 0 < n) :
    Rounds (value u / value (.finite t n f pos'))
      (UnpackedFloat.div Format.binary64 u (.finite t n f pos')) := by
  cases hu with
  | zero s =>
    rw [value_zero, zero_div]
    exact rounds_zero _
  | @finite s m e canonical pos =>
    simp only [UnpackedFloat.div, divCore, targetExponent_eq_max]
    generalize target : min (e - f) (max (totalExponent m e - totalExponent n f - 53) (-1074)) = T
    have le : T ≤ e - f := by omega
    have parts : value (.finite s m e pos) / value (.finite t n f pos') =
        unit (s / t) * (((m * 2 ^ (e - f - T).toNat : Nat) : ℚ) / n * 2 ^ T) := by
      rw [unit_div, value, value, mul_div_mul_comm]
      congr 1
      rw [← magnitude_lower (m := m) (e := e) (E := T + f) (by omega)]
      unfold magnitude
      rw [zpow_add₀ two_ne_zero]
      have := two_zpow_pos f
      have shift : e - (T + f) = e - f - T := by omega
      rw [shift]
      field_simp
    rw [parts, Nat.shiftLeft_eq]
    refine rounds_roundWithAccuracy _ (roundable_quotient pos pos' le ?_) (stands_of_division _ pos')
    unfold totalExponent at target
    omega

/-- Sums, differences, products and quotients of finite doubles are the exact ones, rounded. -/
theorem isRounded_add (hx : x.isFinite) (hy : y.isFinite) :
    IsRounded (valueOf x + valueOf y) (x + y) :=
  ⟨_, rounds_add (proper_unpack hx) (proper_unpack hy), rfl⟩

theorem isRounded_sub (hx : x.isFinite) (hy : y.isFinite) :
    IsRounded (valueOf x - valueOf y) (x - y) :=
  ⟨_, rounds_sub (proper_unpack hx) (proper_unpack hy), rfl⟩

theorem isRounded_mul (hx : x.isFinite) (hy : y.isFinite) :
    IsRounded (valueOf x * valueOf y) (x * y) :=
  ⟨_, rounds_mul (proper_unpack hx) (proper_unpack hy), rfl⟩

theorem isRounded_div (hx : x.isFinite) (hy : y.isFinite) (nonzero : valueOf y ≠ 0) :
    IsRounded (valueOf x / valueOf y) (x / y) := by
  have proper := proper_unpack hy
  unfold valueOf at nonzero ⊢
  change ∃ u, Rounds _ u ∧ settled (UnpackedFloat.div Format.binary64 x.toModel.unpack
    y.toModel.unpack) = settled u
  generalize y.toModel.unpack = v at proper nonzero ⊢
  cases proper with
  | zero => exact absurd rfl nonzero
  | finite t _ pos => exact ⟨_, rounds_div (proper_unpack hx) t _ pos, rfl⟩

theorem exists_infinity (number : x.isNaN = false) (infinite : ¬ x.isFinite) :
    ∃ s, x.toModel.unpack = .infinity s := by
  change x.toModel.unpack.isNaN = false at number
  change ¬ x.toModel.unpack.isFinite at infinite
  cases hu : x.toModel.unpack with
  | notANumber => rw [hu] at number; cases number
  | infinity s => exact ⟨s, rfl⟩
  | zero => rw [hu] at infinite; exact absurd rfl infinite
  | finite => rw [hu] at infinite; exact absurd rfl infinite

/-- An infinity stays what it is when something finite is taken from it. -/
theorem unpack_sub_infinity {s : Sign} (infinite : x.toModel.unpack = .infinity s)
    (hy : y.isFinite) : (x - y).toModel.unpack = .infinity s := by
  have proper := proper_unpack hy
  change settled (UnpackedFloat.sub Format.binary64 x.toModel.unpack y.toModel.unpack) = _
  rw [infinite]
  generalize y.toModel.unpack = v at proper
  cases proper with
  | zero => exact unpack_pack_infinity s
  | finite => exact unpack_pack_infinity s

theorem unpack_div_infinity {s : Sign} (infinite : x.toModel.unpack = .infinity s)
    (hy : y.isFinite) (nonzero : valueOf y ≠ 0) :
    (x / y).toModel.unpack = .infinity (if 0 < valueOf y then s else -s) := by
  have proper := proper_unpack hy
  change settled (UnpackedFloat.div Format.binary64 x.toModel.unpack y.toModel.unpack) = _
  unfold valueOf at nonzero ⊢
  rw [infinite]
  generalize y.toModel.unpack = v at proper nonzero ⊢
  cases proper with
  | zero => exact absurd rfl nonzero
  | @finite t m e canonical pos =>
    have above := magnitude_pos (e := e) pos
    cases t with
    | positive =>
      rw [if_pos (by simpa [value, unit] using above)]
      cases s <;> exact unpack_pack_infinity _
    | negative =>
      rw [if_neg (by simpa [value, unit] using above.le)]
      cases s <;> exact unpack_pack_infinity _

theorem isNaN_sub (number : x.isNaN = false) (hy : y.isFinite) : (x - y).isNaN = false := by
  by_cases hx : x.isFinite
  · exact (isRounded_sub hx hy).isNaN
  · obtain ⟨s, infinite⟩ := exists_infinity number hx
    exact congrArg UnpackedFloat.isNaN (unpack_sub_infinity infinite hy)

theorem isNaN_div (number : x.isNaN = false) (hy : y.isFinite) (nonzero : valueOf y ≠ 0) :
    (x / y).isNaN = false := by
  by_cases hx : x.isFinite
  · exact (isRounded_div hx hy nonzero).isNaN
  · obtain ⟨s, infinite⟩ := exists_infinity number hx
    exact congrArg UnpackedFloat.isNaN (unpack_div_infinity infinite hy nonzero)

end Storyboard.Double
