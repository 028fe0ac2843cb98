import Storyboard.Proofs.Double.Whole

/-!
# Operations that round nothing

If the exact result of an operation is canonical, the operation gives it: rounding (`round_exact`),
products and quotients (`mul_exact`, `div_exact`) and decimal numerals (`ofScientific_exact`).
-/

open Float.Model

namespace Storyboard.Double

open UnpackedFloat (Sign ExtendedMantissa Accuracy roundWithAccuracy divCore accuracyOfFraction)

/-- The number `m * 2 ^ e`. -/
def magnitude (m : Nat) (e : Int) : ℚ :=
  m * (2 : ℚ) ^ e

variable {m M n : Nat} {e E f : Int}

theorem magnitude_pos (pos : 0 < m) : 0 < magnitude m e := by
  unfold magnitude
  positivity

theorem magnitude_zero_exponent (n : Nat) : magnitude n 0 = n := by
  rw [magnitude, zpow_zero, mul_one]

theorem magnitude_mul (m n : Nat) (e f : Int) :
    magnitude m e * magnitude n f = magnitude (m * n) (e + f) := by
  unfold magnitude
  rw [zpow_add₀ two_ne_zero, Nat.cast_mul]
  ring

/-- Bits may be moved between the mantissa and the exponent. -/
theorem magnitude_shift (m k : Nat) (e : Int) :
    magnitude (m * 2 ^ k) e = magnitude m (e + k) := by
  unfold magnitude
  rw [zpow_add₀ two_ne_zero, zpow_natCast, Nat.cast_mul, Nat.cast_pow, Nat.cast_ofNat]
  ring

theorem magnitude_inj : magnitude M e = magnitude m e ↔ M = m := by
  unfold magnitude
  rw [mul_left_inj' (zpow_ne_zero e two_ne_zero), Nat.cast_inj]

theorem magnitude_lower (le : E ≤ e) : magnitude (m * 2 ^ (e - E).toNat) E = magnitude m e := by
  rw [magnitude_shift]
  congr 1
  omega

/-- A mantissa grows by as many bits as its exponent is lowered. -/
theorem mantissa_eq (le : E ≤ e) (same : magnitude M E = magnitude m e) :
    M = m * 2 ^ (e - E).toNat := by
  rw [← magnitude_lower le] at same
  exact magnitude_inj.1 same

/-- A number is at least as large as the leading bit of its mantissa. -/
theorem two_pow_le_magnitude (pos : 0 < m) : (2 : ℚ) ^ (m.log2 + e) ≤ magnitude m e := by
  have bound : (2 : ℚ) ^ m.log2 ≤ m := by exact_mod_cast Nat.log2_self_le (Nat.ne_of_gt pos)
  rw [zpow_add₀ two_ne_zero, zpow_natCast]
  exact mul_le_mul_of_nonneg_right bound (by positivity)

theorem magnitude_lt_two_pow : magnitude m e < (2 : ℚ) ^ (m.log2 + 1 + e) := by
  have bound : (m : ℚ) < (2 : ℚ) ^ (m.log2 + 1) := by exact_mod_cast Nat.lt_log2_self
  rw [zpow_add₀ two_ne_zero, ← Nat.cast_succ, zpow_natCast]
  exact mul_lt_mul_of_pos_right bound (by positivity)

theorem two_zpow_lt {a b : Int} (h : (2 : ℚ) ^ a < 2 ^ b) : a < b :=
  (zpow_lt_zpow_iff_right₀ one_lt_two).1 h

theorem Canonical.log2_le (canonical : Canonical m e) : m.log2 ≤ 52 := by
  by_cases zero : m = 0
  · subst zero
    decide
  · have := (Nat.log2_lt zero).2 canonical.bits
    omega

/-- A canonical number is stored with its own exponent. -/
theorem Canonical.storedExponent_eq (canonical : Canonical m e) (pos : 0 < m) :
    storedExponent m e = e := by
  have log2_le := canonical.log2_le
  obtain ⟨-, least, leading | rfl⟩ := canonical
  · have := (Nat.le_log2 (Nat.ne_of_gt pos)).2 leading
    unfold storedExponent
    omega
  · unfold storedExponent
    omega

theorem log2_mul_two_pow (pos : 0 < m) (k : Nat) : (m * 2 ^ k).log2 = m.log2 + k := by
  induction k with
  | zero => simp
  | succ k ih =>
    have more : m * 2 ^ k ≠ 0 := Nat.ne_of_gt (Nat.mul_pos pos (Nat.two_pow_pos k))
    rw [Nat.pow_succ, ← Nat.mul_assoc, Nat.mul_comm, Nat.log2_two_mul more, ih]
    rfl

/-- A number with more bits than it needs rounds to its canonical form. -/
theorem round_exact (s : Sign) (canonical : Canonical m e) (pos : 0 < m) (le : E ≤ e)
    (same : magnitude M E = magnitude m e) :
    roundWithAccuracy Format.binary64 s M E .exact = .finite s m e pos := by
  have bits := mantissa_eq le same
  generalize hk : (e - E).toNat = k at bits
  have log2_eq : M.log2 = m.log2 + k := by
    rw [bits, log2_mul_two_pow pos]
  have stored : storedExponent M E = e := by
    have own := canonical.storedExponent_eq pos
    unfold storedExponent at own ⊢
    omega
  have off : rounded M k = m := by
    rw [bits, rounded_of_dvd ⟨m, Nat.mul_comm _ _⟩, Nat.mul_div_cancel _ (Nat.two_pow_pos k)]
  rw [roundWithAccuracy_eq, stored, hk, off, if_pos canonical.bits, signed, dif_neg (by omega)]
  congr 1
  omega

theorem targetExponent_eq_max (t : Int) :
    Format.binary64.targetExponent t = max (t - 53) (-1074) := rfl

/-- With 53 bits or more, no exponent is above the canonical one. -/
theorem Canonical.exponent_le (canonical : Canonical m e) (leading : 2 ^ 52 ≤ M)
    (same : magnitude M E = magnitude m e) : E ≤ e := by
  have bound : (M.log2 : Int) + E < m.log2 + 1 + e := by
    apply two_zpow_lt
    calc (2 : ℚ) ^ ((M.log2 : Int) + E) ≤ magnitude M E := two_pow_le_magnitude (by omega)
      _ = magnitude m e := same
      _ < 2 ^ ((m.log2 : Int) + 1 + e) := magnitude_lt_two_pow
  have log2_le := canonical.log2_le
  have le_log2 := (Nat.le_log2 (show M ≠ 0 by omega)).2 leading
  omega

/-- A product that is a double is not rounded. -/
theorem mul_exact (s t : Sign) {hm : 0 < M} {hn : 0 < n} (canonical : Canonical m e) (pos : 0 < m)
    (leading : 2 ^ 52 ≤ M) (same : magnitude M E * magnitude n f = magnitude m e) :
    UnpackedFloat.mul Format.binary64 (.finite s M E hm) (.finite t n f hn) =
      .finite (s * t) m e pos := by
  rw [magnitude_mul] at same
  have more : M * 1 ≤ M * n := Nat.mul_le_mul_left M hn
  exact round_exact (s * t) canonical pos (canonical.exponent_le (by omega) same) same

/-- The quotient is taken with enough bits to hold a canonical number. -/
theorem div_exact (s t : Sign) {hm : 0 < M} {hn : 0 < n} (canonical : Canonical m e) (pos : 0 < m)
    (same : magnitude M E = magnitude m e * magnitude n f) :
    UnpackedFloat.div Format.binary64 (.finite s M E hm) (.finite t n f hn) =
      .finite (s / t) m e pos := by
  have size : (M.log2 : Int) + E < (m.log2 + 1 + e) + (n.log2 + 1 + f) := by
    apply two_zpow_lt
    calc (2 : ℚ) ^ ((M.log2 : Int) + E) ≤ magnitude M E := two_pow_le_magnitude hm
      _ = magnitude m e * magnitude n f := same
      _ < 2 ^ ((m.log2 : Int) + 1 + e) * 2 ^ ((n.log2 : Int) + 1 + f) :=
        mul_lt_mul'' magnitude_lt_two_pow magnitude_lt_two_pow (magnitude_pos pos).le
          (magnitude_pos hn).le
      _ = 2 ^ (((m.log2 : Int) + 1 + e) + (n.log2 + 1 + f)) := (zpow_add₀ two_ne_zero _ _).symm
  -- The quotient is cut off at `T`, where a canonical number has no bits left.
  generalize target : min (E - f)
    (Format.binary64.targetExponent (totalExponent M E - totalExponent n f)) = T
  have target_le : T ≤ E - f ∧ T ≤ e := by
    have log2_le := canonical.log2_le
    have least := canonical.least
    rw [targetExponent_eq_max] at target
    unfold totalExponent at target
    omega
  have dividend : M <<< (E - f - T).toNat = m * 2 ^ (e - T).toNat * n := by
    have shift : E - f - T = E - (T + f) := by omega
    rw [Nat.shiftLeft_eq, shift, ← magnitude_inj (e := T + f), magnitude_lower (by omega), same,
      ← magnitude_mul, magnitude_lower target_le.2]
  have core : divCore Format.binary64 M E n f = (m * 2 ^ (e - T).toNat, T, .exact) := by
    simp only [divCore, target, dividend, Nat.mul_div_cancel _ hn, Nat.mul_mod_left]
    rfl
  simp only [UnpackedFloat.div, core]
  exact round_exact (s / t) canonical pos target_le.2 (magnitude_lower target_le.2)

/-- A number of at most 53 bits is a double. -/
theorem toFloat_exact {n : UInt64} (pos : 0 < n.toNat) (short : n.toNat < 2 ^ 53) :
    ∃ m e, ∃ hm : 0 < m, n.toFloat.toModel.unpack = .finite .positive m e hm ∧ 2 ^ 52 ≤ m ∧
      magnitude m e = n.toNat := by
  generalize hl : n.toNat.log2 = l
  have log2_le : l ≤ 52 := by
    have := (Nat.log2_lt (Nat.ne_of_gt pos)).2 short
    omega
  -- The number is shifted until it has 53 bits.
  generalize hk : (52 - l : Nat) = k
  have leading : 2 ^ 52 ≤ n.toNat * 2 ^ k := by
    rw [← Nat.le_log2 (Nat.ne_of_gt (Nat.mul_pos pos (Nat.two_pow_pos k))), log2_mul_two_pow pos]
    omega
  have bits : n.toNat * 2 ^ k < 2 ^ 53 := by
    rw [← Nat.log2_lt (Nat.ne_of_gt (Nat.mul_pos pos (Nat.two_pow_pos k))), log2_mul_two_pow pos]
    omega
  have canonical : Canonical (n.toNat * 2 ^ k) (-k) := ⟨bits, by omega, .inl leading⟩
  have hm : 0 < n.toNat * 2 ^ k := by omega
  refine ⟨n.toNat * 2 ^ k, -k, hm, ?_, leading, ?_⟩
  · rw [← unpack_pack hm canonical (by omega)]
    change (Float.Model.pack
      (UnpackedFloat.normalize Format.binary64 (n.toNat : Int) 0 .positive)).unpack = _
    have gt : compare (n.toNat : Int) 0 = .gt := by
      rw [Int.compare_eq_gt]
      omega
    have shift : (0 - storedExponent n.toNat 0).toNat = k := by
      unfold storedExponent
      omega
    rw [UnpackedFloat.normalize, gt]
    simp only [UnpackedFloat.round, UnpackedFloat.decreaseExponent, targetExponent_eq,
      Int.toNat_natCast, shift, Nat.shiftLeft_eq]
    rw [Int.zero_sub, round_exact .positive canonical hm (Int.le_refl _) rfl]
  · rw [magnitude_shift, neg_add_cancel, magnitude_zero_exponent]

/-- The unpacked number is `n`. -/
def isNatural (n : Nat) : UnpackedFloat → Bool
  | .finite .positive m e _ => decide (m * 2 ^ e.toNat = n * 2 ^ (-e).toNat)
  | _ => false

/-- What the check on the table of powers accepts is a double that stands for the number. -/
theorem exists_of_isNatural {u : UnpackedFloat} (h : isNatural n u) :
    ∃ m e, ∃ pos : 0 < m, u = .finite .positive m e pos ∧ magnitude m e = n := by
  unfold isNatural at h
  split at h
  · rename_i m e pos
    refine ⟨m, e, pos, rfl, ?_⟩
    have whole : m * 2 ^ e.toNat = n * 2 ^ (-e).toNat := of_decide_eq_true h
    have split : magnitude m e = magnitude (m * 2 ^ e.toNat) (-(-e).toNat) := by
      rw [magnitude_shift]
      congr 1
      omega
    rw [split, whole, magnitude_shift, neg_add_cancel, magnitude_zero_exponent]
  · cases h

theorem powersOfTen_exact : ∀ k : Fin Float.exactlyRepresentablePowersOfTen.size,
    isNatural (10 ^ k.val) Float.exactlyRepresentablePowersOfTen[k].toModel.unpack := by
  decide

variable {D k : Nat} {negative : Bool}

theorem digits_pos {z : Int} (pos : 0 < m) (same : (D : ℚ) * 10 ^ z = magnitude m e) : 0 < D := by
  rw [Nat.pos_iff_ne_zero]
  rintro rfl
  have := magnitude_pos (e := e) pos
  rw [← same, Nat.cast_zero, zero_mul] at this
  exact lt_irrefl _ this

theorem ten_zpow_ne_zero (z : Int) : (10 : ℚ) ^ z ≠ 0 :=
  zpow_ne_zero z (by norm_num)

/-- Where the digits or the power of ten are too long for doubles of their own. -/
theorem ofScientific_slow {z : Int} (canonical : Canonical m e) (pos : 0 < m)
    (small : z.natAbs ≤ 2 ^ 11) (same : (D : ℚ) * 10 ^ z = magnitude m e) :
    UnpackedFloat.ofScientific Format.binary64 D z = .finite .positive m e pos := by
  have digits := digits_pos pos same
  have large : ¬ z > 2 ^ Format.binary64.exponentBits := by
    change ¬ z > 2 ^ 11
    omega
  have tiny : ¬ z < -(2 ^ Format.binary64.exponentBits + D.log2) := by
    change ¬ z < -(2 ^ 11 + (D.log2 : Int))
    omega
  rw [UnpackedFloat.ofScientific, dif_neg (Nat.ne_of_gt digits), if_neg large, if_neg tiny]
  by_cases whole : 0 ≤ z
  · rw [if_pos whole, mul_exact _ _ canonical pos]
    · rfl
    · rw [Nat.shiftLeft_eq]
      have : 1 * 2 ^ 53 ≤ D * 2 ^ 53 := Nat.mul_le_mul_right _ digits
      change 2 ^ 52 ≤ D * 2 ^ 53
      omega
    · rw [Nat.shiftLeft_eq, magnitude_shift, neg_add_cancel, magnitude_zero_exponent,
        magnitude_zero_exponent, ← same, Nat.cast_pow, Nat.cast_ofNat, ← zpow_natCast,
        Int.toNat_of_nonneg whole]
  · rw [if_neg whole, div_exact _ _ canonical pos]
    · rfl
    · rw [magnitude_zero_exponent, magnitude_zero_exponent, ← same, Nat.cast_pow, Nat.cast_ofNat,
        ← zpow_natCast, Int.toNat_of_nonneg (by omega), zpow_neg,
        mul_inv_cancel_right₀ (ten_zpow_ne_zero z)]

/-- Digits with an exponent are read as the double that they denote, if they denote one: the fast
way and the slow way agree on it. -/
theorem ofScientific_exact (canonical : Canonical m e) (pos : 0 < m) (fits : e < 972)
    (small : k ≤ 2 ^ 11)
    (same : (D : ℚ) * 10 ^ (if negative then -k else k : Int) = magnitude m e) :
    (Float.ofScientific D negative k).toModel.unpack = .finite .positive m e pos := by
  have digits := digits_pos pos same
  rw [← unpack_pack pos canonical fits, Float.ofScientific]
  split
  -- Digits and power are doubles themselves: one operation is left, and it is exact.
  · rename_i fast
    have word : D.toUInt64.toNat = D := Nat.mod_eq_of_lt (show D < 2 ^ 64 by omega)
    obtain ⟨M, E, hM, first, leading, is_digits⟩ := toFloat_exact (n := D.toUInt64)
      (by omega) (by omega)
    obtain ⟨n, f, hn, second, is_power⟩ := exists_of_isNatural
      (powersOfTen_exact ⟨k, Nat.lt_succ_of_le fast.2⟩)
    rw [word] at is_digits
    rw [Fin.getElem_fin] at second
    rw [Nat.cast_pow, Nat.cast_ofNat, ← zpow_natCast] at is_power
    cases negative with
    | false =>
      change (Float.Model.pack (UnpackedFloat.mul Format.binary64 _ _)).unpack = _
      rw [first, second, mul_exact _ _ canonical pos leading]
      · rfl
      · rw [is_digits, is_power, ← same]
        rfl
    | true =>
      change (Float.Model.pack (UnpackedFloat.div Format.binary64 _ _)).unpack = _
      rw [first, second, div_exact _ _ canonical pos]
      · rfl
      · rw [is_digits, is_power, ← same, if_pos rfl, zpow_neg,
          inv_mul_cancel_right₀ (ten_zpow_ne_zero k)]
  · have slow := ofScientific_slow canonical pos (by split <;> omega) same
    cases negative with
    | false => exact congrArg (fun u => (Float.Model.pack u).unpack) slow
    | true =>
      have power : Int.negOfNat k = -k := Int.negOfNat_eq
      change (Float.Model.pack (UnpackedFloat.ofScientific Format.binary64 D
        (Int.negOfNat k))).unpack = _
      rw [power]
      exact congrArg (fun u => (Float.Model.pack u).unpack) slow

end Storyboard.Double
