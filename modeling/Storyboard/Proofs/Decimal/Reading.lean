import Storyboard.Proofs.Double.Exact
import Storyboard.Decimal.Text

/-!
# What numerals are read as

Zeros at the end of a numeral do not matter (`toFloat_shift`), and a numeral that spells the value of
a double is read as that double (`toFloat_exact`). So the numeral that is written for a finite double
is read as its magnitude (`shortestDecimal_reads_back`).
-/

open Float.Model

namespace Storyboard.Decimal

open Double (Canonical magnitude)

variable {d c : Decimal} {m : Nat} {e : Int}

/-- The number that a numeral spells. -/
def value (d : Decimal) : ℚ :=
  d.digits * 10 ^ d.exponent

theorem trim_zero (e : Int) : trim ⟨0, e⟩ = ⟨0, 0⟩ := by
  rw [trim, dif_pos rfl]

theorem trim_ten (D : Nat) (e : Int) : trim ⟨D * 10, e⟩ = trim ⟨D, e + 1⟩ := by
  by_cases zero : D = 0
  · subst zero
    rw [Nat.zero_mul, trim_zero, trim_zero]
  · have more : D * 10 ≠ 0 := by omega
    rw [trim, dif_neg more, if_pos (Nat.mul_mod_left D 10)]
    simp only [Nat.mul_div_cancel D (show 0 < 10 by decide)]

/-- Zeros at the end of the digits count as powers of ten. -/
theorem trim_shift (D j : Nat) (e : Int) : trim ⟨D * 10 ^ j, e⟩ = trim ⟨D, e + j⟩ := by
  induction j generalizing e with
  | zero => simp
  | succ j ih =>
    rw [Nat.pow_succ, ← Nat.mul_assoc, trim_ten, ih]
    congr 2
    omega

theorem trim_trim (d : Decimal) : d.trim.trim = d.trim := by
  fun_induction trim d with
  | case1 => exact trim_zero 0
  | case2 d nonzero ends ih => exact ih
  | case3 d nonzero ends => rw [trim, dif_neg nonzero, if_neg ends]

theorem exponent_eq_zero (trimmed : d.trim = d) (none : d.digits = 0) : d.exponent = 0 := by
  rw [← trimmed, trim, dif_pos none]

theorem value_trim (d : Decimal) : d.trim.value = d.value := by
  fun_induction trim d with
  | case1 d zero => simp [value, zero]
  | case2 d nonzero ends ih =>
    rw [ih]
    have tens : d.digits = d.digits / 10 * 10 := by omega
    have ten : (10 : ℚ) ≠ 0 := by norm_num
    unfold value
    rw [zpow_add_one₀ ten]
    nth_rewrite 2 [tens]
    push_cast
    ring
  | case3 => rfl

theorem exponent_le_trim (d : Decimal) (digits : d.trim.digits ≠ 0) :
    d.exponent ≤ d.trim.exponent := by
  fun_induction trim d with
  | case1 => exact absurd rfl digits
  | case2 d nonzero ends ih =>
    have above : d.exponent + 1 ≤ _ := ih digits
    exact Int.le_trans (by omega) above
  | case3 => exact Int.le_refl _

/-- Decimals that are trimmed to the same are read as the same double. -/
theorem toFloat_congr (same : d.trim = c.trim) : d.toFloat = c.toFloat := by
  unfold toFloat
  rw [same]

theorem toFloat_shift (D j : Nat) (e : Int) : toFloat ⟨D * 10 ^ j, e⟩ = toFloat ⟨D, e + j⟩ :=
  toFloat_congr (trim_shift D j e)

theorem lt_ten_pow_width (n : Nat) : n < 10 ^ width n :=
  (Nat.length_toDigits_le_iff (by decide) Nat.length_toDigits_pos).1 (Nat.le_refl _)

theorem ten_pow_le {n : Nat} (pos : 0 < n) : 10 ^ (width n - 1) ≤ n := by
  by_cases one : width n - 1 = 0
  · rw [one]
    exact pos
  · rw [← Nat.not_lt]
    intro less
    have := (Nat.length_toDigits_le_iff (by decide) (Nat.pos_of_ne_zero one)).2 less
    unfold width at *
    omega

theorem width_pos (n : Nat) : 0 < width n :=
  Nat.length_toDigits_pos

/-- The number of digits and the exponent say how large a decimal is at most. -/
theorem value_lt (d : Decimal) : d.value < (10 : ℚ) ^ (width d.digits + d.exponent) := by
  have bound : (d.digits : ℚ) < 10 ^ width d.digits := by exact_mod_cast lt_ten_pow_width d.digits
  rw [zpow_add₀ (by norm_num), zpow_natCast]
  exact mul_lt_mul_of_pos_right bound (by positivity)

theorem le_value (pos : 0 < d.digits) : (10 : ℚ) ^ (width d.digits - 1 + d.exponent) ≤ d.value := by
  have bound : (10 : ℚ) ^ (width d.digits - 1) ≤ d.digits := by exact_mod_cast ten_pow_le pos
  have whole : (width d.digits : Int) - 1 = (width d.digits - 1 : Nat) := by
    have := width_pos d.digits
    omega
  rw [zpow_add₀ (by norm_num), whole, zpow_natCast]
  exact mul_le_mul_of_nonneg_right bound (by positivity)

theorem two_pow_le_309 : (2 : ℚ) ^ 1024 ≤ 10 ^ 309 := by
  have whole : 2 ^ 1024 ≤ 10 ^ 309 := by decide +kernel
  exact_mod_cast whole

theorem two_pow_le_324 : (2 : ℚ) ^ 1074 ≤ 10 ^ 324 := by
  have whole : 2 ^ 1074 ≤ 10 ^ 324 := by decide +kernel
  exact_mod_cast whole

/-- Finite doubles have at most 309 digits before the point. -/
theorem magnitude_lt (canonical : Canonical m e) (fits : e < 972) :
    magnitude m e < (10 : ℚ) ^ (309 : Int) := by
  have bits : (m : ℚ) < 2 ^ 53 := by exact_mod_cast canonical.bits
  have power : (2 : ℚ) ^ e ≤ 2 ^ (971 : Int) := zpow_le_zpow_right₀ (by norm_num) (by omega)
  calc magnitude m e < 2 ^ 53 * 2 ^ (971 : Int) :=
        mul_lt_mul bits power (by positivity) (by positivity)
    _ = 2 ^ 1024 := by
      rw [← zpow_natCast, ← zpow_natCast, ← zpow_add₀ two_ne_zero]
      rfl
    _ ≤ 10 ^ 309 := two_pow_le_309
    _ = 10 ^ (309 : Int) := (zpow_natCast 10 309).symm

/-- Doubles other than zero have a digit among the first 324 after the point. -/
theorem le_magnitude (canonical : Canonical m e) (pos : 0 < m) :
    (10 : ℚ) ^ (-324 : Int) ≤ magnitude m e := by
  have one : (1 : ℚ) ≤ m := by exact_mod_cast pos
  have power : (2 : ℚ) ^ (-1074 : Int) ≤ 2 ^ e := zpow_le_zpow_right₀ (by norm_num) canonical.least
  have least : (10 : ℚ) ^ (-324 : Int) ≤ 2 ^ (-1074 : Int) := by
    rw [zpow_neg, zpow_neg]
    exact inv_anti₀ (by positivity) two_pow_le_324
  calc (10 : ℚ) ^ (-324 : Int) ≤ 1 * 2 ^ (-1074 : Int) := by rwa [one_mul]
    _ ≤ magnitude m e := mul_le_mul one power (by positivity) (by positivity)

theorem ten_zpow_lt {a b : Int} (h : (10 : ℚ) ^ a < 10 ^ b) : a < b :=
  (zpow_lt_zpow_iff_right₀ (by norm_num)).1 h

/-- A numeral that spells the value of a double is read as that double. -/
theorem toFloat_exact (canonical : Canonical m e) (pos : 0 < m) (fits : e < 972)
    (least : -2 ^ 11 ≤ d.exponent) (same : d.value = magnitude m e) :
    d.toFloat.toModel.unpack = .finite .positive m e pos := by
  rw [← value_trim] at same
  have digits : 0 < d.trim.digits := Double.digits_pos pos same
  have above := exponent_le_trim d (Nat.ne_of_gt digits)
  have upper : (width d.trim.digits : Int) - 1 + d.trim.exponent < 309 :=
    ten_zpow_lt ((le_value digits).trans_lt (same ▸ magnitude_lt canonical fits))
  have lower : -324 < (width d.trim.digits : Int) + d.trim.exponent :=
    ten_zpow_lt ((le_magnitude canonical pos).trans_lt (same ▸ value_lt d.trim))
  have wide := width_pos d.trim.digits
  simp only [toFloat]
  rw [if_neg (Nat.ne_of_gt digits), if_neg (by omega), if_neg (by omega)]
  apply Double.ofScientific_exact canonical pos fits (by omega)
  rw [← same, value]
  congr 2
  by_cases negative : d.trim.exponent < 0
  · rw [if_pos (decide_eq_true negative)]
    omega
  · rw [if_neg (by rwa [decide_eq_true_iff])]
    omega

end Storyboard.Decimal

namespace Storyboard

open Double (Canonical magnitude)
open UnpackedFloat (Sign)

variable {x : Float} {b : Binary} {d : Decimal} {tie : Tie}

theorem Binary.exactDecimal_value (b : Binary) :
    b.exactDecimal.value = magnitude b.mantissa b.exponent := by
  obtain ⟨m, e⟩ := b
  have fraction : (2 : ℚ) ^ e = 2 ^ e.toNat / 2 ^ (-e).toNat := by
    rw [← zpow_natCast, ← zpow_natCast, ← zpow_sub₀ two_ne_zero, Int.toNat_sub_toNat_neg]
  have tens : (10 : ℚ) ^ (-e).toNat = 5 ^ (-e).toNat * 2 ^ (-e).toNat := by
    rw [← mul_pow]
    norm_num
  rw [exactDecimal, Decimal.value_trim, Decimal.value, magnitude, fraction, zpow_neg, zpow_natCast,
    tens]
  simp only [numerator, Nat.pow_eq]
  push_cast
  field_simp

/-- Every double is read back from its exact expansion. -/
theorem Binary.toFloat_exactDecimal {s : Sign} {m : Nat} {e : Int} {pos : 0 < m}
    (h : x.toModel.unpack = .finite s m e pos) :
    (Binary.exactDecimal ⟨m, e⟩).toFloat.toModel.unpack = .finite .positive m e pos := by
  have canonical := Double.canonical_unpack h
  have value := exactDecimal_value ⟨m, e⟩
  rw [exactDecimal, Decimal.value_trim] at value
  rw [exactDecimal, Decimal.toFloat_congr (Decimal.trim_trim _)]
  apply Decimal.toFloat_exact canonical pos (Double.exponent_lt_of_unpack h) _ value
  have least := canonical.least
  change -2 ^ 11 ≤ -((-e).toNat : Int)
  omega

/-- A candidate is what it is because it reads back. -/
theorem Binary.candidate?_eq_some {lead : Int} {n : Nat}
    (h : b.candidate? tie x lead n = some d) : d.toFloat = x ∧ d.trim = d := by
  have trimmed : ∀ c, c = (b.around tie (lead + 1 - n)).1 ∨ c = (b.around tie (lead + 1 - n)).2 →
      c.trim = c := by
    unfold around
    intro c either
    simp only at either
    split at either <;> obtain rfl | rfl := either <;> exact Decimal.trim_trim _
  unfold candidate? at h
  simp only at h
  split at h
  · rename_i first
    cases h
    exact ⟨first, trimmed _ (.inl rfl)⟩
  split at h
  · rename_i second
    cases h
    exact ⟨second, trimmed _ (.inr rfl)⟩
  · cases h

/-- The digits that are written for a double are read as the same double: each candidate is tried
before it is taken, and in the end all digits are written. -/
theorem Binary.shortest_reads_back (exact : b.exactDecimal.toFloat = x) :
    (b.shortest tie x).toFloat = x ∧ (b.shortest tie x).trim = b.shortest tie x := by
  unfold shortest
  simp only
  cases found : (List.range (Decimal.width b.exactDecimal.digits)).findSome? fun n =>
      b.candidate? tie x b.leadingExponent (n + 1) with
  | none => exact ⟨exact, Decimal.trim_trim _⟩
  | some d =>
    obtain ⟨n, -, candidate⟩ := List.exists_of_findSome?_eq_some found
    exact candidate?_eq_some candidate

/-- What the bits of a finite double stand for. -/
theorem Binary.exists_ofFloat? (finite : x.isFinite) : ∃ b, Binary.ofFloat? x = some b := by
  change x.toModel.unpack.isFinite at finite
  unfold ofFloat?
  generalize x.toModel.unpack = u at finite
  cases u with
  | notANumber => cases finite
  | infinity => cases finite
  | zero => exact ⟨_, rfl⟩
  | finite => exact ⟨_, rfl⟩

theorem Binary.ofFloat?_eq_some (h : Binary.ofFloat? x = some b) :
    (∃ s, x.toModel.unpack = .zero s ∧ b = ⟨0, 0⟩) ∨
      ∃ s m e, ∃ pos : 0 < m, x.toModel.unpack = .finite s m e pos ∧ b = ⟨m, e⟩ := by
  unfold ofFloat? at h
  split at h
  · rename_i s m e pos unpacked
    cases h
    exact .inr ⟨s, m, e, pos, unpacked, rfl⟩
  · rename_i s unpacked
    cases h
    exact .inl ⟨s, unpacked, rfl⟩
  · cases h

theorem Double.unpack_abs {s : Sign} {m : Nat} {e : Int} {pos : 0 < m}
    (h : x.toModel.unpack = .finite s m e pos) :
    x.abs.toModel.unpack = .finite .positive m e pos := by
  change (Float.Model.pack x.toModel.unpack.abs).unpack = _
  rw [h]
  exact unpack_pack pos (canonical_unpack h) (exponent_lt_of_unpack h)

theorem Double.unpack_abs_zero {s : Sign} (h : x.toModel.unpack = .zero s) :
    x.abs.toModel.unpack = .zero .positive := by
  change (Float.Model.pack x.toModel.unpack.abs).unpack = _
  rw [h]
  exact unpack_pack_zero .positive

/-- The numeral of a finite double is read as its magnitude. -/
theorem shortestDecimal_reads_back (tie : Tie) (h : Binary.ofFloat? x = some b) :
    (shortestDecimal tie x b).toFloat = x.abs ∧
      (shortestDecimal tie x b).trim = shortestDecimal tie x b := by
  obtain ⟨s, unpacked, rfl⟩ | ⟨s, m, e, pos, unpacked, rfl⟩ := Binary.ofFloat?_eq_some h
  · have zero : x.abs = 0.0 := Double.eq_of_unpack (Double.unpack_abs_zero unpacked)
    rw [shortestDecimal, if_pos rfl, zero, Decimal.trim_zero, Decimal.toFloat, Decimal.trim_zero]
    exact ⟨rfl, rfl⟩
  · rw [shortestDecimal, if_neg (Nat.ne_of_gt pos)]
    apply Binary.shortest_reads_back
    apply Double.eq_of_unpack
    rw [Double.unpack_abs unpacked]
    exact Binary.toFloat_exactDecimal unpacked

/-- A finite double is its magnitude with its sign. -/
theorem signedFloat_abs (h : Binary.ofFloat? x = some b) (same : d.toFloat = x.abs) :
    signedFloat (isSigned x) d = x := by
  rw [signedFloat, same]
  apply Double.eq_of_unpack
  obtain ⟨s, unpacked, -⟩ | ⟨s, m, e, pos, unpacked, -⟩ := Binary.ofFloat?_eq_some h
  · have abs := Double.unpack_abs_zero unpacked
    rw [isSigned, unpacked]
    cases s with
    | positive => exact abs
    | negative =>
      change (Float.Model.pack x.abs.toModel.unpack.neg).unpack = _
      rw [abs]
      exact Double.unpack_pack_zero .negative
  · have abs := Double.unpack_abs unpacked
    rw [isSigned, unpacked]
    cases s with
    | positive => exact abs
    | negative =>
      change (Float.Model.pack x.abs.toModel.unpack.neg).unpack = _
      rw [abs]
      exact Double.unpack_pack pos (Double.canonical_unpack unpacked)
        (Double.exponent_lt_of_unpack unpacked)

end Storyboard
