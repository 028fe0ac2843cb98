import Storyboard.Proofs.Double.Exact
import Storyboard.Proofs.Double.Rank

/-!
# Rounding to the nearest double

Rounding works on a mantissa with two bits for what is cut off; these say enough about the number
that the mantissa stands for. Main statement: numbers that are not negative are rounded to doubles
in the same order (`RoundsTo.mono`).
-/

open Float.Model

namespace Storyboard.Double

open UnpackedFloat (Sign ExtendedMantissa Accuracy roundWithAccuracy shiftToTargetExponent
  shiftToExponent accuracyOfFraction)

/-- The mantissa stands for a number: its bits tell whether the fraction is nothing, less than a
half, a half or more. -/
inductive Stands : ExtendedMantissa → ℚ → Prop where
  | whole (m : Nat) : Stands ⟨m, false, false⟩ m
  | less {m : Nat} {r : ℚ} (pos : 0 < r) (below : r < 1 / 2) : Stands ⟨m, false, true⟩ (m + r)
  | half (m : Nat) : Stands ⟨m, true, false⟩ (m + 1 / 2)
  | more {m : Nat} {r : ℚ} (above : 1 / 2 < r) (below : r < 1) : Stands ⟨m, true, true⟩ (m + r)

variable {em em' : ExtendedMantissa} {x x' q q' : ℚ} {m n n' : Nat} {e f t t' : Int}

theorem shiftRightOne_even (c : Nat) (r s : Bool) :
    ExtendedMantissa.shiftRightOne ⟨2 * c, r, s⟩ = ⟨c, false, r || s⟩ := by
  simp [ExtendedMantissa.shiftRightOne]

theorem shiftRightOne_odd (c : Nat) (r s : Bool) :
    ExtendedMantissa.shiftRightOne ⟨2 * c + 1, r, s⟩ = ⟨c, true, r || s⟩ := by
  have floor : (2 * c + 1) / 2 = c := by omega
  simp [ExtendedMantissa.shiftRightOne, floor]

/-- Any fraction is seen in the second bit from then on. -/
theorem stands_shiftRightOne_inexact {r : ℚ} {a b : Bool} (pos : 0 < r) (below : r < 1)
    (inexact : (a || b) = true) :
    Stands (ExtendedMantissa.shiftRightOne ⟨m, a, b⟩) ((m + r) / 2) := by
  obtain ⟨c, rfl | rfl⟩ := Nat.even_or_odd' m
  · have half : ((2 * c : Nat) + r) / 2 = c + r / 2 := by push_cast; ring
    rw [shiftRightOne_even, inexact, half]
    exact .less (by linarith) (by linarith)
  · have half : ((2 * c + 1 : Nat) + r) / 2 = c + (1 + r) / 2 := by push_cast; ring
    rw [shiftRightOne_odd, inexact, half]
    exact .more (by linarith) (by linarith)

/-- Halving keeps what an extended mantissa knows: which side of the middle it stands on. -/
theorem Stands.shiftRightOne (stands : Stands em x) : Stands em.shiftRightOne (x / 2) := by
  cases stands with
  | whole m =>
    obtain ⟨c, rfl | rfl⟩ := Nat.even_or_odd' m
    · have half : ((2 * c : Nat) : ℚ) / 2 = c := by push_cast; ring
      rw [shiftRightOne_even, half]
      exact .whole c
    · have half : ((2 * c + 1 : Nat) : ℚ) / 2 = c + 1 / 2 := by push_cast; ring
      rw [shiftRightOne_odd, half]
      exact .half c
  | less pos below => exact stands_shiftRightOne_inexact pos (by linarith) rfl
  | half m => exact stands_shiftRightOne_inexact (by norm_num) (by norm_num) rfl
  | more above below => exact stands_shiftRightOne_inexact (by linarith) below rfl

theorem Stands.shiftRight (stands : Stands em x) (k : Nat) : Stands (em >>> k) (x / 2 ^ k) := by
  induction k with
  | zero =>
    rw [pow_zero, div_one]
    exact stands
  | succ k ih =>
    rw [shiftRight_succ, pow_succ, ← div_div]
    exact ih.shiftRightOne

theorem Stands.bounds (stands : Stands em x) : (em.mantissa : ℚ) ≤ x ∧ x < em.mantissa + 1 := by
  cases stands with
  | whole m => exact ⟨le_rfl, by simp⟩
  | less pos below => exact ⟨by simp only; linarith, by simp only; linarith⟩
  | half m => exact ⟨by simp only; linarith, by simp only; linarith⟩
  | more above below => exact ⟨by simp only; linarith, by simp only; linarith⟩

theorem Stands.nonneg (stands : Stands em x) : 0 ≤ x :=
  (Nat.cast_nonneg em.mantissa).trans stands.bounds.1

/-- Rounding to the nearest whole number, ties to even, keeps the order. -/
theorem Stands.rounded_le (stands : Stands em x) (stands' : Stands em' x') (le : x ≤ x') :
    em.roundedMantissa ≤ em'.roundedMantissa := by
  rcases lt_trichotomy em.mantissa em'.mantissa with less | same | more
  · have := (roundedMantissa_bounds em).2
    have := (roundedMantissa_bounds em').1
    omega
  · -- One mantissa: the fractions are in order, and so are the ways to round them.
    cases stands <;> cases stands' <;> cases same <;>
      simp only [ExtendedMantissa.roundedMantissa, ExtendedMantissa.accuracy,
        Accuracy.roundToNearestEven] <;>
      first | omega | (exfalso; linarith)
  · have above : (em'.mantissa : ℚ) + 1 ≤ em.mantissa := by exact_mod_cast more
    have := stands.bounds.1
    have := stands'.bounds.2
    exfalso
    linarith

/-- The rest of a division is told by its double. -/
theorem stands_of_division (M : Nat) {n : Nat} (pos : 0 < n) :
    Stands (.ofMantissaAndAccuracy (M / n) (accuracyOfFraction (M % n) n)) (M / n : ℚ) := by
  have divisor : (0 : ℚ) < n := by exact_mod_cast pos
  have whole : (n : ℚ) * (M / n : Nat) + (M % n : Nat) = M := by exact_mod_cast Nat.div_add_mod M n
  have parts : (M : ℚ) / n = (M / n : Nat) + (M % n : Nat) / n := by
    rw [← whole, add_div, mul_div_cancel_left₀ _ divisor.ne']
  have rest : ((M % n : Nat) : ℚ) < n := by exact_mod_cast Nat.mod_lt M pos
  rw [parts]
  generalize M % n = r at rest
  unfold accuracyOfFraction
  by_cases exact : r = 0
  · subst exact
    rw [if_pos rfl, Nat.cast_zero, zero_div, add_zero]
    exact .whole _
  · have rest_pos : (0 : ℚ) < r := by exact_mod_cast Nat.pos_of_ne_zero exact
    rw [if_neg exact]
    rcases lt_trichotomy (2 * r) n with less | same | more
    · have less' : (2 : ℚ) * r < n := by exact_mod_cast less
      rw [compare_lt_iff_lt.2 less]
      exact .less (by positivity) (by rw [div_lt_div_iff₀ divisor two_pos]; linarith)
    · have same' : (2 : ℚ) * r = n := by exact_mod_cast same
      have half : (r : ℚ) / n = 1 / 2 := by
        rw [div_eq_div_iff divisor.ne' two_ne_zero]
        linarith
      rw [compare_eq_iff_eq.2 same, half]
      exact .half _
    · have more' : (n : ℚ) < 2 * r := by exact_mod_cast more
      rw [compare_gt_iff_gt.2 more]
      exact .more (by rw [div_lt_div_iff₀ two_pos divisor]; linarith) ((div_lt_one divisor).2 rest)

/-- Numbers of this size are stored with the exponent `t`. -/
structure Scale (q : ℚ) (t : Int) : Prop where
  below : q < 2 ^ (53 + t)
  least : -1074 ≤ t
  leading : 2 ^ (52 + t) ≤ q ∨ t = -1074

theorem Scale.mono (scale : Scale q t) (scale' : Scale q' t') (le : q ≤ q') : t ≤ t' := by
  rcases scale.leading with leading | rfl
  · have := two_zpow_lt (leading.trans_lt (le.trans_lt scale'.below))
    omega
  · exact scale'.least

/-- `n * 2 ^ t` is the multiple of `2 ^ t` nearest to `q`, which is stored with this exponent. -/
structure Nearest (q : ℚ) (n : Nat) (t : Int) : Prop where
  scale : Scale q t
  mantissa : ∃ em, Stands em (q / 2 ^ t) ∧ em.roundedMantissa = n

theorem two_zpow_pos (t : Int) : (0 : ℚ) < 2 ^ t :=
  zpow_pos two_pos t

theorem Nearest.le (nearest : Nearest q n t) : n ≤ 2 ^ 53 := by
  obtain ⟨scale, em, stands, rfl⟩ := nearest
  have below : q / 2 ^ t < 2 ^ 53 := by
    rw [div_lt_iff₀ (two_zpow_pos t)]
    have := scale.below
    rwa [zpow_add₀ two_ne_zero] at this
  have floor : em.mantissa < 2 ^ 53 := by exact_mod_cast stands.bounds.1.trans_lt below
  have := (roundedMantissa_bounds em).2
  omega

theorem Nearest.leading (nearest : Nearest q n t) : 2 ^ 52 ≤ n ∨ t = -1074 := by
  obtain ⟨scale, em, stands, rfl⟩ := nearest
  refine scale.leading.imp_left fun leading => ?_
  have above : (2 : ℚ) ^ 52 ≤ q / 2 ^ t := by
    rw [le_div_iff₀ (two_zpow_pos t)]
    rwa [zpow_add₀ two_ne_zero] at leading
  have floor : 2 ^ 52 < em.mantissa + 1 := by exact_mod_cast above.trans_lt stands.bounds.2
  have := (roundedMantissa_bounds em).1
  omega

theorem magnitude_mono (le : m ≤ n) : magnitude m e ≤ magnitude n e :=
  mul_le_mul_of_nonneg_right (Nat.cast_le.2 le) (two_zpow_pos e).le

theorem magnitude_two_pow (k : Nat) : magnitude (2 ^ k) e = 2 ^ (k + e) := by
  rw [magnitude, zpow_add₀ two_ne_zero, zpow_natCast, Nat.cast_pow, Nat.cast_ofNat]

/-- Between numbers that are stored with different exponents there is a power of two. -/
theorem Nearest.mono (nearest : Nearest q n t) (nearest' : Nearest q' n' t') (le : q ≤ q') :
    magnitude n t ≤ magnitude n' t' := by
  rcases (nearest.scale.mono nearest'.scale le).eq_or_lt with rfl | less
  · obtain ⟨-, em, stands, rfl⟩ := nearest
    obtain ⟨-, em', stands', rfl⟩ := nearest'
    exact magnitude_mono (stands.rounded_le stands'
      (div_le_div_of_nonneg_right le (two_zpow_pos t).le))
  · have leading : 2 ^ 52 ≤ n' := by
      have := nearest.scale.least
      exact nearest'.leading.resolve_right (by omega)
    calc magnitude n t ≤ magnitude (2 ^ 53) t := magnitude_mono nearest.le
      _ = 2 ^ (53 + t) := magnitude_two_pow 53
      _ ≤ 2 ^ (52 + t') := zpow_le_zpow_right₀ one_le_two (by omega)
      _ = magnitude (2 ^ 52) t' := (magnitude_two_pow 52).symm
      _ ≤ magnitude n' t' := magnitude_mono leading

/-- `n * 2 ^ e` is the double, or the number too large for one, that `q` is rounded to. -/
structure RoundsTo (q : ℚ) (n : Nat) (e : Int) : Prop where
  canonical : Canonical n e
  nearest : ∃ m t, Nearest q m t ∧ magnitude n e = magnitude m t

/-- Rounding to the nearest double keeps the order. -/
theorem RoundsTo.mono (rounds : RoundsTo q n e) (rounds' : RoundsTo q' n' f) (le : q ≤ q') :
    magnitude n e ≤ magnitude n' f := by
  obtain ⟨m, t, nearest, same⟩ := rounds.nearest
  obtain ⟨m', t', nearest', same'⟩ := rounds'.nearest
  rw [same, same']
  exact nearest.mono nearest' le

theorem RoundsTo.nonneg (rounds : RoundsTo q n e) : 0 ≤ q := by
  obtain ⟨m, t, ⟨-, em, stands, -⟩, -⟩ := rounds.nearest
  have := mul_nonneg stands.nonneg (two_zpow_pos t).le
  rwa [div_mul_cancel₀ _ (two_zpow_pos t).ne'] at this

/-- A double is rounded to itself. -/
theorem Canonical.roundsTo (canonical : Canonical m e) : RoundsTo (magnitude m e) m e := by
  obtain ⟨bits, least, leading⟩ := canonical
  refine ⟨⟨bits, least, leading⟩, m, e, ⟨⟨?_, least, ?_⟩, ⟨m, false, false⟩, ?_, rfl⟩, rfl⟩
  · rw [zpow_add₀ two_ne_zero]
    exact mul_lt_mul_of_pos_right (by exact_mod_cast bits) (two_zpow_pos e)
  · refine leading.imp_left fun leading => ?_
    rw [zpow_add₀ two_ne_zero]
    exact mul_le_mul_of_nonneg_right (by exact_mod_cast leading) (two_zpow_pos e).le
  · rw [magnitude, mul_div_cancel_right₀ _ (two_zpow_pos e).ne']
    exact .whole m

/-- What has enough bits is cut off at the exponent that it is stored with. -/
theorem scale_storedExponent {acc : Accuracy} (enough : Roundable m e)
    (stands : Stands (.ofMantissaAndAccuracy m acc) x) : Scale (x * 2 ^ e) (storedExponent m e) := by
  have bounds := stands.bounds
  rw [mantissa_ofMantissaAndAccuracy] at bounds
  have size : (m : ℚ) + 1 ≤ 2 ^ (m.log2 + 1) := by exact_mod_cast Nat.lt_log2_self
  refine ⟨?_, by unfold storedExponent; omega, ?_⟩
  · calc x * 2 ^ e < 2 ^ (m.log2 + 1) * 2 ^ e :=
        mul_lt_mul_of_pos_right (bounds.2.trans_le size) (two_zpow_pos e)
      _ = 2 ^ ((m.log2 : Int) + 1 + e) := by
        rw [zpow_add₀ two_ne_zero, ← zpow_natCast]
        rfl
      _ ≤ 2 ^ (53 + storedExponent m e) := by
        apply zpow_le_zpow_right₀ one_le_two
        unfold storedExponent
        omega
  · by_cases bottom : storedExponent m e = -1074
    · exact .inr bottom
    · left
      have stored : 52 + storedExponent m e = m.log2 + e := by
        unfold storedExponent at bottom ⊢
        omega
      have pos : 0 < m := by
        rw [Nat.pos_iff_ne_zero]
        rintro rfl
        unfold Roundable at enough
        unfold storedExponent at bottom
        simp at enough bottom
        omega
      rw [stored]
      exact (two_pow_le_magnitude pos).trans (mul_le_mul_of_nonneg_right bounds.1 (two_zpow_pos e).le)

/-- Rounding gives the nearest double. -/
theorem exists_roundsTo {acc : Accuracy} (s : Sign) (enough : Roundable m e)
    (stands : Stands (.ofMantissaAndAccuracy m acc) x) :
    ∃ n f, roundWithAccuracy Format.binary64 s m e acc = signed s n f ∧
      RoundsTo (x * 2 ^ e) n f := by
  have scale := scale_storedExponent enough stands
  rw [roundWithAccuracy_carries]
  generalize hk : (storedExponent m e - e).toNat = k
  have stored : storedExponent m e = e + k := by
    unfold Roundable at enough
    unfold storedExponent at hk ⊢
    omega
  rw [stored] at scale
  have cut : x * 2 ^ e / 2 ^ (e + k) = x / 2 ^ k := by
    rw [zpow_add₀ two_ne_zero, zpow_natCast, mul_comm, mul_div_mul_left _ _ (two_zpow_pos e).ne']
  generalize hn : (ExtendedMantissa.ofMantissaAndAccuracy m acc >>> k).roundedMantissa = n
  have nearest : Nearest (x * 2 ^ e) n (e + k) :=
    ⟨scale, _, by rw [cut]; exact stands.shiftRight k, hn⟩
  by_cases small : n < 2 ^ 53
  · simp only [if_pos small]
    exact ⟨_, _, rfl, ⟨small, scale.least, nearest.leading⟩, _, _, nearest, rfl⟩
  · -- A carry has made it a power of two.
    obtain rfl : n = 2 ^ 53 := by
      have := nearest.le
      omega
    simp only [if_neg small]
    refine ⟨_, _, rfl, ⟨by decide, ?_, .inl le_rfl⟩, _, _, nearest, ?_⟩
    · have := scale.least
      omega
    · rw [magnitude_two_pow, magnitude_two_pow]
      congr 1
      push_cast
      ring

end Storyboard.Double
