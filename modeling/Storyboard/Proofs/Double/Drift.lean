import Storyboard.Proofs.Double.Arithmetic

/-!
# How far roundings lead away

Rounding changes a number that is neither tiny nor huge by no more than its `2 ^ 53`-rd part
(`IsRounded.drift`). Operations in a row change their result by no more than that part for each of
them (`Drift.trans`, `Drift.mul`).
-/

open Float.Model

namespace Storyboard.Double

open UnpackedFloat (Sign ExtendedMantissa Accuracy)

variable {em : ExtendedMantissa} {u : UnpackedFloat} {q r v w : ℚ} {x : Float} {m n k j : Nat}
  {e t : Int}

/-- The part of a number by which rounding may change it. -/
def roundoff : ℚ := 1 / 2 ^ 53

theorem roundoff_pos : 0 < roundoff := by
  norm_num [roundoff]

theorem rest_pos : 0 < 1 - roundoff := by
  norm_num [roundoff]

/-- `v` is what may have become of `q` in `k` roundings. -/
structure Drift (k : Nat) (q v : ℚ) : Prop where
  lower : q * (1 - roundoff) ^ k ≤ v
  upper : v ≤ q * (1 + roundoff) ^ k

namespace Drift

theorem nonneg (drift : Drift k q v) (hq : 0 ≤ q) : 0 ≤ v :=
  (mul_nonneg hq (pow_nonneg rest_pos.le k)).trans drift.lower

theorem trans (first : Drift k q v) (second : Drift j v w) : Drift (k + j) q w where
  lower := by
    calc q * (1 - roundoff) ^ (k + j) = q * (1 - roundoff) ^ k * (1 - roundoff) ^ j := by ring
      _ ≤ v * (1 - roundoff) ^ j :=
          mul_le_mul_of_nonneg_right first.lower (pow_nonneg rest_pos.le j)
      _ ≤ w := second.lower
  upper := by
    have above : 0 ≤ 1 + roundoff := (add_pos one_pos roundoff_pos).le
    calc w ≤ v * (1 + roundoff) ^ j := second.upper
      _ ≤ q * (1 + roundoff) ^ k * (1 + roundoff) ^ j :=
        mul_le_mul_of_nonneg_right first.upper (pow_nonneg above j)
      _ = q * (1 + roundoff) ^ (k + j) := by ring

theorem mul (first : Drift k q v) (second : Drift j r w) (hq : 0 ≤ q) (hr : 0 ≤ r) :
    Drift (k + j) (q * r) (v * w) where
  lower := by
    calc q * r * (1 - roundoff) ^ (k + j)
        = q * (1 - roundoff) ^ k * (r * (1 - roundoff) ^ j) := by ring
      _ ≤ v * w := mul_le_mul first.lower second.lower
        (mul_nonneg hr (pow_nonneg rest_pos.le j)) (first.nonneg hq)
  upper := by
    have above : 0 ≤ 1 + roundoff := (add_pos one_pos roundoff_pos).le
    calc v * w ≤ q * (1 + roundoff) ^ k * (r * (1 + roundoff) ^ j) :=
        mul_le_mul first.upper second.upper (second.nonneg hr) (mul_nonneg hq (pow_nonneg above k))
      _ = q * r * (1 + roundoff) ^ (k + j) := by ring

/-- Dividing by a number that is not rounded adds nothing. -/
theorem div (drift : Drift k q v) (hr : 0 < r) : Drift k (q / r) (v / r) where
  lower := by
    rw [div_mul_eq_mul_div]
    exact div_le_div_of_nonneg_right drift.lower hr.le
  upper := by
    rw [div_mul_eq_mul_div]
    exact div_le_div_of_nonneg_right drift.upper hr.le

end Drift

/-- The rounded mantissa is at most a half away. -/
theorem Stands.half_away (stands : Stands em v) :
    (em.roundedMantissa : ℚ) ≤ v + 1 / 2 ∧ v ≤ em.roundedMantissa + 1 / 2 := by
  cases stands with
  | whole m =>
    change (m : ℚ) ≤ m + 1 / 2 ∧ (m : ℚ) ≤ m + 1 / 2
    constructor <;> linarith
  | @less m r pos below =>
    change (m : ℚ) ≤ m + r + 1 / 2 ∧ m + r ≤ (m : ℚ) + 1 / 2
    constructor <;> linarith
  | half m =>
    change ((m + m % 2 : Nat) : ℚ) ≤ m + 1 / 2 + 1 / 2 ∧ m + 1 / 2 ≤ ((m + m % 2 : Nat) : ℚ) + 1 / 2
    have last : ((m % 2 : Nat) : ℚ) ≤ 1 := by
      exact_mod_cast Nat.lt_succ_iff.1 (Nat.mod_lt m two_pos)
    have nonneg : (0 : ℚ) ≤ (m % 2 : Nat) := Nat.cast_nonneg _
    push_cast at last nonneg ⊢
    constructor <;> linarith
  | @more m r above below =>
    change ((m + 1 : Nat) : ℚ) ≤ m + r + 1 / 2 ∧ m + r ≤ ((m + 1 : Nat) : ℚ) + 1 / 2
    push_cast
    constructor <;> linarith

/-- The number is stored with all the bits of a mantissa. -/
def Normal (q : ℚ) : Prop :=
  2 ^ (-1022 : ℤ) ≤ q

/-- One rounding moves a normal number by at most its `2 ^ 53`-rd part. -/
theorem Nearest.drift (nearest : Nearest q n t) (normal : Normal q) :
    Drift 1 q (magnitude n t) := by
  obtain ⟨scale, em, stands, rfl⟩ := nearest
  obtain ⟨upper, lower⟩ := stands.half_away
  have pos := two_zpow_pos t
  have leading : 2 ^ (52 + t) ≤ q := scale.leading.elim id fun bottom => by
    rw [bottom]
    exact normal
  -- Half a unit of the last bit is the part of the leading bit that rounding may change.
  have unit : (2 : ℚ) ^ t * (1 / 2) ≤ q * roundoff := by
    have split : (2 : ℚ) ^ (52 + t) = 2 ^ 52 * 2 ^ t := by rw [zpow_add₀ two_ne_zero]; rfl
    rw [split] at leading
    unfold roundoff
    linarith
  have whole : q / 2 ^ t * 2 ^ t = q := div_mul_cancel₀ q pos.ne'
  have above := mul_le_mul_of_nonneg_right upper pos.le
  have below := mul_le_mul_of_nonneg_right lower pos.le
  rw [add_mul, whole] at above
  rw [add_mul, whole] at below
  constructor
  · rw [pow_one]
    unfold magnitude
    linarith
  · rw [pow_one]
    unfold magnitude
    linarith

theorem Rounds.drift (rounds : Rounds q u) (normal : Normal q) : Drift 1 q (value u) := by
  cases rounds with
  | @signed s q n e rounds =>
    cases s with
    | positive =>
      obtain ⟨m, t, nearest, same⟩ := rounds.nearest
      rw [value_signed, unit, one_mul, one_mul, same]
      rw [unit, one_mul] at normal
      exact nearest.drift normal
    | negative =>
      have above := (two_zpow_pos (-1022)).trans_le normal
      have := rounds.nonneg
      rw [unit] at above
      linarith

/-- A number that is not too large is stored as it is. -/
theorem settled_of_lt (proper : Proper u) (nonneg : 0 ≤ value u)
    (below : value u < 2 ^ (52 + 972 : ℤ)) : settled u = u := by
  cases proper with
  | zero s => exact settled_zero s
  | @finite s m e canonical pos =>
    cases s with
    | positive =>
      rw [value, unit, one_mul] at below
      rw [settled_finite canonical pos, if_pos]
      by_contra large
      have leading : 2 ^ 52 ≤ m := canonical.leading.resolve_right (by omega)
      refine absurd below (not_lt.2 ?_)
      calc (2 : ℚ) ^ (52 + 972 : ℤ) ≤ 2 ^ (52 + e) := zpow_le_zpow_right₀ one_le_two (by omega)
        _ = magnitude (2 ^ 52) e := (magnitude_two_pow 52).symm
        _ ≤ magnitude m e := magnitude_mono leading
    | negative =>
      have := magnitude_pos (e := e) pos
      rw [value, unit] at nonneg
      linarith only [nonneg, this]

/-- Both the number and its inverse are at most `2 ^ b`. -/
structure Moderate (b : Nat) (q : ℚ) : Prop where
  lower : 1 / 2 ^ b ≤ q
  upper : q ≤ 2 ^ b

namespace Moderate

theorem pos (moderate : Moderate k q) : 0 < q :=
  (one_div_pos.2 (pow_pos two_pos k)).trans_le moderate.lower

theorem mul (hq : Moderate k q) (hr : Moderate j r) : Moderate (k + j) (q * r) where
  lower := by
    calc (1 : ℚ) / 2 ^ (k + j) = 1 / 2 ^ k * (1 / 2 ^ j) := by rw [pow_add, one_div_mul_one_div]
      _ ≤ q * r := mul_le_mul hq.lower hr.lower (by positivity) hq.pos.le
  upper := by
    rw [pow_add]
    exact mul_le_mul hq.upper hr.upper hr.pos.le (by positivity)

theorem inv (hq : Moderate k q) : Moderate k q⁻¹ where
  lower := by
    rw [one_div]
    exact inv_anti₀ hq.pos hq.upper
  upper := by
    rw [inv_le_comm₀ hq.pos (by positivity), ← one_div]
    exact hq.lower

theorem div (hq : Moderate k q) (hr : Moderate j r) : Moderate (k + j) (q / r) := by
  rw [div_eq_mul_inv]
  exact hq.mul hr.inv

/-- A few roundings do not double or halve a number. -/
theorem of_drift (hq : Moderate k q) (drift : Drift j q v) (few : j ≤ 4) : Moderate (k + 1) v where
  lower := by
    have kept : (1 : ℚ) / 2 ≤ (1 - roundoff) ^ j := by
      calc (1 : ℚ) / 2 ≤ (1 - roundoff) ^ 4 := by norm_num [roundoff]
        _ ≤ (1 - roundoff) ^ j :=
          pow_le_pow_of_le_one rest_pos.le (sub_le_self 1 roundoff_pos.le) few
    calc (1 : ℚ) / 2 ^ (k + 1) = 1 / 2 ^ k * (1 / 2) := by rw [pow_succ, one_div_mul_one_div]
      _ ≤ q * (1 - roundoff) ^ j := mul_le_mul hq.lower kept (by norm_num) hq.pos.le
      _ ≤ v := drift.lower
  upper := by
    have kept : (1 + roundoff) ^ j ≤ 2 := by
      calc (1 + roundoff) ^ j ≤ (1 + roundoff) ^ 4 :=
          pow_le_pow_right₀ (le_add_of_nonneg_right roundoff_pos.le) few
        _ ≤ 2 := by norm_num [roundoff]
    calc v ≤ q * (1 + roundoff) ^ j := drift.upper
      _ ≤ 2 ^ k * 2 := mul_le_mul hq.upper kept
        (pow_nonneg (add_pos one_pos roundoff_pos).le j) (by positivity)
      _ = 2 ^ (k + 1) := (pow_succ 2 k).symm

end Moderate

/-- What is moderate is rounded to a finite double nearby. -/
theorem IsRounded.drift (rounded : IsRounded q x) (moderate : Moderate k q) (small : k ≤ 1000) :
    x.isFinite ∧ Drift 1 q (valueOf x) := by
  obtain ⟨u, rounds, stored⟩ := rounded
  have normal : Normal q := by
    have power : (2 : ℚ) ^ (-1022 : ℤ) ≤ 2 ^ (-k : ℤ) :=
      zpow_le_zpow_right₀ one_le_two (by omega)
    exact power.trans (by simpa using moderate.lower)
  have drift := rounds.drift normal
  have below : value u < 2 ^ (52 + 972 : ℤ) := by
    calc value u ≤ 2 ^ (k + 1) := (moderate.of_drift drift (by decide)).upper
      _ = 2 ^ (k + 1 : ℤ) := (zpow_natCast 2 (k + 1)).symm
      _ < 2 ^ (52 + 972 : ℤ) := zpow_lt_zpow_right₀ one_lt_two (by omega)
  have same := settled_of_lt rounds.proper (drift.nonneg moderate.pos.le) below
  rw [same] at stored
  constructor
  · change x.toModel.unpack.isFinite
    rw [stored]
    cases rounds.proper with
    | zero => rfl
    | finite => rfl
  · rw [valueOf, stored]
    exact drift

end Storyboard.Double
