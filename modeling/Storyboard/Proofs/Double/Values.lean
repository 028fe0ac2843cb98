import Storyboard.Proofs.Double.Nearest

/-!
# Values of doubles

Finite doubles are in the order of the numbers that they stand for (`le_iff_valueOf`), and numbers
in order are rounded to doubles in order, of which the largest are infinite (`IsRounded.le`).
-/

open Float.Model

namespace Storyboard.Double

open UnpackedFloat (Sign)

variable {u v : UnpackedFloat} {s t : Sign} {m n : Nat} {e f : Int} {q r : ℚ} {x y : Float}

/-- The sign as a number. -/
def unit : Sign → ℚ
  | .positive => 1
  | .negative => -1

/-- The number that a finite double stands for. -/
def value : UnpackedFloat → ℚ
  | .finite s m e _ => unit s * magnitude m e
  | _ => 0

def valueOf (x : Float) : ℚ :=
  value x.toModel.unpack

/-- A number in the form in which finite doubles are stored; it may still be too large for one. -/
inductive Proper : UnpackedFloat → Prop where
  | zero (s : Sign) : Proper (.zero s)
  | finite (s : Sign) {m : Nat} {e : Int} (canonical : Canonical m e) (pos : 0 < m) :
      Proper (.finite s m e pos)

theorem proper_signed (s : Sign) (canonical : Canonical m e) : Proper (signed s m e) := by
  unfold signed
  split
  · exact .zero s
  · exact .finite s canonical _

theorem value_zero (s : Sign) : value (.zero s) = 0 := rfl

theorem magnitude_zero (e : Int) : magnitude 0 e = 0 := by
  rw [magnitude, Nat.cast_zero, zero_mul]

theorem value_signed (s : Sign) (m : Nat) (e : Int) :
    value (signed s m e) = unit s * magnitude m e := by
  unfold signed
  split
  · rename_i zero
    rw [zero, magnitude_zero, mul_zero]
    rfl
  · rfl

theorem proper_unpack (finite : x.isFinite) : Proper x.toModel.unpack := by
  change x.toModel.unpack.isFinite at finite
  cases hu : x.toModel.unpack with
  | notANumber => rw [hu] at finite; cases finite
  | infinity => rw [hu] at finite; cases finite
  | zero s => exact .zero s
  | finite s m e pos => exact .finite s (canonical_unpack hu) pos

theorem isFinite_zero : (0.0 : Float).isFinite := rfl

theorem isFinite_one : (1.0 : Float).isFinite := rfl

theorem valueOf_zero : valueOf 0.0 = 0 := rfl

theorem valueOf_one : valueOf 1.0 = 1 := by
  change unit .positive * magnitude (2 ^ 52) (-52) = 1
  rw [magnitude_two_pow, unit, one_mul]
  rfl

/-- Only the zeros are equal to zero. -/
theorem valueOf_ne_zero (finite : x.isFinite) (nonzero : (x == 0.0) = false) : valueOf x ≠ 0 := by
  change x.toModel.unpack.isFinite at finite
  change UnpackedFloat.beq x.toModel.unpack (.zero .positive) = false at nonzero
  unfold valueOf
  generalize x.toModel.unpack = u at finite nonzero
  cases u with
  | notANumber => cases finite
  | infinity => cases finite
  | zero s => cases nonzero
  | finite s m e pos =>
    have := magnitude_pos (e := e) pos
    cases s <;> simp [value, unit, this.ne']

/-- Canonical numbers are in the order of their exponents, and then of their mantissas. -/
theorem magnitude_lt (canonical : Canonical m e) (canonical' : Canonical n f)
    (less : e < f ∨ e = f ∧ m < n) : magnitude m e < magnitude n f := by
  rcases less with less | ⟨rfl, less⟩
  · have leading : 2 ^ 52 ≤ n := by
      have := canonical.least
      exact canonical'.leading.resolve_right (by omega)
    calc magnitude m e < magnitude (2 ^ 53) e :=
        mul_lt_mul_of_pos_right (Nat.cast_lt.2 canonical.bits) (two_zpow_pos e)
      _ = 2 ^ (53 + e) := magnitude_two_pow 53
      _ ≤ 2 ^ (52 + f) := zpow_le_zpow_right₀ one_le_two (by omega)
      _ = magnitude (2 ^ 52) f := (magnitude_two_pow 52).symm
      _ ≤ magnitude n f := magnitude_mono leading
  · exact mul_lt_mul_of_pos_right (Nat.cast_lt.2 less) (two_zpow_pos e)

theorem rank_lt_iff (a b c a' b' c' : ℤ) :
    (toLex (a, toLex (b, c)) : ℤ ×ₗ ℤ ×ₗ ℤ) < toLex (a', toLex (b', c')) ↔
      a < a' ∨ a = a' ∧ (b < b' ∨ b = b' ∧ c < c') := by
  rw [Prod.Lex.toLex_lt_toLex, Prod.Lex.toLex_lt_toLex]

/-- Ranks order the values: the exponent decides, and for the same exponent the mantissa. -/
theorem value_lt_of_rank (hu : Proper u) (hv : Proper v) (less : rank u < rank v) :
    value u < value v := by
  cases hu with
  | zero s =>
    cases hv with
    | zero t => exact absurd less (lt_irrefl _)
    | finite t canonical pos =>
      cases t with
      | positive => simpa [value, unit] using magnitude_pos pos
      | negative => simp [rank, rank_lt_iff] at less
  | @finite s m e canonical pos =>
    cases hv with
    | zero t =>
      cases s with
      | positive => simp [rank, rank_lt_iff] at less
      | negative => simpa [value, unit] using magnitude_pos pos
    | @finite t n f canonical' pos' =>
      have here : 0 < magnitude m e := magnitude_pos pos
      have there : 0 < magnitude n f := magnitude_pos pos'
      cases s <;> cases t <;>
        simp only [rank, rank_lt_iff, value, unit, one_mul, neg_one_mul, neg_lt_neg_iff] at less ⊢
      case positive.positive =>
        exact magnitude_lt canonical canonical' (by omega)
      case negative.negative =>
        exact magnitude_lt canonical' canonical (by omega)
      case positive.negative => omega
      case negative.positive => linarith

theorem value_eq_of_rank (hu : Proper u) (hv : Proper v) (same : rank u = rank v) :
    value u = value v := by
  cases hu with
  | zero s =>
    cases hv with
    | zero t => rfl
    | finite t canonical pos => cases t <;> cases same
  | @finite s m e canonical pos =>
    cases hv with
    | zero t => cases s <;> cases same
    | finite t canonical' pos' => cases s <;> cases t <;> simp_all [rank, value]

/-- Finite doubles stand in the order of their values. -/
theorem rank_le_iff (hu : Proper u) (hv : Proper v) : rank u ≤ rank v ↔ value u ≤ value v := by
  constructor
  · intro le
    rcases le.lt_or_eq with less | same
    · exact (value_lt_of_rank hu hv less).le
    · exact (value_eq_of_rank hu hv same).le
  · intro le
    by_contra above
    exact absurd le (not_le.2 (value_lt_of_rank hv hu (not_le.1 above)))

/-- Finite doubles are in the order of the numbers they stand for. -/
theorem le_iff_valueOf (hx : x.isFinite) (hy : y.isFinite) : x ≤ y ↔ valueOf x ≤ valueOf y := by
  rw [le_iff_place (not_isNaN_of_isFinite hx) (not_isNaN_of_isFinite hy)]
  exact rank_le_iff (proper_unpack hx) (proper_unpack hy)

theorem Proper.between (proper : Proper u) :
    rank (.infinity .negative) < rank u ∧ rank u < rank (.infinity .positive) := by
  cases proper with
  | zero s => cases s <;> decide
  | finite s canonical pos => cases s <;> simp [rank, rank_lt_iff]

/-- What lies between finite doubles is finite. -/
theorem isFinite_between (hu : Proper u) (hv : Proper v) {w : UnpackedFloat}
    (number : w.isNaN = false) (above : rank u ≤ rank w) (below : rank w ≤ rank v) : w.isFinite := by
  cases w with
  | notANumber => cases number
  | zero => rfl
  | finite => rfl
  | infinity s =>
    cases s with
    | positive => exact absurd below (not_le.2 hv.between.2)
    | negative => exact absurd above (not_le.2 hu.between.1)

/-- What lies between finite doubles is finite. -/
theorem isFinite_of_le {z : Float} (hx : x.isFinite) (hy : y.isFinite) (number : z.isNaN = false)
    (above : x ≤ z) (below : z ≤ y) : z.isFinite := by
  rw [le_iff_place (not_isNaN_of_isFinite hx) number] at above
  rw [le_iff_place number (not_isNaN_of_isFinite hy)] at below
  exact isFinite_between (proper_unpack hx) (proper_unpack hy) number above below

/-- What is read back once a number has been stored: the number, unless it is too large. -/
def settled (u : UnpackedFloat) : UnpackedFloat :=
  (Float.Model.pack u).unpack

/-- What is stored for a number in canonical form: itself, or an infinity. -/
theorem settled_finite (canonical : Canonical m e) (pos : 0 < m) :
    settled (.finite s m e pos) = if e < 972 then .finite s m e pos else .infinity s := by
  by_cases fits : e < 972
  · rw [if_pos fits]
    exact unpack_pack pos canonical fits
  · rw [if_neg fits]
    exact unpack_pack_large s pos (not_lt.1 fits)

theorem isNaN_settled (proper : Proper u) : (settled u).isNaN = false := by
  cases proper with
  | zero s => rw [settled, unpack_pack_zero]; rfl
  | finite s canonical pos =>
    rw [settled_finite canonical pos]
    split <;> rfl

theorem settled_zero (s : Sign) : settled (.zero s) = .zero s :=
  unpack_pack_zero s

/-- Storing keeps the order. -/
theorem rank_settled_le (hu : Proper u) (hv : Proper v) (le : rank u ≤ rank v) :
    rank (settled u) ≤ rank (settled v) := by
  rw [← not_lt] at le ⊢
  cases hu with
  | zero s =>
    cases hv with
    | zero t => rwa [settled_zero, settled_zero]
    | @finite t n f canonical pos =>
      rw [settled_zero, settled_finite canonical pos]
      by_cases fits : f < 972
      · rwa [if_pos fits]
      · rw [if_neg fits]
        cases t <;> simp only [rank, rank_lt_iff] at le ⊢ <;> omega
  | @finite s m e canonical pos =>
    rw [settled_finite canonical pos]
    cases hv with
    | zero t =>
      rw [settled_zero]
      by_cases fits : e < 972
      · rwa [if_pos fits]
      · rw [if_neg fits]
        cases s <;> simp only [rank, rank_lt_iff] at le ⊢ <;> omega
    | @finite t n f canonical' pos' =>
      rw [settled_finite canonical' pos']
      by_cases fits : e < 972 <;> by_cases fits' : f < 972 <;> cases s <;> cases t <;>
        simp only [fits, fits', ↓reduceIte, rank, rank_lt_iff, true_and] at le ⊢ <;> omega

/-- `u` is what `q` is rounded to; the sign of a zero is left open. -/
inductive Rounds : ℚ → UnpackedFloat → Prop where
  | signed (s : Sign) {q : ℚ} {n : Nat} {e : Int} (rounds : RoundsTo q n e) :
      Rounds (unit s * q) (signed s n e)

theorem Rounds.proper (rounds : Rounds q u) : Proper u := by
  cases rounds with
  | signed s rounds => exact proper_signed s rounds.canonical

theorem roundsTo_zero : RoundsTo 0 0 (-1074) := by
  rw [← magnitude_zero (-1074)]
  exact Canonical.roundsTo ⟨by decide, le_rfl, .inr rfl⟩

theorem RoundsTo.magnitude_eq_zero (rounds : RoundsTo 0 n e) : magnitude n e = 0 := by
  rw [← magnitude_zero (-1074)]
  exact le_antisymm (rounds.mono roundsTo_zero le_rfl) (roundsTo_zero.mono rounds le_rfl)

theorem Rounds.value_le (hu : Rounds q u) (hv : Rounds r v) (le : q ≤ r) : value u ≤ value v := by
  cases hu with
  | @signed s q n e hn =>
    cases hv with
    | @signed t r m f hm =>
      have hq := hn.nonneg
      have hr := hm.nonneg
      rw [value_signed, value_signed]
      cases s <;> cases t <;> simp only [unit, one_mul, neg_one_mul, neg_le_neg_iff] at le ⊢
      case positive.positive => exact hn.mono hm le
      case negative.negative => exact hm.mono hn le
      case positive.negative =>
        obtain rfl : q = 0 := by linarith
        obtain rfl : r = 0 := by linarith
        rw [hn.magnitude_eq_zero, hm.magnitude_eq_zero, neg_zero]
      case negative.positive =>
        have : 0 ≤ magnitude n e := mul_nonneg (Nat.cast_nonneg n) (two_zpow_pos e).le
        have : 0 ≤ magnitude m f := mul_nonneg (Nat.cast_nonneg m) (two_zpow_pos f).le
        linarith

/-- The double that `q` is rounded to; an infinity if it is too large. -/
def IsRounded (q : ℚ) (x : Float) : Prop :=
  ∃ u, Rounds q u ∧ x.toModel.unpack = settled u

theorem IsRounded.isNaN (rounded : IsRounded q x) : x.isNaN = false := by
  obtain ⟨u, rounds, stored⟩ := rounded
  change x.toModel.unpack.isNaN = false
  rw [stored]
  exact isNaN_settled rounds.proper

/-- Numbers in order are rounded to doubles in order. -/
theorem IsRounded.place_le (hx : IsRounded q x) (hy : IsRounded r y) (le : q ≤ r) :
    place x ≤ place y := by
  obtain ⟨u, hu, storedX⟩ := hx
  obtain ⟨v, hv, storedY⟩ := hy
  unfold place
  rw [storedX, storedY]
  apply rank_settled_le hu.proper hv.proper
  exact (rank_le_iff hu.proper hv.proper).2 (hu.value_le hv le)

/-- Operations whose results are the exact ones, rounded, keep the order of the exact ones. -/
theorem IsRounded.le (hx : IsRounded q x) (hy : IsRounded r y) (le : q ≤ r) : x ≤ y :=
  (le_iff_place hx.isNaN hy.isNaN).2 (hx.place_le hy le)

/-- A double is its own rounding. -/
theorem rounds_of_proper (proper : Proper u) : Rounds (value u) u := by
  cases proper with
  | zero s =>
    have zero := Rounds.signed s roundsTo_zero
    rwa [mul_zero] at zero
  | @finite s m e canonical pos =>
    have self := Rounds.signed s canonical.roundsTo
    rwa [signed, dif_neg (Nat.ne_of_gt pos)] at self

theorem rounds_zero (s : Sign) : Rounds 0 (.zero s) :=
  rounds_of_proper (.zero s)

theorem settled_unpack (x : Float) : settled x.toModel.unpack = x.toModel.unpack := by
  rw [settled, pack_unpack]

/-- A finite double is its own value rounded. -/
theorem isRounded_valueOf (finite : x.isFinite) : IsRounded (valueOf x) x :=
  ⟨_, rounds_of_proper (proper_unpack finite), (settled_unpack x).symm⟩

end Storyboard.Double
