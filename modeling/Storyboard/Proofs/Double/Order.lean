import Storyboard.Proofs.Double.Whole

open Float.Model

namespace Storyboard.Double

open UnpackedFloat (Sign)

variable {x y : Float} {u v : UnpackedFloat}

/-- Below zero are the numbers with a minus, apart from a zero with one. -/
inductive Negative : UnpackedFloat → Prop where
  | infinity : Negative (.infinity .negative)
  | finite {m : Nat} {e : Int} {pos : 0 < m} : Negative (.finite .negative m e pos)

/-- What compares as less than zero has a minus sign and is not a zero. -/
theorem negative_iff : u.compare (.zero .positive) = some .lt ↔ Negative u := by
  constructor
  · intro below
    cases u with
    | notANumber => cases below
    | infinity s =>
      cases s with
      | positive => cases below
      | negative => exact .infinity
    | zero s => cases s <;> cases below
    | finite s m e pos =>
      cases s with
      | positive => cases below
      | negative => exact .finite
  · intro negative
    cases negative with
    | infinity => rfl
    | finite => rfl

theorem lt_zero_iff : x < 0.0 ↔ Negative x.toModel.unpack := by
  rw [lt_iff rfl]
  exact negative_iff

theorem le_iff : x ≤ y ↔ UnpackedFloat.le x.toModel.unpack y.toModel.unpack = true :=
  decide_eq_true_iff (p := x.toModel ≤ y.toModel)

theorem zero_le_iff : 0.0 ≤ x ↔ UnpackedFloat.le (.zero .positive) x.toModel.unpack = true :=
  le_iff

/-- A finite double that is not below zero is at least zero; either zero counts as not negative. -/
theorem zero_le_of_not_lt (finite : x.isFinite) (nonneg : ¬ x < 0.0) : 0.0 ≤ x := by
  change x.toModel.unpack.isFinite at finite
  rw [lt_zero_iff] at nonneg
  rw [zero_le_iff]
  generalize x.toModel.unpack = u at finite nonneg
  cases u with
  | notANumber => cases finite
  | infinity => cases finite
  | zero s => cases s <;> rfl
  | finite s m e pos =>
    cases s with
    | positive => rfl
    | negative => exact absurd .finite nonneg

theorem not_le_negative (nonneg : UnpackedFloat.le (.zero .positive) u = true)
    (negative : Negative v) : UnpackedFloat.le u v = false := by
  cases u with
  | notANumber => cases nonneg
  | infinity s =>
    cases s with
    | positive => cases negative <;> rfl
    | negative => cases nonneg
  | zero s => cases negative <;> rfl
  | finite s m e pos =>
    cases s with
    | positive => cases negative <;> rfl
    | negative => cases nonneg

theorem isNaN_of_le (le : x ≤ y) : x.isNaN = false ∧ y.isNaN = false := by
  rw [le_iff] at le
  change x.toModel.unpack.isNaN = false ∧ y.toModel.unpack.isNaN = false
  generalize x.toModel.unpack = u at le ⊢
  generalize y.toModel.unpack = v at le ⊢
  cases u with
  | notANumber => cases le
  | infinity | zero | finite =>
    cases v with
    | notANumber => cases le
    | infinity | zero | finite => exact ⟨rfl, rfl⟩

theorem le_of_lt (less : x < y) : x ≤ y := by
  rw [lt_iff rfl] at less
  rw [le_iff, UnpackedFloat.le, less]
  rfl

/-- Nothing above a double that is at least zero is below zero. -/
theorem not_lt_zero_of_le (nonneg : 0.0 ≤ x) (above : x ≤ y) : ¬ y < 0.0 := by
  rw [zero_le_iff] at nonneg
  rw [le_iff] at above
  rw [lt_zero_iff]
  intro negative
  rw [not_le_negative nonneg negative] at above
  cases above

theorem not_isNaN_of_isFinite (finite : x.isFinite) : x.isNaN = false := by
  change x.toModel.unpack.isFinite at finite
  change x.toModel.unpack.isNaN = false
  generalize x.toModel.unpack = u at finite
  cases u with
  | notANumber => cases finite
  | infinity => rfl
  | zero => rfl
  | finite => rfl

end Storyboard.Double
