import Storyboard.Proofs.Double.Spacing

/-!
# Operations that keep the order

Subtracting a double and dividing by a positive one keep the order of doubles, also where operands
or results are infinite (`sub_mono`, `div_mono`), and subtracting from a finite double turns it
round (`sub_anti`). A quotient comes up to 1 just if the dividend comes up to the divisor
(`one_le_div_iff`).
-/

open Float.Model

namespace Storyboard.Double

open UnpackedFloat (Sign)

variable {x y z : Float}

theorem lt_infinity (hx : x.isFinite) (infinite : y.toModel.unpack = .infinity .positive) :
    x < y := by
  have number : y.isNaN = false := congrArg UnpackedFloat.isNaN infinite
  rw [lt_iff_place (not_isNaN_of_isFinite hx) number, place, place, infinite]
  exact (proper_unpack hx).between.2

theorem infinity_lt (hx : x.isFinite) (infinite : y.toModel.unpack = .infinity .negative) :
    y < x := by
  have number : y.isNaN = false := congrArg UnpackedFloat.isNaN infinite
  rw [lt_iff_place number (not_isNaN_of_isFinite hx), place, place, infinite]
  exact (proper_unpack hx).between.1

theorem le_infinity (hx : x.isNaN = false) (infinite : y.toModel.unpack = .infinity .positive) :
    x ≤ y := by
  by_cases finite : x.isFinite
  · exact le_of_lt (lt_infinity finite infinite)
  · obtain ⟨s, unpack⟩ := exists_infinity hx finite
    rw [le_iff, unpack, infinite]
    cases s <;> rfl

/-- Nothing else is above infinity. -/
theorem infinity_of_le (infinite : x.toModel.unpack = .infinity .positive) (le : x ≤ y) :
    y.toModel.unpack = .infinity .positive := by
  rw [le_iff, infinite] at le
  generalize y.toModel.unpack = v at le ⊢
  cases v with
  | notANumber => cases le
  | infinity s =>
    cases s with
    | positive => rfl
    | negative => cases le
  | zero => cases le
  | finite s m e pos => cases s <;> cases le

/-- An operation keeps the order if it rounds what goes up with the value, and takes the infinities
to themselves. -/
theorem le_of_rounded (op : Float → Float) (ideal : ℚ → ℚ) (mono : Monotone ideal)
    (rounded : ∀ x, x.isFinite → IsRounded (ideal (valueOf x)) (op x))
    (infinite : ∀ x s, x.toModel.unpack = .infinity s → (op x).toModel.unpack = .infinity s)
    (le : x ≤ y) : op x ≤ op y := by
  have number : ∀ z, z.isNaN = false → (op z).isNaN = false := by
    intro z hz
    by_cases finite : z.isFinite
    · exact (rounded z finite).isNaN
    · obtain ⟨s, unpack⟩ := exists_infinity hz finite
      exact congrArg UnpackedFloat.isNaN (infinite z s unpack)
  obtain ⟨hx, hy⟩ := isNaN_of_le le
  by_cases finiteX : x.isFinite
  · by_cases finiteY : y.isFinite
    · have ordered := mono ((le_iff_valueOf finiteX finiteY).1 le)
      exact (rounded x finiteX).le (rounded y finiteY) ordered
    · obtain ⟨s, unpack⟩ := exists_infinity hy finiteY
      cases s with
      | positive => exact le_infinity (number x hx) (infinite y _ unpack)
      | negative => exact absurd le (not_le_of_lt (infinity_lt finiteX unpack))
  · obtain ⟨s, unpack⟩ := exists_infinity hx finiteX
    cases s with
    | positive => exact le_infinity (number x hx) (infinite y _ (infinity_of_le unpack le))
    | negative => exact infinity_le (number y hy) (infinite x _ unpack)

/-- Taking the same from more leaves no less, infinities included. -/
theorem sub_mono (le : x ≤ y) (hz : z.isFinite) : x - z ≤ y - z := by
  refine le_of_rounded (fun x => x - z) (fun q => q - valueOf z) ?_ ?_ ?_ le
  · intro q r less
    exact sub_le_sub_right less _
  · intro x hx
    exact isRounded_sub hx hz
  · intro x s infinite
    exact unpack_sub_infinity infinite hz

theorem unpack_div_infinity_of_pos {s : Sign} (infinite : x.toModel.unpack = .infinity s)
    (hy : y.isFinite) (pos : 0 < valueOf y) : (x / y).toModel.unpack = .infinity s := by
  rw [unpack_div_infinity infinite hy pos.ne', if_pos pos]

/-- Dividing more by the same positive number gives no less, infinities included. -/
theorem div_mono (le : x ≤ y) (hz : z.isFinite) (pos : 0 < valueOf z) : x / z ≤ y / z := by
  refine le_of_rounded (fun x => x / z) (fun q => q / valueOf z) ?_ ?_ ?_ le
  · intro q r less
    exact div_le_div_of_nonneg_right less pos.le
  · intro x hx
    exact isRounded_div hx hz pos.ne'
  · intro x s infinite
    exact unpack_div_infinity_of_pos infinite hz pos

/-- Taking more leaves no more. -/
theorem sub_anti (hx : x.isFinite) (hy : y.isFinite) (hz : z.isFinite) (le : x ≤ y) :
    z - y ≤ z - x := by
  have values := (le_iff_valueOf hx hy).1 le
  exact (isRounded_sub hz hy).le (isRounded_sub hz hx) (by linarith)

/-- Between that double and 1 there is no other. -/
theorem le_belowOne (hx : x.isNaN = false) (less : ¬ 1.0 ≤ x) : x ≤ belowOne := by
  by_cases finite : x.isFinite
  · rw [le_iff_valueOf isFinite_one finite, not_le] at less
    have pos : 0 < valueOf 1.0 := valueOf_one ▸ one_pos
    have gap := valueOf_le_of_lt finite isFinite_one pos less
    rw [valueOf_one, one_mul] at gap
    rw [le_iff_valueOf finite isFinite_belowOne, valueOf_belowOne]
    exact gap
  · obtain ⟨s, unpack⟩ := exists_infinity hx finite
    cases s with
    | positive => exact absurd (le_of_lt (lt_infinity isFinite_one unpack)) less
    | negative => exact le_of_lt (infinity_lt isFinite_belowOne unpack)

/-- Only 1 itself is neither below nor above 1. -/
theorem eq_one (ge : 1.0 ≤ x) (le : x ≤ 1.0) : x = 1.0 := by
  have number := (isNaN_of_le le).1
  rw [le_iff_place rfl number] at ge
  rw [le_iff_place number rfl] at le
  exact eq_of_place rfl (le_antisymm le ge)

/-- Below the divisor there is a gap, which the quotient keeps. -/
theorem one_le_div_iff (hx : x.isNaN = false) (hy : y.isFinite) (pos : 0 < valueOf y) :
    1.0 ≤ x / y ↔ y ≤ x := by
  constructor
  · intro one_le
    by_contra less
    have below : x / y ≤ belowOne := by
      by_cases finite : x.isFinite
      · rw [le_iff_valueOf hy finite, not_le] at less
        apply (isRounded_div finite hy pos.ne').le (isRounded_valueOf isFinite_belowOne)
        rw [valueOf_belowOne, div_le_iff₀ pos, mul_comm]
        exact valueOf_le_of_lt finite hy pos less
      · obtain ⟨s, unpack⟩ := exists_infinity hx finite
        have quotient := unpack_div_infinity_of_pos unpack hy pos
        cases s with
        | positive => exact absurd (le_of_lt (lt_infinity hy unpack)) less
        | negative => exact le_of_lt (infinity_lt isFinite_belowOne quotient)
    exact not_le_of_lt belowOne_lt (le_trans one_le below)
  · intro le
    have self : 1.0 ≤ y / y := by
      apply (isRounded_valueOf isFinite_one).le (isRounded_div hy hy pos.ne')
      rw [valueOf_one, div_self pos.ne']
    exact le_trans self (div_mono le hy pos)

end Storyboard.Double
