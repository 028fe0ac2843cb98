import Storyboard.Proofs.Double.Whole
import Storyboard.Script.Parse

namespace Storyboard.Script

open Double

/-- A number as the scanner makes it. -/
def Token.Scanned : Token → Prop
  | .number value integer =>
    value.isFinite ∧ (integer = true → Integral value.toModel.unpack)
  | _ => True

theorem Numeral.integral_value {n : Numeral} (h : n.isInteger) :
    Integral n.value.toModel.unpack := by
  obtain ⟨negative, whole, fraction⟩ := n
  simp only [Numeral.isInteger, Bool.and_eq_true, Bool.not_eq_true', List.isEmpty_iff] at h
  obtain ⟨rfl, rfl⟩ := h
  exact integral_decimal (Int.le_refl 0)

theorem scanned_of_biteNumeral {n : Numeral} {rest : List Char} {b : Bite} {t : Token}
    (h : biteNumeral n rest = .ok b) (piece : b.piece = .token t) : t.Scanned := by
  unfold biteNumeral at h
  split at h
  · cases h
  · rename_i finite
    have number : (Token.number n.value n.isInteger).Scanned :=
      ⟨by simpa using finite, Numeral.integral_value⟩
    split at h
    · split at h <;> cases h <;> cases piece
      · exact number
      · trivial
    · cases h
      cases piece
      exact number

theorem scanned_of_bite {c : Char} {cs : List Char} {b : Bite} {t : Token}
    (h : bite c cs = .ok b) (piece : b.piece = .token t) : t.Scanned := by
  unfold bite at h
  split at h
  · cases h; cases piece
  split at h
  · cases h; cases piece
  split at h
  · split at h <;> cases h
    cases piece
  split at h
  · split at h <;> cases h
    cases piece
    trivial
  split at h
  · cases h
    cases piece
    trivial
  split at h
  · exact scanned_of_biteNumeral h piece
  · split at h <;> cases h
    cases piece
    trivial

/-- The scanner lets only finite numbers through, and a numeral without a sign and a fraction is a
whole number. -/
theorem scanned_of_scan {offset : Nat} {cs : List Char} {lexemes : List Lexeme}
    (h : scan offset cs = .ok lexemes) : ∀ l ∈ lexemes, l.token.Scanned := by
  fun_induction scan offset cs generalizing lexemes with
  | case1 => cases h; simp
  | case2 => cases h
  | case3 =>
    rename_i ih
    exact ih h
  | case4 offset c cs b taken next t piece =>
    rename_i ih
    cases rest : scan next b.rest with
    | error fault => rw [rest] at h; cases h
    | ok later =>
      rw [rest] at h
      cases h
      rintro l (_ | ⟨_, mem⟩)
      · exact scanned_of_bite taken piece
      · exact ih rest l mem

theorem scanned_of_scanText {text : List Char} {s : Scanned} (h : scanText text = .ok s) :
    ∀ t ∈ s.tokens, t.Scanned := by
  unfold scanText at h
  split at h
  · rename_i read
    cases h
    intro t mem
    obtain ⟨l, listed, rfl⟩ := List.mem_map.1 mem
    exact scanned_of_scan read l listed
  · cases h

theorem toNat_ofNatClamp (n : Nat) : (UInt64.ofNatClamp n).toNat = min n (UInt64.size - 1) := by
  unfold UInt64.ofNatClamp
  split
  · rw [UInt64.toNat_ofNatLT]
    omega
  · rw [UInt64.toNat_ofNatLT]
    omega

/-- The three checks on a size leave exactly the whole numbers from 1 to `2 ^ 32 - 1`. -/
theorem pixelSize_accept_iff {axis : Axis} {x : Float} (h : (Token.number x true).Scanned)
    {n : UInt32} :
    pixelSize axis x = .accept n ↔ exactValue? x = some (n.toNat : Rat) ∧ 0 < n.toNat := by
  obtain ⟨finite, integral⟩ := h
  obtain ⟨k, value, clamped, large⟩ := (integral rfl).exists_value finite
  have same : exactValue? x = some (n.toNat : Rat) ↔ k = n.toNat := by
    rw [value, Option.some_inj, Rat.natCast_inj]
  have bound : n.toNat < 2 ^ 32 := n.toNat_lt
  have size : UInt64.size = 2 ^ 64 := rfl
  unfold pixelSize
  rw [same, clamped, toNat_ofNatClamp]
  split
  · rename_i above
    have := large above
    constructor
    · intro h; cases h
    · rintro ⟨rfl, -⟩
      omega
  · simp only [UInt32.size]
    split
    · constructor
      · intro h; cases h
      · rintro ⟨rfl, pos⟩
        omega
    split
    · rename_i fits
      rw [show min k (UInt64.size - 1) = k by omega] at fits ⊢
      rw [Verdict.accept.injEq, ← UInt32.toNat_inj, UInt32.toNat_ofNat_of_lt' fits]
      omega
    · constructor
      · intro h; cases h
      · rintro ⟨rfl, -⟩
        omega

end Storyboard.Script
