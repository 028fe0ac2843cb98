import Mathlib
import Storyboard.Exact

/-!
# How doubles are stored

A finite double is a mantissa of 53 bits and an exponent. Main statements: a double that is read
back from its bits is canonical (`canonical_unpack`), and a canonical number is read back as it was
stored unless it is too large (`unpack_pack`, `unpack_pack_large`).
-/

open Float.Model

namespace Storyboard.Double

open UnpackedFloat (Sign packComponents unpackSign unpackMantissa unpackExponent
  unpackMantissa_packComponents unpackExponent_packComponents)

/-- A mantissa and an exponent as the format stores them: at most 53 bits, of which the first is set
unless the exponent is the least one. -/
structure Canonical (m : Nat) (e : Int) : Prop where
  bits : m < 2 ^ 53
  least : -1074 ≤ e
  leading : 2 ^ 52 ≤ m ∨ e = -1074

theorem append_leading (v : BitVec 52) : (1#1 ++ v).toNat = 2 ^ 52 + v.toNat := by
  rw [BitVec.toNat_append, ← Nat.shiftLeft_add_eq_or_of_lt v.isLt]
  rfl

/-- A finite double is stored in canonical form. -/
theorem canonical_unpack {x : Float.Model} {s : Sign} {m : Nat} {e : Int} {pos : 0 < m}
    (h : x.unpack = .finite s m e pos) : Canonical m e := by
  unfold Float.Model.unpack UnpackedFloat.unpack at h
  simp only at h
  split at h
  · split at h <;> cases h
  · split at h
    · rename_i zeroExponent
      split at h
      · cases h
      · simp only [zeroExponent, UnpackedFloat.finite.injEq] at h
        obtain ⟨-, rfl, rfl⟩ := h
        exact ⟨Nat.lt_of_lt_of_le (BitVec.isLt _) (by decide), by decide, .inr (by decide)⟩
    · rename_i nonzero
      cases h
      have hm := (@unpackMantissa Format.binary64 x.toBits.toBitVec).isLt
      have he : (@unpackExponent Format.binary64 x.toBits.toBitVec).toNat ≠ 0 :=
        fun zero => nonzero (BitVec.eq_of_toNat_eq zero)
      change _ < 2 ^ 52 at hm
      rw [append_leading]
      refine ⟨by omega, ?_, .inl (by omega)⟩
      change -1074 ≤
        ((@unpackExponent Format.binary64 x.toBits.toBitVec).toNat : Int) - (1023 + 52)
      omega

theorem unpackSign_packComponents {spec : Format} (s : Sign) (e : BitVec spec.exponentBits)
    (m : BitVec spec.mantissaBitsWithoutImplicit) :
    Sign.ofBitVec (unpackSign (packComponents spec s e m)) = s := by
  have same : unpackSign (packComponents spec s e m) = s.toBitVec := by
    ext i only
    have first : i = 0 := by omega
    simp [first, unpackSign, packComponents, BitVec.getLsbD_append, BitVec.getElem_append]
  rw [same]
  cases s <;> rfl

/-- The double that a sign, eleven bits of exponent and fifty-two of mantissa make up. -/
theorem unpack_packComponents (s : Sign) (e : BitVec 11) (m : BitVec 52) :
    UnpackedFloat.unpack Format.binary64 (packComponents Format.binary64 s e m) =
      if e = 2047#11 then if m = 0#52 then .infinity s else .notANumber
      else if e = 0#11 then if h : m = 0#52 then .zero s
        else .finite s m.toNat (-1074) (by simpa [BitVec.toNat_pos, BitVec.pos_iff_ne_zero])
      else .finite s (1#1 ++ m).toNat ((e.toNat : Int) - 1075) (by rw [append_leading]; omega) := by
  simp only [UnpackedFloat.unpack, unpackMantissa_packComponents, unpackExponent_packComponents,
    unpackSign_packComponents]
  by_cases top : e = 2047#11
  · subst top
    rfl
  · rw [if_neg (show ¬ e = -1#11 from top), if_neg top]
    by_cases bottom : e = 0#11
    · subst bottom
      simp only [if_true]
      rfl
    · simp only [bottom, if_false]
      rfl

theorem unpack_pack_zero (s : Sign) : (Float.Model.pack (.zero s)).unpack = .zero s := by
  cases s <;> rfl

theorem unpack_pack_infinity (s : Sign) :
    (Float.Model.pack (.infinity s)).unpack = .infinity s := by
  cases s <;> rfl

/-- `b` is the exponent as it stands in the bits. -/
theorem pack_finite (s : Sign) {m : Nat} (pos : 0 < m) (b : Nat) :
    UnpackedFloat.pack Format.binary64 (.finite s m ((b : Int) - 1075) pos) =
      if 2047 ≤ b then UnpackedFloat.packedInfinity Format.binary64 s
      else if m.log2 = 52 then
        packComponents Format.binary64 s (BitVec.ofNat 11 b) (BitVec.ofNat 52 m)
      else packComponents Format.binary64 s 0#11 (BitVec.ofNat 52 m) := by
  have biased : ((b : Int) - 1075 + Format.binary64.exponentBias +
      Format.binary64.mantissaBitsWithoutImplicit).toNat = b := by
    change ((b : Int) - 1075 + (1023 : Nat) + (52 : Nat)).toNat = b
    omega
  simp only [UnpackedFloat.pack, biased]
  change (if 2048 ≤ b + 1 then _ else if m.log2 + 1 = 53 then _ else _) = _
  by_cases large : 2047 ≤ b
  · rw [if_pos large, if_pos (by omega)]
  · rw [if_neg large, if_neg (by omega)]
    by_cases normal : m.log2 = 52
    · rw [if_pos normal, if_pos (by omega)]
    · rw [if_neg normal, if_neg (by omega)]

/-- A number that is too large for a double is stored as an infinity. -/
theorem unpack_pack_large (s : Sign) {m : Nat} {e : Int} (pos : 0 < m) (large : 972 ≤ e) :
    (Float.Model.pack (.finite s m e pos)).unpack = .infinity s := by
  obtain ⟨b, rfl⟩ : ∃ b : Nat, e = (b : Int) - 1075 := ⟨(e + 1075).toNat, by omega⟩
  change UnpackedFloat.unpack Format.binary64 (UnpackedFloat.pack Format.binary64 _) = _
  rw [pack_finite, if_pos (by omega)]
  exact unpack_pack_infinity s

theorem ofNat_ne_ofNat {w a b : Nat} (ha : a < 2 ^ w) (hb : b < 2 ^ w) (ne : a ≠ b) :
    BitVec.ofNat w a ≠ BitVec.ofNat w b := by
  intro h
  have := congrArg BitVec.toNat h
  rw [BitVec.toNat_ofNat, BitVec.toNat_ofNat, Nat.mod_eq_of_lt ha, Nat.mod_eq_of_lt hb] at this
  exact ne this

/-- Canonical numbers that are not too large are stored without loss. -/
theorem unpack_pack {s : Sign} {m : Nat} {e : Int} (pos : 0 < m) (canonical : Canonical m e)
    (fits : e < 972) : (Float.Model.pack (.finite s m e pos)).unpack = .finite s m e pos := by
  obtain ⟨bits, least, leading⟩ := canonical
  obtain ⟨b, rfl⟩ : ∃ b : Nat, e = (b : Int) - 1075 := ⟨(e + 1075).toNat, by omega⟩
  change UnpackedFloat.unpack Format.binary64 (UnpackedFloat.pack Format.binary64 _) = _
  rw [pack_finite, if_neg (by omega)]
  by_cases normal : 2 ^ 52 ≤ m
  · have hlog : m.log2 = 52 := by
      have h₁ := (Nat.le_log2 (Nat.ne_of_gt pos)).2 normal
      have h₂ := (Nat.log2_lt (Nat.ne_of_gt pos)).2 bits
      omega
    have hm : (1#1 ++ BitVec.ofNat 52 m).toNat = m := by
      rw [append_leading, BitVec.toNat_ofNat]
      omega
    have hb : (BitVec.ofNat 11 b).toNat = b := by
      rw [BitVec.toNat_ofNat, Nat.mod_eq_of_lt (by omega)]
    rw [if_pos hlog, unpack_packComponents,
      if_neg (ofNat_ne_ofNat (by omega) (by omega) (by omega)),
      if_neg (ofNat_ne_ofNat (by omega) (by omega) (by omega))]
    simp only [hm, hb]
  · have hlog : m.log2 ≠ 52 := by
      have := (Nat.log2_lt (Nat.ne_of_gt pos)).2 (Nat.lt_of_not_le normal)
      omega
    have hm : (BitVec.ofNat 52 m).toNat = m := by
      rw [BitVec.toNat_ofNat, Nat.mod_eq_of_lt (by omega)]
    have he : (b : Int) - 1075 = -1074 := by omega
    rw [if_neg hlog, unpack_packComponents, if_neg (by decide), if_pos rfl,
      dif_neg (ofNat_ne_ofNat (by omega) (by omega) (by omega))]
    simp only [hm, he]

/-- What was unpacked packs to the same double again. -/
theorem pack_unpack (x : Float.Model) : Float.Model.pack x.unpack = x := by
  obtain ⟨bits, valid⟩ := x
  unfold Float.Model.pack Float.Model.unpack
  simp only [UnpackedFloat.pack_unpack_of_valid valid]

/-- Doubles that stand for the same are the same, signs of zero included. -/
theorem eq_of_unpack {x y : Float} (same : x.toModel.unpack = y.toModel.unpack) : x = y := by
  have stored : x.toModel = y.toModel := by
    rw [← pack_unpack x.toModel, same, pack_unpack]
  cases x
  cases y
  exact congrArg Float.ofModel stored

theorem exponent_lt_of_unpack {x : Float.Model} {s : Sign} {m : Nat} {e : Int} {pos : 0 < m}
    (h : x.unpack = .finite s m e pos) : e < 972 := by
  by_contra large
  have infinite := unpack_pack_large s pos (Int.not_lt.1 large)
  rw [← h, pack_unpack, h] at infinite
  cases infinite

end Storyboard.Double
