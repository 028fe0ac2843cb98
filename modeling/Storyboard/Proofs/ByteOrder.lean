import Mathlib.Data.String.Basic

namespace Storyboard

/-- The text as bytes, in UTF-8. -/
def bytesOf (s : String) : List UInt8 :=
  s.toUTF8.data.toList

/-- The first row is less than the second one, whatever follows them. -/
def Below (p q : List UInt8) : Prop :=
  ∀ s t : List UInt8, p ++ s < q ++ t

section
variable {p q : List UInt8} {a b : Nat}

theorem below_of_lt (small : b < 256) (less : a < b) :
    Below (UInt8.ofNat a :: p) (UInt8.ofNat b :: q) := by
  intro s t
  have bytes : UInt8.ofNat a < UInt8.ofNat b := by
    rw [UInt8.lt_iff_toNat_lt, UInt8.toNat_ofNat_of_lt' (Nat.lt_trans less small),
      UInt8.toNat_ofNat_of_lt' small]
    exact less
  exact List.cons_lt_cons_iff.2 (.inl bytes)

/-- Only where the first bytes are the same do the others matter. -/
theorem below_of_le (small : b < 256) (le : a ≤ b) (rest : a = b → Below p q) :
    Below (UInt8.ofNat a :: p) (UInt8.ofNat b :: q) := by
  rcases Nat.lt_or_eq_of_le le with less | rfl
  · exact below_of_lt small less
  · intro s t
    exact List.cons_lt_cons_iff.2 (.inr ⟨rfl, rest rfl s t⟩)

end

/-- The first byte tells how many there are, and more bytes are of a greater character. -/
theorem below_utf8 {c d : Char} (less : c < d) :
    Below (String.utf8EncodeChar c) (String.utf8EncodeChar d) := by
  have order : c.val.toNat < d.val.toNat := UInt32.lt_iff_toNat_lt.1 (Char.lt_def.1 less)
  have valid : d.val.toNat < 1114112 := by
    rcases d.valid with low | ⟨-, high⟩
    · exact Nat.lt_trans low (by decide)
    · exact high
  unfold String.utf8EncodeChar
  generalize c.val.toNat = v at order
  generalize d.val.toNat = w at order valid
  dsimp only
  -- As many cases as there are bytes; with as many on both sides, the digits to base 64 decide.
  by_cases one : v ≤ 127
  · rw [if_pos one]
    split
    · exact below_of_lt (by omega) order
    · split
      · exact below_of_lt (by omega) (by omega)
      · split <;> exact below_of_lt (by omega) (by omega)
  have one' : ¬ w ≤ 127 := by omega
  rw [if_neg one, if_neg one']
  by_cases two : v ≤ 2047
  · rw [if_pos two]
    split
    · exact below_of_le (by omega) (by omega) fun _ => below_of_lt (by omega) (by omega)
    · split <;> exact below_of_lt (by omega) (by omega)
  have two' : ¬ w ≤ 2047 := by omega
  rw [if_neg two, if_neg two']
  by_cases three : v ≤ 65535
  · rw [if_pos three]
    split
    · exact below_of_le (by omega) (by omega) fun _ =>
        below_of_le (by omega) (by omega) fun _ => below_of_lt (by omega) (by omega)
    · exact below_of_lt (by omega) (by omega)
  have three' : ¬ w ≤ 65535 := by omega
  rw [if_neg three, if_neg three']
  exact below_of_le (by omega) (by omega) fun _ =>
    below_of_le (by omega) (by omega) fun _ =>
      below_of_le (by omega) (by omega) fun _ => below_of_lt (by omega) (by omega)

/-- Rows of characters are ordered as the bytes that encode them: at the first character that
differs the smaller code has the smaller bytes, whatever follows. -/
theorem flatMap_utf8_lt {l m : List Char} (less : l < m) :
    l.flatMap String.utf8EncodeChar < m.flatMap String.utf8EncodeChar := by
  induction l generalizing m with
  | nil =>
    cases m with
    | nil => cases less
    | cons d m =>
      rw [List.flatMap_cons, List.flatMap_nil]
      cases bytes : String.utf8EncodeChar d with
      | nil => exact absurd bytes String.utf8EncodeChar_ne_nil
      | cons x rest => exact List.nil_lt_cons x _
  | cons c l ih =>
    cases m with
    | nil => cases less
    | cons d m =>
      rw [List.flatMap_cons, List.flatMap_cons]
      rcases List.cons_lt_cons_iff.1 less with first | ⟨rfl, rest⟩
      · exact below_utf8 first _ _
      · exact List.append_left_lt (ih rest)

theorem bytesOf_eq (s : String) : bytesOf s = s.toList.flatMap String.utf8EncodeChar := by
  change s.toByteArray.data.toList = _
  rw [← String.utf8Encode_toList, List.utf8Encode, List.toList_data_toByteArray]

/-- Texts are compared by their characters; comparing their bytes in UTF-8 gives the same order. -/
theorem bytesOf_lt {s t : String} (less : s < t) : bytesOf s < bytesOf t := by
  rw [bytesOf_eq, bytesOf_eq]
  exact flatMap_utf8_lt (String.lt_iff_toList_lt.1 less)

end Storyboard
