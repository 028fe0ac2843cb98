import Storyboard.Proofs.Decimal.Reading
import Storyboard.Decimal.Text

namespace Storyboard

namespace Decimal

theorem isDigit_toDigits {n : Nat} {c : Char} (listed : c ∈ Nat.toDigits 10 n) : c.isDigit :=
  Nat.isDigit_of_mem_toDigits (by decide) (by decide) listed

theorem ofDigits_toDigits (n : Nat) : ofDigits (Nat.toDigits 10 n) = n :=
  Nat.ofDigitChars_ten_toDigits

/-- Zeros at the end multiply by powers of ten. -/
theorem ofDigits_append_zeros (cs : List Char) (k : Nat) :
    ofDigits (cs ++ List.replicate k '0') = ofDigits cs * 10 ^ k := by
  rw [ofDigits, Nat.ofDigitChars_append, Nat.ofDigitChars_replicate_zero, Nat.mul_comm]
  rfl

theorem ofDigits_zeros_append (k : Nat) (cs : List Char) :
    ofDigits (List.replicate k '0' ++ cs) = ofDigits cs := by
  rw [ofDigits, Nat.ofDigitChars_append, Nat.ofDigitChars_replicate_zero, Nat.mul_zero]
  rfl

/-- Only zero is written with a zero in front. -/
theorem eq_zero_of_head?_toDigits {n : Nat} (leading : (Nat.toDigits 10 n).head? = some '0') :
    n = 0 := by
  induction n using Nat.strongRecOn with
  | ind n ih =>
    by_cases one : n < 10
    · rw [Nat.toDigits_of_lt_base one] at leading
      exact Nat.digitChar_eq_zero.1 (Option.some.inj leading)
    · rw [Nat.toDigits_of_base_le (by decide) (by omega),
        List.head?_append_of_ne_nil _ Nat.toDigits_ne_nil] at leading
      have := ih (n / 10) (by omega) leading
      omega

/-- The digits before the point. -/
structure WholePart (whole : List Char) : Prop where
  digits : ∀ c ∈ whole, c.isDigit
  nonempty : whole ≠ []
  /-- A zero in front stands alone. -/
  leading : whole.head? = some '0' → whole.length = 1

theorem WholePart.isEmpty_eq {whole : List Char} (part : WholePart whole) : whole.isEmpty = false :=
  List.isEmpty_eq_false_iff.2 part.nonempty

/-- A number in decimal digits has no zero in front unless it is zero. -/
theorem wholePart_toDigits (n : Nat) : WholePart (Nat.toDigits 10 n) where
  digits _ listed := isDigit_toDigits listed
  nonempty := Nat.toDigits_ne_nil
  leading zero := by rw [eq_zero_of_head?_toDigits zero]; rfl

theorem wholePart_digit {c : Char} (digit : c.isDigit) : WholePart [c] where
  digits := by simpa using digit
  nonempty := List.cons_ne_nil _ _
  leading _ := rfl

/-- A numeral in place is `whole` before the point and `fraction` after it, and it is read as the
same double as these. Without a fraction there may be no point. -/
structure Parts (pointZero : Bool) (d : Decimal) (whole fraction : List Char) : Prop where
  text : d.placed pointZero = whole ++ (if fraction.isEmpty then [] else '.' :: fraction)
  front : WholePart whole
  digits : ∀ c ∈ fraction, c.isDigit
  pointed : pointZero = true → fraction ≠ []
  value : (ofParts whole fraction 0).toFloat = d.toFloat

/-- A whole number: its zeros are written. -/
theorem parts_whole (pointZero : Bool) {D k : Nat} (zero : D = 0 → k = 0) :
    Parts pointZero ⟨D, k⟩ (Nat.toDigits 10 D ++ List.replicate k '0')
      (if pointZero then ['0'] else []) where
  text := by cases pointZero <;> simp [placed]
  front := by
    refine ⟨?_, List.append_ne_nil_of_left_ne_nil Nat.toDigits_ne_nil _, ?_⟩
    · intro c listed
      rcases List.mem_append.1 listed with digit | filler
      · exact isDigit_toDigits digit
      · rw [List.eq_of_mem_replicate filler]
        rfl
    · intro leading
      rw [List.head?_append_of_ne_nil _ Nat.toDigits_ne_nil] at leading
      have none := eq_zero_of_head?_toDigits leading
      rw [none, zero none]
      rfl
  digits := by cases pointZero <;> simp
  pointed := by
    rintro rfl
    exact List.cons_ne_nil _ _
  value := by
    cases pointZero with
    | false => simp [ofParts, ofDigits_append_zeros, ofDigits_toDigits, toFloat_shift]
    | true =>
      have zeros : List.replicate k '0' ++ ['0'] = List.replicate (k + 1) '0' :=
        List.replicate_succ'.symm
      simp [ofParts, zeros, ofDigits_append_zeros, ofDigits_toDigits, toFloat_shift]

/-- A number below one: zeros stand between the point and its digits. -/
theorem parts_small (pointZero : Bool) {D after : Nat} (pos : 0 < after)
    (short : (Nat.toDigits 10 D).length ≤ after) :
    Parts pointZero ⟨D, -after⟩ ['0']
      (List.replicate (after - (Nat.toDigits 10 D).length) '0' ++ Nat.toDigits 10 D) where
  text := by
    have nonzero : after ≠ 0 := by omega
    simp [placed, nonzero, short]
  front := wholePart_digit rfl
  digits := by
    intro c listed
    rcases List.mem_append.1 listed with filler | digit
    · rw [List.eq_of_mem_replicate filler]
      rfl
    · exact isDigit_toDigits digit
  pointed _ := List.append_ne_nil_of_right_ne_nil _ Nat.toDigits_ne_nil
  value := by
    have digits : ofDigits (['0'] ++ (List.replicate (after - (Nat.toDigits 10 D).length) '0' ++
        Nat.toDigits 10 D)) = D := by
      rw [← List.append_assoc, List.singleton_append, ← List.replicate_succ, ofDigits_zeros_append,
        ofDigits_toDigits]
    rw [ofParts, digits, List.length_append, List.length_replicate]
    congr 2
    omega

/-- A number with a whole part and a fraction: the point stands between its digits. -/
theorem parts_split (pointZero : Bool) {D after : Nat} (pos : 0 < after)
    (long : after < (Nat.toDigits 10 D).length) :
    Parts pointZero ⟨D, -after⟩
      ((Nat.toDigits 10 D).take ((Nat.toDigits 10 D).length - after))
      ((Nat.toDigits 10 D).drop ((Nat.toDigits 10 D).length - after)) where
  text := by
    have nonzero : after ≠ 0 := by omega
    have more : ¬ (Nat.toDigits 10 D).length ≤ after := by omega
    have inside : ¬ (Nat.toDigits 10 D).length ≤ (Nat.toDigits 10 D).length - after := by omega
    simp [placed, nonzero, more, inside]
  front := by
    refine ⟨fun c listed => isDigit_toDigits (List.mem_of_mem_take listed), ?_, ?_⟩
    · rw [← List.length_pos_iff, List.length_take]
      omega
    · intro leading
      rw [List.head?_take, if_neg (by omega)] at leading
      have one : (Nat.toDigits 10 D).length = 1 := by
        rw [eq_zero_of_head?_toDigits leading]
        rfl
      omega
  digits c listed := isDigit_toDigits (List.mem_of_mem_drop listed)
  pointed _ := by
    rw [← List.length_pos_iff, List.length_drop]
    omega
  value := by
    rw [ofParts, List.take_append_drop, ofDigits_toDigits, List.length_drop]
    congr 2
    omega

/-- Every numeral in place has its parts. -/
theorem exists_parts {d : Decimal} (pointZero : Bool) (zero : d.digits = 0 → d.exponent = 0) :
    ∃ whole fraction, d.Parts pointZero whole fraction := by
  obtain ⟨D, e⟩ := d
  by_cases whole : 0 ≤ e
  · obtain ⟨k, rfl⟩ := Int.eq_ofNat_of_zero_le whole
    exact ⟨_, _, parts_whole pointZero fun none => by simpa using zero none⟩
  · obtain ⟨after, rfl⟩ : ∃ after : Nat, e = -after := ⟨e.natAbs, by omega⟩
    by_cases short : (Nat.toDigits 10 D).length ≤ after
    · exact ⟨_, _, parts_small pointZero (by omega) short⟩
    · exact ⟨_, _, parts_split pointZero (by omega) (by omega)⟩

end Decimal

/-- The reading of a numeral that has the same digits in another place. -/
theorem signedFloat_congr {c d : Decimal} {negative : Bool} (same : c.toFloat = d.toFloat) :
    signedFloat negative c = signedFloat negative d := by
  unfold signedFloat
  rw [same]

end Storyboard
