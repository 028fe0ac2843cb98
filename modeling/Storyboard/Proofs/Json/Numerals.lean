import Storyboard.Proofs.Rows
import Storyboard.Proofs.Decimal.Placed
import Storyboard.Json.Printer
import Storyboard.Json.Reader

namespace Storyboard

namespace Decimal

theorem power?_text (lead : Int) :
    power? ('e' :: (if lead < 0 then '-' else '+') :: Nat.toDigits 10 lead.natAbs) = some lead := by
  have some_digit : (Nat.toDigits 10 lead.natAbs).isEmpty = false :=
    List.isEmpty_eq_false_iff.2 Nat.toDigits_ne_nil
  have digits : (Nat.toDigits 10 lead.natAbs).all Char.isDigit := by
    rw [List.all_eq_true]
    exact fun c listed => isDigit_toDigits listed
  have natural : signedInt?.natural? (Nat.toDigits 10 lead.natAbs) = some (lead.natAbs : Int) := by
    rw [signedInt?.natural?, some_digit, digits, ofDigits_toDigits]
    rfl
  rw [power?, if_pos (.inl rfl)]
  by_cases negative : lead < 0
  · rw [if_pos negative]
    simp only [signedInt?, natural, Option.map_some]
    congr 1
    omega
  · rw [if_neg negative]
    simp only [signedInt?, natural]
    congr 1
    omega

theorem WholePart.unsigned {whole : List Char} (part : WholePart whole) (after : List Char) :
    (whole ++ after).head? ≠ some '-' := by
  obtain ⟨c, cs, rfl⟩ := List.exists_cons_of_ne_nil part.nonempty
  intro minus
  cases minus
  exact absurd (part.digits '-' List.mem_cons_self) (by decide)

theorem WholePart.accepted {whole : List Char} (part : WholePart whole) :
    (whole.isEmpty || (decide (1 < whole.length) && decide (whole.head? = some '0'))) = false := by
  rw [part.isEmpty_eq, Bool.false_or, Bool.and_eq_false_iff]
  by_cases zero : whole.head? = some '0'
  · left
    rw [part.leading zero]
    rfl
  · right
    exact decide_eq_false zero

end Decimal

namespace Json

open Decimal

section Rows

variable {negative : Bool} {whole fraction after : List Char}

/-- The sign of a number as it is written. -/
def sign (negative : Bool) : List Char :=
  if negative then ['-'] else []

/-- The sign and the digits before the point are taken off the front. -/
theorem number?_signed (part : WholePart whole)
    (stops : ∀ c, after.head? = some c → c.isDigit = false) :
    number? (sign negative ++ (whole ++ after)) =
      if after.isEmpty then
        match wholeNumber negative (Decimal.ofDigits whole) with
        | .float x => if x.isFinite then some (.float x) else none
        | .int z => some (.int z)
      else (do
        let (fraction, after) ← fraction? after
        let power ← Decimal.power? after
        let x := signedFloat negative (Decimal.ofParts whole fraction power)
        if x.isFinite then some (.float x) else none) := by
  have minus : (sign negative ++ (whole ++ after)).head? = some '-' ↔ negative = true := by
    cases negative with
    | true => exact iff_of_true rfl rfl
    | false => exact iff_of_false (part.unsigned after) Bool.false_ne_true
  have body : (if negative = true then (sign negative ++ (whole ++ after)).tail
      else sign negative ++ (whole ++ after)) = whole ++ after := by
    cases negative <;> rfl
  simp only [number?, minus, body, takeWhile_row part.digits stops,
    dropWhile_row part.digits stops, part.accepted, Bool.decide_eq_true]
  cases wholeNumber negative (Decimal.ofDigits whole) <;> rfl

/-- Digits without a point are a whole number, if a word holds it. -/
theorem number?_whole (part : WholePart whole) {z : Int}
    (word : wholeNumber negative (Decimal.ofDigits whole) = .int z) :
    number? (sign negative ++ whole) = some (.int z) := by
  rw [← List.append_nil whole, number?_signed part (fun c next => by cases next), word]
  rfl

/-- Digits with a point, or with an exponent, are a double. -/
theorem number?_fraction (part : WholePart whole)
    (stops : ∀ c, after.head? = some c → c.isDigit = false) (nonempty : after ≠ [])
    {rest : List Char} {power : Int} {x : Float} (read : fraction? after = some (fraction, rest))
    (ends : Decimal.power? rest = some power)
    (value : signedFloat negative (Decimal.ofParts whole fraction power) = x)
    (finite : x.isFinite) :
    number? (sign negative ++ (whole ++ after)) = some (.float x) := by
  have more : after.isEmpty = false := List.isEmpty_eq_false_iff.2 nonempty
  rw [number?_signed part stops, more, read]
  simp only [Option.bind_eq_bind, Option.bind_some, ends, value, finite]
  rfl

theorem fraction?_point (digits : ∀ c ∈ fraction, c.isDigit) (nonempty : fraction ≠ [])
    (stops : ∀ c, after.head? = some c → c.isDigit = false) :
    fraction? ('.' :: (fraction ++ after)) = some (fraction, after) := by
  have some_digit : fraction.isEmpty = false := List.isEmpty_eq_false_iff.2 nonempty
  rw [fraction?, takeWhile_row digits stops, dropWhile_row digits stops, some_digit]
  rfl

theorem fraction?_digits (digits : ∀ c ∈ fraction, c.isDigit) (nonempty : fraction ≠ []) :
    fraction? ('.' :: fraction) = some (fraction, []) := by
  have ends : ∀ c : Char, [].head? = some c → c.isDigit = false := by rintro _ ⟨⟩
  have read := fraction?_point digits nonempty ends
  rwa [List.append_nil] at read

end Rows

variable {negative : Bool} {d : Decimal} {x : Float}

/-- Digits with a point in its place are read as the double that they were written for. -/
theorem number?_placed (zero : d.digits = 0 → d.exponent = 0)
    (value : signedFloat negative d = x) (finite : x.isFinite) :
    number? (sign negative ++ d.placed true) = some (.float x) := by
  obtain ⟨whole, fraction, parts⟩ := exists_parts true zero
  have nonempty := parts.pointed rfl
  have point : fraction.isEmpty = false := List.isEmpty_eq_false_iff.2 nonempty
  have stops : ∀ c, ('.' :: fraction).head? = some c → c.isDigit = false := by
    rintro _ ⟨⟩
    rfl
  rw [parts.text, point]
  apply number?_fraction parts.front stops (List.cons_ne_nil _ _)
    (fraction?_digits parts.digits nonempty) rfl _ finite
  rw [signedFloat_congr parts.value, value]

/-- The point, if there is one, stands after the first digit. -/
theorem number?_scientific (value : signedFloat negative d = x) (finite : x.isFinite) :
    number? (sign negative ++ d.scientific (d.exponent + width d.digits - 1)) =
      some (.float x) := by
  obtain ⟨D, e⟩ := d
  have spelled := ofDigits_toDigits D
  have wide : width D = (Nat.toDigits 10 D).length := rfl
  have all : ∀ c ∈ Nat.toDigits 10 D, c.isDigit := fun c listed => isDigit_toDigits listed
  have nonempty : Nat.toDigits 10 D ≠ [] := Nat.toDigits_ne_nil
  simp only [scientific]
  generalize hl : e + (width D : Int) - 1 = lead
  rw [wide] at hl
  generalize Nat.toDigits 10 D = ds at spelled wide all nonempty hl
  have power := power?_text lead
  generalize (if lead < 0 then '-' else '+') :: Nat.toDigits 10 lead.natAbs = text at power ⊢
  rcases ds with _ | ⟨c, _ | ⟨c', cs⟩⟩
  · exact absurd rfl nonempty
  · have part : WholePart [c] := wholePart_digit (all c List.mem_cons_self)
    have fraction : fraction? ('e' :: text) = some ([], 'e' :: text) := rfl
    have same : ofParts [c] [] lead = ⟨D, e⟩ := by
      rw [ofParts, List.append_nil, spelled]
      congr 1
      simp only [List.length_cons, List.length_nil] at hl ⊢
      omega
    apply number?_fraction part _ (List.cons_ne_nil _ _) fraction power _ finite
    · rintro _ ⟨⟩
      rfl
    · rw [same, value]
  · have part : WholePart [c] := wholePart_digit (all c List.mem_cons_self)
    have fraction : fraction? ('.' :: (c' :: cs ++ 'e' :: text)) =
        some (c' :: cs, 'e' :: text) := by
      apply fraction?_point (fun d listed => all d (List.mem_cons_of_mem _ listed))
        (List.cons_ne_nil _ _)
      rintro _ ⟨⟩
      rfl
    have same : ofParts [c] (c' :: cs) lead = ⟨D, e⟩ := by
      rw [ofParts, List.singleton_append, spelled]
      congr 1
      simp only [List.length_cons] at hl ⊢
      omega
    apply number?_fraction part _ (List.cons_ne_nil _ _) fraction power _ finite
    · rintro _ ⟨⟩
      rfl
    · rw [same, value]

/-- What the writer spells as a number: a whole number that a 64-bit word holds, or a finite
double. -/
def Number.Plain : Number → Prop
  | .int z => -2 ^ 63 ≤ z ∧ z < 2 ^ 64
  | .float x => x.isFinite

theorem text_float {b : Binary} (h : Binary.ofFloat? x = some b) :
    Number.text (.float x) =
      sign (isSigned x) ++ (shortestDecimal .even x b).write numberLayout := by
  rw [Number.text, Layout.finite?, h]
  rfl

/-- Finite doubles are read back, in whichever layout they were written. -/
theorem number?_float (finite : x.isFinite) :
    number? (Number.text (.float x)) = some (.float x) := by
  obtain ⟨b, read⟩ := Binary.exists_ofFloat? finite
  obtain ⟨magnitude, trimmed⟩ := shortestDecimal_reads_back .even read
  have value := signedFloat_abs read magnitude
  rw [text_float read, write]
  split
  · exact number?_placed (exponent_eq_zero trimmed) value finite
  · exact number?_scientific value finite

theorem text_int (z : Int) :
    Number.text (.int z) = sign (decide (z < 0)) ++ Nat.toDigits 10 z.natAbs := by
  simp [Number.text, sign]

theorem number?_int {z : Int} (plain : Number.Plain (.int z)) :
    number? (Number.text (.int z)) = some (.int z) := by
  obtain ⟨least, most⟩ := plain
  rw [text_int]
  apply number?_whole (wholePart_toDigits _)
  rw [ofDigits_toDigits]
  by_cases negative : z < 0
  · have word : 0 < z.natAbs ∧ z.natAbs ≤ UInt64.size / 2 := by
      change 0 < z.natAbs ∧ z.natAbs ≤ 2 ^ 64 / 2
      omega
    rw [decide_eq_true negative, wholeNumber, if_pos rfl, if_pos word]
    congr 1
    omega
  · have word : z.natAbs < UInt64.size := by
      change z.natAbs < 2 ^ 64
      omega
    rw [decide_eq_false negative, wholeNumber, if_neg Bool.false_ne_true, if_pos word]
    congr 1
    omega

/-- A number is read as it is written. -/
theorem number?_text {n : Number} (plain : n.Plain) : number? n.text = some n := by
  cases n with
  | int z => exact number?_int plain
  | float x => exact number?_float plain

theorem isNumeralChar_of_isDigit {c : Char} (digit : c.isDigit) : isNumeralChar c := by
  simp [isNumeralChar, digit]

theorem isNumeralChar_toDigits {n : Nat} : ∀ c ∈ Nat.toDigits 10 n, isNumeralChar c :=
  fun _ listed => isNumeralChar_of_isDigit (isDigit_toDigits listed)

theorem isNumeralChar_zeros {k : Nat} : ∀ c ∈ List.replicate k '0', isNumeralChar c := by
  intro c listed
  rw [List.eq_of_mem_replicate listed]
  decide

theorem isNumeralChar_sign : ∀ c ∈ sign negative, isNumeralChar c := by
  cases negative with
  | false => exact List.forall_mem_nil _
  | true => simp [sign, isNumeralChar]

theorem isNumeralChar_placed (d : Decimal) : ∀ c ∈ d.placed true, isNumeralChar c := by
  have point : isNumeralChar '.' := by decide
  have zero : isNumeralChar '0' := by decide
  unfold placed
  split
  · simp only [if_true, List.forall_mem_append, List.forall_mem_cons]
    exact ⟨⟨isNumeralChar_toDigits, isNumeralChar_zeros⟩, point, zero, by simp⟩
  simp only
  split
  · simp only [List.forall_mem_append, List.forall_mem_cons]
    exact ⟨⟨⟨zero, point, by simp⟩, isNumeralChar_zeros⟩, isNumeralChar_toDigits⟩
  · simp only [List.forall_mem_append, List.forall_mem_cons]
    exact ⟨fun c listed => isNumeralChar_toDigits c (List.mem_of_mem_take listed), point,
      fun c listed => isNumeralChar_toDigits c (List.mem_of_mem_drop listed)⟩

theorem isNumeralChar_scientific (d : Decimal) (lead : Int) :
    ∀ c ∈ d.scientific lead, isNumeralChar c := by
  have power : ∀ c ∈ 'e' :: (if lead < 0 then '-' else '+') :: Nat.toDigits 10 lead.natAbs,
      isNumeralChar c := by
    simp only [List.forall_mem_cons]
    refine ⟨by decide, ?_, isNumeralChar_toDigits⟩
    split <;> decide
  have digits : ∀ c ∈ Nat.toDigits 10 d.digits, isNumeralChar c := isNumeralChar_toDigits
  simp only [scientific]
  generalize Nat.toDigits 10 d.digits = ds at digits
  rcases ds with _ | ⟨c, _ | ⟨c', cs⟩⟩
  · exact power
  · rw [List.forall_mem_cons] at digits ⊢
    exact ⟨digits.1, power⟩
  · rw [List.forall_mem_cons] at digits
    simp only [List.cons_append, List.forall_mem_cons, List.forall_mem_append] at digits power ⊢
    exact ⟨digits.1, by decide, digits.2.1, digits.2.2, power⟩

/-- Numbers are written in numeral characters only, so that the row of them ends where the number
ends. -/
theorem isNumeralChar_text {n : Number} (plain : n.Plain) : ∀ c ∈ n.text, isNumeralChar c := by
  cases n with
  | int z =>
    rw [text_int, List.forall_mem_append]
    exact ⟨isNumeralChar_sign, isNumeralChar_toDigits⟩
  | float x =>
    obtain ⟨b, read⟩ := Binary.exists_ofFloat? plain
    rw [text_float read, List.forall_mem_append, write]
    refine ⟨isNumeralChar_sign, ?_⟩
    split
    · exact isNumeralChar_placed _
    · exact isNumeralChar_scientific _ _

theorem text_ne_nil {n : Number} (plain : n.Plain) : n.text ≠ [] := by
  intro empty
  have read := number?_text plain
  rw [empty] at read
  cases read

end Json
end Storyboard
