import Storyboard.Proofs.Rows
import Storyboard.Script.Lexeme

/-!
# How tokens and trivia are written

The lexical rules said on their own: which characters spell a token, what trivia is, and what is
wrong with a text that starts with neither. For numerals: what is read is a numeral that does not go
on (`Numeral.spec_of_ahead?`), a numeral is read as it is written (`Numeral.ahead?_text`), and none
at the place is longer (`Numeral.exists_ahead?`).
-/

namespace Storyboard.Script

/-- `digits ("." digits)?` with an optional minus. -/
structure Numeral.WellFormed (n : Numeral) : Prop where
  nonempty : n.whole ≠ []
  whole : ∀ c ∈ n.whole, c.isDigit
  fraction : ∀ c ∈ n.fraction, c.isDigit

/-- The characters spell the token. -/
inductive Spells : Token → List Char → Prop where
  | word {c : Char} {cs : List Char} (start : isWordStart c) (parts : ∀ d ∈ cs, isWordPart d) :
    Spells (.word (String.ofList (c :: cs))) (c :: cs)
  | text {body : List Char} (unquoted : '"' ∉ body) :
    Spells (.text (String.ofList body)) ('"' :: body ++ ['"'])
  | mark (m : Mark) : Spells (.mark m) [m.toChar]
  | number {n : Numeral} {integer : Bool} (digits : n.WellFormed) (finite : n.value.isFinite)
    (plain : integer = true ↔ n.negative = false ∧ n.fraction = []) :
    Spells (.number n.value integer) n.text
  | duration {n : Numeral} (digits : n.WellFormed) (finite : n.value.isFinite) :
    Spells (.duration n.value) (n.text ++ ['s'])

/-- Some characters spell the token. -/
def Token.Spelled (t : Token) : Prop :=
  ∃ piece, Spells t piece

/-- The characters spell the token where `after` follows: the unit of a duration ends a word. -/
structure Stands (t : Token) (piece after : List Char) : Prop where
  spells : Spells t piece
  ends : ∀ secs, t = .duration secs → after.head?.any isWordPart = false

/-- No longer token stands at the same place. -/
structure Longest (t : Token) (piece after : List Char) : Prop where
  stands : Stands t piece after
  longest : ∀ u other later, other ++ later = piece ++ after → Stands u other later →
    other.length ≤ piece.length

/-- Space, tab, line feed, form feed and carriage return. -/
def blanks : List Char :=
  [' ', '\t', '\n', '\x0c', '\r']

/-- A blank, a comment up to the end of its line or of the text, or a comment up to the first `*/`;
`after` is what follows. -/
inductive Trivia : List Char → List Char → Prop where
  | blank {c : Char} {after : List Char} (blank : c ∈ blanks) : Trivia [c] after
  | line {body after : List Char} (inside : '\n' ∉ body)
    (ends : after = [] ∨ after.head? = some '\n') : Trivia ('/' :: '/' :: body) after
  | block {body after : List Char} (first : ¬ ['*', '/'] <:+: body ++ ['*']) :
    Trivia ('/' :: '*' :: (body ++ ['*', '/'])) after

/-- The character starts neither trivia nor a token, nor anything that is not closed. -/
structure Stray (c : Char) (cs : List Char) : Prop where
  blank : c ∉ blanks
  comment : c = '/' → cs.head? ≠ some '/' ∧ cs.head? ≠ some '*'
  quote : c ≠ '"'
  word : ¬ isWordStart c
  digit : ¬ c.isDigit
  sign : c = '-' → ∀ d, cs.head? = some d → ¬ d.isDigit
  mark : ∀ m : Mark, c ≠ m.toChar

/-- The numeral does not go on in what follows. -/
structure Numeral.Ends (n : Numeral) (after : List Char) : Prop where
  digit : ∀ c, after.head? = some c → ¬ c.isDigit
  point : n.fraction = [] → ∀ c cs, after = '.' :: c :: cs → ¬ c.isDigit

/-- The characters spell the token, and it does not go on in what is left: a word ends, a numeral
has no further digit, and the unit of a duration is taken if it ends a word. -/
inductive Cut : Token → List Char → List Char → Prop where
  | word {c : Char} {cs rest : List Char} (start : isWordStart c) (parts : ∀ d ∈ cs, isWordPart d)
    (ends : rest.head?.any isWordPart = false) :
    Cut (.word (String.ofList (c :: cs))) (c :: cs) rest
  | text {body rest : List Char} (unquoted : '"' ∉ body) :
    Cut (.text (String.ofList body)) ('"' :: body ++ ['"']) rest
  | mark {rest : List Char} (m : Mark) : Cut (.mark m) [m.toChar] rest
  | number {n : Numeral} {integer : Bool} {rest : List Char} (digits : n.WellFormed)
    (finite : n.value.isFinite) (plain : integer = true ↔ n.negative = false ∧ n.fraction = [])
    (ends : n.Ends rest) (unit : ∀ after, rest = 's' :: after → after.head?.any isWordPart) :
    Cut (.number n.value integer) n.text rest
  | duration {n : Numeral} {rest : List Char} (digits : n.WellFormed) (finite : n.value.isFinite)
    (ends : rest.head?.any isWordPart = false) : Cut (.duration n.value) (n.text ++ ['s']) rest

/-- What is wrong with a text, and the characters at its front that are blamed. -/
inductive Fails : ScanFault → List Char → List Char → Prop where
  | unterminatedText {cs : List Char} (unclosed : '"' ∉ cs) :
    Fails .unterminatedText ['"'] ('"' :: cs)
  | unterminatedComment {cs : List Char} (unclosed : ¬ ['*', '/'] <:+: cs) :
    Fails .unterminatedComment ['/', '*'] ('/' :: '*' :: cs)
  | numberOutOfRange {n : Numeral} {after : List Char} (digits : n.WellFormed) (ends : n.Ends after)
    (large : ¬ n.value.isFinite) : Fails .numberOutOfRange n.text (n.text ++ after)
  | unexpectedCharacter {c : Char} {cs : List Char} (stray : Stray c cs) :
    Fails (.unexpectedCharacter c) [c] (c :: cs)

theorem isBlank_iff {c : Char} : isBlank c ↔ c ∈ blanks := by
  simp [isBlank, blanks, or_assoc]

namespace Numeral

variable {n : Numeral} {after : List Char}

theorem isInteger_iff : n.isInteger = true ↔ n.negative = false ∧ n.fraction = [] := by
  simp [isInteger]

theorem eq_isInteger {integer : Bool}
    (plain : integer = true ↔ n.negative = false ∧ n.fraction = []) : integer = n.isInteger :=
  Bool.eq_iff_iff.2 (plain.trans isInteger_iff.symm)

/-- A numeral does not go on in a unit. -/
theorem ends_unit (n : Numeral) (cs : List Char) : n.Ends ('s' :: cs) := by
  constructor
  · intro d next
    cases next
    decide
  · intro _ d ds same
    cases same

/-- The point and the digits after it, if there are any. -/
def fractionText (n : Numeral) : List Char :=
  if n.fraction.isEmpty then [] else '.' :: n.fraction

theorem isDigit_minus : '-'.isDigit = false := by decide

theorem isDigit_point : '.'.isDigit = false := by decide

theorem signAhead_digit {c : Char} {cs : List Char} (digit : c.isDigit) :
    signAhead (c :: cs) = (false, c :: cs) := by
  unfold signAhead
  split
  · rename_i same
    cases same
    rw [isDigit_minus] at digit
    cases digit
  · rfl

/-- Only the sign stands before the digits. -/
theorem signAhead_text (digits : n.WellFormed) :
    signAhead (n.text ++ after) = (n.negative, n.whole ++ (n.fractionText ++ after)) := by
  obtain ⟨negative, whole, fraction⟩ := n
  obtain ⟨nonempty, all, -⟩ := digits
  simp only [text, fractionText, List.append_assoc]
  cases negative with
  | true => rfl
  | false =>
    cases whole with
    | nil => exact absurd rfl nonempty
    | cons d ds => exact signAhead_digit (all d List.mem_cons_self)

theorem fractionAhead_none (ends : ∀ c cs, after = '.' :: c :: cs → ¬ c.isDigit) :
    fractionAhead after = ([], after) := by
  unfold fractionAhead
  split
  · rename_i cs
    cases cs with
    | nil => rfl
    | cons c cs =>
      rw [List.takeWhile_cons_of_neg (ends c cs rfl)]
      rfl
  · rfl

theorem fractionAhead_point {d : Char} {ds : List Char} (digit : d.isDigit) :
    fractionAhead ('.' :: d :: ds) =
      ((d :: ds).takeWhile Char.isDigit, (d :: ds).dropWhile Char.isDigit) := by
  have some_digit : ((d :: ds).takeWhile Char.isDigit).isEmpty = false := by
    rw [List.takeWhile_cons_of_pos digit]
    rfl
  simp only [fractionAhead, some_digit]
  rfl

/-- What follows the digits of a numeral is not one more. -/
theorem not_digit_of_ends (ends : n.Ends after) :
    ∀ c, (n.fractionText ++ after).head? = some c → c.isDigit = false := by
  intro c next
  unfold fractionText at next
  cases empty : n.fraction.isEmpty with
  | true =>
    rw [empty] at next
    exact Bool.eq_false_iff.2 (ends.digit c next)
  | false =>
    rw [empty] at next
    cases next
    exact isDigit_point

theorem fractionAhead_text (digits : n.WellFormed) (ends : n.Ends after) :
    fractionAhead (n.fractionText ++ after) = (n.fraction, after) := by
  obtain ⟨negative, whole, fraction⟩ := n
  cases fraction with
  | nil => exact fractionAhead_none (ends.point rfl)
  | cons d ds =>
    have all := digits.fraction
    have stops : ∀ c, after.head? = some c → c.isDigit = false := fun c next =>
      Bool.eq_false_iff.2 (ends.digit c next)
    change fractionAhead ('.' :: (d :: (ds ++ after))) = _
    rw [fractionAhead_point (all d List.mem_cons_self), ← List.cons_append,
      takeWhile_row all stops, dropWhile_row all stops]

/-- A numeral is read as it is written. -/
theorem ahead?_text (digits : n.WellFormed) (ends : n.Ends after) :
    ahead? (n.text ++ after) = some (n, after) := by
  have stops := not_digit_of_ends ends
  have nonempty : n.whole.isEmpty = false := by simpa using digits.nonempty
  simp only [ahead?, signAhead_text digits, takeWhile_row digits.whole stops,
    dropWhile_row digits.whole stops, fractionAhead_text digits ends, nonempty]
  rfl

/-- What is taken as a fraction is all digits, and it cannot go on. -/
theorem fractionAhead_ends {cs fraction rest : List Char}
    (read : fractionAhead cs = (fraction, rest))
    (stops : ∀ c, cs.head? = some c → ¬ c.isDigit) :
    (∀ c ∈ fraction, c.isDigit) ∧ (∀ c, rest.head? = some c → ¬ c.isDigit) ∧
    (fraction = [] → ∀ c later, rest = '.' :: c :: later → ¬ c.isDigit) := by
  unfold fractionAhead at read
  split at read
  · rename_i ds
    split at read
    · -- A point without a digit after it.
      rename_i none
      cases read
      refine ⟨by simp, stops, ?_⟩
      intro _ c later same
      cases same
      intro digit
      rw [List.takeWhile_cons_of_pos digit] at none
      cases none
    · rename_i some_digit
      cases read
      have all (c : Char) (listed : c ∈ ds.takeWhile Char.isDigit) : c.isDigit :=
        List.mem_takeWhile_imp listed
      have ends (c : Char) (next : (ds.dropWhile Char.isDigit).head? = some c) : ¬ c.isDigit :=
        Bool.eq_false_iff.1 (head?_dropWhile next)
      refine ⟨all, ends, ?_⟩
      intro none
      rw [none] at some_digit
      exact absurd rfl some_digit
  · rename_i noPoint
    cases read
    refine ⟨by simp, stops, ?_⟩
    intro _ c later same
    exact absurd same (noPoint (c :: later))

/-- What is read is a numeral, and it does not go on in what is left. -/
theorem spec_of_ahead? {cs rest : List Char} (read : ahead? cs = some (n, rest)) :
    n.WellFormed ∧ n.Ends rest := by
  unfold ahead? at read
  generalize signAhead cs = signed at read
  obtain ⟨negative, body⟩ := signed
  cases left : fractionAhead (body.dropWhile Char.isDigit) with
  | mk fraction later =>
    have stops (c : Char) (next : (body.dropWhile Char.isDigit).head? = some c) : ¬ c.isDigit :=
      Bool.eq_false_iff.1 (head?_dropWhile next)
    obtain ⟨digits, ends, point⟩ := fractionAhead_ends left stops
    simp only [left] at read
    split at read
    · cases read
    · rename_i nonempty
      cases read
      have all (c : Char) (listed : c ∈ body.takeWhile Char.isDigit) : c.isDigit :=
        List.mem_takeWhile_imp listed
      exact ⟨⟨fun none => nonempty (List.isEmpty_iff.2 none), all, digits⟩, ends, point⟩

/-- What is read is at least as long as any numeral at the place. -/
theorem exists_ahead? (digits : n.WellFormed) (after : List Char) :
    ∃ m rest, ahead? (n.text ++ after) = some (m, rest) ∧ n.text.length ≤ m.text.length := by
  have long :
      n.whole.length ≤ ((n.whole ++ (n.fractionText ++ after)).takeWhile Char.isDigit).length :=
    length_le_takeWhile digits.whole
  have wholePos := List.length_pos_iff.2 digits.nonempty
  have nonempty :
      ((n.whole ++ (n.fractionText ++ after)).takeWhile Char.isDigit).isEmpty = false := by
    rw [List.isEmpty_eq_false_iff_exists_mem]
    exact List.exists_mem_of_length_pos (by omega)
  simp only [ahead?, signAhead_text digits, nonempty]
  refine ⟨_, _, rfl, ?_⟩
  cases fraction : n.fraction with
  | nil =>
    simp only [text, fraction, List.isEmpty_nil, if_true, List.append_nil, List.length_append]
    omega
  | cons d ds =>
    -- The digits end at the point, and then the fractions are compared.
    have pointed : n.fractionText ++ after = '.' :: (d :: (ds ++ after)) := by
      simp [fractionText, fraction]
    have stops (c : Char) (next : (n.fractionText ++ after).head? = some c) :
        c.isDigit = false := by
      rw [pointed] at next
      cases next
      exact isDigit_point
    have all := digits.fraction
    rw [fraction] at all
    have longer : (d :: ds).length ≤ (((d :: ds) ++ after).takeWhile Char.isDigit).length :=
      length_le_takeWhile all
    have some_digit : (((d :: ds) ++ after).takeWhile Char.isDigit).isEmpty = false := by
      rw [List.isEmpty_eq_false_iff_exists_mem]
      exact List.exists_mem_of_length_pos (by simp only [List.length_cons] at longer; omega)
    rw [takeWhile_row digits.whole stops, dropWhile_row digits.whole stops, pointed,
      fractionAhead_point (all d List.mem_cons_self), ← List.cons_append]
    simp only [text, fraction, some_digit, List.isEmpty_cons, List.length_append,
      List.length_cons] at longer ⊢
    simp only [Bool.false_eq_true, if_false, List.length_cons]
    omega

end Numeral
end Storyboard.Script
