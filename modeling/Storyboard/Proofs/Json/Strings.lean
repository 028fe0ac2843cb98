import Mathlib
import Storyboard.Json.Printer
import Storyboard.Json.Reader

namespace Storyboard.Json

variable {c : Char} {rest : List Char}

theorem inFront_some (c : Char) (body rest : List Char) :
    inFront c (some (body, rest)) = some (c :: body, rest) := rfl

theorem hexDigit?_digitChar : ∀ d < 16, hexDigit? (Nat.digitChar d) = some d := by
  decide

theorem hexUnit?_control {n : Nat} (control : n < 0x20) :
    hexUnit? '0' '0' (Nat.digitChar (n / 16)) (Nat.digitChar (n % 16)) = some n := by
  have zero : hexDigit? '0' = some 0 := by decide
  have high := hexDigit?_digitChar (n / 16) (by omega)
  have low := hexDigit?_digitChar (n % 16) (by omega)
  simp only [hexUnit?, zero, high, low, Option.bind_eq_bind, Option.bind_some, Option.pure_def]
  congr 1
  omega

theorem unitChar?_toNat (c : Char) : unitChar? c.toNat = some c := by
  have valid : c.toNat.isValidChar := c.valid
  rw [unitChar?, dif_pos valid]
  congr 1

/-- A character that is not escaped stands for itself. -/
theorem stringBody?_plain (quote : c ≠ '"') (backslash : c ≠ '\\') (control : ¬ c.toNat < 0x20) :
    stringBody? (c :: rest) = inFront c (stringBody? rest) := by
  rw [stringBody?.eq_def]
  split
  · rename_i same
    cases same
    exact absurd rfl quote
  · rename_i same
    cases same
    exact absurd rfl backslash
  · rename_i same
    cases same
    exact absurd rfl backslash
  · rename_i same
    cases same
    rw [if_neg control]
  · rename_i same
    cases same

theorem stringBody?_short {d : Char} (read : shortEscape? d = some c) :
    stringBody? ('\\' :: d :: rest) = inFront c (stringBody? rest) := by
  rw [stringBody?.eq_def]
  split
  · rename_i same
    cases same
  · rename_i same
    cases same
    cases read
  · rename_i same
    cases same
    rw [read]
  · rename_i none same
    cases same
    exact (none d rest rfl rfl).elim
  · rename_i same
    cases same

/-- Control characters are written with their code, and read from it. -/
theorem stringBody?_control (control : c.toNat < 0x20) :
    stringBody? ('\\' :: 'u' :: '0' :: '0' :: Nat.digitChar (c.toNat / 16) ::
      Nat.digitChar (c.toNat % 16) :: rest) = inFront c (stringBody? rest) := by
  rw [stringBody?, hexUnit?_control control]
  simp only [unitChar?_toNat]

/-- What a character is written as: a short escape, an escape with a number, or itself. -/
theorem escape_cases (c : Char) :
    (∃ d, shortEscape? d = some c ∧ escape c = ['\\', d]) ∨
    (c.toNat < 0x20 ∧ escape c =
      ['\\', 'u', '0', '0', Nat.digitChar (c.toNat / 16), Nat.digitChar (c.toNat % 16)]) ∨
    (c ≠ '"' ∧ c ≠ '\\' ∧ ¬ c.toNat < 0x20 ∧ escape c = [c]) := by
  unfold escape
  by_cases quote : c = '"'
  · exact .inl ⟨'"', by rw [quote]; rfl, if_pos quote⟩
  by_cases backslash : c = '\\'
  · exact .inl ⟨'\\', by rw [backslash]; rfl, by rw [if_neg quote, if_pos backslash]⟩
  rw [if_neg quote, if_neg backslash]
  split
  · exact .inl ⟨'b', by simp_all [shortEscape?], rfl⟩
  split
  · exact .inl ⟨'t', by simp_all [shortEscape?], rfl⟩
  split
  · exact .inl ⟨'n', by simp_all [shortEscape?], rfl⟩
  split
  · exact .inl ⟨'f', by simp_all [shortEscape?], rfl⟩
  split
  · exact .inl ⟨'r', by simp_all [shortEscape?], rfl⟩
  split
  · rename_i control
    exact .inr (.inl ⟨control, rfl⟩)
  · rename_i control
    exact .inr (.inr ⟨quote, backslash, control, rfl⟩)

/-- A character is read as what it was, whether it was escaped or not. -/
theorem stringBody?_escape (c : Char) (rest : List Char) :
    stringBody? (escape c ++ rest) = inFront c (stringBody? rest) := by
  rcases escape_cases c with ⟨d, read, text⟩ | ⟨control, text⟩ | ⟨quote, backslash, plain, text⟩
  · rw [text]
    exact stringBody?_short read
  · rw [text]
    exact stringBody?_control control
  · rw [text]
    exact stringBody?_plain quote backslash plain

/-- A string is read back as it was, up to its closing quote. -/
theorem stringBody?_quoted (cs rest : List Char) :
    stringBody? (cs.flatMap escape ++ '"' :: rest) = some (cs, rest) := by
  induction cs with
  | nil => rfl
  | cons c cs ih =>
    rw [List.flatMap_cons, List.append_assoc, stringBody?_escape, ih, inFront_some]

/-- The character is none of the control characters, of which the newline is one. -/
def Printable (c : Char) : Prop :=
  0x20 ≤ c.toNat

theorem printable_digitChar : ∀ d < 16, Printable (Nat.digitChar d) := by
  unfold Printable
  decide

theorem printable_of_shortEscape? {d : Char} (read : shortEscape? d = some c) : Printable d := by
  unfold shortEscape? at read
  unfold Printable
  split at read <;> first | decide | cases read

theorem printable_escape (c : Char) : ∀ d ∈ escape c, Printable d := by
  have backslash : Printable '\\' := by unfold Printable; decide
  rcases escape_cases c with ⟨d, read, text⟩ | ⟨control, text⟩ | ⟨-, -, plain, text⟩
  · rw [text, List.forall_mem_cons, List.forall_mem_singleton]
    exact ⟨backslash, printable_of_shortEscape? read⟩
  · have u : Printable 'u' := by unfold Printable; decide
    have zero : Printable '0' := by unfold Printable; decide
    simp only [text, List.forall_mem_cons]
    exact ⟨backslash, u, zero, zero, printable_digitChar _ (by omega),
      printable_digitChar _ (by omega), List.forall_mem_nil _⟩
  · rw [text, List.forall_mem_singleton]
    exact Nat.le_of_not_lt plain

/-- What is written for a string stays on one line, whatever the string holds. -/
theorem printable_quote (s : String) : ∀ d ∈ quote s, Printable d := by
  have mark : Printable '"' := by unfold Printable; decide
  simp only [quote, List.cons_append, List.forall_mem_cons, List.forall_mem_append]
  refine ⟨mark, ?_, mark, List.forall_mem_nil _⟩
  intro d listed
  obtain ⟨c, -, written⟩ := List.mem_flatMap.1 listed
  exact printable_escape c d written

end Storyboard.Json
