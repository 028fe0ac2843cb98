import Storyboard.Proofs.Script.Spelling

/-!
# What the scanner takes off the front

Main statements: what is taken is trivia or the longest token there (`trivia_of_bite`,
`longest_of_bite`), what is refused is wrong in one of the ways of `Fails` (`fails_of_bite`), and
trivia and tokens that are cut off where they end are taken as they are (`bite_of_trivia`,
`bite_of_cut`).
-/

namespace Storyboard.Script

variable {c : Char} {cs later : List Char} {b : Bite}

/-- The character starts neither trivia nor a text. -/
structure Ordinary (c : Char) : Prop where
  blank : isBlank c = false
  slash : c ≠ '/'
  quote : c ≠ '"'

/-- The characters that are not ordinary. -/
def extraordinary : List Char :=
  [' ', '\t', '\n', '\x0c', '\r', '/', '"']

theorem ordinary_of {kind : Char → Bool} (holds : kind c = true)
    (fails : extraordinary.all (fun d => !kind d) = true) : Ordinary c := by
  have other : ∀ d ∈ extraordinary, c ≠ d := by
    rintro d listed rfl
    have none := List.all_eq_true.1 fails c listed
    rw [holds] at none
    cases none
  refine ⟨?_, other _ (by simp [extraordinary]), other _ (by simp [extraordinary])⟩
  have space := other ' ' (by simp [extraordinary])
  have tab := other '\t' (by simp [extraordinary])
  have newline := other '\n' (by simp [extraordinary])
  have feed := other '\x0c' (by simp [extraordinary])
  have carriage := other '\r' (by simp [extraordinary])
  simp [isBlank, space, tab, newline, feed, carriage]

theorem ordinary_wordStart (start : isWordStart c) : Ordinary c :=
  ordinary_of start rfl

theorem ordinary_digit (digit : c.isDigit) : Ordinary c :=
  ordinary_of digit rfl

theorem ordinary_minus : Ordinary '-' :=
  ⟨by decide, by decide, by decide⟩

theorem ordinary_mark (m : Mark) : Ordinary m.toChar := by
  cases m <;> exact ⟨by decide, by decide, by decide⟩

theorem not_wordStart_digit (digit : c.isDigit) : isWordStart c = false := by
  have line : c ≠ '_' := by
    rintro rfl
    revert digit
    decide
  grind [Char.isDigit, isWordStart, Char.isAlpha, Char.isUpper, Char.isLower]

theorem bite_ordinary (ordinary : Ordinary c) :
    bite c cs = if isWordStart c then
        .ok ⟨.token (.word (String.ofList (c :: cs.takeWhile isWordPart))),
          c :: cs.takeWhile isWordPart, cs.dropWhile isWordPart⟩
      else match Numeral.ahead? (c :: cs) with
        | some (n, rest) => biteNumeral n rest
        | none => match Mark.ofChar? c with
          | some m => .ok ⟨.token (.mark m), [c], cs⟩
          | none => .error ⟨.unexpectedCharacter c, [c]⟩ := by
  have blank : ¬ isBlank c = true := by simp [ordinary.blank]
  have line : ¬ (c = '/' ∧ cs.head? = some '/') := fun slash => ordinary.slash slash.1
  have block : ¬ (c = '/' ∧ cs.head? = some '*') := fun slash => ordinary.slash slash.1
  exact (if_neg blank).trans ((if_neg line).trans ((if_neg block).trans (if_neg ordinary.quote)))

theorem bite_word (start : isWordStart c) :
    bite c cs = .ok ⟨.token (.word (String.ofList (c :: cs.takeWhile isWordPart))),
      c :: cs.takeWhile isWordPart, cs.dropWhile isWordPart⟩ := by
  rw [bite_ordinary (ordinary_wordStart start), if_pos start]

theorem bite_quote : bite '"' cs =
    match cs.dropWhile (· ≠ '"') with
    | [] => .error ⟨.unterminatedText, ['"']⟩
    | quote :: rest => .ok ⟨.token (.text (String.ofList (cs.takeWhile (· ≠ '"')))),
        '"' :: cs.takeWhile (· ≠ '"') ++ [quote], rest⟩ := by
  have line : ¬ ('"' = '/' ∧ cs.head? = some '/') := fun slash => nomatch slash.1
  have block : ¬ ('"' = '/' ∧ cs.head? = some '*') := fun slash => nomatch slash.1
  exact (if_neg (by decide)).trans ((if_neg line).trans ((if_neg block).trans (if_pos rfl)))

theorem bite_line : bite '/' ('/' :: cs) = .ok ⟨.trivia, '/' :: ('/' :: cs).takeWhile (· ≠ '\n'),
    ('/' :: cs).dropWhile (· ≠ '\n')⟩ :=
  (if_neg (by decide)).trans (if_pos ⟨rfl, rfl⟩)

theorem bite_block : bite '/' ('*' :: cs) =
    match closeComment cs with
    | some (body, rest) => .ok ⟨.trivia, '/' :: '*' :: body, rest⟩
    | none => .error ⟨.unterminatedComment, ['/', '*']⟩ := by
  have line : ¬ ('/' = '/' ∧ ('*' :: cs).head? = some '/') := fun slashes => nomatch slashes.2
  exact (if_neg (by decide)).trans ((if_neg line).trans (if_pos ⟨rfl, rfl⟩))

/-- A numeral starts with a minus or a digit. -/
theorem head_of_ahead? {n : Numeral} {rest : List Char}
    (read : Numeral.ahead? (c :: cs) = some (n, rest)) : c = '-' ∨ c.isDigit := by
  have whole := Numeral.ahead?_append read
  obtain ⟨digits, -⟩ := Numeral.spec_of_ahead? read
  obtain ⟨negative, row, fraction⟩ := n
  cases negative with
  | true =>
    cases whole
    exact .inl rfl
  | false =>
    cases row with
    | nil => exact absurd rfl digits.nonempty
    | cons d ds =>
      cases whole
      exact .inr (digits.whole _ List.mem_cons_self)

theorem bite_numeral {n : Numeral} {rest : List Char}
    (read : Numeral.ahead? (c :: cs) = some (n, rest)) : bite c cs = biteNumeral n rest := by
  rcases head_of_ahead? read with rfl | digit
  · rw [bite_ordinary ordinary_minus, if_neg (by decide), read]
  · rw [bite_ordinary (ordinary_digit digit), if_neg (by simp [not_wordStart_digit digit]), read]

theorem ahead?_mark (m : Mark) : Numeral.ahead? (m.toChar :: cs) = none := by
  cases read : Numeral.ahead? (m.toChar :: cs) with
  | none => rfl
  | some p =>
    rcases head_of_ahead? read with minus | digit
    · cases m <;> cases minus
    · cases m <;> cases digit

theorem bite_mark (m : Mark) : bite m.toChar cs = .ok ⟨.token (.mark m), [m.toChar], cs⟩ := by
  rw [bite_ordinary (ordinary_mark m), ahead?_mark]
  cases m <;> rfl

/-- A numeral that is not too large is a duration if its unit follows and ends the word. -/
theorem biteNumeral_eq_ok {n : Numeral} {rest : List Char} (h : biteNumeral n rest = .ok b) :
    n.value.isFinite ∧
    ((∃ after, rest = 's' :: after ∧ after.head?.any isWordPart = false ∧
        b = ⟨.token (.duration n.value), n.text ++ ['s'], after⟩) ∨
      (∀ after, rest = 's' :: after → after.head?.any isWordPart = true) ∧
        b = ⟨.token (.number n.value n.isInteger), n.text, rest⟩) := by
  unfold biteNumeral at h
  split at h
  · cases h
  · rename_i finite
    refine ⟨by simpa using finite, ?_⟩
    split at h
    · rename_i after
      split at h
      · rename_i goes
        cases h
        exact .inr ⟨fun _ same => by cases same; exact goes, rfl⟩
      · rename_i ends
        cases h
        exact .inl ⟨after, rfl, by simpa using ends, rfl⟩
    · rename_i unit
      cases h
      exact .inr ⟨fun after same => absurd same (unit after), rfl⟩

theorem biteNumeral_eq_error {n : Numeral} {rest : List Char} {e : Blamed}
    (h : biteNumeral n rest = .error e) :
    ¬ n.value.isFinite ∧ e = ⟨.numberOutOfRange, n.text⟩ := by
  unfold biteNumeral at h
  split at h
  · rename_i large
    cases h
    exact ⟨by simpa using large, rfl⟩
  · split at h
    · split at h <;> cases h
    · cases h

/-- The first `*/` stands further on unless it stands here. -/
theorem closing_infix_cons : ['*', '/'] <:+: c :: cs ↔
    (∃ later, c = '*' ∧ cs = '/' :: later) ∨ ['*', '/'] <:+: cs := by
  rw [List.infix_cons_iff]
  refine or_congr_left ⟨?_, ?_⟩
  · rintro ⟨later, same⟩
    cases same
    exact ⟨later, rfl, rfl⟩
  · rintro ⟨later, rfl, rfl⟩
    exact ⟨later, rfl⟩

/-- A comment ends at the first mark that closes one. -/
theorem closeComment_eq_some {body rest : List Char} (h : closeComment cs = some (body, rest)) :
    ∃ inside, body = inside ++ ['*', '/'] ∧ ¬ ['*', '/'] <:+: inside ++ ['*'] := by
  fun_induction closeComment cs generalizing body with
  | case1 =>
    cases h
    exact ⟨[], rfl, by decide⟩
  | case2 c cs unclosed ih =>
    obtain ⟨⟨closed, later⟩, found, same⟩ := Option.map_eq_some_iff.1 h
    cases same
    obtain ⟨inside, rfl, first⟩ := ih found
    refine ⟨c :: inside, rfl, ?_⟩
    rw [List.cons_append, closing_infix_cons]
    rintro (⟨more, rfl, slash⟩ | further)
    · -- The comment would have been closed one character earlier.
      have whole := closeComment_append found
      cases inside with
      | nil => cases slash
      | cons d ds =>
        cases slash
        exact unclosed _ rfl whole.symm
    · exact first further
  | case3 => cases h

theorem closeComment_eq_none (h : closeComment cs = none) : ¬ ['*', '/'] <:+: cs := by
  fun_induction closeComment cs with
  | case1 => cases h
  | case2 c cs unclosed ih =>
    rw [closing_infix_cons]
    rintro (⟨later, rfl, rfl⟩ | further)
    · exact unclosed later rfl rfl
    · exact ih (Option.map_eq_none_iff.1 h) further
  | case3 => simp

/-- What comes of the front of a text: trivia, a token that is cut off where it ends, or a fault. -/
inductive Bites (text : List Char) : Except Blamed Bite → Prop where
  | trivia {piece rest : List Char} (trivia : Trivia piece rest) :
    Bites text (.ok ⟨.trivia, piece, rest⟩)
  | token {t : Token} {piece rest : List Char} (cut : Cut t piece rest) :
    Bites text (.ok ⟨.token t, piece, rest⟩)
  | fault {fault : ScanFault} {piece : List Char} (fails : Fails fault piece text) :
    Bites text (.error ⟨fault, piece⟩)

theorem bites_line : Bites ('/' :: '/' :: cs) (bite '/' ('/' :: cs)) := by
  rw [bite_line]
  have inside : '\n' ∉ cs.takeWhile (· ≠ '\n') := fun listed => by
    simpa using List.mem_takeWhile_imp listed
  refine .trivia (.line inside ?_)
  change cs.dropWhile (· ≠ '\n') = [] ∨ (cs.dropWhile (· ≠ '\n')).head? = some '\n'
  cases left : cs.dropWhile (· ≠ '\n') with
  | nil => exact .inl rfl
  | cons d ds =>
    have stops : decide (d ≠ '\n') = false := head?_dropWhile (l := cs) (by rw [left]; rfl)
    have newline : d = '\n' := by simpa using stops
    exact .inr (congrArg some newline)

theorem bites_block : Bites ('/' :: '*' :: cs) (bite '/' ('*' :: cs)) := by
  rw [bite_block]
  split
  · rename_i closed
    obtain ⟨inside, rfl, first⟩ := closeComment_eq_some closed
    exact .trivia (.block first)
  · rename_i unclosed
    exact .fault (.unterminatedComment (closeComment_eq_none unclosed))

theorem bites_quote : Bites ('"' :: cs) (bite '"' cs) := by
  rw [bite_quote]
  split
  · rename_i none
    have unclosed : '"' ∉ cs := fun listed => by
      simpa using List.dropWhile_eq_nil_iff.1 none _ listed
    exact .fault (.unterminatedText unclosed)
  · rename_i mark rest left
    have stops : decide (mark ≠ '"') = false := head?_dropWhile (l := cs) (by rw [left]; rfl)
    obtain rfl : mark = '"' := by simpa using stops
    have unquoted : '"' ∉ cs.takeWhile (· ≠ '"') := fun listed => by
      simpa using List.mem_takeWhile_imp listed
    exact .token (.text unquoted)

theorem bites_word (start : isWordStart c) : Bites (c :: cs) (bite c cs) := by
  rw [bite_word start]
  have parts : ∀ d ∈ cs.takeWhile isWordPart, isWordPart d :=
    fun d listed => List.mem_takeWhile_imp listed
  exact .token (.word start parts any_head?_dropWhile)

theorem bites_numeral {n : Numeral} {rest : List Char}
    (read : Numeral.ahead? (c :: cs) = some (n, rest)) : Bites (c :: cs) (bite c cs) := by
  obtain ⟨digits, ends⟩ := Numeral.spec_of_ahead? read
  rw [bite_numeral read, ← Numeral.ahead?_append read]
  cases taken : biteNumeral n rest with
  | ok b =>
    obtain ⟨finite, ⟨after, -, ended, rfl⟩ | ⟨unit, rfl⟩⟩ := biteNumeral_eq_ok taken
    · exact .token (.duration digits finite ended)
    · exact .token (.number digits finite Numeral.isInteger_iff ends unit)
  | error e =>
    obtain ⟨large, rfl⟩ := biteNumeral_eq_error taken
    exact .fault (.numberOutOfRange digits ends large)

/-- A character that begins nothing is blamed itself. -/
theorem stray_of_none (blank : ¬ isBlank c)
    (comment : c = '/' → cs.head? ≠ some '/' ∧ cs.head? ≠ some '*') (quote : c ≠ '"')
    (word : ¬ isWordStart c) (none : Numeral.ahead? (c :: cs) = none)
    (mark : ∀ m : Mark, c ≠ m.toChar) : Stray c cs := by
  refine ⟨fun listed => blank (isBlank_iff.2 listed), comment, quote, word, fun digit => ?_, ?_,
    mark⟩
  · have digits : Numeral.WellFormed ⟨false, [c], []⟩ := ⟨by simp, by simpa using digit, by simp⟩
    obtain ⟨m, rest, read, -⟩ := Numeral.exists_ahead? digits cs
    cases none.symm.trans read
  · rintro rfl d next digit
    have digits : Numeral.WellFormed ⟨true, [d], []⟩ := ⟨by simp, by simpa using digit, by simp⟩
    cases cs with
    | nil => cases next
    | cons e es =>
      cases next
      obtain ⟨m, rest, read, -⟩ := Numeral.exists_ahead? digits es
      cases none.symm.trans read

/-- The branches of the scanner, once for all that is said about what it takes. -/
theorem bites (c : Char) (cs : List Char) : Bites (c :: cs) (bite c cs) := by
  by_cases blank : isBlank c
  · rw [bite, if_pos blank]
    exact .trivia (.blank (isBlank_iff.1 blank))
  by_cases line : c = '/' ∧ cs.head? = some '/'
  · obtain ⟨rfl, next⟩ := line
    obtain ⟨ds, rfl⟩ := List.head?_eq_some_iff.1 next
    exact bites_line
  by_cases block : c = '/' ∧ cs.head? = some '*'
  · obtain ⟨rfl, next⟩ := block
    obtain ⟨ds, rfl⟩ := List.head?_eq_some_iff.1 next
    exact bites_block
  by_cases quote : c = '"'
  · rw [quote]
    exact bites_quote
  by_cases word : isWordStart c
  · exact bites_word word
  cases read : Numeral.ahead? (c :: cs) with
  | some p => exact bites_numeral read
  | none =>
    by_cases marked : ∃ m : Mark, c = m.toChar
    · obtain ⟨m, rfl⟩ := marked
      rw [bite_mark]
      exact .token (.mark m)
    · have comment (slash : c = '/') : cs.head? ≠ some '/' ∧ cs.head? ≠ some '*' :=
        ⟨fun next => line ⟨slash, next⟩, fun next => block ⟨slash, next⟩⟩
      have stray := stray_of_none blank comment quote word read (not_exists.1 marked)
      have unmarked : Mark.ofChar? c = none := by
        rw [Mark.ofChar?, List.find?_eq_none]
        intro m _ same
        exact marked ⟨m, (beq_iff_eq.1 same).symm⟩
      rw [bite, if_neg blank, if_neg line, if_neg block, if_neg quote, if_neg word, read, unmarked]
      exact .fault (.unexpectedCharacter stray)

/-- What is passed over is trivia. -/
theorem trivia_of_bite (h : bite c cs = .ok b) (trivia : b.piece = .trivia) :
    Trivia b.text b.rest := by
  have taken := bites c cs
  rw [h] at taken
  cases taken with
  | trivia here => exact here
  | token cut => cases trivia

/-- What is taken for a token is cut off where the token ends. -/
theorem cut_of_bite {t : Token} (h : bite c cs = .ok b) (token : b.piece = .token t) :
    Cut t b.text b.rest := by
  have taken := bites c cs
  rw [h] at taken
  cases taken with
  | trivia here => cases token
  | token cut =>
    cases token
    exact cut

/-- Every fault of the scanner is one of those that it may report. -/
theorem fails_of_bite {fault : ScanFault} {text : List Char}
    (h : bite c cs = .error ⟨fault, text⟩) : Fails fault text (c :: cs) := by
  have taken := bites c cs
  rw [h] at taken
  cases taken with
  | fault fails => exact fails

/-- Whatever token stands at the place, at least as much is taken. -/
theorem longest_bite {u : Token} {other later : List Char} (stands : Stands u other later)
    (same : other ++ later = c :: cs) (h : bite c cs = .ok b) : other.length ≤ b.text.length := by
  obtain ⟨spells, ends⟩ := stands
  cases spells with
  | @word d ds start parts =>
    have whole : d :: (ds ++ later) = c :: cs := same
    cases whole
    cases (bite_word start).symm.trans h
    exact Nat.succ_le_succ (length_le_takeWhile parts)
  | @text body unquoted =>
    have all : ∀ d ∈ body, decide (d ≠ '"') = true := fun d listed =>
      decide_eq_true fun quote => unquoted (quote ▸ listed)
    have whole : '"' :: (body ++ ['"'] ++ later) = c :: cs := same
    cases whole
    rw [List.append_assoc, bite_quote, takeWhile_row all (by simp),
      dropWhile_row all (by simp)] at h
    cases h
    exact Nat.le_refl _
  | mark m =>
    have taken := List.length_pos_iff.2 (bite_text_ne_nil h)
    simp only [List.length_singleton]
    omega
  | @number n integer digits finite plain =>
    obtain ⟨m, rest, read, longer⟩ := Numeral.exists_ahead? digits later
    rw [same] at read
    rw [bite_numeral read] at h
    obtain ⟨-, ⟨-, -, -, rfl⟩ | ⟨-, rfl⟩⟩ := biteNumeral_eq_ok h
    · simp only [List.length_append]
      omega
    · exact longer
  | @duration n digits finite =>
    obtain ⟨m, rest, read, longer⟩ := Numeral.exists_ahead? digits (['s'] ++ later)
    rw [← List.append_assoc, same] at read
    have whole := Numeral.ahead?_append read
    rw [bite_numeral read] at h
    obtain ⟨-, ⟨-, -, -, rfl⟩ | ⟨goes, rfl⟩⟩ := biteNumeral_eq_ok h
    · simp only [List.length_append, List.length_singleton]
      omega
    · -- A numeral of the same length is the same one, and the unit after it ends the word.
      rw [← same, List.append_assoc] at whole
      by_cases equal : m.text.length = n.text.length
      · obtain ⟨-, unit⟩ := List.append_inj whole equal
        rw [goes later unit] at ends
        cases ends _ rfl
      · simp only [List.length_append, List.length_singleton]
        omega

/-- Only the unit of a duration depends on what follows. -/
theorem stands_of_spells {t : Token} {piece after : List Char} (spells : Spells t piece)
    (unitless : ∀ secs, t ≠ .duration secs) : Stands t piece after :=
  ⟨spells, fun secs same => absurd same (unitless secs)⟩

theorem Cut.stands {t : Token} {piece rest : List Char} (cut : Cut t piece rest) :
    Stands t piece rest := by
  cases cut with
  | word start parts => exact stands_of_spells (.word start parts) (by simp)
  | text unquoted => exact stands_of_spells (.text unquoted) (by simp)
  | mark m => exact stands_of_spells (.mark m) (by simp)
  | number digits finite plain => exact stands_of_spells (.number digits finite plain) (by simp)
  | duration digits finite ends => exact ⟨.duration digits finite, fun _ _ => ends⟩

theorem longest_of_bite {t : Token} (h : bite c cs = .ok b) (token : b.piece = .token t) :
    Longest t b.text b.rest := by
  refine ⟨(cut_of_bite h token).stands, ?_⟩
  intro u other later same stands
  rw [bite_append h] at same
  exact longest_bite stands same h

theorem biteNumeral_number {n : Numeral} (finite : n.value.isFinite)
    (unit : ∀ after, cs = 's' :: after → after.head?.any isWordPart) :
    biteNumeral n cs = .ok ⟨.token (.number n.value n.isInteger), n.text, cs⟩ := by
  simp only [biteNumeral, finite, Bool.not_true, Bool.false_eq_true, if_false]
  split
  · rename_i after
    rw [if_pos (unit after rfl)]
  · rfl

theorem biteNumeral_duration {n : Numeral} (finite : n.value.isFinite)
    (ends : cs.head?.any isWordPart = false) :
    biteNumeral n ('s' :: cs) = .ok ⟨.token (.duration n.value), n.text ++ ['s'], cs⟩ := by
  simp only [biteNumeral, finite, ends]
  rfl

/-- A token that is cut off is taken as it is. -/
theorem bite_of_cut {t : Token} {piece rest : List Char} (cut : Cut t piece rest)
    (same : piece ++ rest = c :: cs) : bite c cs = .ok ⟨.token t, piece, rest⟩ := by
  cases cut with
  | @word d ds _ start parts ends =>
    have whole : d :: (ds ++ rest) = c :: cs := same
    cases whole
    have stops := stops_of_any ends
    rw [bite_word start, takeWhile_row parts stops, dropWhile_row parts stops]
  | @text body _ unquoted =>
    have all : ∀ d ∈ body, decide (d ≠ '"') = true := fun d listed =>
      decide_eq_true fun quote => unquoted (quote ▸ listed)
    have whole : '"' :: (body ++ ['"'] ++ rest) = c :: cs := same
    cases whole
    rw [List.append_assoc, bite_quote, takeWhile_row all (by simp), dropWhile_row all (by simp)]
    rfl
  | mark m =>
    cases same
    exact bite_mark m
  | @number n _ _ digits finite plain ends unit =>
    have read := Numeral.ahead?_text digits ends
    rw [same] at read
    rw [bite_numeral read, biteNumeral_number finite unit, Numeral.eq_isInteger plain]
  | @duration n _ digits finite ends =>
    have read := Numeral.ahead?_text digits (Numeral.ends_unit n rest)
    have whole : n.text ++ 's' :: rest = c :: cs := by rw [← same, List.append_assoc]; rfl
    rw [whole] at read
    rw [bite_numeral read, biteNumeral_duration finite ends]

theorem closeComment_of_first {body : List Char} (first : ¬ ['*', '/'] <:+: body ++ ['*']) :
    closeComment (body ++ '*' :: '/' :: cs) = some (body ++ ['*', '/'], cs) := by
  induction body with
  | nil => rfl
  | cons d body ih =>
    rw [List.cons_append, closing_infix_cons] at first
    have further := ih fun inside => first (.inr inside)
    rw [List.cons_append, closeComment]
    · rw [further]
      rfl
    · -- The comment would be closed at its first character.
      intro rest star slash
      cases body with
      | nil => cases slash
      | cons e body =>
        cases slash
        exact first (.inl ⟨_, star, rfl⟩)

/-- Trivia are bitten off as they are. -/
theorem bite_of_trivia {piece rest : List Char} (trivia : Trivia piece rest)
    (same : piece ++ rest = c :: cs) : bite c cs = .ok ⟨.trivia, piece, rest⟩ := by
  cases trivia with
  | blank blank =>
    cases same
    exact if_pos (isBlank_iff.2 blank)
  | @line body _ inside ends =>
    cases same
    have all : ∀ d ∈ '/' :: body, decide (d ≠ '\n') = true := by
      rintro d (_ | ⟨_, listed⟩)
      · decide
      · exact decide_eq_true fun newline => inside (newline ▸ listed)
    have stops : ∀ d, rest.head? = some d → decide (d ≠ '\n') = false := by
      intro d next
      rcases ends with rfl | newline
      · cases next
      · cases newline.symm.trans next
        rfl
    change bite '/' ('/' :: body ++ rest) = _
    rw [List.cons_append, bite_line, ← List.cons_append, takeWhile_row all stops,
      dropWhile_row all stops]
  | @block body _ first =>
    cases same
    have closed : closeComment (body ++ ['*', '/'] ++ rest) = some (body ++ ['*', '/'], rest) := by
      rw [List.append_assoc]
      exact closeComment_of_first first
    change bite '/' ('*' :: (body ++ ['*', '/'] ++ rest)) = _
    rw [bite_block, closed]

/-- A blank or a slash: no token goes on in it. -/
def isBreak (c : Char) : Bool :=
  isBlank c || c = '/'

theorem not_of_break {p : Char → Bool} (parts : isBreak c)
    (none : [' ', '\t', '\n', '\x0c', '\r', '/'].all (fun d => !p d) = true) :
    p c = false := by
  have listed : c ∈ [' ', '\t', '\n', '\x0c', '\r', '/'] := by
    simpa [isBreak, isBlank, or_assoc] using parts
  simpa using List.all_eq_true.1 none c listed

/-- Whatever spells a token is cut off before a break. -/
theorem cut_of_spells {t : Token} {piece : List Char} (spells : Spells t piece) (parts : isBreak c) :
    Cut t piece (c :: cs) := by
  have ends : (c :: cs).head?.any isWordPart = false := not_of_break (p := isWordPart) parts rfl
  have digit : c.isDigit = false := not_of_break parts rfl
  have point : (c == '.') = false := not_of_break (p := (· == '.')) parts rfl
  have unit : (c == 's') = false := not_of_break (p := (· == 's')) parts rfl
  cases spells with
  | word start parts => exact .word start parts ends
  | text unquoted => exact .text unquoted
  | mark m => exact .mark m
  | @number n integer digits finite plain =>
    refine .number digits finite plain ⟨?_, ?_⟩ ?_
    · intro d next
      cases next
      simp [digit]
    · intro _ d ds same
      cases same
      cases point
    · intro after same
      cases same
      cases unit
  | duration digits finite => exact .duration digits finite ends

end Storyboard.Script
