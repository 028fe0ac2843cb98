import Storyboard.Proofs.Script.Lexing

/-!
# The scanner on a part of a text

How the scanner passes over a part of a text depends on what follows only at its last piece. Main
statements: parts that fit together are passed one after the other (`Passes.append`), each lexeme of
a text divides it into such parts (`divides_of_scan`), and a part is passed in the same way before
anything that its last piece does not go on in (`Passes.before_other`).
-/

namespace Storyboard.Script

/-- The scanner passes over `text`, while `after` follows, and finds these tokens. -/
inductive Passes (after : List Char) : List Char → List Token → Prop where
  | done : Passes after [] []
  | trivia {piece text : List Char} {ts : List Token} (first : Trivia piece (text ++ after))
    (later : Passes after text ts) : Passes after (piece ++ text) ts
  | token {t : Token} {piece text : List Char} {ts : List Token}
    (first : Cut t piece (text ++ after)) (later : Passes after text ts) :
    Passes after (piece ++ text) (t :: ts)

variable {cs before after after' text more piece : List Char} {ts us : List Token} {t : Token}
  {lexemes : List Lexeme} {offset : Nat}

theorem Trivia.ne_nil (trivia : Trivia piece after) : piece ≠ [] := by
  cases trivia <;> simp

theorem Cut.ne_nil (cut : Cut t piece after) : piece ≠ [] := by
  cases cut with
  | word | text | mark | duration => simp
  | number digits => exact Numeral.text_ne_nil digits.nonempty

theorem Passes.blank {c : Char} (blank : c ∈ blanks) (later : Passes after text ts) :
    Passes after (c :: text) ts := by
  have first : Trivia [c] (text ++ after) := .blank blank
  exact Passes.trivia first later

theorem Passes.append (first : Passes (more ++ after) text ts) (last : Passes after more us) :
    Passes after (text ++ more) (ts ++ us) := by
  induction first with
  | done => exact last
  | trivia first _ ih =>
    rw [List.append_assoc]
    rw [← List.append_assoc] at first
    exact .trivia first ih
  | token first _ ih =>
    rw [List.append_assoc]
    rw [← List.append_assoc] at first
    exact .token first ih

theorem Passes.finish (first : Passes more text ts) (last : Passes [] more us) :
    Passes [] (text ++ more) (ts ++ us) := by
  rw [← List.append_nil more] at first
  exact first.append last

theorem passes_token (cut : Cut t piece after) : Passes after piece [t] := by
  rw [← List.append_nil piece]
  exact .token cut .done

theorem passes_of_scan (scanned : scan offset cs = .ok lexemes) :
    Passes [] cs (lexemes.map Lexeme.token) := by
  fun_induction scan offset cs generalizing lexemes with
  | case1 =>
    cases scanned
    exact .done
  | case2 => cases scanned
  | case3 offset c cs b taken next trivia =>
    rename_i ih
    have first := trivia_of_bite taken trivia
    rw [← List.append_nil b.rest] at first
    rw [← bite_append taken]
    exact .trivia first (ih scanned)
  | case4 offset c cs b taken next t token =>
    rename_i ih
    have first := cut_of_bite taken token
    rw [← List.append_nil b.rest] at first
    rw [← bite_append taken]
    cases more : scan next b.rest with
    | error fault =>
      rw [more] at scanned
      cases scanned
    | ok later =>
      rw [more] at scanned
      cases scanned
      exact .token first (ih more)

theorem passes_of_scanText {s : Scanned} (scans : scanText cs = .ok s) : Passes [] cs s.tokens := by
  unfold scanText at scans
  split at scans
  · rename_i read
    cases scans
    exact passes_of_scan read
  · cases scans

/-- Tokens that a text passes as are the ones that it is scanned into. -/
theorem Passes.scans (passes : Passes [] cs ts) (offset : Nat) :
    ∃ lexemes, scan offset cs = .ok lexemes ∧ lexemes.map Lexeme.token = ts := by
  induction passes generalizing offset with
  | done => exact ⟨[], by rw [scan], rfl⟩
  | @trivia piece text ts first later ih =>
    obtain ⟨c, cs, whole⟩ :=
      List.exists_cons_of_ne_nil (List.append_ne_nil_of_left_ne_nil first.ne_nil text)
    obtain ⟨lexemes, scans, same⟩ := ih (offset + byteCount piece)
    rw [List.append_nil] at first
    rw [whole, scan_of_trivia offset (bite_of_trivia first whole) rfl]
    exact ⟨lexemes, scans, same⟩
  | @token t piece text ts first later ih =>
    obtain ⟨c, cs, whole⟩ :=
      List.exists_cons_of_ne_nil (List.append_ne_nil_of_left_ne_nil first.ne_nil text)
    obtain ⟨lexemes, scans, same⟩ := ih (offset + byteCount piece)
    rw [List.append_nil] at first
    rw [whole, scan_of_token offset (bite_of_cut first whole) rfl, scans]
    exact ⟨_, rfl, by rw [List.map_cons, same]⟩

theorem scanText_of_passes (passes : Passes [] cs ts) :
    ∃ s, scanText cs = .ok s ∧ s.tokens = ts := by
  obtain ⟨lexemes, scans, same⟩ := passes.scans 0
  exact ⟨⟨lexemes, byteCount cs⟩, by rw [scanText, scans], same⟩

/-- The text of a lexeme, what stands before it and what follows it. -/
structure Divides (offset : Nat) (cs : List Char) (l : Lexeme) (before piece after : List Char)
    (ts us : List Token) : Prop where
  whole : cs = before ++ (piece ++ after)
  start : l.span.start = offset + byteCount before
  stop : l.span.stop = offset + byteCount (before ++ piece)
  first : Passes (piece ++ after) before ts
  cut : Cut l.token piece after
  last : Passes [] after us

/-- A token of a text divides it: what stands before it, its own characters, and what stands after
it. -/
theorem divides_of_scan {first last : List Lexeme} {l : Lexeme}
    (scanned : scan offset cs = .ok (first ++ l :: last)) :
    ∃ before piece after,
      Divides offset cs l before piece after (first.map Lexeme.token) (last.map Lexeme.token) := by
  generalize same : first ++ l :: last = lexemes at scanned
  fun_induction scan offset cs generalizing lexemes first with
  | case1 =>
    cases scanned
    simp at same
  | case2 => cases scanned
  | case3 offset c cs b taken next trivia =>
    rename_i ih
    obtain ⟨before, piece, after, whole, start, stop, passed, cut, rest⟩ := ih lexemes same scanned
    have skipped := trivia_of_bite taken trivia
    rw [whole] at skipped
    refine ⟨b.text ++ before, piece, after, ?_, ?_, ?_, .trivia skipped passed, cut, rest⟩
    · rw [← bite_append taken, whole, List.append_assoc]
    · rw [start, byteCount_append, Nat.add_assoc]
    · rw [stop, List.append_assoc, byteCount_append b.text, Nat.add_assoc]
  | case4 offset c cs b taken next t token =>
    rename_i ih
    cases more : scan next b.rest with
    | error fault =>
      rw [more] at scanned
      cases scanned
    | ok later =>
      rw [more] at scanned
      cases scanned
      have here := cut_of_bite taken token
      cases first with
      | nil =>
        cases same
        exact ⟨[], b.text, b.rest, (bite_append taken).symm, rfl, rfl, .done, here,
          passes_of_scan more⟩
      | cons f first =>
        cases same
        obtain ⟨before, piece, after, whole, start, stop, passed, cut, rest⟩ := ih _ rfl more
        rw [whole] at here
        refine ⟨b.text ++ before, piece, after, ?_, ?_, ?_, .token here passed, cut, rest⟩
        · rw [← bite_append taken, whole, List.append_assoc]
        · rw [start, byteCount_append, Nat.add_assoc]
        · rw [stop, List.append_assoc, byteCount_append b.text, Nat.add_assoc]

theorem divides_of_scanText {s : Scanned} {first last : List Lexeme} {l : Lexeme}
    (scans : scanText cs = .ok s) (lexemes : s.lexemes = first ++ l :: last) :
    ∃ before piece after,
      Divides 0 cs l before piece after (first.map Lexeme.token) (last.map Lexeme.token) := by
  unfold scanText at scans
  split at scans
  · rename_i read
    cases scans
    cases lexemes
    exact divides_of_scan read
  · cases scans

theorem Passes.bite_eq_ok {c : Char} (passes : Passes after (c :: cs) ts) :
    ∃ b text, bite c (cs ++ after) = .ok b ∧ b.text ++ text = c :: cs := by
  generalize whole : c :: cs = row at passes
  cases passes with
  | done => cases whole
  | @trivia piece text _ first =>
    have same : piece ++ (text ++ after) = c :: (cs ++ after) := by
      rw [← List.append_assoc, ← whole, List.cons_append]
    exact ⟨_, text, bite_of_trivia first same, rfl⟩
  | @token _ piece text _ first =>
    have same : piece ++ (text ++ after) = c :: (cs ++ after) := by
      rw [← List.append_assoc, ← whole, List.cons_append]
    exact ⟨_, text, bite_of_cut first same, rfl⟩

theorem bite_point : bite '.' cs = .error ⟨.unexpectedCharacter '.', ['.']⟩ := by
  rw [bite_ordinary ⟨by decide, by decide, by decide⟩, if_neg (by decide)]
  cases read : Numeral.ahead? ('.' :: cs) with
  | none => rfl
  | some p =>
    rcases head_of_ahead? read with minus | digit
    · cases minus
    · cases digit

/-- An `s` that is a token of its own ends a word. -/
theorem Passes.unit_ends (passes : Passes after ['s'] ts) : after.head?.any isWordPart = false := by
  obtain ⟨b, text, taken, whole⟩ := passes.bite_eq_ok
  rw [bite_word (by decide)] at taken
  cases taken
  cases after with
  | nil => rfl
  | cons d ds =>
    by_cases part : isWordPart d
    · rw [List.nil_append, List.takeWhile_cons_of_pos part] at whole
      cases whole
    · simpa using part

/-- What ends a piece of trivia is found in what stands right after it. -/
theorem Trivia.onward (trivia : Trivia piece (text ++ after)) (nonempty : text ≠ []) :
    Trivia piece (text ++ after') := by
  obtain ⟨c, cs, rfl⟩ := List.exists_cons_of_ne_nil nonempty
  cases trivia with
  | blank blank => exact .blank blank
  | line inside ends =>
    rcases ends with none | newline
    · cases none
    · exact .line inside (.inr newline)
  | block first => exact .block first

/-- Which token is cut off depends only on the next piece. -/
theorem Cut.onward (cut : Cut t piece (text ++ after)) (passes : Passes after text ts)
    (nonempty : text ≠ []) : Cut t piece (text ++ after') := by
  obtain ⟨c, cs, rfl⟩ := List.exists_cons_of_ne_nil nonempty
  cases cut with
  | word start parts ends => exact .word start parts ends
  | text unquoted => exact .text unquoted
  | mark m => exact .mark m
  | duration digits finite ends => exact .duration digits finite ends
  | @number n integer _ digits finite plain ends unit =>
    refine .number digits finite plain ⟨ends.digit, ?_⟩ ?_
    · intro _ d ds same
      obtain ⟨rfl, -⟩ := List.cons.inj same
      obtain ⟨b, more, taken, -⟩ := passes.bite_eq_ok
      cases bite_point.symm.trans taken
    · intro rest same
      cases same
      cases cs with
      | nil =>
        have goes := unit after rfl
        rw [passes.unit_ends] at goes
        cases goes
      | cons d ds => exact unit (d :: ds ++ after) rfl

/-- A part of a text is passed in the same way before anything else that its last piece does not go
on in. -/
theorem Passes.before_other (passes : Passes after text ts)
    (trivia : ∀ piece, Trivia piece after → Trivia piece after')
    (cut : ∀ t piece, Cut t piece after → Cut t piece after') : Passes after' text ts := by
  induction passes with
  | done => exact .done
  | @trivia piece text ts first later ih =>
    refine .trivia ?_ ih
    by_cases last : text = []
    · subst last
      exact trivia piece first
    · exact first.onward last
  | @token t piece text ts first later ih =>
    refine .token ?_ ih
    by_cases last : text = []
    · subst last
      exact cut t piece first
    · exact first.onward later last

end Storyboard.Script
