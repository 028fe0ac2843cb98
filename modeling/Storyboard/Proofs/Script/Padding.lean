import Storyboard.Proofs.Script.Offending
import Storyboard.Proofs.Script.Passes

namespace Storyboard.Script

/-- Blanks, comments that a newline ends, and comments up to their first `*/`. -/
inductive Filler : List Char → Prop where
  | nil : Filler []
  | blank {c : Char} {more : List Char} (blank : c ∈ blanks) (later : Filler more) :
    Filler (c :: more)
  | line {body more : List Char} (inside : '\n' ∉ body) (later : Filler more) :
    Filler ('/' :: '/' :: (body ++ '\n' :: more))
  | block {body more : List Char} (first : ¬ ['*', '/'] <:+: body ++ ['*']) (later : Filler more) :
    Filler ('/' :: '*' :: (body ++ '*' :: '/' :: more))

/-- The text with something put in at a byte offset. -/
def insertAt : Nat → List Char → List Char → List Char
  | 0, added, text => added ++ text
  | _, added, [] => added
  | offset, added, c :: text => c :: insertAt (offset - c.utf8Size) added text

/-- The texts say the same program, or the same is wrong with both. -/
def SameOutcome (a b : String) : Prop :=
  (∃ p, parse a = .ok p ∧ parse b = .ok p) ∨
    ∃ e e', parse a = .error e ∧ parse b = .error e' ∧ e.message = e'.message

variable {cs before after piece filler : List Char} {ts us : List Token} {t : Token} {l : Lexeme}
  {offset : Nat}

theorem insertAt_append (before after filler : List Char) :
    insertAt (byteCount before) filler (before ++ after) = before ++ (filler ++ after) := by
  induction before with
  | nil => cases after <;> rfl
  | cons c before ih =>
    have pos := c.utf8Size_pos
    rw [List.cons_append, insertAt, byteCount, Nat.add_sub_cancel_left, ih]
    · rfl
    · simp only [byteCount]
      omega

/-- Filler is passed over without a token. -/
theorem Filler.passes (fills : Filler filler) (after : List Char) : Passes after filler [] := by
  induction fills with
  | nil => exact .done
  | blank blank later ih => exact ih.blank blank
  | @line body more inside later ih =>
    have comment : Trivia ('/' :: '/' :: body) ('\n' :: more ++ after) := .line inside (.inr rfl)
    have newline : Passes after ('\n' :: more) [] := ih.blank (by decide)
    exact Passes.trivia comment newline
  | @block body more first later ih =>
    have whole : '/' :: '*' :: (body ++ '*' :: '/' :: more) =
        '/' :: '*' :: (body ++ ['*', '/']) ++ more := by simp
    rw [whole]
    exact .trivia (.block first) ih

theorem Filler.head (fills : Filler filler) (nonempty : filler ≠ []) :
    ∃ c more, filler = c :: more ∧ isBreak c := by
  cases fills with
  | nil => exact absurd rfl nonempty
  | blank blank => exact ⟨_, _, rfl, by simp [isBreak, isBlank_iff.2 blank]⟩
  | line => exact ⟨_, _, rfl, rfl⟩
  | block => exact ⟨_, _, rfl, rfl⟩

/-- Filler that is put after a token does not lengthen it. -/
theorem Filler.cut (fills : Filler filler) (cut : Cut t piece after) :
    Cut t piece (filler ++ after) := by
  by_cases none : filler = []
  · rw [none]
    exact cut
  · obtain ⟨c, more, rfl, parts⟩ := fills.head none
    exact cut_of_spells cut.stands.spells parts

theorem Cut.not_newline (cut : Cut t piece after) : (piece ++ after).head? ≠ some '\n' := by
  intro newline
  obtain ⟨more, whole⟩ := List.head?_eq_some_iff.1 newline
  have blank : bite '\n' more = .ok ⟨.trivia, ['\n'], more⟩ := rfl
  cases blank.symm.trans (bite_of_cut cut whole)

/-- Before a token no comment is open. -/
theorem Divides.padded_start (divides : Divides offset cs l before piece after ts us)
    (fills : Filler filler) :
    Passes [] (before ++ (filler ++ (piece ++ after))) (ts ++ l.token :: us) := by
  have here := (fills.passes _).finish ((passes_token divides.cut).finish divides.last)
  refine Passes.finish (divides.first.before_other ?_ fun t p => fills.cut) here
  intro p trivia
  cases trivia with
  | blank blank => exact .blank blank
  | block first => exact .block first
  | line inside ends =>
    rcases ends with none | newline
    · exact absurd (List.append_eq_nil_iff.1 none).1 divides.cut.ne_nil
    · exact absurd newline divides.cut.not_newline

theorem Divides.padded_stop (divides : Divides offset cs l before piece after ts us)
    (fills : Filler filler) :
    Passes [] (before ++ (piece ++ (filler ++ after))) (ts ++ l.token :: us) := by
  have token := passes_token divides.cut
  have nonempty := divides.cut.ne_nil
  have here := (passes_token (fills.cut divides.cut)).finish
    ((fills.passes after).finish divides.last)
  refine Passes.finish (divides.first.before_other ?_ ?_) here
  · exact fun p trivia => trivia.onward nonempty
  · exact fun u p cut => cut.onward token nonempty

/-- So filler on either side of a token leaves the tokens as they are. -/
theorem Divides.padded (divides : Divides 0 cs l before piece after ts us) (fills : Filler filler)
    (joint : offset = l.span.start ∨ offset = l.span.stop) :
    Passes [] (insertAt offset filler cs) (ts ++ l.token :: us) := by
  rcases joint with rfl | rfl
  · rw [divides.start, divides.whole, Nat.zero_add, insertAt_append]
    exact divides.padded_start fills
  · have whole := divides.whole
    rw [← List.append_assoc] at whole
    rw [divides.stop, whole, Nat.zero_add, insertAt_append, List.append_assoc]
    exact divides.padded_stop fills

/-- The parser sees only tokens. -/
theorem sameOutcome_of_tokens {a b : String} {s s' : Scanned} (scans : scanText a.toList = .ok s)
    (scans' : scanText b.toList = .ok s') (same : s'.tokens = s.tokens) : SameOutcome a b := by
  cases read : readProgram s.tokens with
  | ok p =>
    refine .inl ⟨p, (parse_eq_readProgram scans).2 read, (parse_eq_readProgram scans').2 ?_⟩
    rw [same, read]
  | error m =>
    refine .inr ⟨_, _, (parse_eq_error scans).2 ⟨m, read, rfl⟩,
      (parse_eq_error scans').2 ⟨m, ?_, rfl⟩, rfl⟩
    rw [same, read]

/-- Trivia at the start or the end of a token changes no token, so neither the program nor what is
wrong. -/
theorem padding_invisible {source : String} {s : Scanned} (scans : scanText source.toList = .ok s)
    (listed : l ∈ s.lexemes) (joint : offset = l.span.start ∨ offset = l.span.stop)
    (fills : Filler filler) :
    (∃ s', scanText (insertAt offset filler source.toList) = .ok s' ∧ s'.tokens = s.tokens) ∧
      SameOutcome source (String.ofList (insertAt offset filler source.toList)) := by
  obtain ⟨first, last, lexemes⟩ := List.append_of_mem listed
  obtain ⟨before, piece, after, divides⟩ := divides_of_scanText scans lexemes
  obtain ⟨s', scans', same⟩ := scanText_of_passes (divides.padded fills joint)
  rw [← List.map_cons, ← List.map_append, ← lexemes] at same
  refine ⟨⟨s', scans', same⟩, sameOutcome_of_tokens scans ?_ same⟩
  rw [String.toList_ofList]
  exact scans'

/-- A numeral and a word with nothing between them; an `s` after the numeral would be its unit if it
ended a word. -/
def adjacent : String :=
  "5sec"

theorem adjacent_padded : ∃ s l, scanText adjacent.toList = .ok s ∧ l ∈ s.lexemes ∧
    1 = l.span.stop ∧ Filler ['/', '*', '*', '/'] ∧
    (∃ s', scanText (insertAt 1 ['/', '*', '*', '/'] adjacent.toList) = .ok s' ∧
      s'.tokens = s.tokens) ∧
    SameOutcome adjacent (String.ofList (insertAt 1 ['/', '*', '*', '/'] adjacent.toList)) := by
  have spans : (scanText adjacent.toList).toOption.map (·.lexemes.map (·.span)) =
      some [⟨0, 1⟩, ⟨1, 4⟩] := by decide +kernel
  have comment : Filler ['/', '*', '*', '/'] := @Filler.block [] _ (by decide) .nil
  cases scans : scanText adjacent.toList with
  | error e =>
    rw [scans] at spans
    cases spans
  | ok s =>
    rw [scans] at spans
    have both : s.lexemes.map (·.span) = [⟨0, 1⟩, ⟨1, 4⟩] := Option.some_inj.1 spans
    have listed : (⟨0, 1⟩ : Span) ∈ s.lexemes.map (·.span) := by
      rw [both]
      exact List.mem_cons_self
    obtain ⟨l, inside, span⟩ := List.mem_map.1 listed
    have stop : 1 = l.span.stop := by rw [span]
    exact ⟨s, l, rfl, inside, stop, comment, padding_invisible scans inside (.inr stop) comment⟩

end Storyboard.Script
