import Storyboard.Proofs.Script.ErrorText
import Storyboard.Proofs.Source.Lines

namespace Storyboard

namespace SyntaxError

/-- The lines of a report that say what the error is and where. -/
def heading (e : SyntaxError) (origin : String) : String :=
  let gutter := String.ofList (List.replicate (toString e.location.start.line).length ' ')
  s!"error: {e.message}\n" ++
  s!"{gutter}--> {origin}:{e.location.start.line}:{e.location.start.column}\n" ++
  s!"{gutter} |\n"

end SyntaxError

/-- A numbered line, and below it carets after some spaces. -/
def underlined (number : Nat) (line : List Char) (spaces carets : Nat) : String :=
  let gutter := String.ofList (List.replicate (toString number).length ' ')
  let indent := String.ofList (List.replicate spaces ' ')
  let marks := String.ofList (List.replicate carets '^')
  s!"{number} | {String.ofList line}\n" ++
  s!"{gutter} | {indent}{marks}\n"

theorem SyntaxError.report_eq (e : SyntaxError) (text : List Char) (origin : String) :
    e.report text origin = e.heading origin ++
      underlined e.location.start.line (e.sourceLine text) (e.location.start.column - 1)
        (e.caretCount text) := by
  simp only [report, heading, underlined, String.append_assoc]
  rfl

namespace Script

variable {text before piece after front tail rest : List Char} {e : SyntaxError}

/-- The report ends in the line of the text with the first character of `piece`, which is `front`
and `tail` without the line end, and carets under the characters of `piece` on it. At the end of
the text there are none, and one caret is after the line. -/
structure Underlines (text : List Char) (e : SyntaxError) (origin : String)
    (before piece after front tail : List Char) : Prop where
  whole : text = before ++ (piece ++ after)
  start : byteCount before = e.location.start.offset
  stop : byteCount (before ++ piece) = e.location.stop.offset
  place : LineAt text before front tail
  indent : e.location.start.column - 1 = front.length
  report : e.report text origin = e.heading origin ++
    underlined e.location.start.line (front ++ tail) (e.location.start.column - 1)
      (max 1 (min piece.length tail.length))
  inside : front.length + max 1 (min piece.length tail.length) ≤ (front ++ tail).length ∨
    e.location.start.offset = byteCount text ∧ max 1 (min piece.length tail.length) = 1

theorem StandsOn.head?_ne_newline (stands : StandsOn text e before piece after) :
    (piece ++ after).head? ≠ some '\n' := by
  cases piece with
  | nil =>
    rw [stands.atEnd rfl]
    simp
  | cons c piece =>
    intro newline
    exact stands.tight c (.inl rfl) (by cases newline; decide)

/-- Offending characters without a newline are all on the line: they do not end in the carriage
return of its end. -/
theorem piece_le_tail (tight : Tight piece) (single : '\n' ∉ piece)
    (ends : EndsLine (front ++ tail) rest) (same : piece ++ after = tail ++ rest) :
    piece.length ≤ tail.length := by
  rcases List.append_eq_append_iff.1 same with ⟨more, rfl, -⟩ | ⟨more, rfl, rfl⟩
  · simp
  · have single' : '\n' ∉ more := fun newline => single (List.mem_append_right _ newline)
    rcases ends.nil_or_return (List.prefix_append ..) single' with rfl | rfl
    · simp
    · exact absurd (by decide) (tight '\r' (.inr (List.getLast?_concat ..)))

/-- An error over several lines covers its first line to the end. -/
theorem tail_le_piece (newline : '\n' ∈ piece) (single : '\n' ∉ tail)
    (same : piece ++ after = tail ++ rest) : tail.length ≤ piece.length := by
  rcases List.append_eq_append_iff.1 same with ⟨more, rfl, -⟩ | ⟨more, rfl, -⟩
  · exact absurd (List.mem_append_left _ newline) single
  · simp

/-- There are as many carets as characters of the error on its line, and at least one. -/
theorem StandsOn.caretCount (stands : StandsOn text e before piece after)
    (place : LineAt text before front tail) (shown : e.sourceLine text = front ++ tail) :
    e.caretCount text = max 1 (min piece.length tail.length) := by
  obtain ⟨rest, whole, ends⟩ := place.stop
  have same : piece ++ after = tail ++ rest := by
    rw [stands.whole, List.append_cancel_left_eq] at whole
    exact whole
  have start := stands.start_counts
  have stop := stands.stop_counts
  have line := stop.line
  rw [List.count_append, ← Nat.add_assoc, ← start.line] at line
  rw [SyntaxError.caretCount]
  -- the offending characters go on after the line, or they end on it
  by_cases newline : '\n' ∈ piece
  · have several := List.count_pos_iff.2 newline
    have single : '\n' ∉ tail := fun listed => place.single (List.mem_append_right _ listed)
    have fits := tail_le_piece newline single same
    rw [if_neg (by omega), shown, place.column start, List.length_append, Nat.min_eq_right fits]
    congr 1
    omega
  · have none := List.count_eq_zero.2 newline
    have fits := piece_le_tail stands.tight newline ends same
    have column := stop.column
    rw [rtakeWhile_append before newline, List.length_append, ← Nat.add_assoc,
      ← start.column] at column
    rw [if_pos (by omega), column, Nat.add_sub_cancel_left, Nat.min_eq_left fits]

/-- The line does not end before the first offending character, which is not a blank. -/
theorem StandsOn.tail_ne_nil (stands : StandsOn text e before piece after)
    (place : LineAt text before front tail) (nonempty : piece ≠ []) : tail ≠ [] := by
  rintro rfl
  obtain ⟨rest, whole, ends⟩ := place.stop
  rw [stands.whole, List.append_cancel_left_eq, List.nil_append] at whole
  cases piece with
  | nil => exact nonempty rfl
  | cons c piece =>
    have visible : ¬ isBlank c := stands.tight c (.inl rfl)
    have single : '\n' ∉ [c] := by
      intro newline
      cases newline with
      | head => exact visible rfl
      | tail _ none => cases none
    have begins : [c] <+: rest := ⟨piece ++ after, whole⟩
    rcases ends.nil_or_return begins single with none | returned
    · cases none
    · cases returned
      exact visible rfl

/-- The carets stay under the line, unless there is nothing to underline at the end of the text. -/
theorem StandsOn.carets_fit (stands : StandsOn text e before piece after)
    (place : LineAt text before front tail) :
    front.length + max 1 (min piece.length tail.length) ≤ (front ++ tail).length ∨
      e.location.start.offset = byteCount text ∧ max 1 (min piece.length tail.length) = 1 := by
  by_cases none : piece = []
  · exact .inr ⟨stands.start_eq_size_iff.2 none, by simp [none]⟩
  · refine .inl ?_
    have first := List.length_pos_iff.2 none
    have shown := List.length_pos_iff.2 (stands.tail_ne_nil place none)
    rw [List.length_append]
    omega

/-- Every report underlines the offending characters. -/
theorem report_underlines {source : String} (failed : parse source = .error e) (origin : String) :
    ∃ before piece after front tail,
      Underlines source.toList e origin before piece after front tail := by
  obtain ⟨before, piece, after, stands⟩ := standsOn_of_parse failed
  obtain ⟨front, tail, place, shown⟩ := exists_lineAt before stands.head?_ne_newline
  rw [← stands.whole] at place shown
  have line : e.sourceLine source.toList = front ++ tail := by
    rw [SyntaxError.sourceLine, stands.start_counts.line, Nat.add_sub_cancel_left]
    exact shown
  have indent : e.location.start.column - 1 = front.length := by
    rw [place.column stands.start_counts, Nat.add_sub_cancel_left]
  refine ⟨before, piece, after, front, tail, stands.whole, stands.start_offset.symm,
    stands.stop_offset.symm, place, indent, ?_, stands.carets_fit place⟩
  rw [SyntaxError.report_eq, line, stands.caretCount place line]

/-- A text that stands where a property should, over the end of a line. -/
def crossed : String :=
  "video\x7b\r\n  \"é\r\nb\" \x7d"

theorem crossed_underlined : ∃ e before piece after front tail, parse crossed = .error e ∧
    e.location = ⟨⟨2, 3, 10⟩, ⟨3, 3, 17⟩⟩ ∧
    Underlines crossed.toList e "crossed" before piece after front tail := by
  have stands : (match parse crossed with
      | .ok _ => none
      | .error e => some e.location) = some ⟨⟨2, 3, 10⟩, ⟨3, 3, 17⟩⟩ := by
    decide +kernel
  obtain ⟨e, failed⟩ := exists_of_not_isOk (show (parse crossed).isOk = false by decide +kernel)
  rw [failed] at stands
  obtain ⟨before, piece, after, front, tail, report⟩ := report_underlines failed "crossed"
  exact ⟨e, before, piece, after, front, tail, failed, Option.some_inj.1 stands, report⟩

end Script
end Storyboard
