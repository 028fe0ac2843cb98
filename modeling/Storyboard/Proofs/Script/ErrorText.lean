import Storyboard.Proofs.Script.Offending
import Storyboard.Proofs.Source.Positions

namespace Storyboard

/-- The range of an error in the text. -/
structure Location.Fits (text : List Char) (location : Location) : Prop where
  ordered : location.start.offset ≤ location.stop.offset
  inside : location.stop.offset ≤ byteCount text
  start : IsBoundary text location.start.offset
  stop : IsBoundary text location.stop.offset
  empty_iff : location.start = location.stop ↔ location.start.offset = byteCount text

namespace Script

variable {text before piece after : List Char} {t : Token} {e : SyntaxError} {s : Scanned}
  {source : String}

/-- There is no blank at either end. -/
def Tight (piece : List Char) : Prop :=
  ∀ c, piece.head? = some c ∨ piece.getLast? = some c → ¬ isBlank c

/-- The error stands on `piece`, which is empty only at the end of the text. -/
structure StandsOn (text : List Char) (e : SyntaxError) (before piece after : List Char) : Prop where
  whole : text = before ++ (piece ++ after)
  location : e.location = .ofSpan text ⟨byteCount before, byteCount (before ++ piece)⟩
  atEnd : piece = [] → after = []
  tight : Tight piece

theorem tight_of_all (all : ∀ c ∈ piece, ¬ isBlank c) : Tight piece := by
  rintro c (first | last)
  · exact all c (List.mem_of_head? first)
  · exact all c (List.mem_of_getLast? last)

theorem tight_quoted (body : List Char) : Tight ('"' :: body ++ ['"']) := by
  rintro c (first | last)
  · cases first
    decide
  · rw [List.getLast?_concat] at last
    cases last
    decide

theorem not_blank_wordPart {c : Char} (part : isWordPart c) : ¬ isBlank c := by
  simp [(ordinary_of part rfl).blank]

theorem not_blank_numeral {n : Numeral} (digits : n.WellFormed) : ∀ c ∈ n.text, ¬ isBlank c := by
  have digit {c : Char} (digit : c.isDigit) : ¬ isBlank c := by simp [(ordinary_digit digit).blank]
  intro c listed
  simp only [Numeral.text, List.mem_append] at listed
  rcases listed with (sign | whole) | fraction
  · split at sign
    · obtain rfl := List.mem_singleton.1 sign
      decide
    · cases sign
  · exact digit (digits.whole c whole)
  · split at fraction
    · cases fraction
    · rcases List.mem_cons.1 fraction with rfl | fraction
      · decide
      · exact digit (digits.fraction c fraction)

theorem Spells.tight (spells : Spells t piece) : Tight piece := by
  cases spells with
  | @word c cs start parts =>
    refine tight_of_all fun d listed => ?_
    rcases List.mem_cons.1 listed with rfl | listed
    · simp [(ordinary_wordStart start).blank]
    · exact not_blank_wordPart (parts d listed)
  | @text body => exact tight_quoted body
  | mark m =>
    refine tight_of_all fun d listed => ?_
    obtain rfl := List.mem_singleton.1 listed
    simp [(ordinary_mark m).blank]
  | number digits => exact tight_of_all (not_blank_numeral digits)
  | duration digits =>
    refine tight_of_all fun d listed => ?_
    rcases List.mem_append.1 listed with listed | listed
    · exact not_blank_numeral digits d listed
    · obtain rfl := List.mem_singleton.1 listed
      decide

/-- What the scanner blames is one character, a quote, an open comment or a number: none of them
begins or ends in a blank. -/
theorem Fails.tight {fault : ScanFault} {rest : List Char} (fails : Fails fault piece rest) :
    Tight piece ∧ piece ≠ [] := by
  cases fails with
  | unterminatedText => exact ⟨tight_of_all (by simp [isBlank]), by simp⟩
  | unterminatedComment => exact ⟨tight_of_all (by simp [isBlank]), by simp⟩
  | numberOutOfRange digits =>
    exact ⟨tight_of_all (not_blank_numeral digits), Numeral.text_ne_nil digits.nonempty⟩
  | @unexpectedCharacter c cs stray =>
    refine ⟨tight_of_all fun d listed => ?_, by simp⟩
    obtain rfl := List.mem_singleton.1 listed
    exact fun blank => stray.blank (isBlank_iff.1 blank)

/-- An error of the scanner stands on the characters that it blames. -/
theorem standsOn_of_scanText (refused : scanText text = .error e) :
    ∃ before piece after, StandsOn text e before piece after := by
  unfold scanText at refused
  split at refused
  · cases refused
  · rename_i fault span failed
    cases refused
    obtain ⟨start, stop⟩ := span
    obtain ⟨before, rest, -, blamed, rfl, -, fails, starts, stops⟩ := runs_of_scan_error failed
    obtain ⟨tight, nonempty⟩ := fails.tight
    obtain ⟨after, rfl⟩ := fails.front
    rw [Nat.zero_add] at starts stops
    cases starts
    cases stops
    exact ⟨before, blamed, after, rfl, rfl, fun none => absurd none nonempty, tight⟩

/-- An error of the parser stands on the characters of a token, or on nothing at the end of the
text. -/
theorem standsOn_of_mismatch (scans : scanText text = .ok s) (m : Mismatch) :
    ∃ before piece after, StandsOn text (m.toError text s) before piece after := by
  have lexed := matches_of_scanText scans
  unfold Mismatch.toError Scanned.spanFromEnd
  split
  · rename_i l later left
    have listed : l ∈ s.lexemes := List.mem_of_mem_drop (left ▸ List.mem_cons_self)
    obtain ⟨before, piece, after, ⟨whole, start, stop⟩, longest⟩ := lexed.lexed.spelled l listed
    rw [List.nil_append, List.append_nil] at whole
    refine ⟨before, piece, after, whole, ?_, ?_, longest.stands.spells.tight⟩
    · rw [← start, ← stop]
      rfl
    · rintro rfl
      have apart := lexed.lexed.nonempty l listed
      rw [start, stop, List.append_nil] at apart
      exact absurd apart (Nat.lt_irrefl _)
  · refine ⟨text, [], [], by simp, ?_, fun _ => rfl, tight_of_all (by simp)⟩
    rw [List.append_nil, ← lexed.size]
    rfl

theorem standsOn_of_parse (failed : parse source = .error e) :
    ∃ before piece after, StandsOn source.toList e before piece after := by
  cases scans : scanText source.toList with
  | error e' =>
    rw [parse, parseText, scans] at failed
    cases failed
    exact standsOn_of_scanText scans
  | ok s =>
    obtain ⟨m, -, rfl⟩ := (parse_eq_error scans).1 failed
    exact standsOn_of_mismatch scans m

theorem StandsOn.start (stands : StandsOn text e before piece after) :
    e.location.start = .locate text (byteCount before) := by
  rw [stands.location, Location.ofSpan_parts]

theorem StandsOn.stop (stands : StandsOn text e before piece after) :
    e.location.stop = .locate text (byteCount (before ++ piece)) := by
  rw [stands.location, Location.ofSpan_parts]

theorem StandsOn.start_offset (stands : StandsOn text e before piece after) :
    e.location.start.offset = byteCount before := by
  rw [stands.location, stands.whole]
  exact (Location.ofSpan_offsets before piece after).1

theorem StandsOn.stop_offset (stands : StandsOn text e before piece after) :
    e.location.stop.offset = byteCount (before ++ piece) := by
  rw [stands.location, stands.whole]
  exact (Location.ofSpan_offsets before piece after).2

theorem StandsOn.start_counts (stands : StandsOn text e before piece after) :
    e.location.start.Counts before := by
  rw [stands.start, stands.whole]
  exact Position.counts_locate before (piece ++ after)

theorem StandsOn.stop_counts (stands : StandsOn text e before piece after) :
    e.location.stop.Counts (before ++ piece) := by
  rw [stands.stop, stands.whole, ← List.append_assoc]
  exact Position.counts_locate (before ++ piece) after

/-- An error starts at the end of the text just if there is nothing that it stands on. -/
theorem StandsOn.start_eq_size_iff (stands : StandsOn text e before piece after) :
    e.location.start.offset = byteCount text ↔ piece = [] := by
  rw [stands.start_offset, stands.whole, byteCount_append, byteCount_append]
  constructor
  · intro size
    by_contra nonempty
    have := byteCount_pos nonempty
    omega
  · rintro rfl
    rw [stands.atEnd rfl]
    rfl

theorem StandsOn.fits (stands : StandsOn text e before piece after) : e.location.Fits text := by
  have parts : before ++ piece <+: text := ⟨after, by rw [stands.whole, List.append_assoc]⟩
  have front : before <+: text := ⟨piece ++ after, stands.whole.symm⟩
  constructor
  · rw [stands.start_offset, stands.stop_offset]
    exact byteCount_mono (List.prefix_append before piece)
  · rw [stands.stop_offset]
    exact byteCount_mono parts
  · exact ⟨before, front, stands.start_offset.symm⟩
  · exact ⟨before ++ piece, parts, stands.stop_offset.symm⟩
  · rw [stands.start_eq_size_iff]
    constructor
    · intro same
      have offsets := congrArg Position.offset same
      rw [stands.start_offset, stands.stop_offset, byteCount_append] at offsets
      by_contra nonempty
      have := byteCount_pos nonempty
      omega
    · rintro rfl
      rw [stands.start, stands.stop, List.append_nil]

/-- Every span is resolved to the last places that are not beyond its ends, line and column tell a
place, and an error has a range of the text, which is empty only at its end. -/
theorem positions_exact :
    (∀ (text : List Char) (span : Span) (message : String),
      let location := (SyntaxError.ofSpan text span message).location
      location.start.Resolves text span.start ∧
        location.stop.Resolves text (max span.start span.stop)) ∧
    (∀ (text : List Char) (i j : Nat) (p q : Position), p.Resolves text i → q.Resolves text j →
      p.line = q.line → p.column = q.column → p.offset = q.offset) ∧
    ∀ (source : String) (e : SyntaxError), parse source = .error e →
      e.location.Fits source.toList := by
  refine ⟨?_, ?_, ?_⟩
  · intro text span message
    exact ⟨Position.resolves_locate text _, Position.resolves_locate text _⟩
  · intro text i j p q first second
    exact Position.offset_of_line_column first second
  · intro source e failed
    obtain ⟨before, piece, after, stands⟩ := standsOn_of_parse failed
    exact stands.fits

/-- A text left open, on the second line, after a character of two bytes. -/
def unclosed : String :=
  "/*é*/\n \"a"

theorem unclosed_positions : ∃ e, parse unclosed = .error e ∧ e.location.Fits unclosed.toList ∧
    ∃ p q : Position, p.Resolves unclosed.toList 2 ∧ q.Resolves unclosed.toList 3 ∧
      p.line = q.line ∧ p.column = q.column ∧ p.offset = q.offset := by
  obtain ⟨e, failed⟩ := exists_of_not_isOk (show (parse unclosed).isOk = false by decide +kernel)
  obtain ⟨before, inside⟩ := positions_exact.1 unclosed.toList ⟨2, 3⟩ ""
  have line :
      (Position.locate unclosed.toList 2).line = (Position.locate unclosed.toList 3).line := by
    decide
  have column :
      (Position.locate unclosed.toList 2).column = (Position.locate unclosed.toList 3).column := by
    decide
  exact ⟨e, failed, positions_exact.2.2 unclosed e failed, _, _, before, inside, line, column,
    positions_exact.2.1 _ _ _ _ _ before inside line column⟩

end Script
end Storyboard
