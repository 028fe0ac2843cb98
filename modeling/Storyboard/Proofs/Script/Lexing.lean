import Storyboard.Proofs.Script.Pieces
import Storyboard.Proofs.Source.Places

/-!
# What the scanner makes of a text

Main statement: a text that is scanned is its lexemes, each the longest token at its place, with
nothing but trivia between them; a text that is not is so up to the place of the error, and there
one of the four faults begins (`scanText_characterised`).
-/

namespace Storyboard.Script

/-- The span of the text that holds exactly `piece`. -/
structure Covers (text : List Char) (span : Span) (before piece after : List Char) : Prop where
  whole : text = before ++ (piece ++ after)
  start : span.start = byteCount before
  stop : span.stop = byteCount (before ++ piece)

/-- Trivia in a row. -/
inductive Skipped : List Char → List Char → Prop where
  | nil {after : List Char} : Skipped [] after
  | cons {piece more after : List Char} (first : Trivia piece (more ++ after))
    (later : Skipped more after) : Skipped (piece ++ more) after

/-- The spans before, between and after the lexemes. -/
def gaps (start stop : Nat) : List Lexeme → List Span
  | [] => [⟨start, stop⟩]
  | l :: ls => ⟨start, l.span.start⟩ :: gaps l.span.stop stop ls

/-- Between `before` and `after` stand these lexemes and, apart from them, only trivia. -/
structure Lexed (before text after : List Char) (lexemes : List Lexeme) : Prop where
  nonempty : ∀ l ∈ lexemes, l.span.start < l.span.stop
  ordered : lexemes.Pairwise fun a b => a.span.stop ≤ b.span.start
  spelled : ∀ l ∈ lexemes, ∃ earlier piece later,
    Covers (before ++ (text ++ after)) l.span earlier piece later ∧ Longest l.token piece later
  between : ∀ gap ∈ gaps (byteCount before) (byteCount (before ++ text)) lexemes,
    ∃ earlier piece later,
      Covers (before ++ (text ++ after)) gap earlier piece later ∧ Skipped piece later

/-- The run of the scanner over `text`, which starts at the offset, while `after` follows. -/
inductive Runs (after : List Char) : Nat → List Char → List Lexeme → Prop where
  | done {offset : Nat} : Runs after offset [] []
  | trivia {offset : Nat} {piece text : List Char} {lexemes : List Lexeme}
    (first : Trivia piece (text ++ after))
    (later : Runs after (offset + byteCount piece) text lexemes) :
    Runs after offset (piece ++ text) lexemes
  | token {offset : Nat} {t : Token} {piece text : List Char} {lexemes : List Lexeme}
    (nonempty : piece ≠ []) (first : Longest t piece (text ++ after))
    (later : Runs after (offset + byteCount piece) text lexemes) :
    Runs after offset (piece ++ text) (⟨t, ⟨offset, offset + byteCount piece⟩⟩ :: lexemes)

variable {before text after : List Char} {lexemes : List Lexeme} {offset : Nat}

theorem Runs.start_le (runs : Runs after offset text lexemes) :
    ∀ l ∈ lexemes, offset ≤ l.span.start := by
  induction runs with
  | done => simp
  | trivia first later ih =>
    intro l listed
    exact Nat.le_trans (Nat.le_add_right _ _) (ih l listed)
  | token nonempty first later ih =>
    intro l listed
    rcases List.mem_cons.1 listed with rfl | listed
    · exact Nat.le_refl _
    · exact Nat.le_trans (Nat.le_add_right _ _) (ih l listed)

/-- Where the gaps start concerns the first one only. -/
theorem gaps_eq_cons (stop : Nat) (lexemes : List Lexeme) :
    ∃ next others, ∀ start, gaps start stop lexemes = ⟨start, next⟩ :: others := by
  cases lexemes with
  | nil => exact ⟨stop, [], fun _ => rfl⟩
  | cons l ls => exact ⟨l.span.start, gaps l.span.stop stop ls, fun _ => rfl⟩

theorem lexed_nil : Lexed before [] after [] := by
  refine ⟨by simp, .nil, by simp, ?_⟩
  intro gap listed
  obtain rfl := List.mem_singleton.1 listed
  exact ⟨before, [], after, ⟨rfl, rfl, rfl⟩, .nil⟩

/-- Trivia at the front makes the first gap longer. -/
theorem lexed_trivia {piece : List Char} (first : Trivia piece (text ++ after))
    (later : Lexed (before ++ piece) text after lexemes) :
    Lexed before (piece ++ text) after lexemes := by
  obtain ⟨nonempty, ordered, spelled, between⟩ := later
  have whole : before ++ piece ++ (text ++ after) = before ++ (piece ++ text ++ after) := by
    simp only [List.append_assoc]
  rw [whole] at spelled between
  refine ⟨nonempty, ordered, spelled, ?_⟩
  obtain ⟨next, others, split⟩ :=
    gaps_eq_cons (byteCount (before ++ piece ++ text)) lexemes
  rw [split] at between
  rw [← List.append_assoc, split]
  intro gap listed
  rcases List.mem_cons.1 listed with rfl | listed
  · obtain ⟨earlier, more, rest, ⟨here, start, stop⟩, skipped⟩ := between _ List.mem_cons_self
    -- The gap that follows the piece starts where the piece ends.
    have same : earlier = before ++ piece := by
      refine eq_of_byteCount ⟨more ++ rest, here.symm⟩ ⟨text ++ after, whole⟩ start.symm
    subst same
    refine ⟨before, piece ++ more, rest, ⟨?_, rfl, ?_⟩, .cons ?_ skipped⟩
    · rw [here]
      simp only [List.append_assoc]
    · rw [← List.append_assoc]
      exact stop
    · rw [← whole] at here
      rw [← List.append_cancel_left here]
      exact first
  · exact between gap (List.mem_cons_of_mem _ listed)

/-- A token at the front has no gap before it. -/
theorem lexed_token {t : Token} {piece : List Char} (nonempty : piece ≠ [])
    (first : Longest t piece (text ++ after))
    (start_le : ∀ l ∈ lexemes, byteCount (before ++ piece) ≤ l.span.start)
    (later : Lexed (before ++ piece) text after lexemes) :
    Lexed before (piece ++ text) after
      (⟨t, ⟨byteCount before, byteCount (before ++ piece)⟩⟩ :: lexemes) := by
  obtain ⟨nonempty_later, ordered, spelled, between⟩ := later
  have whole : before ++ piece ++ (text ++ after) = before ++ (piece ++ text ++ after) := by
    simp only [List.append_assoc]
  rw [whole] at spelled between
  constructor
  · intro l listed
    rcases List.mem_cons.1 listed with rfl | listed
    · have := byteCount_pos nonempty
      simp only [byteCount_append]
      omega
    · exact nonempty_later l listed
  · exact .cons start_le ordered
  · intro l listed
    rcases List.mem_cons.1 listed with rfl | listed
    · refine ⟨before, piece, text ++ after, ⟨?_, rfl, rfl⟩, first⟩
      rw [List.append_assoc]
    · exact spelled l listed
  · rw [← List.append_assoc]
    intro gap listed
    rcases List.mem_cons.1 listed with rfl | listed
    · refine ⟨before, [], piece ++ text ++ after, ⟨rfl, rfl, ?_⟩, .nil⟩
      rw [List.append_nil]
    · exact between gap listed

theorem Runs.lexed (runs : Runs after offset text lexemes) (here : byteCount before = offset) :
    Lexed before text after lexemes := by
  induction runs generalizing before with
  | done => exact lexed_nil
  | @trivia offset piece text lexemes first later ih =>
    have ahead : byteCount (before ++ piece) = offset + byteCount piece := by
      rw [byteCount_append, here]
    exact lexed_trivia first (ih ahead)
  | @token offset t piece text lexemes nonempty first later ih =>
    have ahead : byteCount (before ++ piece) = offset + byteCount piece := by
      rw [byteCount_append, here]
    have start_le : ∀ l ∈ lexemes, byteCount (before ++ piece) ≤ l.span.start := by
      rw [ahead]
      exact later.start_le
    have added := lexed_token (t := t) nonempty first start_le (ih ahead)
    rw [here, ahead] at added
    exact added

theorem runs_of_scan {cs : List Char} (scanned : scan offset cs = .ok lexemes) :
    Runs [] offset cs lexemes := by
  fun_induction scan offset cs generalizing lexemes with
  | case1 =>
    cases scanned
    exact .done
  | case2 => cases scanned
  | case3 offset c cs b taken next trivia =>
    rename_i ih
    have first := trivia_of_bite taken trivia
    rw [← List.append_nil b.rest] at first
    rw [← bite_append taken]
    exact .trivia first (ih scanned)
  | case4 offset c cs b taken next t token =>
    rename_i ih
    have first := longest_of_bite taken token
    rw [← List.append_nil b.rest] at first
    rw [← bite_append taken]
    cases more : scan next b.rest with
    | error fault =>
      rw [more] at scanned
      cases scanned
    | ok later =>
      rw [more] at scanned
      cases scanned
      exact .token (bite_text_ne_nil taken) first (ih more)

theorem spelled_of_scanText {text : List Char} {s : Scanned} (scans : scanText text = .ok s) :
    ∀ t ∈ s.tokens, t.Spelled := by
  unfold scanText at scans
  split at scans
  · rename_i read
    cases scans
    intro t listed
    obtain ⟨l, inside, rfl⟩ := List.mem_map.1 listed
    have lexed : Lexed [] text [] _ := (runs_of_scan read).lexed rfl
    obtain ⟨earlier, piece, later, -, longest⟩ := lexed.spelled l inside
    exact ⟨piece, longest.stands.spells⟩
  · cases scans

/-- A scan that fails has cut everything before the characters that it blames. -/
theorem runs_of_scan_error {cs : List Char} {fault : ScanFault} {span : Span}
    (failed : scan offset cs = .error (fault, span)) :
    ∃ text rest lexemes blamed, cs = text ++ rest ∧ Runs rest offset text lexemes ∧
      Fails fault blamed rest ∧ span.start = offset + byteCount text ∧
      span.stop = offset + byteCount (text ++ blamed) := by
  fun_induction scan offset cs with
  | case1 => cases failed
  | case2 offset c cs blamed refused =>
    cases failed
    exact ⟨[], c :: cs, [], blamed.text, rfl, .done, fails_of_bite refused, rfl, rfl⟩
  | case3 offset c cs b taken next trivia =>
    rename_i ih
    obtain ⟨text, rest, lexemes, blamed, whole, runs, fails, start, stop⟩ := ih failed
    have first := trivia_of_bite taken trivia
    rw [whole] at first
    refine ⟨b.text ++ text, rest, lexemes, blamed, ?_, .trivia first runs, fails, ?_, ?_⟩
    · rw [← bite_append taken, whole, List.append_assoc]
    · rw [start, byteCount_append, Nat.add_assoc]
    · rw [stop, List.append_assoc, byteCount_append b.text, Nat.add_assoc]
  | case4 offset c cs b taken next t token =>
    rename_i ih
    cases more : scan next b.rest with
    | ok later =>
      rw [more] at failed
      cases failed
    | error refused =>
      rw [more] at failed
      cases failed
      obtain ⟨text, rest, lexemes, blamed, whole, runs, fails, start, stop⟩ := ih more
      have first := longest_of_bite taken token
      rw [whole] at first
      refine ⟨b.text ++ text, rest, _, blamed, ?_,
        .token (bite_text_ne_nil taken) first runs, fails, ?_, ?_⟩
      · rw [← bite_append taken, whole, List.append_assoc]
      · rw [start, byteCount_append, Nat.add_assoc]
      · rw [stop, List.append_assoc, byteCount_append b.text, Nat.add_assoc]

theorem scan_of_trivia {c : Char} {cs : List Char} {b : Bite} (offset : Nat)
    (taken : bite c cs = .ok b) (trivia : b.piece = .trivia) :
    scan offset (c :: cs) = scan (offset + byteCount b.text) b.rest := by
  rw [scan]
  split
  · rename_i refused
    cases taken.symm.trans refused
  · rename_i taken'
    cases taken.symm.trans taken'
    rw [trivia]

theorem scan_of_token {c : Char} {cs : List Char} {b : Bite} {t : Token} (offset : Nat)
    (taken : bite c cs = .ok b) (token : b.piece = .token t) :
    scan offset (c :: cs) = (scan (offset + byteCount b.text) b.rest).map
      (⟨t, ⟨offset, offset + byteCount b.text⟩⟩ :: ·) := by
  rw [scan]
  split
  · rename_i refused
    cases taken.symm.trans refused
  · rename_i taken'
    cases taken.symm.trans taken'
    rw [token]

/-- Tokens that are spelled one on each line are scanned as they are. -/
theorem exists_text {tokens : List Token} (spelled : ∀ t ∈ tokens, t.Spelled) :
    ∃ text, ∀ offset, ∃ lexemes, scan offset text = .ok lexemes ∧
      lexemes.map Lexeme.token = tokens := by
  induction tokens with
  | nil => exact ⟨[], fun _ => ⟨[], by rw [scan], rfl⟩⟩
  | cons t tokens ih =>
    obtain ⟨⟨piece, spells⟩, others⟩ := List.forall_mem_cons.1 spelled
    obtain ⟨text, scans⟩ := ih others
    obtain ⟨c, later, whole⟩ :=
      List.exists_cons_of_ne_nil (show piece ++ '\n' :: text ≠ [] by simp)
    refine ⟨piece ++ '\n' :: text, ?_⟩
    intro offset
    have newline : bite '\n' text = .ok ⟨.trivia, ['\n'], text⟩ := rfl
    obtain ⟨lexemes, read, same⟩ :=
      scans (offset + byteCount piece + byteCount ['\n'])
    rw [whole, scan_of_token offset (bite_of_cut (cut_of_spells spells rfl) whole) rfl,
      scan_of_trivia _ newline rfl, read]
    exact ⟨_, rfl, by rw [List.map_cons, same]⟩

/-- The text is these lexemes and trivia from end to end, and with no token left the parser stands
at its end. -/
structure Scanned.Matches (text : List Char) (s : Scanned) : Prop where
  lexed : Lexed [] text [] s.lexemes
  size : s.size = byteCount text
  atEnd : s.spanFromEnd 0 = .point s.size

/-- The text is lexemes and trivia up to where the error starts, and there the fault begins. -/
structure Blames (text : List Char) (e : SyntaxError) (before rest blamed : List Char)
    (lexemes : List Lexeme) (fault : ScanFault) : Prop where
  whole : text = before ++ rest
  lexed : Lexed [] before rest lexemes
  fails : Fails fault blamed rest
  message : e.message = fault.message
  start : e.location.start.offset = byteCount before
  stop : e.location.stop.offset = byteCount (before ++ blamed)

theorem Fails.front {fault : ScanFault} {blamed rest : List Char}
    (fails : Fails fault blamed rest) : blamed <+: rest := by
  cases fails with
  | unterminatedText => exact ⟨_, rfl⟩
  | unterminatedComment => exact ⟨_, rfl⟩
  | numberOutOfRange => exact ⟨_, rfl⟩
  | unexpectedCharacter => exact ⟨_, rfl⟩

/-- What was scanned are pieces of the text, each the longest that stands there. -/
theorem matches_of_scanText {text : List Char} {s : Scanned} (scans : scanText text = .ok s) :
    s.Matches text := by
  unfold scanText at scans
  split at scans
  · rename_i read
    cases scans
    exact ⟨(runs_of_scan read).lexed rfl, rfl, by simp [Scanned.spanFromEnd]⟩
  · cases scans

theorem blames_of_scanText {text : List Char} {e : SyntaxError}
    (refused : scanText text = .error e) :
    ∃ before rest blamed lexemes fault, Blames text e before rest blamed lexemes fault := by
  unfold scanText at refused
  split at refused
  · cases refused
  · rename_i fault span failed
    cases refused
    obtain ⟨start, stop⟩ := span
    obtain ⟨before, rest, lexemes, blamed, rfl, runs, fails, starts, stops⟩ :=
      runs_of_scan_error failed
    obtain ⟨more, rfl⟩ := fails.front
    rw [Nat.zero_add] at starts stops
    cases starts
    cases stops
    obtain ⟨first, last⟩ := Location.ofSpan_offsets before blamed more
    exact ⟨before, _, blamed, lexemes, fault, rfl, runs.lexed rfl, fails, rfl, first, last⟩

/-- Either way the text is told in full: as lexemes and trivia, or up to its first fault. -/
theorem scanText_characterised (text : List Char) :
    match scanText text with
    | .ok s => s.Matches text
    | .error e => ∃ before rest blamed lexemes fault,
        Blames text e before rest blamed lexemes fault := by
  cases scans : scanText text with
  | ok s => exact matches_of_scanText scans
  | error e => exact blames_of_scanText scans

end Storyboard.Script
