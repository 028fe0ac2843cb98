import Storyboard.Proofs.Script.Derivation
import Storyboard.Proofs.Script.Endings
import Storyboard.Proofs.Script.Lexing

namespace Storyboard.Script

/-- A row of tokens that is refused goes on as a script up to the token that is blamed, and is
refused for nothing else than what stands up to there. -/
theorem readProgram_eq_error {tokens : List Token} {m : Mismatch}
    (failed : readProgram tokens = .error m) : ∃ used rest, tokens = used ++ rest ∧
      m.left = rest.length ∧
      (∃ more p, more ≠ [] ∧ Reader.AllSpelled more ∧ readProgram (used ++ more) = .ok p) ∧
      ∀ rest', rest'.head? = rest.head? →
        readProgram (used ++ rest') = .error ⟨m.cause, rest'.length⟩ := by
  have failed : Reader.program tokens = .error m := by
    unfold readProgram at failed
    cases read : Reader.program tokens with
    | error m' =>
      rw [read] at failed
      cases failed
      rfl
    | ok p =>
      rw [read] at failed
      cases failed
  obtain ⟨used, rest, more, p, rfl, left, nonempty, spelled, takes⟩ :=
    Reader.program_completes.resume tokens m failed
  refine ⟨used, rest, rfl, left, ⟨more, p, nonempty, spelled, ?_⟩, ?_⟩
  · have whole := takes [] rfl
    rw [List.append_nil] at whole
    rw [readProgram, whole]
    rfl
  · obtain ⟨used', _, outcome, same, stops⟩ := Reader.program_looksOneAhead (used ++ rest)
    have here := stops _ rfl
    rw [← same, failed] at here
    cases outcome with
    | ok a => cases here
    | error cause =>
      cases here
      obtain ⟨rfl, rfl⟩ := List.append_inj' same left.symm
      intro rest' next
      rw [readProgram, stops rest' next]
      rfl

/-- The tokens of a script that parses. -/
def IsScript (tokens : List Token) : Prop :=
  ∃ source s p, scanText (String.toList source) = .ok s ∧ s.tokens = tokens ∧ parse source = .ok p

/-- What is accepted is a script. -/
theorem isScript_of_readProgram {tokens : List Token} {p : Program}
    (spelled : Reader.AllSpelled tokens) (read : readProgram tokens = .ok p) : IsScript tokens := by
  obtain ⟨text, scans⟩ := exists_text spelled
  obtain ⟨lexemes, scanned, rfl⟩ := scans 0
  have whole : scanText (String.ofList text).toList = .ok ⟨lexemes, byteCount text⟩ := by
    rw [String.toList_ofList, scanText, scanned]
  exact ⟨String.ofList text, _, p, whole, rfl, (parse_eq_readProgram whole).2 read⟩

namespace Scanned

/-- The tokens, and the end of the text after them, each with its span. -/
def stops (s : Scanned) : List (Option Token × Span) :=
  s.lexemes.map (fun l => (some l.token, l.span)) ++ [(none, .point s.size)]

/-- The tokens and the end. -/
def kinds (s : Scanned) : List (Option Token) :=
  s.tokens.map some ++ [none]

theorem stops_eq {s : Scanned} {used rest : List Token} (tokens : s.tokens = used ++ rest) :
    s.stops[used.length]? = some (rest.head?, s.spanFromEnd rest.length) := by
  have whole : s.lexemes.length = used.length + rest.length := by
    have := congrArg List.length tokens
    simpa [Scanned.tokens] using this
  have here : s.lexemes.length - rest.length = used.length := by omega
  have later : (s.lexemes.drop used.length).map Lexeme.token = rest := by
    rw [List.map_drop]
    change s.tokens.drop _ = _
    rw [tokens, List.drop_left]
  rw [stops, spanFromEnd, here]
  cases left : s.lexemes.drop used.length with
  | nil =>
    rw [left] at later
    subst later
    have inside : s.lexemes.length = used.length := by simpa using whole
    rw [← inside]
    simp
  | cons l ls =>
    rw [left] at later
    subst later
    have inside : s.lexemes[used.length]? = some l := by
      rw [← List.head?_drop, left]
      rfl
    have before : used.length < s.lexemes.length := (List.getElem?_eq_some_iff.1 inside).1
    rw [List.getElem?_append_left (by simpa using before), List.getElem?_map, inside]
    rfl

/-- Texts with the same kinds up to some place have the same tokens before it and the same one
there. -/
theorem tokens_of_prefix {used tokens : List Token} {next : Option Token}
    (h : used.map some ++ [next] <+: tokens.map some ++ [none]) :
    ∃ rest, tokens = used ++ rest ∧ rest.head? = next := by
  induction used generalizing tokens with
  | nil =>
    refine ⟨tokens, rfl, ?_⟩
    cases tokens with
    | nil => exact (List.cons_prefix_cons.1 h).1.symm
    | cons t tokens => exact (List.cons_prefix_cons.1 h).1.symm
  | cons u used ih =>
    cases tokens with
    | nil =>
      have same := (List.cons_prefix_cons.1 h).1
      cases same
    | cons t tokens =>
      obtain ⟨same, later⟩ := List.cons_prefix_cons.1 h
      cases same
      obtain ⟨rest, rfl, next⟩ := ih later
      exact ⟨rest, rfl, next⟩

theorem take_kinds {s : Scanned} {used rest : List Token} (tokens : s.tokens = used ++ rest) :
    s.kinds.take (used.length + 1) = used.map some ++ [rest.head?] := by
  have first : (rest.map some ++ [none]).take 1 = [rest.head?] := by
    cases rest with
    | nil => rfl
    | cons t rest => rfl
  have long : used.length = (used.map some).length := (List.length_map some).symm
  rw [kinds, tokens, List.map_append, List.append_assoc, long, List.take_length_add_append, first]

variable {text : List Char} {s : Scanned}

/-- A token is on characters of the text, and the end is after all of them. -/
theorem Matches.bounds (m : s.Matches text) {l : Lexeme} (listed : l ∈ s.lexemes) :
    l.span.start < l.span.stop ∧ l.span.stop ≤ s.size := by
  obtain ⟨earlier, piece, later, ⟨whole, -, stop⟩, -⟩ := m.lexed.spelled l listed
  refine ⟨m.lexed.nonempty l listed, ?_⟩
  rw [List.nil_append, List.append_nil] at whole
  rw [stop, m.size, whole, ← List.append_assoc, byteCount_append _ later]
  exact Nat.le_add_right _ _

/-- No two of the places are the same. -/
theorem Matches.increasing (m : s.Matches text) :
    s.stops.Pairwise fun x y => x.2.start < y.2.start := by
  rw [stops, List.pairwise_append]
  refine ⟨?_, List.pairwise_singleton _ _, ?_⟩
  · rw [List.pairwise_map]
    refine m.lexed.ordered.imp_of_mem fun inside _ apart => ?_
    exact Nat.lt_of_lt_of_le (m.bounds inside).1 apart
  · intro x inside y last
    obtain ⟨l, listed, rfl⟩ := List.mem_map.1 inside
    obtain rfl := List.mem_singleton.1 last
    obtain ⟨start, stop⟩ := m.bounds listed
    exact Nat.lt_of_lt_of_le start stop

theorem Matches.start_offset (m : s.Matches text) {x : Option Token × Span} (listed : x ∈ s.stops) :
    (Location.ofSpan text x.2).start.offset = x.2.start := by
  rcases List.mem_append.1 listed with inside | last
  · obtain ⟨⟨token, start, stop⟩, lexeme, rfl⟩ := List.mem_map.1 inside
    obtain ⟨earlier, piece, later, ⟨whole, rfl, rfl⟩, -⟩ := m.lexed.spelled _ lexeme
    rw [List.nil_append, List.append_nil] at whole
    rw [whole]
    exact (Location.ofSpan_offsets earlier piece later).1
  · obtain rfl := List.mem_singleton.1 last
    have atEnd := Position.offset_locate text []
    rw [List.append_nil, ← m.size] at atEnd
    exact atEnd

/-- The place that the offset of an error tells. -/
theorem Matches.start_eq_iff (m : s.Matches text) {n k : Nat} {x y : Option Token × Span}
    (here : s.stops[n]? = some x) (there : s.stops[k]? = some y) :
    y.2.start = x.2.start ↔ k = n := by
  obtain ⟨inside, rfl⟩ := List.getElem?_eq_some_iff.1 here
  obtain ⟨inside', rfl⟩ := List.getElem?_eq_some_iff.1 there
  have apart := List.pairwise_iff_getElem.1 m.increasing
  constructor
  · intro same
    rcases Nat.lt_trichotomy k n with before | equal | after
    · exact absurd same (Nat.ne_of_lt (apart k n inside' inside before))
    · exact equal
    · exact absurd same.symm (Nat.ne_of_lt (apart n k inside inside' after))
  · rintro rfl
    rfl

end Scanned

variable {source : String} {s : Scanned} {e : SyntaxError}

/-- The error of a text that scans is that of its tokens, placed in the text. -/
theorem parse_eq_error (scans : scanText source.toList = .ok s) :
    parse source = .error e ↔
      ∃ m, readProgram s.tokens = .error m ∧ m.toError source.toList s = e := by
  rw [parse, parseText, scans]
  change (readProgram s.tokens).mapError _ = _ ↔ _
  cases readProgram s.tokens <;> simp [Except.mapError]

/-- The error stands at one token `kind`, or at the end: what is before it begins a script, what
ends with it begins none, and all texts that begin with it have this error there. -/
theorem error_at_first_offending (scans : scanText source.toList = .ok s)
    (failed : parse source = .error e) :
    ∃ n kind span, s.stops[n]? = some (kind, span) ∧
      (∀ k x, s.stops[k]? = some x → (x.2.start = e.location.start.offset ↔ k = n)) ∧
      (∃ more, more ≠ [] ∧ IsScript (s.tokens.take n ++ more)) ∧
      (∀ tokens, IsScript tokens → ¬ s.kinds.take (n + 1) <+: tokens.map some ++ [none]) ∧
      ∀ other t, scanText (String.toList other) = .ok t → s.kinds.take (n + 1) <+: t.kinds →
        ∃ span', t.stops[n]? = some (kind, span') ∧
          parse other = .error (.ofSpan other.toList span' e.message) := by
  have spelled := spelled_of_scanText scans
  have places := matches_of_scanText scans
  obtain ⟨m, refused, rfl⟩ := (parse_eq_error scans).1 failed
  obtain ⟨used, rest, tokens, left, ⟨more, p, nonempty, added, completed⟩, again⟩ :=
    readProgram_eq_error refused
  have here := Scanned.stops_eq tokens
  have fails {other : String} {t : Scanned} (scans' : scanText other.toList = .ok t)
      (begins : s.kinds.take (used.length + 1) <+: t.kinds) :
      ∃ span, t.stops[used.length]? = some (rest.head?, span) ∧
        parse other = .error (.ofSpan other.toList span m.cause.message) := by
    rw [Scanned.take_kinds tokens] at begins
    obtain ⟨rest', tokens', next⟩ := Scanned.tokens_of_prefix begins
    have there := Scanned.stops_eq tokens'
    rw [next] at there
    refine ⟨_, there, (parse_eq_error scans').2 ⟨⟨m.cause, rest'.length⟩, ?_, rfl⟩⟩
    rw [tokens']
    exact again rest' next
  refine ⟨used.length, rest.head?, s.spanFromEnd rest.length, here, ?_, ?_, ?_,
    fun other t => fails⟩
  · intro k x there
    have start := places.start_offset (List.mem_of_getElem? here)
    rw [Mismatch.toError, left, SyntaxError.ofSpan, start]
    exact places.start_eq_iff here there
  · refine ⟨more, nonempty, ?_⟩
    rw [tokens] at spelled
    have before : Reader.AllSpelled used := fun t listed =>
      spelled t (List.mem_append_left _ listed)
    rw [tokens, List.take_left]
    exact isScript_of_readProgram (before.append added) completed
  · rintro _ ⟨other, t, p, scans', rfl, parsed⟩ begins
    obtain ⟨span, -, refused⟩ := fails scans' begins
    cases parsed.symm.trans refused

/-- A scene without a duration, which is blamed on its closing brace. -/
def timeless : String :=
  "video\x7bdimensions:(2,1)\x7dscene\"s\"\x7bnarration:\"n\"\x7d"

theorem exists_of_not_isOk {ε α : Type} {result : Except ε α} (h : result.isOk = false) :
    ∃ e, result = .error e := by
  cases result with
  | error e => exact ⟨e, rfl⟩
  | ok a => cases h

theorem timeless_offends :
    ∃ s e n kind span, scanText timeless.toList = .ok s ∧ parse timeless = .error e ∧
      s.stops[n]? = some (kind, span) ∧ span.start = e.location.start.offset ∧
      (∃ more, more ≠ [] ∧ IsScript (s.tokens.take n ++ more)) ∧
      ∀ tokens, IsScript tokens → ¬ s.kinds.take (n + 1) <+: tokens.map some ++ [none] := by
  have scanned : (scanText timeless.toList).isOk := by decide +kernel
  cases scans : scanText timeless.toList with
  | error e =>
    rw [scans] at scanned
    cases scanned
  | ok s =>
    obtain ⟨e, failed⟩ := exists_of_not_isOk (show (parse timeless).isOk = false by decide +kernel)
    obtain ⟨n, kind, span, here, starts, before, after, -⟩ := error_at_first_offending scans failed
    exact ⟨s, e, n, kind, span, rfl, failed, here, (starts n _ here).2 rfl, before, after⟩

end Storyboard.Script
