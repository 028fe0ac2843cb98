import Storyboard.Proofs.Script.Offending

/-!
# Mismatches behind a fault of the scanner

A text is scanned to its end before the first token is read. So a fault anywhere in it is what is
told, also when the tokens before the fault already begin no script. The mismatch is there all the
same: every text that scans and begins with those tokens is refused for it.

Main statement: the fault is the error, and where the tokens before it begin no script, the first
that no script could have there stands before the fault (`scan_fault_hides_mismatch`).
-/

namespace Storyboard.Script

/-- Some script has these tokens first. -/
def Begins (tokens : List Token) : Prop :=
  ∃ more, IsScript (tokens ++ more)

/-- Tokens that begin no script are refused for one of them, whatever comes after it. -/
theorem exists_offending {tokens : List Token} (spelled : Reader.AllSpelled tokens)
    (astray : ¬ Begins tokens) :
    ∃ used t later cause, tokens = used ++ t :: later ∧ Begins used ∧
      ∀ rest, readProgram (used ++ t :: rest) = .error ⟨cause, (t :: rest).length⟩ := by
  cases read : readProgram tokens with
  | ok p =>
    refine absurd ⟨[], ?_⟩ astray
    rw [List.append_nil]
    exact isScript_of_readProgram spelled read
  | error m =>
    obtain ⟨used, rest, rfl, -, ⟨more, p, -, added, completed⟩, again⟩ := readProgram_eq_error read
    have before : Reader.AllSpelled used := fun t listed =>
      spelled t (List.mem_append_left _ listed)
    have begun : Begins used := ⟨more, isScript_of_readProgram (before.append added) completed⟩
    cases rest with
    | nil =>
      rw [List.append_nil] at astray
      exact absurd begun astray
    | cons t later => exact ⟨used, t, later, m.cause, rfl, begun, fun rest => again _ rfl⟩

variable {used : List Token} {t : Token} {cause : Cause}

/-- A text that scans with the offending token in it has its error there. -/
theorem parse_eq_offending
    (fails : ∀ rest, readProgram (used ++ t :: rest) = .error ⟨cause, (t :: rest).length⟩)
    {source : String} {s : Scanned} (scans : scanText source.toList = .ok s)
    (starts : used ++ [t] <+: s.tokens) :
    ∃ l, s.lexemes[used.length]? = some l ∧
      parse source = .error (.ofSpan source.toList l.span cause.message) := by
  obtain ⟨rest, tokens⟩ := starts
  rw [List.append_assoc] at tokens
  have failed : readProgram s.tokens = .error ⟨cause, (t :: rest).length⟩ := by
    rw [← tokens]
    exact fails rest
  have inside : used.length < s.lexemes.length := by
    have := congrArg List.length tokens
    simp only [Scanned.tokens, List.length_append, List.length_cons, List.length_map] at this
    omega
  have here := Scanned.stops_eq tokens.symm
  rw [Scanned.stops, List.getElem?_append_left (by simpa using inside), List.getElem?_map,
    List.getElem?_eq_getElem inside] at here
  have span : s.lexemes[used.length].span = s.spanFromEnd (t :: rest).length := by
    exact congrArg Prod.snd (Option.some.inj here)
  refine ⟨_, List.getElem?_eq_getElem inside, (parse_eq_error scans).2 ⟨_, failed, ?_⟩⟩
  rw [span, Mismatch.toError]

/-- Tokens that fail whatever follows them begin no script. -/
theorem not_begins_of_offending
    (fails : ∀ rest, readProgram (used ++ t :: rest) = .error ⟨cause, (t :: rest).length⟩) :
    ¬ Begins (used ++ [t]) := by
  rintro ⟨more, source, s, p, scans, tokens, parsed⟩
  obtain ⟨l, -, refused⟩ := parse_eq_offending fails scans ⟨more, tokens.symm⟩
  cases parsed.symm.trans refused

namespace Lexed

variable {before after text : List Char} {lexemes : List Lexeme}

theorem allSpelled (lexed : Lexed before text after lexemes) :
    Reader.AllSpelled (lexemes.map Lexeme.token) := by
  intro t listed
  obtain ⟨l, inside, rfl⟩ := List.mem_map.1 listed
  obtain ⟨earlier, piece, later, -, longest⟩ := lexed.spelled l inside
  exact ⟨piece, longest.stands.spells⟩

end Lexed

/-- Lexemes end before what follows them does: the last gap is the text from the last of them to
the end. -/
theorem stop_le_of_gaps {stop : Nat} {lexemes : List Lexeme} {start : Nat}
    (forward : ∀ gap ∈ gaps start stop lexemes, gap.start ≤ gap.stop)
    (nonempty : ∀ l ∈ lexemes, l.span.start < l.span.stop) :
    start ≤ stop ∧ ∀ l ∈ lexemes, l.span.stop ≤ stop := by
  induction lexemes generalizing start with
  | nil => exact ⟨forward _ List.mem_cons_self, by simp⟩
  | cons l ls ih =>
    obtain ⟨here, later⟩ := List.forall_mem_cons.1 forward
    obtain ⟨wide, others⟩ := List.forall_mem_cons.1 nonempty
    obtain ⟨reached, ends⟩ := ih later others
    refine ⟨?_, List.forall_mem_cons.2 ⟨reached, ends⟩⟩
    exact here.trans (wide.le.trans reached)

theorem Lexed.stop_le {before text after : List Char} {lexemes : List Lexeme}
    (lexed : Lexed before text after lexemes) {l : Lexeme} (listed : l ∈ lexemes) :
    l.span.stop ≤ byteCount (before ++ text) := by
  have forward : ∀ gap ∈ gaps (byteCount before) (byteCount (before ++ text)) lexemes,
      gap.start ≤ gap.stop := by
    intro gap inside
    obtain ⟨earlier, piece, later, ⟨-, start, stop⟩, -⟩ := lexed.between gap inside
    rw [start, stop, byteCount_append]
    exact Nat.le_add_right _ _
  exact (stop_le_of_gaps forward lexed.nonempty).2 l listed

variable {source : String} {e : SyntaxError}

/-- The whole text is scanned first, so that a fault of the scanner is what is reported. -/
theorem parse_eq_fault (refused : scanText source.toList = .error e) : parse source = .error e := by
  rw [parse, parseText, refused]
  rfl

/-- The lexeme `l`, which is number `n`, is the first that no script could have there; every text
that scans and has the same tokens up to it is refused for it with this message. -/
structure Offends (lexemes : List Lexeme) (n : Nat) (l : Lexeme) (message : String) : Prop where
  here : lexemes[n]? = some l
  begun : Begins ((lexemes.take n).map Lexeme.token)
  astray : ¬ Begins ((lexemes.take (n + 1)).map Lexeme.token)
  told : ∀ other t, scanText (String.toList other) = .ok t →
    (lexemes.take (n + 1)).map Lexeme.token <+: t.tokens →
    ∃ l', t.lexemes[n]? = some l' ∧ parse other = .error (.ofSpan other.toList l'.span message)

theorem exists_offends {lexemes : List Lexeme}
    (spelled : Reader.AllSpelled (lexemes.map Lexeme.token))
    (astray : ¬ Begins (lexemes.map Lexeme.token)) :
    ∃ n l message, Offends lexemes n l message := by
  obtain ⟨used, t, later, cause, tokens, begun, fails⟩ := exists_offending spelled astray
  have earlier : (lexemes.take used.length).map Lexeme.token = used := by
    rw [List.map_take, tokens, List.take_left]
  have upTo : (lexemes.take (used.length + 1)).map Lexeme.token = used ++ [t] := by
    rw [List.map_take, tokens, List.take_length_add_append]
    rfl
  have inside : used.length < lexemes.length := by
    have := congrArg List.length tokens
    simp only [List.length_map, List.length_append, List.length_cons] at this
    omega
  refine ⟨used.length, lexemes[used.length], cause.message, List.getElem?_eq_getElem inside,
    ?_, ?_, ?_⟩
  · rw [earlier]
    exact begun
  · rw [upTo]
    exact not_begins_of_offending fails
  · rw [upTo]
    exact fun other s scans starts => parse_eq_offending fails scans starts

/-- The scanner's fault is the error of the text. Where the tokens before the fault begin no
script, one of them offends, and it ends before the error starts. -/
theorem scan_fault_hides_mismatch (refused : scanText source.toList = .error e) :
    parse source = .error e ∧
      (∃ before rest blamed lexemes fault,
        Blames source.toList e before rest blamed lexemes fault) ∧
      ∀ before rest blamed lexemes fault,
        Blames source.toList e before rest blamed lexemes fault →
        ¬ Begins (lexemes.map Lexeme.token) →
        ∃ n l message, Offends lexemes n l message ∧
          l.span.start < l.span.stop ∧ l.span.stop ≤ e.location.start.offset := by
  refine ⟨parse_eq_fault refused, blames_of_scanText refused, ?_⟩
  intro before rest blamed lexemes fault blames astray
  obtain ⟨n, l, message, offends⟩ := exists_offends blames.lexed.allSpelled astray
  have listed := List.mem_of_getElem? offends.here
  refine ⟨n, l, message, offends, blames.lexed.nonempty l listed, ?_⟩
  rw [blames.start]
  exact blames.lexed.stop_le listed

/-! A script that starts with a scene, the title of which is not closed. -/

def abrupt : String :=
  "scene\"x"

def abruptError : SyntaxError :=
  .ofSpan abrupt.toList ⟨5, 6⟩ ScanFault.unterminatedText.message

/-- The token before the title. -/
def leadingScene : Lexeme :=
  ⟨.word "scene", ⟨0, 5⟩⟩

theorem bite_leadingScene : bite 's' ['c', 'e', 'n', 'e', '"', 'x'] =
    .ok ⟨.token leadingScene.token, ['s', 'c', 'e', 'n', 'e'], ['"', 'x']⟩ := rfl

theorem bite_abrupt : bite '"' ['x'] = .error ⟨.unterminatedText, ['"']⟩ := rfl

theorem abrupt_refused : scanText abrupt.toList = .error abruptError := by
  have title : scan 5 ['"', 'x'] = .error (.unterminatedText, ⟨5, 6⟩) := by
    rw [scan]
    split
    · rename_i refused
      cases bite_abrupt.symm.trans refused
      rfl
    · rename_i taken
      cases bite_abrupt.symm.trans taken
  have whole : scan 0 abrupt.toList = .error (.unterminatedText, ⟨5, 6⟩) :=
    (scan_of_token 0 bite_leadingScene rfl).trans (congrArg (Except.map _) title)
  rw [scanText, whole]
  rfl

theorem abrupt_blames : Blames abrupt.toList abruptError ['s', 'c', 'e', 'n', 'e'] ['"', 'x']
    ['"'] [leadingScene] .unterminatedText where
  whole := rfl
  lexed :=
    have first := longest_of_bite bite_leadingScene rfl
    have runs : Runs ['"', 'x'] 0 (['s', 'c', 'e', 'n', 'e'] ++ []) [leadingScene] :=
      .token (List.cons_ne_nil _ _) first .done
    runs.lexed rfl
  fails := fails_of_bite bite_abrupt
  message := rfl
  start := rfl
  stop := rfl

theorem not_begins_scene : ¬ Begins [leadingScene.token] := by
  have fails (rest : List Token) : readProgram ([] ++ leadingScene.token :: rest) =
      .error ⟨.expected "`video` block before any scene" leadingScene.token,
        (leadingScene.token :: rest).length⟩ := rfl
  exact not_begins_of_offending fails

theorem abrupt_offends :
    parse abrupt = .error abruptError ∧ ∃ n l message,
      Offends [leadingScene] n l message ∧
      l.span.start < l.span.stop ∧ l.span.stop ≤ abruptError.location.start.offset := by
  obtain ⟨told, -, hidden⟩ := scan_fault_hides_mismatch abrupt_refused
  exact ⟨told, hidden _ _ _ _ _ abrupt_blames not_begins_scene⟩

/-- The error need not be before the fault when the tokens before it begin no script. -/
theorem fault_before_mismatch :
    ¬ ∀ source e before rest blamed lexemes fault, scanText (String.toList source) = .error e →
      Blames source.toList e before rest blamed lexemes fault →
      ¬ Begins (lexemes.map Lexeme.token) →
      ∃ e', parse source = .error e' ∧ e'.location.start.offset < e.location.start.offset := by
  intro before
  obtain ⟨e, told, earlier⟩ :=
    before _ _ _ _ _ _ _ abrupt_refused abrupt_blames not_begins_scene
  cases told.symm.trans (parse_eq_fault abrupt_refused)
  exact Nat.lt_irrefl _ earlier

end Storyboard.Script
