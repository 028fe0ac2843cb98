import Storyboard.Script.Token
import Storyboard.Script.Numeral
import Storyboard.Source.SyntaxError

/-!
# From text to tokens

The scanner takes one piece after the other off the front of the text: a stretch of trivia or a
token, always as long as it can be. Either the whole text is scanned or nothing of it is used.
-/

namespace Storyboard.Script

/-- Why the text at a place is not a piece. -/
inductive ScanFault where
  | unterminatedComment
  | unterminatedText
  | numberOutOfRange
  | unexpectedCharacter (c : Char)
  deriving DecidableEq, Repr

def ScanFault.message : ScanFault → String
  | .unterminatedComment => "unterminated block comment"
  | .unterminatedText => "unterminated string literal"
  | .numberOutOfRange => "number literal is out of range"
  | .unexpectedCharacter c => "unexpected character '" ++ String.singleton c ++ "'"

/-- A fault and the characters it blames. -/
structure Blamed where
  fault : ScanFault
  text : List Char
  deriving DecidableEq, Repr

/-- What the scanner takes off the front: nothing for the parser, or a token. -/
inductive Piece where
  | trivia
  | token (t : Token)
  deriving DecidableEq

/-- A piece, its characters, and the text after it. -/
structure Bite where
  piece : Piece
  text : List Char
  rest : List Char
  deriving DecidableEq

/-- Blanks are the five ASCII ones; other Unicode space is an unexpected character. -/
def isBlank (c : Char) : Bool :=
  c = ' ' || c = '\t' || c = '\n' || c = '\x0c' || c = '\r'

def isWordStart (c : Char) : Bool :=
  c.isAlpha || c = '_'

def isWordPart (c : Char) : Bool :=
  c.isAlphanum || c = '_'

/-- The text up to and with the first `*/`, and what follows. -/
def closeComment : List Char → Option (List Char × List Char)
  | '*' :: '/' :: cs => some (['*', '/'], cs)
  | c :: cs => (closeComment cs).map fun (body, rest) => (c :: body, rest)
  | [] => none

/-- A numeral, which is a duration if an `s` follows and ends the word. -/
def biteNumeral (n : Numeral) (rest : List Char) : Except Blamed Bite :=
  if !n.value.isFinite then .error ⟨.numberOutOfRange, n.text⟩
  else match rest with
    | 's' :: after =>
      if after.head?.any isWordPart then
        .ok ⟨.token (.number n.value n.isInteger), n.text, rest⟩
      else .ok ⟨.token (.duration n.value), n.text ++ ['s'], after⟩
    | _ => .ok ⟨.token (.number n.value n.isInteger), n.text, rest⟩

/-- The piece that starts with `c`. -/
def bite (c : Char) (cs : List Char) : Except Blamed Bite :=
  if isBlank c then .ok ⟨.trivia, [c], cs⟩
  else if c = '/' ∧ cs.head? = some '/' then
    .ok ⟨.trivia, c :: cs.takeWhile (· ≠ '\n'), cs.dropWhile (· ≠ '\n')⟩
  else if c = '/' ∧ cs.head? = some '*' then
    match closeComment cs.tail with
    | some (body, rest) => .ok ⟨.trivia, c :: '*' :: body, rest⟩
    | none => .error ⟨.unterminatedComment, [c, '*']⟩
  else if c = '"' then
    match cs.dropWhile (· ≠ '"') with
    | [] => .error ⟨.unterminatedText, [c]⟩
    | quote :: rest =>
      let body := cs.takeWhile (· ≠ '"')
      .ok ⟨.token (.text (String.ofList body)), c :: body ++ [quote], rest⟩
  else if isWordStart c then
    let word := c :: cs.takeWhile isWordPart
    .ok ⟨.token (.word (String.ofList word)), word, cs.dropWhile isWordPart⟩
  else match Numeral.ahead? (c :: cs) with
    | some (n, rest) => biteNumeral n rest
    | none =>
      match Mark.ofChar? c with
      | some m => .ok ⟨.token (.mark m), [c], cs⟩
      | none => .error ⟨.unexpectedCharacter c, [c]⟩

theorem closeComment_append {cs body rest : List Char} (h : closeComment cs = some (body, rest)) :
    body ++ rest = cs := by
  fun_induction closeComment cs generalizing body with
  | case1 => cases h; rfl
  | case2 c cs _ ih =>
    obtain ⟨⟨b, r⟩, hb, he⟩ := Option.map_eq_some_iff.1 h
    cases he
    simp [ih hb]
  | case3 => simp at h

theorem biteNumeral_append {n : Numeral} {rest : List Char} {b : Bite}
    (h : biteNumeral n rest = .ok b) : b.text ++ b.rest = n.text ++ rest := by
  unfold biteNumeral at h
  split at h
  · cases h
  · split at h
    · split at h <;> cases h <;> simp
    · cases h; rfl

theorem biteNumeral_text_ne_nil {n : Numeral} {rest : List Char} {b : Bite} (hn : n.text ≠ [])
    (h : biteNumeral n rest = .ok b) : b.text ≠ [] := by
  unfold biteNumeral at h
  split at h
  · cases h
  · split at h
    · split at h <;> cases h <;> simp [hn]
    · cases h; exact hn

theorem bite_append {c : Char} {cs : List Char} {b : Bite} (h : bite c cs = .ok b) :
    b.text ++ b.rest = c :: cs := by
  unfold bite at h
  split at h
  · cases h; rfl
  split at h
  · cases h; simp [List.takeWhile_append_dropWhile]
  split at h
  · rename_i star
    split at h
    · rename_i closed
      cases h
      have := closeComment_append closed
      cases cs with
      | nil => simp at star
      | cons d ds => simp_all
    · cases h
  split at h
  · split at h
    · cases h
    · rename_i quote rest cut
      cases h
      have := List.takeWhile_append_dropWhile (p := (· ≠ '"')) (l := cs)
      rw [cut] at this
      simpa using this
  split at h
  · cases h; simp [List.takeWhile_append_dropWhile]
  split at h
  · rename_i ahead
    rw [biteNumeral_append h, Numeral.ahead?_append ahead]
  · split at h <;> cases h
    rfl

theorem bite_text_ne_nil {c : Char} {cs : List Char} {b : Bite} (h : bite c cs = .ok b) :
    b.text ≠ [] := by
  unfold bite at h
  split at h
  · cases h; simp
  split at h
  · cases h; simp
  split at h
  · split at h <;> cases h
    simp
  split at h
  · split at h <;> cases h
    simp
  split at h
  · cases h; simp
  split at h
  · rename_i ahead
    exact biteNumeral_text_ne_nil (Numeral.text_ne_nil (Numeral.ahead?_whole_ne_nil ahead)) h
  · split at h <;> cases h
    simp

theorem bite_rest_lt {c : Char} {cs : List Char} {b : Bite} (h : bite c cs = .ok b) :
    b.rest.length < (c :: cs).length := by
  have whole := congrArg List.length (bite_append h)
  have := List.length_pos_iff.2 (bite_text_ne_nil h)
  simp only [List.length_append] at whole
  omega

/-- A token and the bytes it stands on. -/
structure Lexeme where
  token : Token
  span : Span
  deriving DecidableEq

/-- The lexemes of a text that starts at a byte offset, or the first fault with its span. -/
def scan (offset : Nat) (cs : List Char) : Except (ScanFault × Span) (List Lexeme) :=
  match cs with
  | [] => .ok []
  | c :: cs =>
    match _taken : bite c cs with
    | .error blamed => .error (blamed.fault, ⟨offset, offset + byteCount blamed.text⟩)
    | .ok b =>
      let next := offset + byteCount b.text
      match b.piece with
      | .trivia => scan next b.rest
      | .token t => (scan next b.rest).map (⟨t, ⟨offset, next⟩⟩ :: ·)
termination_by cs.length
decreasing_by all_goals exact bite_rest_lt _taken

/-- A scanned text: its lexemes in order, and its length in bytes. -/
structure Scanned where
  lexemes : List Lexeme
  size : Nat
  deriving DecidableEq

namespace Scanned

def tokens (s : Scanned) : List Token :=
  s.lexemes.map (·.token)

/-- The span of the token with `left` tokens from it on; with none left, the end of the text. -/
def spanFromEnd (s : Scanned) (left : Nat) : Span :=
  match s.lexemes.drop (s.lexemes.length - left) with
  | lexeme :: _ => lexeme.span
  | [] => .point s.size

end Scanned

def scanText (text : List Char) : Except SyntaxError Scanned :=
  match scan 0 text with
  | .ok lexemes => .ok ⟨lexemes, byteCount text⟩
  | .error (fault, span) => .error (.ofSpan text span fault.message)

end Storyboard.Script
