import Storyboard.Json.Basic
import Storyboard.Decimal.Basic

/-!
# Reading JSON text

The text is first cut into tokens. The tokens are then taken one by one by a machine that keeps the
containers that are still open.
-/

namespace Storyboard.Json

def hexDigit? (c : Char) : Option Nat :=
  if c.isDigit then some (c.toNat - '0'.toNat)
  else if 'a' ≤ c ∧ c ≤ 'f' then some (c.toNat - 'a'.toNat + 10)
  else if 'A' ≤ c ∧ c ≤ 'F' then some (c.toNat - 'A'.toNat + 10)
  else none

/-- The number that four hexadecimal digits spell. -/
def hexUnit? (a b c d : Char) : Option Nat := do
  return ((← hexDigit? a) * 16 + (← hexDigit? b)) * 256 + ((← hexDigit? c) * 16 + (← hexDigit? d))

/-- The character of a unit that is not half of a pair. -/
def unitChar? (n : Nat) : Option Char :=
  if h : n.isValidChar then some (Char.ofNatAux n h) else none

/-- The character of a high and a low half. -/
def pairChar? (high low : Nat) : Option Char :=
  if 0xD800 ≤ high ∧ high < 0xDC00 ∧ 0xDC00 ≤ low ∧ low < 0xE000 then
    unitChar? (0x10000 + (high - 0xD800) * 0x400 + (low - 0xDC00))
  else none

/-- What a backslash and the next character stand for, the `u` escapes apart. -/
def shortEscape? : Char → Option Char
  | '"' => some '"'
  | '\\' => some '\\'
  | '/' => some '/'
  | 'b' => some '\x08'
  | 'f' => some '\x0c'
  | 'n' => some '\n'
  | 'r' => some '\r'
  | 't' => some '\t'
  | _ => none

/-- Puts a character in front of what was read. -/
def inFront (c : Char) (read : Option (List Char × List Char)) : Option (List Char × List Char) :=
  read.map fun p => (c :: p.1, p.2)

theorem inFront_eq_some {c : Char} {read : Option (List Char × List Char)}
    {body rest : List Char} :
    inFront c read = some (body, rest) ↔ ∃ b, read = some (b, rest) ∧ c :: b = body := by
  cases read with
  | none => simp [inFront]
  | some p =>
    obtain ⟨b, r⟩ := p
    constructor
    · intro h
      cases h
      exact ⟨b, rfl, rfl⟩
    · rintro ⟨_, h, rfl⟩
      cases h
      rfl

/-- The characters up to the closing quote, and what follows it. -/
def stringBody? : List Char → Option (List Char × List Char)
  | '"' :: rest => some ([], rest)
  | '\\' :: 'u' :: a :: b :: c :: d :: rest =>
    match hexUnit? a b c d with
    | none => none
    | some unit =>
      match unitChar? unit with
      | some ch => inFront ch (stringBody? rest)
      | none =>
        match rest with
        | '\\' :: 'u' :: a :: b :: c :: d :: rest =>
          match (hexUnit? a b c d).bind (pairChar? unit) with
          | some ch => inFront ch (stringBody? rest)
          | none => none
        | _ => none
  | '\\' :: c :: rest =>
    match shortEscape? c with
    | some ch => inFront ch (stringBody? rest)
    | none => none
  | c :: rest =>
    if c.toNat < 0x20 then none
    else inFront c (stringBody? rest)
  | [] => none

/-- The digits after a point, which must be there; no digits if there is no point. -/
def fraction? : List Char → Option (List Char × List Char)
  | '.' :: cs =>
    if (cs.takeWhile Char.isDigit).isEmpty then none
    else some (cs.takeWhile Char.isDigit, cs.dropWhile Char.isDigit)
  | cs => some ([], cs)

/-- A row of digits as a number: whole if a 64-bit word holds it, else a double. -/
def wholeNumber (negative : Bool) (n : Nat) : Number :=
  if negative then
    if 0 < n ∧ n ≤ UInt64.size / 2 then .int (-n) else .float (signedFloat true ⟨n, 0⟩)
  else if n < UInt64.size then .int n
  else .float (signedFloat false ⟨n, 0⟩)

/-- The number spelled by a row of characters, if it is one and a double can hold it. -/
def number? (cs : List Char) : Option Number :=
  let negative := cs.head? = some '-'
  let body := if negative then cs.tail else cs
  let whole := body.takeWhile Char.isDigit
  let after := body.dropWhile Char.isDigit
  if whole.isEmpty || (1 < whole.length && whole.head? = some '0') then none
  else if after.isEmpty then
    let n := wholeNumber negative (Decimal.ofDigits whole)
    match n with
    | .float x => if x.isFinite then some n else none
    | .int _ => some n
  else do
    let (fraction, after) ← fraction? after
    let power ← Decimal.power? after
    let x := signedFloat negative (Decimal.ofParts whole fraction power)
    if x.isFinite then some (.float x) else none

def isSpace (c : Char) : Bool :=
  c = ' ' || c = '\n' || c = '\t' || c = '\r'

def isNumeralChar (c : Char) : Bool :=
  c.isDigit || c = '-' || c = '+' || c = '.' || c = 'e' || c = 'E'

/-- The token that starts with `c`, and what follows it. -/
def token? (c : Char) (cs : List Char) : Option (Token × List Char) :=
  match c, cs with
  | '[', cs => some (.arrayOpen, cs)
  | ']', cs => some (.arrayClose, cs)
  | '\x7b', cs => some (.objectOpen, cs)
  | '\x7d', cs => some (.objectClose, cs)
  | ':', cs => some (.colon, cs)
  | ',', cs => some (.comma, cs)
  | '"', cs => (stringBody? cs).map fun (body, rest) => (.string (String.ofList body), rest)
  | 'n', 'u' :: 'l' :: 'l' :: cs => some (.null, cs)
  | 't', 'r' :: 'u' :: 'e' :: cs => some (.bool true, cs)
  | 'f', 'a' :: 'l' :: 's' :: 'e' :: cs => some (.bool false, cs)
  | c, cs =>
    (number? (c :: cs.takeWhile isNumeralChar)).map fun n => (.number n, cs.dropWhile isNumeralChar)

theorem stringBody?_rest_le {cs body rest : List Char} (h : stringBody? cs = some (body, rest)) :
    rest.length ≤ cs.length := by
  fun_induction stringBody? cs generalizing body <;>
    simp only [inFront_eq_some, Option.some.injEq, Prod.mk.injEq, reduceCtorEq] at h <;>
    simp only [List.length_cons] <;> grind

theorem token?_rest_le {c : Char} {cs rest : List Char} {t : Token}
    (h : token? c cs = some (t, rest)) : rest.length ≤ cs.length := by
  unfold token? at h
  split at h
  case h_7 =>
    obtain ⟨⟨body, rest⟩, body?, eq⟩ := Option.map_eq_some_iff.1 h
    cases eq
    exact stringBody?_rest_le body?
  case h_11 =>
    obtain ⟨n, _, eq⟩ := Option.map_eq_some_iff.1 h
    cases eq
    exact (List.dropWhile_sublist _).length_le
  case h_8 | h_9 | h_10 =>
    cases h
    simp only [List.length_cons]
    omega
  all_goals
    cases h
    exact Nat.le_refl _

/-- The tokens of a text, with blanks between them left out. -/
def tokenize? (cs : List Char) : Option (List Token) :=
  match cs with
  | [] => some []
  | c :: cs =>
    if isSpace c then tokenize? cs
    else match _taken : token? c cs with
      | none => none
      | some (t, rest) => (tokenize? rest).map (t :: ·)
termination_by cs.length
decreasing_by
  · simp
  · exact Nat.lt_succ_of_le (token?_rest_le _taken)

/-- A container that is still open. An object waits for the value of its last key. Items and fields
are kept with the last one first. -/
inductive Pending where
  | items (before : List Json)
  | fields (before : List (String × Json)) (key : String)

/-- What the machine waits for, inside the containers of `outer`. -/
inductive Await where
  | value (outer : List Pending)
  | firstItem (outer : List Pending)
  | firstKey (outer : List Pending)
  | key (outer : List Pending) (before : List (String × Json))
  | colon (outer : List Pending) (before : List (String × Json)) (key : String)
  /-- A value is complete: a comma or the end of its container. -/
  | after (outer : List Pending) (v : Json)

/-- The first token of a value. -/
def Await.start (outer : List Pending) : Token → Option Await
  | .arrayOpen => some (.firstItem outer)
  | .objectOpen => some (.firstKey outer)
  | .null => some (.after outer .null)
  | .bool b => some (.after outer (.bool b))
  | .number n => some (.after outer (.number n))
  | .string s => some (.after outer (.string s))
  | _ => none

def Await.step : Await → Token → Option Await
  | .value outer, t => start outer t
  | .firstItem outer, .arrayClose => some (.after outer (.array []))
  | .firstItem outer, t => start (.items [] :: outer) t
  | .firstKey outer, .objectClose => some (.after outer (.object []))
  | .firstKey outer, .string name => some (.colon outer [] name)
  | .key outer before, .string name => some (.colon outer before name)
  | .colon outer before name, .colon => some (.value (.fields before name :: outer))
  | .after (.items before :: outer) v, .comma => some (.value (.items (v :: before) :: outer))
  | .after (.items before :: outer) v, .arrayClose =>
    some (.after outer (.array (v :: before).reverse))
  | .after (.fields before name :: outer) v, .comma => some (.key outer ((name, v) :: before))
  | .after (.fields before name :: outer) v, .objectClose =>
    some (.after outer (.object ((name, v) :: before).reverse))
  | _, _ => none

/-- The value that a row of tokens spells. -/
def ofTokens? (ts : List Token) : Option Json :=
  match ts.foldlM Await.step (.value []) with
  | some (.after [] v) => some v
  | _ => none

/-- The value that a text spells. -/
def parse? (text : List Char) : Option Json := do
  ofTokens? (← tokenize? text)

end Storyboard.Json
