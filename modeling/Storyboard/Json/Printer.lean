import Storyboard.Json.Basic
import Storyboard.Decimal.Text

/-!
# Writing JSON text

The compact text is the texts of the tokens without anything between them. The pretty text puts
every item and field on a line of its own, two blanks deeper than what it belongs to.
-/

namespace Storyboard.Json

/-- Doubles in JSON: in place from `1e-5` up to `1e16`, whole numbers with `.0`. -/
def numberLayout : Layout :=
  ⟨.even, fun lead => decide (-5 ≤ lead ∧ lead ≤ 15), true⟩

def Number.text : Number → List Char
  | .int z => (if z < 0 then ['-'] else []) ++ Nat.toDigits 10 z.natAbs
  | .float x => (numberLayout.finite? x).getD ['n', 'u', 'l', 'l']

/-- A character inside a string. Quote, backslash and control characters are escaped, all else
stands for itself. -/
def escape (c : Char) : List Char :=
  if c = '"' then ['\\', '"']
  else if c = '\\' then ['\\', '\\']
  else if c = '\x08' then ['\\', 'b']
  else if c = '\t' then ['\\', 't']
  else if c = '\n' then ['\\', 'n']
  else if c = '\x0c' then ['\\', 'f']
  else if c = '\r' then ['\\', 'r']
  else if c.toNat < 0x20 then
    ['\\', 'u', '0', '0', Nat.digitChar (c.toNat / 16), Nat.digitChar (c.toNat % 16)]
  else [c]

def quote (s : String) : List Char :=
  '"' :: s.toList.flatMap escape ++ ['"']

def Token.text : Token → List Char
  | .arrayOpen => ['[']
  | .arrayClose => [']']
  | .objectOpen => ['\x7b']
  | .objectClose => ['\x7d']
  | .colon => [':']
  | .comma => [',']
  | .null => ['n', 'u', 'l', 'l']
  | .bool true => ['t', 'r', 'u', 'e']
  | .bool false => ['f', 'a', 'l', 's', 'e']
  | .number n => n.text
  | .string s => quote s

def compactText (v : Json) : List Char :=
  v.tokens.flatMap Token.text

def compact (v : Json) : String :=
  String.ofList v.compactText

/-- A new line with the blanks of its depth. -/
def newLine (depth : Nat) : List Char :=
  '\n' :: List.replicate (2 * depth) ' '

mutual
/-- The pretty text of a value that stands `depth` levels deep. -/
def prettyText (depth : Nat) : Json → List Char
  | .null => Token.text .null
  | .bool b => Token.text (.bool b)
  | .number n => Token.text (.number n)
  | .string s => Token.text (.string s)
  | .array [] => ['[', ']']
  | .array (item :: rest) =>
    '[' :: newLine (depth + 1) ++ item.prettyText (depth + 1) ++ prettyItems depth rest
  | .object [] => ['\x7b', '\x7d']
  | .object ((key, value) :: rest) =>
    '\x7b' :: newLine (depth + 1) ++ quote key ++ ':' :: ' ' :: value.prettyText (depth + 1) ++
      prettyFields depth rest

/-- The items after the first, and the closing bracket. -/
def prettyItems (depth : Nat) : List Json → List Char
  | [] => newLine depth ++ [']']
  | item :: rest =>
    ',' :: newLine (depth + 1) ++ item.prettyText (depth + 1) ++ prettyItems depth rest

/-- The fields after the first, and the closing brace. -/
def prettyFields (depth : Nat) : List (String × Json) → List Char
  | [] => newLine depth ++ ['\x7d']
  | (key, value) :: rest =>
    ',' :: newLine (depth + 1) ++ quote key ++ ':' :: ' ' :: value.prettyText (depth + 1) ++
      prettyFields depth rest
end

def pretty (v : Json) : String :=
  String.ofList (v.prettyText 0)

mutual
/-- The same value with the fields of every object in the order of their keys. -/
def sorted : Json → Json
  | .array items => .array (sortedItems items)
  | .object fields => .object ((sortedFields fields).mergeSort fun a b => decide (a.1 ≤ b.1))
  | v => v

def sortedItems : List Json → List Json
  | [] => []
  | item :: rest => item.sorted :: sortedItems rest

def sortedFields : List (String × Json) → List (String × Json)
  | [] => []
  | (key, value) :: rest => (key, value.sorted) :: sortedFields rest
end

end Storyboard.Json
