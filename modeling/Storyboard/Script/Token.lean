import Storyboard.Decimal.Text

/-!
# Tokens of a script

Words are not divided into keywords and names: which words mean something depends on the place.
-/

namespace Storyboard.Script

inductive Mark where
  | openBrace
  | closeBrace
  | openParen
  | closeParen
  | colon
  | comma
  deriving DecidableEq, Repr

namespace Mark

def toChar : Mark → Char
  | openBrace => '\x7b'
  | closeBrace => '\x7d'
  | openParen => '('
  | closeParen => ')'
  | colon => ':'
  | comma => ','

def ofChar? (c : Char) : Option Mark :=
  [openBrace, closeBrace, openParen, closeParen, colon, comma].find? (·.toChar == c)

end Mark

inductive Token where
  | word (name : String)
  /-- `integer` says that the numeral has neither a sign nor a fraction. -/
  | number (value : Float) (integer : Bool)
  | duration (secs : Float)
  | text (body : String)
  | mark (m : Mark)
  deriving DecidableEq

/-- A token as error messages name it. -/
def Token.describe : Token → String
  | .word name => "identifier `" ++ name ++ "`"
  | .number value _ => "number `" ++ messageNumber value ++ "`"
  | .duration secs => "duration `" ++ messageNumber secs ++ "s`"
  | .text body => "string \"" ++ body ++ "\""
  | .mark m => "`" ++ String.singleton m.toChar ++ "`"

/-- What is found at a place, which may be the end of the script. -/
def describeFound : Option Token → String
  | some t => t.describe
  | none => "end of input"

end Storyboard.Script
