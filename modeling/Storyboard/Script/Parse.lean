import Storyboard.Script.Lexeme
import Storyboard.Script.Scene

/-!
# Parsing a script

The whole text is scanned before any token is read, so a text that does not scan is reported as
such wherever else it goes wrong.
-/

namespace Storyboard.Script

/-- The program of a row of tokens. -/
def readProgram (tokens : List Token) : Except Mismatch Program :=
  (Reader.program tokens).map (·.1)

/-- The error for a mismatch in a scanned text: it stands on the first token not taken. -/
def Mismatch.toError (text : List Char) (scanned : Scanned) (m : Mismatch) : SyntaxError :=
  .ofSpan text (scanned.spanFromEnd m.left) m.cause.message

def parseText (text : List Char) : Except SyntaxError Program := do
  let scanned ← scanText text
  (readProgram scanned.tokens).mapError (Mismatch.toError text scanned)

/-- The program that a script says, or its one syntax error. -/
def parse (source : String) : Except SyntaxError Program :=
  parseText source.toList

end Storyboard.Script
