import Storyboard.Source.Position
import Storyboard.Source.Line

/-!
# Syntax errors and how they are shown

A script that cannot be read has exactly one error. `SyntaxError.report` shows the line it stands
on and underlines the offending text.
-/

namespace Storyboard

structure SyntaxError where
  message : String
  location : Location
  deriving DecidableEq, Repr

namespace SyntaxError

/-- An error at a span of the text. -/
def ofSpan (text : List Char) (span : Span) (message : String) : SyntaxError :=
  ⟨message, Location.ofSpan text span⟩

def summary (e : SyntaxError) : String :=
  s!"syntax error at {e.location.start.line}:{e.location.start.column}: {e.message}"

/-- The line of the text that the error starts on; empty if there is none. -/
def sourceLine (e : SyntaxError) (text : List Char) : List Char :=
  ((lines text)[e.location.start.line - 1]?).getD []

/-- How many characters are underlined: the offending ones on the shown line, at least one. -/
def caretCount (e : SyntaxError) (text : List Char) : Nat :=
  let start := e.location.start
  let stop := e.location.stop
  if stop.line = start.line then max 1 (stop.column - start.column)
  else max 1 ((e.sourceLine text).length - (start.column - 1))

/-- The report for a reader; `origin` names the script. -/
def report (e : SyntaxError) (text : List Char) (origin : String) : String :=
  let start := e.location.start
  let line := toString start.line
  let gutter := String.ofList (List.replicate line.length ' ')
  let indent := String.ofList (List.replicate (start.column - 1) ' ')
  let carets := String.ofList (List.replicate (e.caretCount text) '^')
  s!"error: {e.message}\n" ++
  s!"{gutter}--> {origin}:{start.line}:{start.column}\n" ++
  s!"{gutter} |\n" ++
  s!"{line} | {String.ofList (e.sourceLine text)}\n" ++
  s!"{gutter} | {indent}{carets}\n"

end SyntaxError
end Storyboard
