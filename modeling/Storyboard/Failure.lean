import Storyboard.Source.SyntaxError

/-!
# Failures

What can go wrong outside the grammar: a request that makes no sense, a scene that is not there, a
value that does not reach its writer, a file or writer that refuses.
-/

namespace Storyboard

inductive Failure where
  | script (error : SyntaxError)
  | validation (detail : String)
  | evaluation (detail : String)
  | serialization (detail : String)
  | transfer (detail : String)
  | other (detail : String)
  /-- The program breaks off. Nobody on the way to its end takes notice of this one. -/
  | crash (detail : String)
  deriving DecidableEq, Repr

def Failure.message : Failure → String
  | .script error => error.summary
  | .validation detail => "validation error: " ++ detail
  | .evaluation detail => "evaluation error: " ++ detail
  | .serialization detail => "serialization error: " ++ detail
  | .transfer detail => detail
  | .other detail => detail
  | .crash detail => detail

/-- A list is longer than any memory. -/
def Failure.overflow : Failure :=
  .crash "capacity overflow"

/-- The scene asked for is not one of the program's. -/
def Failure.noScene (index count : Nat) : Failure :=
  .evaluation s!"scene index {index} is out of range (program has {count} scenes)"

end Storyboard
