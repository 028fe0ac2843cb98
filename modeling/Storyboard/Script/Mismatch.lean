import Storyboard.Script.Token

/-!
# Mismatches

Reading a script stops at the first token that no script could have there. A mismatch says what is
wrong with that token and how many tokens are left from it on.
-/

namespace Storyboard.Script

/-- The two shapes an element can be declared with. -/
inductive Shape where
  | text
  | circle
  deriving DecidableEq, Repr

def Shape.keyword : Shape → String
  | .text => "text"
  | .circle => "circle"

inductive ArgumentName where
  | id
  | anchor
  | content
  | radius
  deriving DecidableEq, Repr

def ArgumentName.word : ArgumentName → String
  | .id => "id"
  | .anchor => "at"
  | .content => "content"
  | .radius => "radius"

/-- The arguments a shape takes, all of them required. -/
def Shape.arguments : Shape → List ArgumentName
  | .text => [.id, .anchor, .content]
  | .circle => [.id, .anchor, .radius]

/-- The argument of the shape that a word names. -/
def Shape.argument? (shape : Shape) (name : String) : Option ArgumentName :=
  shape.arguments.find? (·.word == name)

inductive Axis where
  | width
  | height
  deriving DecidableEq, Repr

def Axis.word : Axis → String
  | .width => "width"
  | .height => "height"

/-- What is wrong with a token. -/
inductive Cause where
  | expected (construct : String) (found : Option Token)
  | unknownVideoProperty (name : String)
  | unknownSceneProperty (name : String)
  | unknownArgument (shape : Shape) (name : String)
  | missingDimensions
  | missingDuration (title : String)
  | missingArgument (shape : Shape) (argument : ArgumentName)
  | integerTooLarge
  | zeroSize (axis : Axis)
  | sizeOutOfRange (axis : Axis)
  | negative (what : String)
  | radiusNotPositive
  deriving DecidableEq

/-- A word between backticks. -/
def ticked (word : String) : String :=
  "`" ++ word ++ "`"

def Cause.message : Cause → String
  | .expected construct found => "expected " ++ construct ++ ", found " ++ describeFound found
  | .unknownVideoProperty name =>
    "unknown video property " ++ ticked name ++ "; expected `dimensions`"
  | .unknownSceneProperty name =>
    "unknown scene property " ++ ticked name ++
      "; expected one of `duration`, `narration`, `visuals`, `timeline`"
  | .unknownArgument shape name =>
    "unknown argument " ++ ticked name ++ " for " ++ ticked shape.keyword ++ "; expected one of " ++
      ", ".intercalate (shape.arguments.map fun a => ticked a.word)
  | .missingDimensions => "video block is missing required property `dimensions`"
  | .missingDuration title =>
    "scene \"" ++ title ++ "\" is missing required property `duration`"
  | .missingArgument shape argument =>
    ticked shape.keyword ++ " is missing required argument " ++ ticked argument.word
  | .integerTooLarge => "integer literal is too large"
  | .zeroSize axis => axis.word ++ " must be > 0"
  | .sizeOutOfRange axis => axis.word ++ " is out of range"
  | .negative what => what ++ " must not be negative"
  | .radiusNotPositive => "circle radius must be > 0"

structure Mismatch where
  cause : Cause
  /-- The tokens from the offending one on; 0 at the end of the script. -/
  left : Nat
  deriving DecidableEq

end Storyboard.Script
