import Storyboard.Script.Reader
import Storyboard.Program

/-!
# Elements of a script

`text(id: "t", at: (0, 0), content: "hi")` and `circle(id: "c", at: (0, 0), radius: 50)`. Arguments
come in any order; of a repeated one the last counts.
-/

namespace Storyboard.Script
namespace Reader

def mark (m : Mark) (construct : String) : Reader Unit :=
  take construct fun t => if t = .mark m then .accept () else .unexpected

def keyword (name construct : String) : Reader Unit :=
  take construct fun t => if t = .word name then .accept () else .unexpected

def text (construct : String) : Reader String :=
  take construct fun
    | .text body => .accept body
    | _ => .unexpected

def number (construct : String) : Reader Float :=
  take construct fun
    | .number value _ => .accept value
    | _ => .unexpected

/-- A duration that may be zero but not less; `what` names it in the refusal. -/
def duration (construct what : String) : Reader Float :=
  take construct fun
    | .duration secs => if secs < 0.0 then .refuse (.negative what) else .accept secs
    | _ => .unexpected

def colonAfter (name : String) : Reader Unit :=
  mark .colon ("`:` after " ++ ticked name)

def point : Reader Point := do
  mark .openParen "`(` to start a point"
  let x ← number "x coordinate"
  mark .comma "`,` between coordinates"
  let y ← number "y coordinate"
  mark .closeParen "`)` to close a point"
  return ⟨x, y⟩

def radius : Reader Float :=
  take "radius number" fun
    | .number value _ => if value ≤ 0.0 then .refuse .radiusNotPositive else .accept value
    | _ => .unexpected

end Reader

/-- An argument of an element with its value. -/
inductive Argument where
  | id (name : String)
  | anchor (p : Point)
  | content (body : String)
  | radius (r : Float)
  deriving DecidableEq

/-- The arguments read so far, each with its last value. -/
structure ElementDraft where
  id : Option String := none
  anchor : Option Point := none
  content : Option String := none
  radius : Option Float := none
  deriving DecidableEq

namespace ElementDraft

def put (d : ElementDraft) : Argument → ElementDraft
  | .id name => { d with id := some name }
  | .anchor p => { d with anchor := some p }
  | .content body => { d with content := some body }
  | .radius r => { d with radius := some r }

def ofArguments (args : List Argument) : ElementDraft :=
  args.foldl put {}

/-- The value of an argument, which must be there. -/
def require {α : Type} (shape : Shape) (a : ArgumentName) : Option α → Except Cause α
  | some value => .ok value
  | none => .error (.missingArgument shape a)

def figure (d : ElementDraft) : Shape → Except Cause Figure
  | .text => (require .text .content d.content).map .text
  | .circle => (require .circle .radius d.radius).map .circle

/-- The element, or the first required argument that is missing. -/
def finish (d : ElementDraft) (shape : Shape) : Except Cause Element := do
  let id ← require shape .id d.id
  let anchor ← require shape .anchor d.anchor
  let figure ← d.figure shape
  return ⟨id, anchor, figure⟩

end ElementDraft

namespace Reader

/-- A closing bracket that is blamed for what is missing before it. -/
def close {α : Type} (m : Mark) (construct : String) (result : Except Cause α) : Reader α :=
  take construct fun t =>
    if t = .mark m then
      match result with
      | .ok a => .accept a
      | .error cause => .refuse cause
    else .unexpected

def shape : Reader Shape :=
  take "visual element (`text` or `circle`) or `\x7d`" fun
    | .word name => if name = "text" then .accept .text
      else if name = "circle" then .accept .circle
      else .unexpected
    | _ => .unexpected

def argumentName (shape : Shape) : Reader ArgumentName :=
  take "argument name" fun
    | .word name => match shape.argument? name with
      | some a => .accept a
      | none => .refuse (.unknownArgument shape name)
    | _ => .unexpected

def argumentValue : ArgumentName → Reader Argument
  | .id => return .id (← text "quoted element id")
  | .anchor => return .anchor (← point)
  | .content => return .content (← text "quoted text content")
  | .radius => return .radius (← radius)

def argument (shape : Shape) : Reader Argument := do
  let name ← argumentName shape
  colonAfter name.word
  argumentValue name

theorem mark_progresses (m : Mark) (construct : String) : Progresses (mark m construct) :=
  take_progresses _ _

theorem text_progresses (construct : String) : Progresses (text construct) :=
  take_progresses _ _

theorem number_progresses (construct : String) : Progresses (number construct) :=
  take_progresses _ _

theorem point_progresses : Progresses point :=
  (mark_progresses _ _).andThen fun _ => (number_progresses _).andThen fun _ =>
    (mark_progresses _ _).andThen fun _ => (number_progresses _).andThen fun _ =>
      (mark_progresses _ _).bind fun _ => pure_shrinks _

theorem argumentValue_progresses (name : ArgumentName) : Progresses (argumentValue name) := by
  cases name with
  | id => exact (text_progresses _).bind fun _ => pure_shrinks _
  | anchor => exact point_progresses.bind fun _ => pure_shrinks _
  | content => exact (text_progresses _).bind fun _ => pure_shrinks _
  | radius => exact (take_progresses _ _).bind fun _ => pure_shrinks _

theorem argument_progresses (shape : Shape) : Progresses (argument shape) :=
  (take_progresses _ _).andThen fun _ =>
    (mark_progresses _ _).andThen fun _ => argumentValue_progresses _

def element : Reader Element := do
  let shape ← shape
  mark .openParen ("`(` after " ++ ticked shape.keyword)
  let args ← separated .closeParen (argument shape) (argument_progresses shape)
  close .closeParen "`,` or `)` in element arguments" ((ElementDraft.ofArguments args).finish shape)

theorem element_progresses : Progresses element :=
  (take_progresses _ _).andThen fun _ => (mark_progresses _ _).bind fun _ =>
    (separated_shrinks _ _ _).bind fun _ => (take_progresses _ _).shrinks

end Reader
end Storyboard.Script
