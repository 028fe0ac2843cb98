import Storyboard.Script.Element

/-!
# Events of a script

`at 1.5s { fade("c", in, duration: 1s) }`. Commas after commands and events are optional.
-/

namespace Storyboard.Script.Reader

def direction : Reader Direction :=
  take "fade direction `in` or `out`" fun
    | .word name => if name = "in" then .accept .fadeIn
      else if name = "out" then .accept .fadeOut
      else .unexpected
    | _ => .unexpected

def fade : Reader Fade := do
  keyword "fade" "animation command (`fade`) or `\x7d`"
  mark .openParen "`(` after `fade`"
  let target ← text "quoted target element id"
  mark .comma "`,` after the fade target"
  let direction ← direction
  mark .comma "`,` after the fade direction"
  keyword "duration" "`duration` argument"
  colonAfter "duration"
  let duration ← duration "fade duration such as `1s`" "fade duration"
  skipComma
  mark .closeParen "`)` to close `fade`"
  return ⟨target, direction, duration⟩

/-- A command and the comma that may follow it. -/
def command : Reader Command := do
  let f ← fade
  skipComma
  return .fade f

theorem keyword_progresses (name construct : String) : Progresses (keyword name construct) :=
  take_progresses _ _

theorem duration_progresses (construct what : String) : Progresses (duration construct what) :=
  take_progresses _ _

theorem fade_progresses : Progresses fade :=
  (keyword_progresses _ _).andThen fun _ => (mark_progresses _ _).andThen fun _ =>
    (text_progresses _).andThen fun _ => (mark_progresses _ _).andThen fun _ =>
      (take_progresses _ _).andThen fun _ => (mark_progresses _ _).andThen fun _ =>
        (keyword_progresses _ _).andThen fun _ => (mark_progresses _ _).andThen fun _ =>
          (duration_progresses _ _).bind fun _ => skipComma_shrinks.bind fun _ =>
            (mark_progresses _ _).shrinks.bind fun _ => pure_shrinks _

theorem command_progresses : Progresses command :=
  fade_progresses.bind fun _ => skipComma_shrinks.bind fun _ => pure_shrinks _

/-- The next token closes a block. -/
def atCloseBrace (next : Option Token) : Bool :=
  next = some (.mark .closeBrace)

/-- Items up to the closing brace, which is taken too. -/
def block {α : Type} (what : String) (item : Reader α) (progress : Progresses item) :
    Reader (List α) := do
  mark .openBrace ("`\x7b` to open the " ++ what)
  let items ← repeatUntil atCloseBrace item progress
  mark .closeBrace ("`\x7d` to close the " ++ what)
  return items

theorem block_progresses {α : Type} (what : String) (item : Reader α)
    (progress : Progresses item) : Progresses (block what item progress) :=
  (mark_progresses _ _).bind fun _ => (repeatUntil_shrinks _ _ _).bind fun _ =>
    (mark_progresses _ _).shrinks.bind fun _ => pure_shrinks _

/-- An event and the comma that may follow it. -/
def event : Reader Event := do
  keyword "at" "time trigger (`at <time>s \x7b ... \x7d`) or `\x7d`"
  let time ← duration "trigger time such as `1s`" "trigger time"
  let commands ← block "trigger body" command command_progresses
  skipComma
  return ⟨time, commands⟩

theorem event_progresses : Progresses event :=
  (keyword_progresses _ _).andThen fun _ => (duration_progresses _ _).andThen fun _ =>
    (block_progresses _ _ _).bind fun _ => skipComma_shrinks.bind fun _ => pure_shrinks _

def timeline : Reader (List Event) :=
  block "timeline block" event event_progresses

theorem timeline_progresses : Progresses timeline :=
  block_progresses _ _ _

/-- An element and the comma that may follow it. -/
def visual : Reader Element := do
  let e ← element
  skipComma
  return e

theorem visual_progresses : Progresses visual :=
  element_progresses.bind fun _ => skipComma_shrinks.bind fun _ => pure_shrinks _

def visuals : Reader (List Element) :=
  block "visuals block" visual visual_progresses

theorem visuals_progresses : Progresses visuals :=
  block_progresses _ _ _

end Storyboard.Script.Reader
