import Storyboard.Script.Event

/-!
# Scenes and whole scripts

A script is a video block and one or more scenes. Properties come in any order; of a repeated one
the last counts, and a required one that is missing is blamed on the closing brace.
-/

namespace Storyboard.Script

/-- A property of a scene with its value. -/
inductive SceneProperty where
  | duration (secs : Float)
  | narration (body : String)
  | visuals (elements : List Element)
  | timeline (events : List Event)
  deriving DecidableEq

/-- The properties read so far, each with its last value. -/
structure SceneDraft where
  duration : Option Float := none
  narration : Option String := none
  visuals : Option (List Element) := none
  timeline : Option (List Event) := none
  deriving DecidableEq

namespace SceneDraft

def put (d : SceneDraft) : SceneProperty → SceneDraft
  | .duration secs => { d with duration := some secs }
  | .narration body => { d with narration := some body }
  | .visuals elements => { d with visuals := some elements }
  | .timeline events => { d with timeline := some events }

def ofProperties (props : List SceneProperty) : SceneDraft :=
  props.foldl put {}

/-- The scene; only the duration is required. -/
def finish (d : SceneDraft) (title : String) : Except Cause Scene :=
  match d.duration with
  | none => .error (.missingDuration title)
  | some duration =>
    .ok ⟨title, duration, d.narration, d.visuals.getD [], d.timeline.getD []⟩

end SceneDraft

/-- A size in pixels, from 1 to `2 ^ 32 - 1`. -/
def pixelSize (axis : Axis) (value : Float) : Verdict UInt32 :=
  if 18446744073709551616.0 < value then .refuse .integerTooLarge
  else
    let pixels := value.toUInt64.toNat
    if pixels = 0 then .refuse (.zeroSize axis)
    else if pixels < UInt32.size then .accept (UInt32.ofNat pixels)
    else .refuse (.sizeOutOfRange axis)

namespace Reader

def size (axis : Axis) : Reader UInt32 :=
  take ("integer " ++ axis.word ++ " in pixels") fun
    | .number value true => pixelSize axis value
    | _ => .unexpected

def dimensions : Reader Canvas := do
  mark .openParen "`(` to start dimensions"
  let width ← size .width
  mark .comma "`,` between width and height"
  let height ← size .height
  mark .closeParen "`)` to close dimensions"
  return ⟨width, height⟩

def videoProperty : Reader Canvas := do
  take "video property or `\x7d`" fun
    | .word name =>
      if name = "dimensions" then .accept () else .refuse (.unknownVideoProperty name)
    | _ => .unexpected
  colonAfter "dimensions"
  dimensions

theorem dimensions_progresses : Progresses dimensions :=
  (mark_progresses _ _).andThen fun _ => (take_progresses _ _).andThen fun _ =>
    (mark_progresses _ _).andThen fun _ => (take_progresses _ _).andThen fun _ =>
      (mark_progresses _ _).bind fun _ => pure_shrinks _

theorem videoProperty_progresses : Progresses videoProperty :=
  (take_progresses _ _).andThen fun _ => (mark_progresses _ _).andThen fun _ =>
    dimensions_progresses

/-- The canvas of the last `dimensions`. -/
def lastCanvas (sizes : List Canvas) : Except Cause Canvas :=
  match sizes.getLast? with
  | some canvas => .ok canvas
  | none => .error .missingDimensions

def video : Reader Canvas := do
  keyword "video" "`video` block before any scene"
  mark .openBrace "`\x7b` to open the video block"
  let sizes ← repeatUntil atCloseBrace videoProperty videoProperty_progresses
  close .closeBrace "`\x7d` to close the video block" (lastCanvas sizes)

inductive SceneWord where
  | duration
  | narration
  | visuals
  | timeline
  deriving DecidableEq, Repr

def SceneWord.word : SceneWord → String
  | .duration => "duration"
  | .narration => "narration"
  | .visuals => "visuals"
  | .timeline => "timeline"

def sceneWord : Reader SceneWord :=
  take "scene property or `\x7d`" fun
    | .word name =>
      match [SceneWord.duration, .narration, .visuals, .timeline].find? (·.word == name) with
      | some w => .accept w
      | none => .refuse (.unknownSceneProperty name)
    | _ => .unexpected

def sceneValue : SceneWord → Reader SceneProperty
  | .duration => return .duration (← duration "duration such as `5s`" "scene duration")
  | .narration => return .narration (← text "quoted narration text")
  | .visuals => return .visuals (← visuals)
  | .timeline => return .timeline (← timeline)

def sceneProperty : Reader SceneProperty := do
  let w ← sceneWord
  colonAfter w.word
  sceneValue w

theorem sceneValue_progresses (w : SceneWord) : Progresses (sceneValue w) := by
  cases w with
  | duration => exact (duration_progresses _ _).bind fun _ => pure_shrinks _
  | narration => exact (text_progresses _).bind fun _ => pure_shrinks _
  | visuals => exact visuals_progresses.bind fun _ => pure_shrinks _
  | timeline => exact timeline_progresses.bind fun _ => pure_shrinks _

theorem sceneProperty_progresses : Progresses sceneProperty :=
  (take_progresses _ _).andThen fun _ => (mark_progresses _ _).andThen fun _ =>
    sceneValue_progresses _

def scene : Reader Scene := do
  keyword "scene" "`scene` block"
  let title ← text "quoted scene title"
  mark .openBrace "`\x7b` to open the scene body"
  let props ← repeatUntil atCloseBrace sceneProperty sceneProperty_progresses
  close .closeBrace "`\x7d` to close the scene body" ((SceneDraft.ofProperties props).finish title)

theorem video_progresses : Progresses video :=
  (keyword_progresses _ _).andThen fun _ => (mark_progresses _ _).bind fun _ =>
    (repeatUntil_shrinks _ _ _).bind fun _ => (take_progresses _ _).shrinks

theorem scene_progresses : Progresses scene :=
  (keyword_progresses _ _).andThen fun _ => (text_progresses _).andThen fun _ =>
    (mark_progresses _ _).bind fun _ => (repeatUntil_shrinks _ _ _).bind fun _ =>
      (take_progresses _ _).shrinks

/-- The whole script, to its end. -/
def program : Reader Program := do
  let canvas ← video
  let scenes ← repeatUntil Option.isNone scene scene_progresses
  if scenes.isEmpty then
    take "at least one `scene` block" fun _ => .unexpected
  return ⟨canvas, scenes⟩

end Reader
end Storyboard.Script
