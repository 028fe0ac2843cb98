import Storyboard.Exchange.Record
import Storyboard.Program

/-!
# Programs as JSON

`Program.toJson` writes the whole tree, `Program.ofJson?` reads it back. Reading checks the shape
only: lengths may be negative and the list of scenes empty.
-/

namespace Storyboard

def Point.toJson (p : Point) : Json :=
  .object [("x", .ofFloat p.x), ("y", .ofFloat p.y)]

def Point.ofJson? (v : Json) : Option Point := do
  let fields ← v.record? ["x", "y"]
  return ⟨← fields.read? "x" Json.double?, ← fields.read? "y" Json.double?⟩

def Canvas.toJson (c : Canvas) : Json :=
  .object [("width", .ofWord32 c.width), ("height", .ofWord32 c.height)]

def Canvas.ofJson? (v : Json) : Option Canvas := do
  let fields ← v.record? ["width", "height"]
  return ⟨← fields.read? "width" Json.word32?, ← fields.read? "height" Json.word32?⟩

def Figure.toJson : Figure → Json
  | .text content => .ofTagged "text" [("content", .string content)]
  | .circle radius => .ofTagged "circle" [("radius", .ofFloat radius)]

def Figure.ofJson? (v : Json) : Option Figure := do
  let (kind, body) ← v.tagged?
  if kind = "text" then
    let fields ← body.record? ["content"]
    return .text (← fields.read? "content" Json.text?)
  else if kind = "circle" then
    let fields ← body.record? ["radius"]
    return .circle (← fields.read? "radius" Json.double?)
  else none

def Element.toJson (e : Element) : Json :=
  .object [("id", .string e.id), ("at", e.anchor.toJson), ("kind", e.figure.toJson)]

def Element.ofJson? (v : Json) : Option Element := do
  let fields ← v.record? ["id", "at", "kind"]
  return ⟨← fields.read? "id" Json.text?, ← fields.read? "at" Point.ofJson?,
    ← fields.read? "kind" Figure.ofJson?⟩

/-- The word for a direction. -/
def Direction.word : Direction → String
  | .fadeIn => "in"
  | .fadeOut => "out"

def Direction.ofWord? (word : String) : Option Direction :=
  if word = "in" then some .fadeIn
  else if word = "out" then some .fadeOut
  else none

def Direction.toJson (d : Direction) : Json :=
  .string d.word

/-- A direction is its word, or an object with its word as the only field and nothing in it. -/
def Direction.ofJson? : Json → Option Direction
  | .string word => ofWord? word
  | .object [(word, .null)] => ofWord? word
  | .object [(word, .object [])] => ofWord? word
  | _ => none

def Command.toJson : Command → Json
  | .fade f => .ofTagged "fade" [("target", .string f.target), ("direction", f.direction.toJson),
      ("duration", .ofFloat f.duration)]

def Command.ofJson? (v : Json) : Option Command := do
  let (kind, body) ← v.tagged?
  if kind = "fade" then
    let fields ← body.record? ["target", "direction", "duration"]
    return .fade ⟨← fields.read? "target" Json.text?, ← fields.read? "direction" Direction.ofJson?,
      ← fields.read? "duration" Json.double?⟩
  else none

def Event.toJson (e : Event) : Json :=
  .object [("time", .ofFloat e.time), ("commands", .ofList Command.toJson e.commands)]

def Event.ofJson? (v : Json) : Option Event := do
  let fields ← v.record? ["time", "commands"]
  return ⟨← fields.read? "time" Json.double?,
    ← fields.read? "commands" (Json.list? Command.ofJson?)⟩

def Scene.toJson (s : Scene) : Json :=
  .object [("title", .string s.title), ("duration", .ofFloat s.duration),
    ("narration", .ofOption Json.string s.narration), ("visuals", .ofList Element.toJson s.elements),
    ("timeline", .ofList Event.toJson s.timeline)]

def Scene.ofJson? (v : Json) : Option Scene := do
  let fields ← v.record? ["title", "duration", "narration", "visuals", "timeline"]
  return ⟨← fields.read? "title" Json.text?, ← fields.read? "duration" Json.double?,
    ← fields.readOptional? "narration" Json.text?,
    ← fields.read? "visuals" (Json.list? Element.ofJson?),
    ← fields.read? "timeline" (Json.list? Event.ofJson?)⟩

def Program.toJson (p : Program) : Json :=
  .object [("video", .object [("dimensions", p.canvas.toJson)]),
    ("scenes", .ofList Scene.toJson p.scenes)]

/-- The settings of the video are a record of their own, with the canvas size in it. -/
def videoCanvas? (v : Json) : Option Canvas := do
  let fields ← v.record? ["dimensions"]
  fields.read? "dimensions" Canvas.ofJson?

def Program.ofJson? (v : Json) : Option Program := do
  let fields ← v.record? ["video", "scenes"]
  return ⟨← fields.read? "video" videoCanvas?, ← fields.read? "scenes" (Json.list? Scene.ofJson?)⟩

end Storyboard
