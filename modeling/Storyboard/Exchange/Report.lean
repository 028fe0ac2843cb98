import Storyboard.Exchange.Record
import Storyboard.Diagnostic

namespace Storyboard

def Position.toJson (p : Position) : Json :=
  .object [("line", .ofNat p.line), ("column", .ofNat p.column), ("offset", .ofNat p.offset)]

def Position.ofJson? (v : Json) : Option Position := do
  let fields ← v.record? ["line", "column", "offset"]
  let size : Json → Option Nat := Json.natural? UInt64.size
  return ⟨← fields.read? "line" size, ← fields.read? "column" size, ← fields.read? "offset" size⟩

def Location.toJson (l : Location) : Json :=
  .object [("start", l.start.toJson), ("end", l.stop.toJson)]

def Location.ofJson? (v : Json) : Option Location := do
  let fields ← v.record? ["start", "end"]
  return ⟨← fields.read? "start" Position.ofJson?, ← fields.read? "end" Position.ofJson?⟩

def SyntaxError.toJson (e : SyntaxError) : Json :=
  .object [("message", .string e.message), ("location", e.location.toJson)]

def SyntaxError.ofJson? (v : Json) : Option SyntaxError := do
  let fields ← v.record? ["message", "location"]
  return ⟨← fields.read? "message" Json.text?, ← fields.read? "location" Location.ofJson?⟩

/-- The name of a finding's kind, and its own fields. -/
def Finding.fields : Finding → Json.Fields
  | .duplicateId id => [("kind", .string "duplicate_element_id"), ("id", .string id)]
  | .unresolvedTarget target event =>
    [("kind", .string "unresolved_target"), ("target", .string target), ("event", .ofNat event)]
  | .outOfOrder event => [("kind", .string "timeline_out_of_order"), ("event", .ofNat event)]
  | .afterSceneEnd event => [("kind", .string "event_after_scene_end"), ("event", .ofNat event)]

/-- Diagnostics are all of one severity. -/
def Diagnostic.toJson (d : Diagnostic) : Json :=
  .object ([("severity", .string "warning"), ("scene", .ofNat d.scene),
    ("scene_title", .string d.sceneTitle)] ++ d.finding.fields ++ [("message", .string d.message)])

end Storyboard
