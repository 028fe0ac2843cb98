import Storyboard.Exchange.Program
import Storyboard.Sampling.Delivery

namespace Storyboard

def Rate.toJson (r : Rate) : Json :=
  .object [("num", .ofWord32 r.num), ("den", .ofWord32 r.den)]

def Rate.ofJson? (v : Json) : Option Rate := do
  let fields ← v.record? ["num", "den"]
  return ⟨← fields.read? "num" Json.word32?, ← fields.read? "den" Json.word32?⟩

def Header.fields (h : Header) : Json.Fields :=
  [("scene", .ofWord64 h.scene), ("title", .string h.title), ("canvas", h.canvas.toJson),
    ("fps", h.rate.toJson), ("frame_count", .ofWord64 h.frameCount),
    ("duration", .ofFloat h.duration), ("narration", .ofOption Json.string h.narration)]

def Header.toJson (h : Header) : Json :=
  .object h.fields

def Header.ofJson? (v : Json) : Option Header := do
  let fields ← v.record? ["scene", "title", "canvas", "fps", "frame_count", "duration", "narration"]
  return ⟨← fields.read? "scene" Json.word64?, ← fields.read? "title" Json.text?,
    ← fields.read? "canvas" Canvas.ofJson?, ← fields.read? "fps" Rate.ofJson?,
    ← fields.read? "frame_count" Json.word64?, ← fields.read? "duration" Json.double?,
    ← fields.readOptional? "narration" Json.text?⟩

def ElementState.toJson (s : ElementState) : Json :=
  .object [("id", .string s.id), ("kind", s.figure.toJson), ("opacity", .ofFloat s.opacity),
    ("position", s.position.toJson)]

def ElementState.ofJson? (v : Json) : Option ElementState := do
  let fields ← v.record? ["id", "kind", "opacity", "position"]
  return ⟨← fields.read? "id" Json.text?, ← fields.read? "kind" Figure.ofJson?,
    ← fields.read? "opacity" Json.double?, ← fields.read? "position" Point.ofJson?⟩

def Snapshot.toJson (s : Snapshot) : Json :=
  .object [("scene", .ofWord64 s.scene), ("time", .ofFloat s.time), ("canvas", s.canvas.toJson),
    ("elements", .ofList ElementState.toJson s.elements)]

def Snapshot.ofJson? (v : Json) : Option Snapshot := do
  let fields ← v.record? ["scene", "time", "canvas", "elements"]
  return ⟨← fields.read? "scene" Json.word64?, ← fields.read? "time" Json.double?,
    ← fields.read? "canvas" Canvas.ofJson?,
    ← fields.read? "elements" (Json.list? ElementState.ofJson?)⟩

def Fingerprint.toJson (f : Fingerprint) : Json :=
  .object [("hi", .ofWord64 f.hi), ("lo", .ofWord64 f.lo)]

def Fingerprint.ofJson? (v : Json) : Option Fingerprint := do
  let fields ← v.record? ["hi", "lo"]
  return ⟨← fields.read? "hi" Json.word64?, ← fields.read? "lo" Json.word64?⟩

def SampledFrame.fields (f : SampledFrame) : Json.Fields :=
  [("frame", .ofWord64 f.frame), ("fingerprint", f.fingerprint.toJson),
    ("repeats_previous", .bool f.repeatsPrevious), ("snapshot", f.snapshot.toJson)]

def SampledFrame.toJson (f : SampledFrame) : Json :=
  .object f.fields

def SampledFrame.ofJson? (v : Json) : Option SampledFrame := do
  let fields ← v.record? ["frame", "fingerprint", "repeats_previous", "snapshot"]
  return ⟨← fields.read? "frame" Json.word64?, ← fields.read? "fingerprint" Fingerprint.ofJson?,
    ← fields.read? "repeats_previous" Json.bool?, ← fields.read? "snapshot" Snapshot.ofJson?⟩

end Storyboard
