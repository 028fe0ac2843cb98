import Storyboard.Exchange.Sampling
import Storyboard.Json.Printer
import Storyboard.Json.Reader

/-!
# Frames as lines of JSON

A header and a frame are one line each, told apart by the field `type`. The end of a scene writes
nothing, but what was written is pushed through to where it is kept.
-/

namespace Storyboard

/-- Where bytes go, with effects in `m`. A refusal says why. -/
structure Writer (m : Type → Type) where
  write : ByteArray → ExceptT String m Unit
  flush : ExceptT String m Unit

/-- The object on the line of a delivery. -/
def Delivery.line? : Delivery → Option Json
  | .header h => some (.ofTagged "scene" h.fields)
  | .frame f => some (.ofTagged "frame" f.fields)
  | .sceneEnd => none

/-- The delivery that a line is of. -/
def Delivery.ofLine? (v : Json) : Option Delivery := do
  let (kind, body) ← v.tagged?
  if kind = "scene" then return .header (← Header.ofJson? body)
  else if kind = "frame" then return .frame (← SampledFrame.ofJson? body)
  else none

namespace Writer

variable {m : Type → Type} [Monad m]

/-- Runs an action of a writer and gives its refusal a cause. -/
def attempt (cause : String → Failure) (action : ExceptT String m Unit) : ExceptT Failure m Unit :=
  action.adapt cause

/-- Writes a line. A refusal within the object and one at the end of the line have causes of their
own. -/
def writeLine (w : Writer m) (v : Json) : ExceptT Failure m Unit := do
  attempt .serialization (w.write v.compact.toUTF8)
  attempt .transfer (w.write "\n".toUTF8)

/-- A sink that writes a line for every header and frame. -/
def lines (w : Writer m) : Sink m := fun d =>
  match d.line? with
  | some v => w.writeLine v
  | none => attempt .transfer w.flush

end Writer
end Storyboard
