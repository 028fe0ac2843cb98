import Storyboard.FramePlan

/-!
# Diagnostics

Findings about a program that can be evaluated but may not do what its author meant. They are
advisory: evaluation never looks at them.
-/

namespace Storyboard

inductive Finding where
  | duplicateId (id : String)
  | unresolvedTarget (target : String) (event : Nat)
  | outOfOrder (event : Nat)
  | afterSceneEnd (event : Nat)
  deriving DecidableEq, Repr

structure Diagnostic where
  scene : Nat
  sceneTitle : String
  finding : Finding
  message : String
  deriving DecidableEq, Repr

/-- A finding with its message, not yet tied to a scene. -/
abbrev Remark := Finding × String

/-- Seconds as diagnostics show them. -/
def secondsText (t : Float) : String :=
  messageNumber t ++ "s"

namespace Scene

/-- How many elements of the scene have the id. -/
def declarations (s : Scene) (id : String) : Nat :=
  s.elements.countP (·.id == id)

/-- The ids declared more than once, each once, in the order of their characters. -/
def repeatedIds (s : Scene) : List String :=
  ((s.elements.map (·.id)).eraseDups.filter fun id => 1 < s.declarations id).mergeSort
    fun a b => decide (a ≤ b)

def duplicateRemarks (s : Scene) : List Remark :=
  s.repeatedIds.map fun id =>
    (.duplicateId id,
      s!"element id \"{id}\" is declared {s.declarations id} times; fades affect only the last one")

/-- What is remarked about one event, after events whose greatest time is `latest`. -/
def eventRemarks (s : Scene) (latest : Float) (index : Nat) (e : Event) : List Remark :=
  let order : List Remark :=
    if e.time < latest then
      [(.outOfOrder index, "event at " ++ secondsText e.time ++
        " is declared after an event at " ++ secondsText latest ++
        "; events apply in declaration order")]
    else []
  let overrun : List Remark :=
    if s.duration < e.time then
      [(.afterSceneEnd index, "event at " ++ secondsText e.time ++
        " starts after the scene's declared duration of " ++ secondsText s.duration)]
    else []
  let dangling : List Remark :=
    (e.commands.filter fun c => !s.declares c.target).map fun c =>
      (.unresolvedTarget c.target index,
        s!"fade target \"{c.target}\" does not match any element in this scene")
  order ++ overrun ++ dangling

/-- The remarks about the events from `index` on, after events whose greatest time is `latest`. -/
def timelineRemarks (s : Scene) (latest : Float) (index : Nat) : List Event → List Remark
  | [] => []
  | e :: rest =>
    s.eventRemarks latest index e ++ s.timelineRemarks (greater latest e.time) (index + 1) rest

/-- What is remarked about a scene: first its ids, then its events in order. -/
def remarks (s : Scene) : List Remark :=
  s.duplicateRemarks ++ s.timelineRemarks (-1.0 / 0.0) 0 s.timeline

end Scene

/-- The findings about every scene, in playback order. -/
def Program.diagnostics (p : Program) : List Diagnostic :=
  p.scenes.zipIdx.flatMap fun (s, index) =>
    s.remarks.map fun (finding, message) => ⟨index, s.title, finding, message⟩

end Storyboard
