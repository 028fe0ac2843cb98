import Storyboard.FramePlan
import Storyboard.Sampling.Delivery

/-!
# Sampling sessions

A session delivers the frames of scenes at a fixed rate. Frames are drawn in batches, by several
workers if asked for, and delivered in order; neither changes what is delivered.
-/

namespace Storyboard

structure Session.Options where
  rate : Rate := ⟨30, 1⟩
  parallel : Bool := false
  /-- How many workers draw frames in parallel; without it any number. -/
  threads : Option Nat := none
  /-- How many frames are drawn before they are delivered; 0 counts as 1. -/
  chunkSize : Nat := 64
  /-- Measured lengths of narrations with the indices of their scenes. -/
  narration : List (Nat × Float) := []

/-- The measured narration of a scene; of several the last one. -/
def Session.Options.narrationOf (o : Session.Options) (scene : Nat) : Option Float :=
  o.narration.reverse.lookup scene

/-- Starts so many workers, or as many as there should be, or says why that cannot be. -/
abbrev Workers := Option Nat → Except String Unit

/-- Starts the workers of a session. -/
def Workers.start (w : Workers) (threads : Option Nat) : Except Failure Unit :=
  if threads = some 0 then .error (.validation "threads must be > 0")
  else (w threads).mapError fun cause =>
    .validation ("failed to build rayon thread pool: " ++ cause)

structure Session where
  program : Program
  options : Session.Options

/-- How many frames were delivered, and how many of them repeat the one before. -/
structure Stats where
  total : Nat
  still : Nat
  deriving DecidableEq, Repr

namespace Stats

def zero : Stats := ⟨0, 0⟩

def add (a b : Stats) : Stats :=
  ⟨a.total + b.total, a.still + b.still⟩

def count (s : Stats) (repeated : Bool) : Stats :=
  ⟨s.total + 1, if repeated then s.still + 1 else s.still⟩

end Stats

/-- A list cut into batches of `size`, the last of which may be shorter; 0 counts as 1. -/
def batches {α : Type} (size : Nat) (items : List α) : List (List α) :=
  if items.isEmpty then []
  else items.take (max size 1) :: batches size (items.drop (max size 1))
termination_by items.length
decreasing_by
  rename_i nonempty
  have : items.length ≠ 0 := by simpa using nonempty
  simp only [List.length_drop]
  omega

theorem batches_flatten {α : Type} (size : Nat) (items : List α) :
    (batches size items).flatten = items := by
  fun_induction batches size items with
  | case1 items none => simpa using (List.isEmpty_iff.1 none).symm
  | case2 items _ ih => rw [List.flatten_cons, ih, List.take_append_drop]

/-- What a frame shows, and its fingerprint. -/
abbrev Drawing := List ElementState × Fingerprint

def Scene.draw (s : Scene) (t : Float) : Drawing :=
  let states := s.statesAt t
  (states, .ofStates states)

/-- Draws a batch of frames. -/
def Scene.drawBatch (s : Scene) (parallel : Bool) (batch : List (UInt64 × Float)) : List Drawing :=
  if parallel then
    (batch.map fun f => Task.spawn fun _ => s.draw f.2).map Task.get
  else batch.map fun f => s.draw f.2

/-- Workers draw what one worker draws. -/
theorem Scene.drawBatch_eq_map (s : Scene) (parallel : Bool) (batch : List (UInt64 × Float)) :
    s.drawBatch parallel batch = batch.map fun f => s.draw f.2 := by
  cases parallel with
  | false => rfl
  | true => exact List.map_map

namespace Session

/-- A session on a program. In parallel the workers are started first. -/
def create (workers : Workers) (program : Program) (options : Options) :
    Except Failure Session := do
  if options.rate.num = 0 ∨ options.rate.den = 0 then
    throw (.validation "fps must have num>0 and den>0")
  if options.parallel then
    workers.start options.threads
  return ⟨program, options⟩

def plan (s : Session) (scene : Nat) : Except Failure FramePlan := do
  FramePlan.ofScene (← s.program.scene scene) s.options.rate (s.options.narrationOf scene)

def header (s : Session) (index : Nat) (scene : Scene) (plan : FramePlan) : Header where
  scene := UInt64.ofNat index
  title := scene.title
  canvas := s.program.canvas
  rate := plan.rate
  frameCount := plan.frameCount
  duration := plan.duration
  narration := scene.narration

/-- How far a scene is: the fingerprint of its last frame, and the counts so far. -/
structure Progress where
  previous : Option Fingerprint
  stats : Stats

variable {m : Type → Type} [Monad m]

/-- The frame of a drawing, after a frame with the fingerprint `previous`. -/
def frame (s : Session) (index : Nat) (previous : Option Fingerprint) (k : UInt64) (t : Float)
    (drawing : Drawing) : SampledFrame where
  frame := k
  fingerprint := drawing.2
  repeatsPrevious := previous = some drawing.2
  snapshot := ⟨UInt64.ofNat index, t, s.program.canvas, drawing.1⟩

def deliverFrame (s : Session) (sink : Sink m) (index : Nat) (p : Progress)
    (item : (UInt64 × Float) × Drawing) : ExceptT Failure m Progress := do
  let f := s.frame index p.previous item.1.1 item.1.2 item.2
  sink (.frame f)
  return ⟨some f.fingerprint, p.stats.count f.repeatsPrevious⟩

def deliverBatch (s : Session) (sink : Sink m) (index : Nat) (scene : Scene) (p : Progress)
    (batch : List (UInt64 × Float)) : ExceptT Failure m Progress :=
  (batch.zip (scene.drawBatch s.options.parallel batch)).foldlM (s.deliverFrame sink index) p

/-- Delivers one scene. A scene that is not there or cannot be planned delivers nothing, and one
with too many frames nothing but its header. -/
def sampleScene (s : Session) (sink : Sink m) (index : Nat) : ExceptT Failure m Stats := do
  let scene ← MonadExcept.ofExcept (s.program.scene index)
  let plan ← MonadExcept.ofExcept (s.plan index)
  sink (.header (s.header index scene plan))
  let frames ← MonadExcept.ofExcept plan.listFrames
  let p ← (batches s.options.chunkSize frames).foldlM (s.deliverBatch sink index scene)
    ⟨none, .zero⟩
  sink .sceneEnd
  return p.stats

/-- Delivers all scenes in playback order. -/
def sampleAll (s : Session) (sink : Sink m) : ExceptT Failure m Stats :=
  (List.range s.program.scenes.length).foldlM
    (fun stats index => return stats.add (← s.sampleScene sink index)) .zero

/-- Delivers one scene, or all of them. -/
def sample (s : Session) (sink : Sink m) : Option Nat → ExceptT Failure m Stats
  | some index => s.sampleScene sink index
  | none => s.sampleAll sink

end Session
end Storyboard
