import Storyboard.Sampling.Delivery

/-!
# Frames kept in memory

A reel keeps every scene that was delivered to it, with its frames. A frame belongs to the scene
announced last; before the first header there is none, and frames are dropped.
-/

namespace Storyboard

/-- The scenes and the frames of each, both with the newest first. -/
structure Reel where
  newest : List (Header × List SampledFrame)
  deriving DecidableEq

namespace Reel

def empty : Reel := ⟨[]⟩

def record (r : Reel) : Delivery → Reel
  | .header h => ⟨(h, []) :: r.newest⟩
  | .frame f =>
    match r.newest with
    | [] => r
    | (h, frames) :: rest => ⟨(h, f :: frames) :: rest⟩
  | .sceneEnd => r

/-- The scenes with their frames, in the order in which they came. -/
def scenes (r : Reel) : List (Header × List SampledFrame) :=
  (r.newest.map fun (h, frames) => (h, frames.reverse)).reverse

theorem scenes_record_header (r : Reel) (h : Header) :
    (r.record (.header h)).scenes = r.scenes ++ [(h, [])] := by
  simp [record, scenes]

/-- A frame goes to the end of the scene announced last. -/
theorem scenes_record_frame {r : Reel} {before : List (Header × List SampledFrame)} {h : Header}
    {frames : List SampledFrame} (last : r.scenes = before ++ [(h, frames)]) (f : SampledFrame) :
    (r.record (.frame f)).scenes = before ++ [(h, frames ++ [f])] := by
  obtain ⟨newest⟩ := r
  cases newest with
  | nil => simp [scenes] at last
  | cons scene rest =>
    simp only [scenes, List.map_cons, List.reverse_cons] at last
    obtain ⟨rfl, same⟩ := List.append_inj' last rfl
    cases same
    simp [record, scenes]

theorem scenes_record_sceneEnd (r : Reel) : (r.record .sceneEnd).scenes = r.scenes := rfl

/-- All frames of all scenes. -/
def frames (r : Reel) : List SampledFrame :=
  r.scenes.flatMap (·.2)

/-- A reel refuses nothing. -/
def sink : Sink (StateM Reel) :=
  fun d => modify fun r => r.record d

end Reel
end Storyboard
