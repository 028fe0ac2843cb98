import Storyboard.Proofs.Fingerprint.Injective
import Storyboard.Proofs.Sampling.Stopping
import Storyboard.Proofs.Timeline.LastFade

/-!
# Skipping frames that repeat

A renderer may skip every frame that is marked as a repetition and keep the picture of the frame
before. Main statement: as far as the digest tells the frames of the run apart, it shows every frame
as it is, and no frame that looks like the one before is drawn again (`skipping_loses_nothing`).
-/

namespace Storyboard

open Fingerprint

/-- All states of an element have the same texts. -/
theorem told_statesFrom (f g : String → Float) (elements : List Element) :
    List.Forall₂ Told (statesFrom f elements) (statesFrom g elements) := by
  induction elements with
  | nil => exact .nil
  | cons e rest ih =>
    refine .cons ⟨fun _ => rfl, fun body other isBody isOther _ => ?_⟩ ih
    change e.figure = .text body at isBody
    change e.figure = .text other at isOther
    rw [isBody] at isOther
    cases isOther
    rfl

/-- What a scene shows at two times is the same if its bytes are. -/
theorem statesAt_of_encode {s : Scene} {t u : Float}
    (same : encode (s.statesAt t) = encode (s.statesAt u)) : s.statesAt t = s.statesAt u := by
  rw [statesAt_eq_statesFrom, statesAt_eq_statesFrom] at same ⊢
  exact states_of_bytes (told_statesFrom _ _ _) (flatMap_of_encode same)

def Delivery.frame? : Delivery → Option SampledFrame
  | .frame f => some f
  | _ => none

/-- The frames among deliveries, in order. -/
def framesIn (deliveries : List Delivery) : List SampledFrame :=
  deliveries.filterMap Delivery.frame?

/-- The frame whose picture stands for the `k`-th one if repetitions are skipped: the nearest frame
up to it that is not skipped. -/
def drawnFor (frames : List SampledFrame) (k : Nat) : Option SampledFrame :=
  (frames.take (k + 1)).reverse.find? fun f => !f.repeatsPrevious

/-- The digest has no collision among the bytes of the frames. -/
def DigestTells (frames : List SampledFrame) : Prop :=
  ∀ f ∈ frames, ∀ g ∈ frames,
    digest ⟨(encode f.snapshot.elements).toArray⟩ = digest ⟨(encode g.snapshot.elements).toArray⟩ →
      encode f.snapshot.elements = encode g.snapshot.elements

/-- A frame is drawn anew, or as the last one before it that was. -/
theorem drawnFor_succ {frames : List SampledFrame} {k : Nat} {f : SampledFrame}
    (frame : frames[k]? = some f) :
    drawnFor frames k = if f.repeatsPrevious then (frames.take k).reverse.find? (!·.repeatsPrevious)
      else some f := by
  rw [drawnFor, List.take_add_one, frame, Option.toList_some, List.reverse_append,
    List.reverse_singleton, List.singleton_append, List.find?_cons]
  cases f.repeatsPrevious <;> rfl

/-- The first frame is drawn, and a frame that is not looks like the one before it. So what was
drawn last is what every frame shows. -/
theorem drawnFor_elements {frames : List SampledFrame}
    (first : ∀ f, frames[0]? = some f → f.repeatsPrevious = false)
    (repeated : ∀ k f g, frames[k]? = some f → frames[k + 1]? = some g →
      g.repeatsPrevious = true → f.snapshot.elements = g.snapshot.elements)
    {k : Nat} {f : SampledFrame} (frame : frames[k]? = some f) :
    (drawnFor frames k).map (·.snapshot.elements) = some f.snapshot.elements := by
  induction k generalizing f with
  | zero =>
    rw [drawnFor_succ frame, first f frame]
    rfl
  | succ k ih =>
    rw [drawnFor_succ frame]
    cases mark : f.repeatsPrevious with
    | false => rfl
    | true =>
      have inside : k < frames.length := by
        have := (List.getElem?_eq_some_iff.1 frame).1
        omega
      have before : frames[k]? = some frames[k] := List.getElem?_eq_getElem inside
      have same := repeated k frames[k] f before frame mark
      change (drawnFor frames k).map (·.snapshot.elements) = some f.snapshot.elements
      rw [ih before, same]

namespace Session

variable {s : Session} {index : Nat} {scene : Scene} {plan : FramePlan}

/-- The frames that are delivered for a scene, one for each place of the plan. -/
theorem framesIn_sceneDeliveries :
    framesIn (s.sceneDeliveries index scene plan) =
      (List.range plan.frameCount.toNat).map (s.frameAt index scene plan) := by
  have frames : framesIn (s.frameDeliveries index scene plan plan.frameCount.toNat) =
      (List.range plan.frameCount.toNat).map (s.frameAt index scene plan) := by
    rw [framesIn, frameDeliveries, List.filterMap_map]
    change List.filterMap (fun k => some (s.frameAt index scene plan k)) _ = _
    rw [List.filterMap_eq_map']
  rw [sceneDeliveries, framesIn, List.filterMap_cons_none rfl, List.filterMap_append]
  change framesIn _ ++ [] = _
  rw [List.append_nil, frames]

/-- How many frames a run delivers: all, or none if they cannot be listed. -/
def delivered (plan : FramePlan) : Nat :=
  if plan.Listable then plan.frameCount.toNat else 0

/-- The frames that a run on one scene delivers. -/
theorem framesIn_sampleScene (found : s.program.scene index = .ok scene)
    (planned : s.plan index = .ok plan) :
    framesIn (logged (s.sampleScene (steady record) index)).2 =
      (List.range (delivered plan)).map (s.frameAt index scene plan) := by
  rw [sampleScene_eq_follow, logged_follow_record, delivered]
  by_cases room : plan.Listable
  · rw [sceneCourse_eq found planned room, if_pos room]
    exact framesIn_sceneDeliveries
  · rw [sceneCourse_overlong found planned room, if_neg room]
    rfl

theorem getElem?_frames {k n : Nat} {f : SampledFrame}
    (frame : ((List.range n).map (s.frameAt index scene plan))[k]? = some f) :
    f = s.frameAt index scene plan k ∧ k < n := by
  obtain ⟨inside, rfl⟩ := List.getElem?_eq_some_iff.1 frame
  rw [List.length_map, List.length_range] at inside
  exact ⟨by rw [List.getElem_map, List.getElem_range], inside⟩

/-- A frame is marked if and only if its fingerprint is that of the frame before. -/
theorem repeats_frameAt_succ (k : Nat) :
    (s.frameAt index scene plan (k + 1)).repeatsPrevious = true ↔
      (s.frameAt index scene plan k).fingerprint =
        (s.frameAt index scene plan (k + 1)).fingerprint := by
  change decide (0 < k + 1 ∧ fingerprintAt scene plan k = fingerprintAt scene plan (k + 1)) =
    true ↔ _
  rw [decide_eq_true_iff]
  exact and_iff_right (Nat.succ_pos k)

/-- A frame that is marked looks like the one before it, unless the digest has a collision. -/
theorem elements_eq_of_repeats {n k : Nat}
    (tells : DigestTells ((List.range n).map (s.frameAt index scene plan))) (inside : k + 1 < n)
    (mark : (s.frameAt index scene plan (k + 1)).repeatsPrevious = true) :
    (s.frameAt index scene plan k).snapshot.elements =
      (s.frameAt index scene plan (k + 1)).snapshot.elements := by
  have listed {j : Nat} (before : j < n) :
      s.frameAt index scene plan j ∈ (List.range n).map (s.frameAt index scene plan) :=
    List.mem_map_of_mem (List.mem_range.2 before)
  have digests := (repeats_frameAt_succ k).1 mark
  apply statesAt_of_encode
  exact tells _ (listed (Nat.lt_of_succ_lt inside)) _ (listed inside) digests

/-- A frame that looks like the one before it is marked. -/
theorem elements_ne_of_not_repeats {k : Nat}
    (unmarked : (s.frameAt index scene plan (k + 1)).repeatsPrevious = false) :
    (s.frameAt index scene plan (k + 1)).snapshot.elements ≠
      (s.frameAt index scene plan k).snapshot.elements := by
  intro same
  have digests : (s.frameAt index scene plan k).fingerprint =
      (s.frameAt index scene plan (k + 1)).fingerprint :=
    congrArg Fingerprint.ofStates same.symm
  rw [(repeats_frameAt_succ k).2 digests] at unmarked
  cases unmarked

/-- Whatever scene is sampled with whatever options, its frames can be shown without the ones that
are marked, and those are all that need not be drawn. -/
theorem skipping_loses_nothing (s : Session) {index : Nat} {plan : FramePlan}
    (planned : s.plan index = .ok plan) :
    let frames := framesIn (logged (s.sampleScene (steady record) index)).2
    frames.length = (if plan.Listable then plan.frameCount.toNat else 0) ∧
    (∃ scene, s.program.scene index = .ok scene ∧ ∀ (k : Nat) (f : SampledFrame),
      frames[k]? = some f → f.snapshot.elements = scene.statesAt (plan.timeOf (.ofNat k))) ∧
    (DigestTells frames → ∀ (k : Nat) (f : SampledFrame), frames[k]? = some f →
      (drawnFor frames k).map (·.snapshot.elements) = some f.snapshot.elements) ∧
    ∀ (k : Nat) (f g : SampledFrame), frames[k]? = some f → frames[k + 1]? = some g →
      g.repeatsPrevious = false → g.snapshot.elements ≠ f.snapshot.elements := by
  intro frames
  obtain ⟨scene, found⟩ := exists_scene_of_plan planned
  have all : frames = (List.range (delivered plan)).map (s.frameAt index scene plan) :=
    framesIn_sampleScene found planned
  rw [all]
  refine ⟨by rw [List.length_map, List.length_range, delivered], ⟨scene, found, ?_⟩, ?_, ?_⟩
  · intro k f frame
    obtain ⟨rfl, -⟩ := getElem?_frames frame
    rfl
  · intro tells k f frame
    apply drawnFor_elements _ _ frame
    · intro f first
      obtain ⟨rfl, -⟩ := getElem?_frames first
      rfl
    · intro k f g before after mark
      obtain ⟨rfl, -⟩ := getElem?_frames before
      obtain ⟨rfl, inside⟩ := getElem?_frames after
      exact elements_eq_of_repeats tells inside mark
  · intro k f g before after unmarked
    obtain ⟨rfl, -⟩ := getElem?_frames before
    obtain ⟨rfl, -⟩ := getElem?_frames after
    exact elements_ne_of_not_repeats unmarked

/-- A circle that vanishes between the first frame and the second of three. -/
def vanishingScene : Scene :=
  ⟨"s", 0.1, none, [⟨"c", ⟨0.0, 0.0⟩, .circle 1.0⟩], [⟨0.02, [.fade ⟨"c", .fadeOut, 0.0⟩]⟩]⟩

def vanishing : Session :=
  ⟨⟨⟨2, 1⟩, [vanishingScene]⟩, { chunkSize := 2 }⟩

def vanishingPlan : FramePlan := ⟨⟨30, 1⟩, 0.1, 3⟩

theorem vanishing_plan : vanishing.plan 0 = .ok vanishingPlan :=
  eq_ok_of_toOption plans_at_thirty.1

/-- What the circle looks like, at each opacity. -/
def circleStates (opacity : Float) : List ElementState :=
  [⟨"c", .circle 1.0, opacity, ⟨0.0, 0.0⟩⟩]

theorem vanishing_states : ∀ k < 3, vanishingScene.statesAt (vanishingPlan.timeOf (.ofNat k)) =
    circleStates (if k = 0 then 1.0 else 0.0) := by
  decide

theorem circleStates_digests :
    digest ⟨(encode (circleStates 1.0)).toArray⟩ ≠
      digest ⟨(encode (circleStates 0.0)).toArray⟩ := by
  decide +kernel

theorem vanishing_digestTells :
    DigestTells ((List.range 3).map (vanishing.frameAt 0 vanishingScene vanishingPlan)) := by
  intro f listed g listed' same
  obtain ⟨j, inside, rfl⟩ := List.mem_map.1 listed
  obtain ⟨k, inside', rfl⟩ := List.mem_map.1 listed'
  have atJ := vanishing_states j (List.mem_range.1 inside)
  have atK := vanishing_states k (List.mem_range.1 inside')
  simp only [frameAt, atJ, atK] at same ⊢
  by_cases firstJ : j = 0 <;> by_cases firstK : k = 0
  · rw [if_pos firstJ, if_pos firstK]
  · rw [if_pos firstJ, if_neg firstK] at same
    exact absurd same circleStates_digests
  · rw [if_neg firstJ, if_pos firstK] at same
    exact absurd same.symm circleStates_digests
  · rw [if_neg firstJ, if_neg firstK]

/-- The last frame repeats the second one, and is shown by it. -/
theorem vanishing_skips :
    let frames := framesIn (logged (vanishing.sampleScene (steady record) 0)).2
    ∃ f, frames[2]? = some f ∧ f.repeatsPrevious = true ∧
      (drawnFor frames 2).map (·.snapshot.elements) = some f.snapshot.elements := by
  have all : framesIn (logged (vanishing.sampleScene (steady record) 0)).2 =
      (List.range 3).map (vanishing.frameAt 0 vanishingScene vanishingPlan) :=
    framesIn_sampleScene rfl vanishing_plan
  obtain ⟨-, -, shown, -⟩ := skipping_loses_nothing vanishing vanishing_plan
  simp only [all] at shown ⊢
  refine ⟨_, rfl, (repeats_frameAt_succ 1).2 ?_, shown vanishing_digestTells 2 _ rfl⟩
  have second := vanishing_states 1 (by decide)
  have third := vanishing_states 2 (by decide)
  simp only [frameAt, fingerprintAt, second, third]
  rfl

end Session
end Storyboard
