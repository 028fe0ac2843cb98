import Storyboard.Sampling.Session

/-!
# The course of a run

What a run delivers and how it ends is settled before any sink takes part. On every sink the run
hands over these deliveries one by one, up to the first refusal (`sample_eq_follow`).
-/

namespace Storyboard

theorem eq_ok_of_toOption {ε α : Type} {x : Except ε α} {a : α} (some_a : x.toOption = some a) :
    x = .ok a := by
  cases x with
  | error e => cases some_a
  | ok b => exact congrArg _ (Option.some.inj some_a)

/-- The deliveries of a run in order, and how it ends if none of them is refused. -/
structure Course where
  deliveries : List Delivery
  outcome : Except Failure Stats

namespace Course

variable {m : Type → Type} [Monad m]

/-- Hands the deliveries to a sink one by one. A refusal is the end. -/
def follow (c : Course) (sink : Sink m) : ExceptT Failure m Stats := do
  c.deliveries.forM sink
  MonadExcept.ofExcept c.outcome

def none : Course := ⟨[], .ok .zero⟩

/-- One course after the other, unless the first one fails. -/
def andThen (c d : Course) : Course :=
  match c.outcome with
  | .error _ => c
  | .ok stats => ⟨c.deliveries ++ d.deliveries, d.outcome.map stats.add⟩

theorem follow_error [LawfulMonad m] (deliveries : List Delivery) (e : Failure) (sink : Sink m) :
    follow ⟨deliveries, .error e⟩ sink = (do deliveries.forM sink; throw e) := rfl

theorem follow_ok [LawfulMonad m] (deliveries : List Delivery) (stats : Stats) (sink : Sink m) :
    follow ⟨deliveries, .ok stats⟩ sink = (do deliveries.forM sink; return stats) := rfl

/-- To follow one course after another is to follow the longer one: when the first fails, neither
goes on. -/
theorem follow_andThen [LawfulMonad m] (c d : Course) (sink : Sink m) :
    (c.andThen d).follow sink = (do
      let stats ← c.follow sink
      let more ← d.follow sink
      return stats.add more) := by
  obtain ⟨before, outcome⟩ := c
  obtain ⟨after, last⟩ := d
  cases outcome with
  | error e => simp [andThen, follow_error]
  | ok stats =>
    cases last with
    | error e => simp [andThen, follow_ok, follow_error, Except.map]
    | ok more => simp [andThen, follow_ok, Except.map]

end Course

namespace Session

def fingerprintAt (scene : Scene) (plan : FramePlan) (k : Nat) : Fingerprint :=
  .ofStates (scene.statesAt (plan.timeOf (.ofNat k)))

def repeatsAt (scene : Scene) (plan : FramePlan) (k : Nat) : Bool :=
  0 < k ∧ fingerprintAt scene plan (k - 1) = fingerprintAt scene plan k

/-- The `k`-th frame of a scene. Only the times of this frame and the one before it matter. -/
def frameAt (s : Session) (index : Nat) (scene : Scene) (plan : FramePlan) (k : Nat) :
    SampledFrame where
  frame := .ofNat k
  fingerprint := fingerprintAt scene plan k
  repeatsPrevious := repeatsAt scene plan k
  snapshot :=
    let t := plan.timeOf (.ofNat k)
    ⟨.ofNat index, t, s.program.canvas, scene.statesAt t⟩

def frameDeliveries (s : Session) (index : Nat) (scene : Scene) (plan : FramePlan) (n : Nat) :
    List Delivery :=
  (List.range n).map fun k => .frame (s.frameAt index scene plan k)

def sceneDeliveries (s : Session) (index : Nat) (scene : Scene) (plan : FramePlan) :
    List Delivery :=
  .header (s.header index scene plan) ::
    (s.frameDeliveries index scene plan plan.frameCount.toNat ++ [.sceneEnd])

/-- The counts after `n` frames. -/
def statsAfter (scene : Scene) (plan : FramePlan) (n : Nat) : Stats :=
  ⟨n, (List.range n).countP (repeatsAt scene plan)⟩

/-- The course of one scene. A scene whose frames cannot be listed is over after its header. -/
def sceneCourse (s : Session) (index : Nat) : Course :=
  match s.program.scene index, s.plan index with
  | .ok scene, .ok plan =>
    if plan.Listable then
      ⟨s.sceneDeliveries index scene plan, .ok (statsAfter scene plan plan.frameCount.toNat)⟩
    else ⟨[.header (s.header index scene plan)], .error .overflow⟩
  | .error e, _ => ⟨[], .error e⟩
  | _, .error e => ⟨[], .error e⟩

/-- The course of one scene, or of all in playback order. -/
def course (s : Session) : Option Nat → Course
  | some index => s.sceneCourse index
  | none => (List.range s.program.scenes.length).foldl
      (fun c index => c.andThen (s.sceneCourse index)) .none

/-- How far a scene is after `n` frames. -/
def progressAfter (scene : Scene) (plan : FramePlan) (n : Nat) : Progress :=
  ⟨if n = 0 then none else some (fingerprintAt scene plan (n - 1)), statsAfter scene plan n⟩

theorem statsAfter_succ (scene : Scene) (plan : FramePlan) (n : Nat) :
    statsAfter scene plan (n + 1) = (statsAfter scene plan n).count (repeatsAt scene plan n) := by
  simp only [statsAfter, Stats.count, List.range_succ, List.countP_append, List.countP_singleton]
  cases repeatsAt scene plan n <;> rfl

/-- What is drawn for a frame after those before it is the frame that the scene has at its place. -/
theorem frame_progressAfter (s : Session) (index : Nat) (scene : Scene) (plan : FramePlan)
    (k : Nat) :
    s.frame index (progressAfter scene plan k).previous (.ofNat k) (plan.timeOf (.ofNat k))
      (scene.draw (plan.timeOf (.ofNat k))) = s.frameAt index scene plan k := by
  unfold frame frameAt
  congr 1
  cases k with
  | zero => rfl
  | succ k =>
    change decide (some (fingerprintAt scene plan k) = some (fingerprintAt scene plan (k + 1))) =
      decide (0 < k + 1 ∧ fingerprintAt scene plan k = fingerprintAt scene plan (k + 1))
    simp only [Option.some.injEq, Nat.succ_pos, true_and]

variable {m : Type → Type} [Monad m]

/-- One frame: the delivery at its place in the course, and the counts of one frame more. -/
theorem deliverFrame_progressAfter (s : Session) (sink : Sink m) (index : Nat) (scene : Scene)
    (plan : FramePlan) (k : Nat) :
    s.deliverFrame sink index (progressAfter scene plan k)
        ((.ofNat k, plan.timeOf (.ofNat k)), scene.draw (plan.timeOf (.ofNat k))) = (do
      sink (.frame (s.frameAt index scene plan k))
      return progressAfter scene plan (k + 1)) := by
  simp only [deliverFrame, frame_progressAfter]
  congr 1
  funext _
  simp only [progressAfter, statsAfter_succ]
  rfl

variable [LawfulMonad m]

/-- The first frames: their deliveries, and the counts after them. -/
theorem foldlM_deliverFrame (s : Session) (sink : Sink m) (index : Nat) (scene : Scene)
    (plan : FramePlan) (n : Nat) :
    (List.range n).foldlM (fun p k => s.deliverFrame sink index p
        ((.ofNat k, plan.timeOf (.ofNat k)), scene.draw (plan.timeOf (.ofNat k))))
        (progressAfter scene plan 0) = (do
      (s.frameDeliveries index scene plan n).forM sink
      return progressAfter scene plan n) := by
  induction n with
  | zero => simp [frameDeliveries]
  | succ n ih =>
    rw [List.range_succ, List.foldlM_append, ih]
    simp [frameDeliveries, List.range_succ, deliverFrame_progressAfter]

/-- Batches make no difference: a frame is delivered with the progress of all before it. -/
theorem foldlM_deliverBatch (s : Session) (sink : Sink m) (index : Nat) (scene : Scene)
    (batches : List (List (UInt64 × Float))) (p : Progress) :
    batches.foldlM (s.deliverBatch sink index scene) p =
      batches.flatten.foldlM (fun p f => s.deliverFrame sink index p (f, scene.draw f.2)) p := by
  -- The progress at the end of a batch is the one at the start of the next.
  induction batches generalizing p with
  | nil => rfl
  | cons batch batches ih =>
    rw [List.foldlM_cons, List.flatten_cons, List.foldlM_append]
    have one (p : Progress) : s.deliverBatch sink index scene p batch =
        batch.foldlM (fun p f => s.deliverFrame sink index p (f, scene.draw f.2)) p := by
      rw [deliverBatch, Scene.drawBatch_eq_map, ← List.map_prod_left_eq_zip, List.foldlM_map]
    rw [one]
    congr 1
    funext q
    exact ih q

/-- Whatever the batches and the workers are, sampling a scene hands its course to the sink. -/
theorem sampleScene_eq_follow (s : Session) (sink : Sink m) (index : Nat) :
    s.sampleScene sink index = (s.sceneCourse index).follow sink := by
  unfold sampleScene sceneCourse
  cases s.program.scene index with
  | error e => simp [Course.follow_error, MonadExcept.ofExcept]
  | ok scene =>
    cases s.plan index with
    | error e => simp [Course.follow_error, MonadExcept.ofExcept]
    | ok plan =>
      by_cases room : plan.Listable
      · have frames : (batches s.options.chunkSize plan.frames).foldlM
            (s.deliverBatch sink index scene) ⟨none, .zero⟩ = (do
              (s.frameDeliveries index scene plan plan.frameCount.toNat).forM sink
              return progressAfter scene plan plan.frameCount.toNat) := by
          rw [foldlM_deliverBatch, batches_flatten, FramePlan.frames, FramePlan.firstFrames,
            Nat.min_self, List.foldlM_map]
          exact foldlM_deliverFrame s sink index scene plan plan.frameCount.toNat
        simp [Course.follow_ok, MonadExcept.ofExcept, FramePlan.listFrames, room, sceneDeliveries,
          frames]
        rfl
      · simp [Course.follow_error, MonadExcept.ofExcept, FramePlan.listFrames, room]

/-- Scenes are sampled one after the other, each on its own course. -/
theorem foldlM_sampleScene (s : Session) (sink : Sink m) (indices : List Nat) (c : Course) :
    (do
      let stats ← c.follow sink
      indices.foldlM (fun stats index => return stats.add (← s.sampleScene sink index)) stats) =
    (indices.foldl (fun c index => c.andThen (s.sceneCourse index)) c).follow sink := by
  induction indices generalizing c with
  | nil => simp
  | cons index indices ih =>
    rw [List.foldl_cons, ← ih, Course.follow_andThen]
    simp [sampleScene_eq_follow]

/-- Sampling, of one scene or of all, is following a course that does not depend on the sink. -/
theorem sample_eq_follow (s : Session) (sink : Sink m) (target : Option Nat) :
    s.sample sink target = (s.course target).follow sink := by
  cases target with
  | some index => exact sampleScene_eq_follow s sink index
  | none =>
    rw [sample, sampleAll, course, ← foldlM_sampleScene]
    simp [Course.none, Course.follow_ok]

end Session
end Storyboard
