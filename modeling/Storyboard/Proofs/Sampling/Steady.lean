import Mathlib
import Storyboard.Proofs.Sampling.Course

namespace Storyboard

variable {m : Type → Type} [Monad m]

/-- A sink that never fails, with any effects. -/
def steady (act : Delivery → m Unit) : Sink m :=
  fun d => ExceptT.lift (act d)

/-- Keeps what it is handed, in order. -/
def record (d : Delivery) : StateM (List Delivery) Unit :=
  modify fun before => before ++ [d]

theorem forM_steady [LawfulMonad m] (act : Delivery → m Unit) (deliveries : List Delivery) :
    (forM deliveries (steady act)).run = (do
      forM deliveries act
      return .ok ()) := by
  induction deliveries with
  | nil => simp
  | cons d deliveries ih =>
    simp only [List.forM_cons, ExceptT.run_bind, ih, bind_assoc]
    simp [steady]

/-- On a sink that never fails the whole course is delivered, and its outcome is the outcome of the
run. -/
theorem Course.follow_steady [LawfulMonad m] (c : Course) (act : Delivery → m Unit) :
    (c.follow (steady act)).run = (do
      forM c.deliveries act
      return c.outcome) := by
  obtain ⟨deliveries, outcome⟩ := c
  cases outcome with
  | error e =>
    simp only [follow_error, List.forM_eq_forM, ExceptT.run_bind, forM_steady, bind_assoc,
      pure_bind, ExceptT.run_throw]
  | ok stats =>
    simp only [follow_ok, List.forM_eq_forM, ExceptT.run_bind, forM_steady, bind_assoc, pure_bind,
      ExceptT.run_pure]

/-- What comes after a failure is left out. -/
theorem Course.foldl_andThen_error {deliveries : List Delivery} {e : Failure}
    (courses : List Course) :
    courses.foldl Course.andThen ⟨deliveries, .error e⟩ = ⟨deliveries, .error e⟩ := by
  induction courses with
  | nil => rfl
  | cons c courses ih => exact ih

theorem forM_flatMap [LawfulMonad m] {α β : Type} (l : List α) (f : α → List β) (g : β → m Unit) :
    forM (l.flatMap f) g = forM l fun a => forM (f a) g := by
  induction l with
  | nil => simp
  | cons a l ih => rw [List.flatMap_cons, List.forM_append, ih, List.forM_cons]

namespace Session

/-- What a scene delivers and counts. -/
def sceneRun (s : Session) (index : Nat) (scene : Scene) (plan : FramePlan) :
    List Delivery × Stats :=
  (s.sceneDeliveries index scene plan, statsAfter scene plan plan.frameCount.toNat)

/-- A scene with a plan that fits into a list: its header, its frames one by one, and its end. -/
theorem sceneCourse_eq {s : Session} {index : Nat} {scene : Scene} {plan : FramePlan}
    (found : s.program.scene index = .ok scene) (planned : s.plan index = .ok plan)
    (room : plan.Listable) :
    let run := s.sceneRun index scene plan
    s.sceneCourse index = ⟨run.1, .ok run.2⟩ := by
  simp [sceneCourse, found, planned, room, sceneRun]

/-- Of a scene with more frames than a list holds only the header is delivered. -/
theorem sceneCourse_overlong {s : Session} {index : Nat} {scene : Scene} {plan : FramePlan}
    (found : s.program.scene index = .ok scene) (planned : s.plan index = .ok plan)
    (overlong : ¬ plan.Listable) :
    s.sceneCourse index = ⟨[.header (s.header index scene plan)], .error .overflow⟩ := by
  simp [sceneCourse, found, planned, overlong]

/-- Courses that end well one after the other deliver what each of them does, and their counts add
up. -/
theorem foldl_andThen (runs : List (List Delivery × Stats)) (before : List Delivery)
    (stats : Stats) :
    (runs.map fun r => (⟨r.1, .ok r.2⟩ : Course)).foldl Course.andThen ⟨before, .ok stats⟩ =
      ⟨before ++ runs.flatMap (·.1), .ok ⟨stats.total + (runs.map (·.2.total)).sum,
        stats.still + (runs.map (·.2.still)).sum⟩⟩ := by
  induction runs generalizing before stats with
  | nil => simp
  | cons run runs ih =>
    rw [List.map_cons, List.foldl_cons]
    change (runs.map _).foldl Course.andThen ⟨before ++ run.1, .ok (stats.add run.2)⟩ = _
    rw [ih]
    simp [Stats.add, Nat.add_assoc]

/-- The course of all scenes, each of which has a plan and can be listed. -/
theorem course_none {s : Session} {plans : Nat → FramePlan}
    (planned : ∀ index < s.program.scenes.length, s.plan index = .ok (plans index))
    (room : ∀ index < s.program.scenes.length, (plans index).Listable) :
    let runs := s.program.scenes.zipIdx.map fun (scene, index) =>
      s.sceneRun index scene (plans index)
    s.course none = ⟨runs.flatMap (·.1),
      .ok ⟨(runs.map (·.2.total)).sum, (runs.map (·.2.still)).sum⟩⟩ := by
  intro runs
  have courses : (List.range s.program.scenes.length).map s.sceneCourse =
      runs.map fun r => ⟨r.1, .ok r.2⟩ := by
    apply List.ext_getElem
    · simp [runs]
    · intro index inside _
      have inside : index < s.program.scenes.length := by simpa using inside
      have found : s.program.scene index = .ok s.program.scenes[index] := by
        simp [Program.scene, inside]
      simp [runs, sceneCourse_eq found (planned index inside) (room index inside)]
  rw [course, ← List.foldl_map, courses, Course.none, foldl_andThen]
  simp [Stats.zero]

section Failing

variable {s : Session} {j : Nat} {e : Failure}

theorem exists_stats_before
    (before : ∀ i < j, ∃ stats, (s.sceneCourse i).outcome = .ok stats) :
    ∃ stats, ((List.range j).map s.sceneCourse).foldl Course.andThen .none =
      ⟨(List.range j).flatMap fun i => (s.sceneCourse i).deliveries, .ok stats⟩ := by
  induction j with
  | zero => exact ⟨.zero, rfl⟩
  | succ j ih =>
    obtain ⟨stats, early⟩ := ih fun i earlier => before i (Nat.lt_succ_of_lt earlier)
    obtain ⟨more, last⟩ := before j (Nat.lt_succ_self j)
    refine ⟨stats.add more, ?_⟩
    simp [List.range_succ, early, Course.andThen, last, Except.map]

/-- The course of all scenes is over with the first one that fails. -/
theorem course_of_failing (inside : j < s.program.scenes.length)
    (fails : (s.sceneCourse j).outcome = .error e)
    (before : ∀ i < j, ∃ stats, (s.sceneCourse i).outcome = .ok stats) :
    s.course none =
      ⟨(List.range (j + 1)).flatMap fun i => (s.sceneCourse i).deliveries, .error e⟩ := by
  obtain ⟨rest, count⟩ : ∃ rest, s.program.scenes.length = j + (rest + 1) :=
    ⟨s.program.scenes.length - j - 1, by omega⟩
  obtain ⟨stats, early⟩ := exists_stats_before before
  have last : Course.andThen ⟨(List.range j).flatMap fun i => (s.sceneCourse i).deliveries,
      .ok stats⟩ (s.sceneCourse j) =
        ⟨(List.range (j + 1)).flatMap fun i => (s.sceneCourse i).deliveries, .error e⟩ := by
    simp [Course.andThen, fails, Except.map, List.range_succ]
  rw [course, ← List.foldl_map, count, List.range_add, List.map_append, List.foldl_append, early,
    List.range_succ_eq_map, List.map_cons, List.map_cons, List.foldl_cons, Nat.add_zero, last,
    Course.foldl_andThen_error]

variable {m : Type → Type} [Monad m] [LawfulMonad m]

theorem discard_sampleScene (act : Delivery → m Unit) (index : Nat) :
    discard (s.sampleScene (steady act) index).run =
      forM (s.sceneCourse index).deliveries act := by
  rw [sampleScene_eq_follow, Course.follow_steady, discard, map_const]
  simp only [Function.comp, map_bind, map_pure, Function.const_apply, bind_pure_unit]

/-- The run over all scenes: up to the first one that fails they are delivered as one by one. -/
theorem sampleAll_of_failing (inside : j < s.program.scenes.length)
    (fails : (s.sceneCourse j).outcome = .error e)
    (before : ∀ i < j, ∃ stats, (s.sceneCourse i).outcome = .ok stats)
    (act : Delivery → m Unit) :
    (s.sampleAll (steady act)).run = (do
      (List.range (j + 1)).forM fun i => discard (s.sampleScene (steady act) i).run
      return .error e) := by
  have follows := sample_eq_follow s (steady act) none
  rw [sample, course_of_failing inside fails before] at follows
  rw [follows, Course.follow_steady, forM_flatMap]
  simp only [discard_sampleScene]
  rfl

end Failing

/-- The frames of the scene cannot be listed. All scenes before it have plans and can be. -/
structure FirstOverlong (s : Session) (j : Nat) : Prop where
  overlong : ∃ plan, s.plan j = .ok plan ∧ ¬ plan.Listable
  before : ∀ i < j, ∃ plan, s.plan i = .ok plan ∧ plan.Listable

theorem exists_scene_of_plan {s : Session} {index : Nat} {plan : FramePlan}
    (planned : s.plan index = .ok plan) : ∃ scene, s.program.scene index = .ok scene := by
  unfold Session.plan at planned
  cases found : s.program.scene index with
  | error e => rw [found] at planned; cases planned
  | ok scene => exact ⟨scene, rfl⟩

theorem inside_of_plan {s : Session} {index : Nat} {plan : FramePlan}
    (planned : s.plan index = .ok plan) : index < s.program.scenes.length := by
  obtain ⟨scene, found⟩ := exists_scene_of_plan planned
  unfold Program.scene at found
  split at found
  · rename_i there
    exact (List.getElem?_eq_some_iff.1 there).1
  · cases found

/-- What the header of a scene says. -/
structure Announces (s : Session) (index : Nat) (scene : Scene) (plan : FramePlan) (h : Header) :
    Prop where
  number : h.scene = .ofNat index
  title : h.title = scene.title
  canvas : h.canvas = s.program.canvas
  rate : h.rate = s.options.rate
  frameCount : h.frameCount = plan.frameCount
  duration : h.duration = scene.effectiveDuration (s.options.narrationOf index)
  narration : h.narration = scene.narration

/-- The `k`-th frame shows what the program shows at its time, and repeats the one before it in the
scene if both look the same. -/
structure IsFrame (s : Session) (index : Nat) (plan : FramePlan) (frames : Nat → SampledFrame)
    (k : Nat) : Prop where
  number : (frames k).frame.toNat = k
  snapshot : s.program.snapshot index (plan.timeOf (frames k).frame) = .ok (frames k).snapshot
  fingerprint : (frames k).fingerprint = .ofStates (frames k).snapshot.elements
  repeats : (frames k).repeatsPrevious = true ↔
    0 < k ∧ (frames (k - 1)).fingerprint = (frames k).fingerprint

/-- What is handed over at a place is the frame of that place. -/
theorem frameAt_isFrame {s : Session} {index : Nat} {scene : Scene} {plan : FramePlan}
    (found : s.program.scene index = .ok scene) {k : Nat} (inside : k < plan.frameCount.toNat) :
    s.IsFrame index plan (s.frameAt index scene plan) k where
  number := by
    have word : plan.frameCount.toNat < UInt64.size := plan.frameCount.toNat_lt
    exact UInt64.toNat_ofNat_of_lt' (Nat.lt_trans inside word)
  snapshot := by
    rw [Program.snapshot, found]
    rfl
  fingerprint := rfl
  repeats := decide_eq_true_iff

/-- What is handed over first announces the frames of the plan. -/
theorem header_announces {s : Session} {index : Nat} {scene : Scene} {plan : FramePlan}
    (found : s.program.scene index = .ok scene) (planned : s.plan index = .ok plan) :
    s.Announces index scene plan (s.header index scene plan) := by
  have fields : plan.rate = s.options.rate ∧
      plan.duration = scene.effectiveDuration (s.options.narrationOf index) := by
    rw [Session.plan, found] at planned
    change FramePlan.ofDuration _ _ = _ at planned
    unfold FramePlan.ofDuration at planned
    split at planned
    · cases planned
    · cases planned
      exact ⟨rfl, rfl⟩
  exact ⟨rfl, rfl, rfl, fields.1, rfl, fields.2, rfl⟩

/-- The sink may be any that never fails: it is handed the deliveries of the scene in their
order. -/
theorem sampleScene_listable {m : Type → Type} [Monad m] [LawfulMonad m] {s : Session}
    {index : Nat} {scene : Scene} {plan : FramePlan} (found : s.program.scene index = .ok scene)
    (planned : s.plan index = .ok plan) (room : plan.Listable) (act : Delivery → m Unit) :
    (s.sampleScene (steady act) index).run = (do
      (s.sceneDeliveries index scene plan).forM act
      return .ok (statsAfter scene plan plan.frameCount.toNat)) := by
  rw [sampleScene_eq_follow, sceneCourse_eq found planned room, Course.follow_steady]
  rfl

/-- A scene with more frames than a list has room for is over after its header. -/
theorem sampleScene_overlong {m : Type → Type} [Monad m] [LawfulMonad m] {s : Session}
    {index : Nat} {scene : Scene} {plan : FramePlan} (found : s.program.scene index = .ok scene)
    (planned : s.plan index = .ok plan) (overlong : ¬ plan.Listable) (act : Delivery → m Unit) :
    (s.sampleScene (steady act) index).run = (do
      act (.header (s.header index scene plan))
      return .error .overflow) := by
  rw [sampleScene_eq_follow, sceneCourse_overlong found planned overlong, Course.follow_steady]
  simp

theorem FirstOverlong.sceneCourse_before {s : Session} {i j : Nat} (first : s.FirstOverlong j)
    (earlier : i < j) : ∃ stats, (s.sceneCourse i).outcome = .ok stats := by
  obtain ⟨plan, planned, room⟩ := first.before i earlier
  obtain ⟨scene, found⟩ := exists_scene_of_plan planned
  exact ⟨_, congrArg Course.outcome (sceneCourse_eq found planned room)⟩

theorem FirstOverlong.sceneCourse_outcome {s : Session} {j : Nat} (first : s.FirstOverlong j) :
    (s.sceneCourse j).outcome = .error .overflow := by
  obtain ⟨plan, planned, overlong⟩ := first.overlong
  obtain ⟨scene, found⟩ := exists_scene_of_plan planned
  exact congrArg Course.outcome (sceneCourse_overlong found planned overlong)

theorem FirstOverlong.inside {s : Session} {j : Nat} (first : s.FirstOverlong j) :
    j < s.program.scenes.length := by
  obtain ⟨plan, planned, -⟩ := first.overlong
  exact inside_of_plan planned

/-- A run over all scenes breaks off at the first one that is too long. -/
theorem FirstOverlong.course_outcome {s : Session} {j : Nat} (first : s.FirstOverlong j) :
    (s.course none).outcome = .error .overflow := by
  rw [course_of_failing first.inside first.sceneCourse_outcome
    fun i earlier => first.sceneCourse_before earlier]

/-- A scene that has a plan, and all scenes one after the other if each has one. A scene with more
frames than a list has room for is announced, and then the run breaks off. -/
theorem sample_steady (s : Session) :
    (∀ index scene plan, s.program.scene index = .ok scene → s.plan index = .ok plan →
      s.Announces index scene plan (s.header index scene plan) ∧
      (∀ k < plan.frameCount.toNat, s.IsFrame index plan (s.frameAt index scene plan) k) ∧
      ∀ (m : Type → Type) [Monad m] [LawfulMonad m] (act : Delivery → m Unit),
        (plan.Listable → (s.sampleScene (steady act) index).run = (do
          act (.header (s.header index scene plan))
          (List.range plan.frameCount.toNat).forM fun k =>
            act (.frame (s.frameAt index scene plan k))
          act .sceneEnd
          return .ok ⟨plan.frameCount.toNat, (List.range plan.frameCount.toNat).countP fun k =>
            (s.frameAt index scene plan k).repeatsPrevious⟩)) ∧
        (¬ plan.Listable → (s.sampleScene (steady act) index).run = (do
          act (.header (s.header index scene plan))
          return .error .overflow))) ∧
    (∀ plans : Nat → FramePlan,
      (∀ index < s.program.scenes.length, s.plan index = .ok (plans index)) →
      (∀ index < s.program.scenes.length, (plans index).Listable) →
      ∀ (m : Type → Type) [Monad m] [LawfulMonad m] (act : Delivery → m Unit),
        let runs := s.program.scenes.zipIdx.map fun (scene, index) =>
          s.sceneRun index scene (plans index)
        (s.sampleAll (steady act)).run = (do
          runs.forM fun run => run.1.forM act
          return .ok ⟨(runs.map (·.2.total)).sum, (runs.map (·.2.still)).sum⟩)) ∧
    ∀ j, s.FirstOverlong j →
      ∀ (m : Type → Type) [Monad m] [LawfulMonad m] (act : Delivery → m Unit),
        (s.sampleAll (steady act)).run = (do
          (List.range (j + 1)).forM fun index => discard (s.sampleScene (steady act) index).run
          return .error .overflow) := by
  refine ⟨fun index scene plan found planned => ⟨header_announces found planned,
      fun k inside => frameAt_isFrame found inside, fun m _ _ act => ⟨?_, ?_⟩⟩,
    fun plans planned room m _ _ act => ?_, fun j first m _ _ act => ?_⟩
  · intro room
    rw [sampleScene_listable found planned room]
    simp [sceneDeliveries, frameDeliveries]
    rfl
  · intro overlong
    exact sampleScene_overlong found planned overlong act
  · intro runs
    have follows := sample_eq_follow s (steady act) none
    rw [sample, course_none planned room] at follows
    rw [follows, Course.follow_steady, forM_flatMap]
    rfl
  · exact sampleAll_of_failing first.inside first.sceneCourse_outcome
      (fun i earlier => first.sceneCourse_before earlier) act

/-- A scene of three frames, drawn in two batches. -/
def short : Session where
  program := ⟨⟨2, 1⟩, [⟨"s", 0.1, none, [⟨"c", ⟨0.0, 0.0⟩, .circle 1.0⟩], []⟩]⟩
  options := { chunkSize := 2, parallel := true }

def shortPlan : FramePlan := ⟨⟨30, 1⟩, 0.1, 3⟩

/-- A scene of one second with a narration that would never end. -/
def immenseScene : Scene :=
  ⟨"s", 1.0, some "n", [], []⟩

def immense : Session where
  program := ⟨⟨2, 1⟩, [immenseScene]⟩
  options := { narration := [(0, 1e300)] }

def immensePlan : FramePlan := ⟨⟨30, 1⟩, 1e300, 18446744073709551615⟩

/-- The plans at thirty frames per second for a tenth of a second, for a second, and for a second
with an immense narration. -/
theorem plans_at_thirty :
    (FramePlan.ofDuration ⟨30, 1⟩ 0.1).toOption = some shortPlan ∧
      (FramePlan.ofDuration ⟨30, 1⟩ 1.0).toOption = some ⟨⟨30, 1⟩, 1.0, 30⟩ ∧
      (FramePlan.ofDuration ⟨30, 1⟩
        (if (1e300 : Float).isFinite then greater 1.0 1e300 else 1.0)).toOption =
        some immensePlan := by
  decide +kernel

theorem plan_eq {s : Session} {index : Nat} {scene : Scene}
    (found : s.program.scene index = .ok scene) :
    s.plan index = FramePlan.ofScene scene s.options.rate (s.options.narrationOf index) := by
  rw [plan, found]
  rfl

theorem ofScene_immense {scene : Scene} (second : scene.duration = 1.0) :
    FramePlan.ofScene scene ⟨30, 1⟩ (some 1e300) = .ok immensePlan := by
  obtain ⟨-, -, planned⟩ := plans_at_thirty
  rw [FramePlan.ofScene, Scene.effectiveDuration, second]
  exact eq_ok_of_toOption planned

theorem short_plan (index : Nat) (inside : index < short.program.scenes.length) :
    short.plan index = .ok shortPlan := by
  obtain rfl : index = 0 := Nat.lt_one_iff.1 inside
  exact eq_ok_of_toOption plans_at_thirty.1

theorem immense_plan : immense.plan 0 = .ok immensePlan :=
  (plan_eq rfl).trans (ofScene_immense rfl)

theorem immense_overlong : ¬ immensePlan.Listable := by decide

theorem immense_first : immense.FirstOverlong 0 :=
  ⟨⟨immensePlan, immense_plan, immense_overlong⟩,
    fun i earlier => absurd earlier (Nat.not_lt_zero i)⟩

theorem short_listable : shortPlan.Listable := by decide

theorem short_steady :
    (∃ scene, short.Announces 0 scene shortPlan (short.header 0 scene shortPlan) ∧
      (short.sampleScene (steady record) 0).run = (do
        record (.header (short.header 0 scene shortPlan))
        (List.range 3).forM fun k => record (.frame (short.frameAt 0 scene shortPlan k))
        record .sceneEnd
        return .ok ⟨3, (List.range 3).countP fun k =>
          (short.frameAt 0 scene shortPlan k).repeatsPrevious⟩)) ∧
    (∃ counts, (short.sampleAll (steady record)).run = (do
      (short.program.scenes.zipIdx.map fun (scene, index) =>
        short.sceneRun index scene shortPlan).forM fun run => run.1.forM record
      return .ok counts)) ∧
    (immense.sampleAll (steady record)).run = (do
      (List.range 1).forM fun index => discard (immense.sampleScene (steady record) index).run
      return .error .overflow) := by
  obtain ⟨announced, -, run⟩ := (sample_steady short).1 0 _ shortPlan rfl (short_plan 0 Nat.one_pos)
  exact ⟨⟨_, announced, (run _ record).1 short_listable⟩,
    ⟨_, (sample_steady short).2.1 (fun _ => shortPlan) short_plan (fun _ _ => short_listable) _
      record⟩,
    (sample_steady immense).2.2 0 immense_first _ record⟩

/-- The header announces more frames than there are, and none of them comes. -/
theorem immense_breaks_off :
    (immense.sampleScene (steady record) 0).run.run [] =
      (.error .overflow, [.header (immense.header 0 immenseScene immensePlan)]) ∧
    (immense.header 0 immenseScene immensePlan).frameCount = 18446744073709551615 := by
  refine ⟨?_, rfl⟩
  rw [sampleScene_eq_follow, sceneCourse_overlong rfl immense_plan immense_overlong,
    Course.follow_steady]
  rfl

end Session
end Storyboard
