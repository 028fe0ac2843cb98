import Storyboard.Proofs.Sampling.Stopping
import Storyboard.Proofs.Timeline.Outside

namespace Storyboard

variable {answer : List Delivery → Option Failure} {before deliveries : List Delivery}

theorem forM_wary_log :
    ((forM deliveries (wary answer)).run.run before).2 <+: before ++ deliveries := by
  induction deliveries generalizing before with
  | nil =>
    rw [List.append_nil]
    exact List.prefix_rfl
  | cons d deliveries ih =>
    rw [forM_wary_cons, List.append_cons before d deliveries]
    cases answer (before ++ [d]) with
    | none => exact ih
    | some e => exact List.prefix_append ..

theorem Course.mem_foldl_andThen {d : Delivery} {courses : List Course} {c : Course}
    (mem : d ∈ (courses.foldl Course.andThen c).deliveries) :
    d ∈ c.deliveries ∨ ∃ other ∈ courses, d ∈ other.deliveries := by
  induction courses generalizing c with
  | nil => exact .inl mem
  | cons first rest ih =>
    rcases ih mem with early | ⟨other, listed, late⟩
    · unfold andThen at early
      split at early
      · exact .inl early
      · exact (List.mem_append.1 early).imp_right fun here => ⟨first, List.mem_cons_self, here⟩
    · exact .inr ⟨other, List.mem_cons_of_mem _ listed, late⟩

namespace Session

variable {s : Session} {target : Option Nat} {d : Delivery} {index : Nat}

theorem logged_sample :
    (logged (s.sample (wary answer) target)).2 <+: (s.course target).deliveries := by
  have log : ((forM (s.course target).deliveries (wary answer)).run.run []).2 <+:
      (s.course target).deliveries := forM_wary_log
  rw [sample_eq_follow, logged, run_follow]
  generalize (forM (s.course target).deliveries (wary answer)).run.run [] = run at log ⊢
  obtain ⟨result, last⟩ := run
  cases result <;> exact log

theorem mem_sceneCourse (mem : d ∈ (s.sceneCourse index).deliveries) :
    ∃ scene plan, s.program.scene index = .ok scene ∧ s.plan index = .ok plan ∧
      d ∈ s.sceneDeliveries index scene plan := by
  unfold sceneCourse at mem
  split at mem
  · rename_i scene plan found planned
    refine ⟨scene, plan, found, planned, ?_⟩
    split at mem
    · exact mem
    · simp only [List.mem_singleton] at mem
      exact mem ▸ List.mem_cons_self
  · cases mem
  · cases mem

theorem mem_course (mem : d ∈ (s.course target).deliveries) :
    ∃ index scene plan, (target = none ∨ target = some index) ∧
      s.program.scene index = .ok scene ∧ s.plan index = .ok plan ∧
      d ∈ s.sceneDeliveries index scene plan := by
  cases target with
  | some index =>
    obtain ⟨scene, plan, here⟩ := mem_sceneCourse mem
    exact ⟨index, scene, plan, .inr rfl, here⟩
  | none =>
    rw [course, ← List.foldl_map] at mem
    rcases Course.mem_foldl_andThen mem with nothing | ⟨c, listed, mem⟩
    · cases nothing
    · obtain ⟨index, -, rfl⟩ := List.mem_map.1 listed
      obtain ⟨scene, plan, here⟩ := mem_sceneCourse mem
      exact ⟨index, scene, plan, .inl rfl, here⟩

variable {scene : Scene} {plan : FramePlan} {f : SampledFrame}

theorem frame_mem_sceneDeliveries :
    .frame f ∈ s.sceneDeliveries index scene plan ↔
      ∃ k < plan.frameCount.toNat, s.frameAt index scene plan k = f := by
  simp [sceneDeliveries, frameDeliveries]

theorem ofNat_pred {k : Nat} (pos : 0 < k) : UInt64.ofNat k - 1 = UInt64.ofNat (k - 1) := by
  rw [UInt64.ofNat_sub pos]
  rfl

/-- A frame looks like the one before it if both times are on the same side of all fades. -/
theorem repeatsAt_same_side (timed : scene.Timed) {k : Nat} (later : 0 < k)
    (same : scene.SameSide (plan.timeOf (.ofNat (k - 1))) (plan.timeOf (.ofNat k))) :
    repeatsAt scene plan k = true := by
  have shown := Scene.statesAt_same timed same
  exact decide_eq_true ⟨later, congrArg Fingerprint.ofStates shown⟩

end Session

/-- Before all events everything is visible. After all fades nothing changes any more: the last
declared fade of an element decides, whatever the times. Frames on one side repeat each other in
every run, however the sink answers. -/
theorem still_outside_fades :
    (∀ s : Scene, s.Timed →
      (∀ t, s.BeforeFades t → ∀ state ∈ s.statesAt t, state.opacity = 1.0) ∧
      (∀ t u, s.AfterFades t → s.AfterFades u → s.statesAt t = s.statesAt u) ∧
      ∀ t, s.AfterFades t → ∀ i : Nat, (s.statesAt t)[i]? = s.elements[i]?.map fun e =>
        ⟨e.id, e.figure, if s.declaresAfter i e.id then 1.0 else s.settledOpacity e.id, e.anchor⟩) ∧
    ∀ (s : Session) (target : Option Nat) (answer : List Delivery → Option Failure)
      (f : SampledFrame), .frame f ∈ (logged (s.sample (wary answer) target)).2 →
      ∃ index scene plan, (target = none ∨ target = some index) ∧
        s.program.scene index = .ok scene ∧ s.plan index = .ok plan ∧
        s.program.snapshot index (plan.timeOf f.frame) = .ok f.snapshot ∧
        (scene.Timed → 0 < f.frame →
          scene.SameSide (plan.timeOf (f.frame - 1)) (plan.timeOf f.frame) →
          f.repeatsPrevious = true) := by
  refine ⟨fun s timed => ⟨?_, ?_, ?_⟩, ?_⟩
  · intro t before state mem
    rw [Scene.statesAt_before timed before] at mem
    obtain ⟨e, -, rfl⟩ := List.mem_map.1 mem
    rfl
  · intro t u first second
    exact Scene.statesAt_same timed (.inr ⟨first, second⟩)
  · intro t after
    rw [Scene.statesAt_after timed after]
    exact getElem?_statesFrom _ _
  · intro s target answer f handed
    obtain ⟨index, scene, plan, chosen, found, planned, mem⟩ :=
      Session.mem_course (Session.logged_sample.subset handed)
    obtain ⟨k, inside, rfl⟩ := Session.frame_mem_sceneDeliveries.1 mem
    have frame := Session.frameAt_isFrame found inside
    refine ⟨index, scene, plan, chosen, found, planned, frame.snapshot, ?_⟩
    intro timed later same
    have pos : 0 < k := by
      rw [← frame.number]
      exact UInt64.lt_iff_toNat_lt.1 later
    have number : (s.frameAt index scene plan k).frame = .ofNat k := rfl
    rw [number, Session.ofNat_pred pos] at same
    exact Session.repeatsAt_same_side timed pos same

/-- A scene of four seconds with two fades, of which the last declared one begins first. -/
def lull : Scene :=
  ⟨"s", 4.0, none, [⟨"c", ⟨0.0, 0.0⟩, .circle 1.0⟩],
    [⟨1.75, [.fade ⟨"c", .fadeIn, 0.0⟩]⟩, ⟨1.5, [.fade ⟨"c", .fadeOut, 0.25⟩]⟩]⟩

theorem lull_timed : lull.Timed := by
  have lengths : ∀ e ∈ lull.timeline, ∀ f, .fade f ∈ e.commands →
      f.duration.isFinite ∧ 0.0 ≤ f.duration :=
    (forall_fadesOf (P := fun _ f => f.duration.isFinite ∧ 0.0 ≤ f.duration)).1 (by decide)
  refine ⟨by decide, ?_⟩
  intro e listed f command
  obtain ⟨finite, nonneg⟩ := lengths e listed f command
  exact ⟨finite, nonneg⟩

theorem lull_after {t : Float} (after : 1.75 < t) : lull.AfterFades t := by
  have ends : ∀ e ∈ lull.timeline, ∀ f, .fade f ∈ e.commands → e.time + f.duration = 1.75 :=
    (forall_fadesOf (P := fun start f => start + f.duration = 1.75)).1 (by decide)
  intro e listed f command
  rwa [ends e listed f command]

namespace Session

/-- One frame per second of the scene. -/
def calm : Session where
  program := ⟨⟨2, 1⟩, [lull]⟩
  options := { rate := ⟨1, 1⟩ }

def calmPlan : FramePlan := ⟨⟨1, 1⟩, 4.0, 4⟩

/-- The plan, the times of its last two frames, and that a very late time is after the fades. -/
theorem calm_times :
    (calm.plan 0).toOption = some calmPlan ∧
      (calmPlan.timeOf (3 - 1) = 2.0 ∧ calmPlan.timeOf 3 = 3.0) ∧ (1.75 : Float) < 1e300 := by
  decide +kernel

theorem calm_plan : calm.plan 0 = .ok calmPlan :=
  eq_ok_of_toOption calm_times.1

/-- A sink that accepts everything is handed the whole course. -/
theorem logged_sample_accepts (s : Session) (target : Option Nat) :
    (logged (s.sample (wary fun _ => none) target)).2 = (s.course target).deliveries := by
  have accepts : logged ((s.course target).follow (wary fun _ => none)) = _ :=
    follow_stops (s.course target) (e := .transfer "") (fun _ _ _ => rfl)
      fun inside => absurd inside (Nat.lt_irrefl _)
  rw [sample_eq_follow, accepts, if_neg (Nat.lt_irrefl _)]

/-- The third and the fourth frame are both after the fades, and the element stays hidden. -/
theorem calm_still :
    lull.statesAt 2.0 = lull.statesAt 1e300 ∧
    (lull.statesAt 2.0)[0]?.map (·.opacity) = some 0.0 ∧
    ∃ f, .frame f ∈ (logged (calm.sample (wary fun _ => none) (some 0))).2 ∧ f.frame = 3 ∧
      f.repeatsPrevious = true := by
  obtain ⟨-, times, late⟩ := calm_times
  obtain ⟨scenes, frames⟩ := still_outside_fades
  obtain ⟨-, same, settled⟩ := scenes lull lull_timed
  have two : lull.AfterFades 2.0 := lull_after (by decide)
  have three : lull.AfterFades 3.0 := lull_after (by decide)
  have handed : .frame (calm.frameAt 0 lull calmPlan 3) ∈
      (logged (calm.sample (wary fun _ => none) (some 0))).2 := by
    rw [logged_sample_accepts, course, sceneCourse_eq rfl calm_plan (by decide)]
    exact frame_mem_sceneDeliveries.2 ⟨3, by decide, rfl⟩
  refine ⟨same _ _ two (lull_after late), ?_, _, handed, rfl, ?_⟩
  · rw [settled 2.0 two 0]
    decide
  · obtain ⟨index, scene, plan, chosen, found, planned, -, repeats⟩ :=
      frames calm (some 0) _ _ handed
    obtain rfl : 0 = index := Option.some.inj (chosen.resolve_left (Option.some_ne_none 0))
    cases found
    cases calm_plan.symm.trans planned
    refine repeats lull_timed (by decide) (.inr ⟨?_, ?_⟩)
    · change lull.AfterFades (calmPlan.timeOf (3 - 1))
      rwa [times.1]
    · change lull.AfterFades (calmPlan.timeOf 3)
      rwa [times.2]

end Session
end Storyboard
