import Storyboard.Proofs.Sampling.Steady
import Storyboard.Proofs.Script.Sound
import Storyboard.Sampling.Reel

namespace Storyboard

theorem IsLength.of_le {shorter longer : Float} (length : IsLength shorter)
    (finite : longer.isFinite) (le : shorter ≤ longer) : IsLength longer :=
  ⟨finite, Double.zero_le_of_not_lt finite (Double.not_lt_zero_of_le length.nonneg le)⟩

theorem isLength_greater {declared measured : Float} (length : IsLength declared)
    (finite : measured.isFinite) : IsLength (greater declared measured) := by
  have number := Double.not_isNaN_of_isFinite length.finite
  rw [greater, number, if_neg Bool.false_ne_true]
  by_cases longer : declared ≤ measured
  · rw [if_pos longer]
    exact length.of_le finite longer
  · rw [if_neg longer]
    exact length

/-- A measured narration takes the place of the declared length only if it is finite and longer, so
what is played stays a length. -/
theorem isLength_effectiveDuration {scene : Scene} (length : IsLength scene.duration)
    (narration : Option Float) : IsLength (scene.effectiveDuration narration) := by
  cases narration with
  | none => exact length
  | some audio =>
    change IsLength (if audio.isFinite then greater scene.duration audio else scene.duration)
    by_cases finite : audio.isFinite
    · rw [if_pos finite]
      exact isLength_greater length finite
    · rw [if_neg finite]
      exact length

/-- A plan is refused only for a length that is not finite or below zero. -/
theorem FramePlan.ofDuration_of_isLength {secs : Float} (length : IsLength secs) (rate : Rate) :
    FramePlan.ofDuration rate secs = .ok ⟨rate, secs, max (rate.framesCovering secs) 1⟩ := by
  have nonneg : ¬ secs < 0.0 := Double.not_lt_zero_of_le (x := 0.0) (by decide) length.nonneg
  rw [FramePlan.ofDuration, length.finite, decide_eq_false nonneg]
  rfl

/-- A reel never fails. -/
theorem Reel.sink_eq_steady : Reel.sink = steady fun d => modify fun r => r.record d := rfl

namespace Session

variable {s : Session}

/-- Every scene of a sound program has a plan, whatever was measured. -/
theorem exists_plan (sound : s.program.Sound) {index : Nat}
    (inside : index < s.program.scenes.length) : ∃ plan, s.plan index = .ok plan := by
  have found : s.program.scene index = .ok s.program.scenes[index] := by
    simp [Program.scene, inside]
  have scene := sound.scenes _ (List.getElem_mem inside)
  have length := isLength_effectiveDuration scene.duration (s.options.narrationOf index)
  rw [Session.plan, found]
  exact ⟨_, FramePlan.ofDuration_of_isLength length s.options.rate⟩

/-- Of the scenes that cannot be listed one is the first. -/
theorem exists_firstOverlong
    (planned : ∀ index < s.program.scenes.length, ∃ plan, s.plan index = .ok plan)
    (overlong : ¬ ∀ index plan, s.plan index = .ok plan → plan.Listable) :
    ∃ j, s.FirstOverlong j := by
  classical
  push Not at overlong
  refine ⟨Nat.find overlong, Nat.find_spec overlong, fun i earlier => ?_⟩
  obtain ⟨last, there, -⟩ := Nat.find_spec overlong
  obtain ⟨plan, planned⟩ := planned i (Nat.lt_trans earlier (inside_of_plan there))
  refine ⟨plan, planned, ?_⟩
  by_contra tooLong
  exact Nat.find_min overlong earlier ⟨plan, planned, tooLong⟩

/-- With every scene planned and listed, all frames are delivered. -/
theorem exists_stats_course
    (planned : ∀ index < s.program.scenes.length, ∃ plan, s.plan index = .ok plan)
    (listable : ∀ index plan, s.plan index = .ok plan → plan.Listable) :
    ∃ stats, (s.course none).outcome = .ok stats := by
  have chosen : ∀ index, ∃ plan, index < s.program.scenes.length → s.plan index = .ok plan := by
    intro index
    by_cases inside : index < s.program.scenes.length
    · obtain ⟨plan, eq⟩ := planned index inside
      exact ⟨plan, fun _ => eq⟩
    · exact ⟨⟨s.options.rate, 0.0, 0⟩, fun h => absurd h inside⟩
  obtain ⟨plans, planned⟩ := Classical.axiomOfChoice chosen
  rw [course_none planned fun index inside => listable index (plans index) (planned index inside)]
  exact ⟨_, rfl⟩

/-- A run into a reel ends as its course does. -/
theorem sampleAll_reel (r : Reel) :
    ((s.sampleAll Reel.sink).run.run r).1 = (s.course none).outcome := by
  have follows := sample_eq_follow s Reel.sink none
  rw [sample] at follows
  rw [follows, Reel.sink_eq_steady, Course.follow_steady]
  rfl

/-- A session opens on a rate above zero whose workers can start. -/
theorem create_eq_ok {workers : Workers} {program : Program} {options : Options}
    (num : 0 < options.rate.num) (den : 0 < options.rate.den)
    (started : options.parallel = true → workers.start options.threads = .ok ()) :
    Session.create workers program options = .ok ⟨program, options⟩ := by
  have rate : ¬ (options.rate.num = 0 ∨ options.rate.den = 0) := by
    rintro (zero | zero)
    · rw [zero] at num
      exact absurd num (by decide)
    · rw [zero] at den
      exact absurd den (by decide)
  rw [create, if_neg rate]
  by_cases parallel : options.parallel = true
  · rw [if_pos parallel, started parallel]
    rfl
  · rw [if_neg parallel]
    rfl

/-- What an accepted script says is sound. At every rate, with any narrations, batches and workers
that can be started, each of its scenes has a plan. Then all frames come into the reel, unless those
of a scene cannot be listed. -/
theorem sampled_of_parse {source : String} {p : Program} (parsed : Script.parse source = .ok p) :
    p.Sound ∧ ∀ (workers : Workers) (options : Options), 0 < options.rate.num →
      0 < options.rate.den →
      (options.parallel = true → workers.start options.threads = .ok ()) →
      let s : Session := ⟨p, options⟩
      Session.create workers p options = .ok s ∧
        (∀ index < p.scenes.length, ∃ plan, s.plan index = .ok plan) ∧
        ((∀ index plan, s.plan index = .ok plan → plan.Listable) ∧
            (∀ r, ∃ stats, ((s.sampleAll Reel.sink).run.run r).1 = .ok stats) ∨
          (∃ j, s.FirstOverlong j) ∧
            ∀ r, ((s.sampleAll Reel.sink).run.run r).1 = .error .overflow) := by
  have sound := Script.sound_of_parse parsed
  refine ⟨sound, ?_⟩
  intro workers options num den started s
  have planned : ∀ index < p.scenes.length, ∃ plan, s.plan index = .ok plan :=
    fun index inside => exists_plan sound inside
  refine ⟨create_eq_ok num den started, planned, ?_⟩
  simp only [sampleAll_reel]
  by_cases listable : ∀ index plan, s.plan index = .ok plan → plan.Listable
  · exact .inl ⟨listable, fun _ => exists_stats_course planned listable⟩
  · obtain ⟨j, first⟩ := exists_firstOverlong planned listable
    exact .inr ⟨⟨j, first⟩, fun _ => first.course_outcome⟩

/-- A script of one scene. -/
def plain : String :=
  "video\x7bdimensions:(2,1)\x7dscene\"s\"\x7bduration:1s\x7d"

def plainProgram : Program :=
  ⟨⟨2, 1⟩, [⟨"s", 1.0, none, [], []⟩]⟩

theorem plain_parsed : Script.parse plain = .ok plainProgram :=
  eq_ok_of_toOption (by decide +kernel)

/-- Narrations that are not numbers, below zero, too long or of no scene. -/
def measured : List (Nat × Float) :=
  [(0, 0.0 / 0.0), (0, -1.0), (7, 3.0), (0, 1.0 / 0.0)]

def measuredSession : Session :=
  ⟨plainProgram, { chunkSize := 0, narration := measured }⟩

/-- The scene plays its declared second. -/
theorem measured_plan : measuredSession.plan 0 = .ok ⟨⟨30, 1⟩, 1.0, 30⟩ :=
  eq_ok_of_toOption plans_at_thirty.2.1

theorem plain_sampled :
    plainProgram.Sound ∧
      Session.create (fun _ => .ok ()) plainProgram measuredSession.options = .ok measuredSession ∧
      ∃ stats, ((measuredSession.sampleAll Reel.sink).run.run .empty).1 = .ok stats := by
  obtain ⟨sound, samples⟩ := sampled_of_parse plain_parsed
  obtain ⟨created, -, ⟨-, run⟩ | ⟨⟨j, first⟩, -⟩⟩ := samples (fun _ => .ok ())
    measuredSession.options (by decide) (by decide) (fun h => nomatch h)
  · exact ⟨sound, created, run .empty⟩
  · obtain ⟨plan, planned, overlong⟩ := first.overlong
    obtain rfl : j = 0 := Nat.lt_one_iff.1 first.inside
    cases measured_plan.symm.trans planned
    exact absurd (by decide) overlong

/-- The scene of the script, with a narration that would never end. -/
def strainedSession : Session :=
  ⟨plainProgram, { narration := [(0, 1e300)] }⟩

theorem strained_plan : strainedSession.plan 0 = .ok immensePlan :=
  (plan_eq rfl).trans (ofScene_immense rfl)

theorem strained_first : strainedSession.FirstOverlong 0 :=
  ⟨⟨immensePlan, strained_plan, immense_overlong⟩,
    fun i earlier => absurd earlier (Nat.not_lt_zero i)⟩

/-- The script is accepted, its scene has a plan, and the run breaks off all the same. -/
theorem plain_breaks_off :
    Script.parse plain = .ok plainProgram ∧
      Session.create (fun _ => .ok ()) plainProgram strainedSession.options = .ok strainedSession ∧
      strainedSession.plan 0 = .ok immensePlan ∧
      ((strainedSession.sampleAll Reel.sink).run.run .empty).1 = .error .overflow :=
  ⟨plain_parsed, create_eq_ok (by decide) (by decide) (fun h => nomatch h), strained_plan,
    (sampleAll_reel .empty).trans strained_first.course_outcome⟩

end Session
end Storyboard
