import Storyboard.Proofs.Double.Monotone
import Storyboard.Proofs.Sampling.Accepted

namespace Storyboard

open Double

/-- A length that no plan is made for. -/
def Unplayable (secs : Float) : Prop :=
  secs < 0.0 ∨ ¬ secs.isFinite

instance (secs : Float) : Decidable (Unplayable secs) :=
  inferInstanceAs (Decidable (_ ∨ _))

variable {secs : Float}

theorem isLength_of_playable (playable : ¬ Unplayable secs) : IsLength secs := by
  rw [Unplayable, not_or, not_not] at playable
  exact ⟨playable.2, zero_le_of_not_lt playable.2 playable.1⟩

theorem IsLength.playable (length : IsLength secs) : ¬ Unplayable secs := by
  rintro (below | infinite)
  · exact not_lt_zero_of_le (x := 0.0) (by decide) length.nonneg below
  · exact infinite length.finite

theorem unplayable_iff_of_isFinite (finite : secs.isFinite) : Unplayable secs ↔ secs < 0.0 :=
  or_iff_left (not_not.2 finite)

variable {declared audio : Float}

theorem unplayable_of_le (le : declared ≤ audio) (below : audio < 0.0) : Unplayable declared :=
  .inl (lt_of_le_of_lt le below)

/-- An infinity below all numbers is not above one, and one above all is above zero. -/
theorem below_or_above (number : declared.isNaN = false) (finite : audio.isFinite)
    (longer : ¬ declared ≤ audio) (unplayable : Unplayable declared) :
    audio < 0.0 ∨ 0.0 < declared := by
  have shorter : audio < declared := by
    by_contra not_shorter
    exact longer (le_of_not_lt (not_isNaN_of_isFinite finite) number not_shorter)
  rcases unplayable with below | infinite
  · exact .inl (lt_of_lt_of_le shorter (le_of_lt below))
  · obtain ⟨s, unpack⟩ := exists_infinity number infinite
    cases s with
    | positive => exact .inr (lt_infinity isFinite_zero unpack)
    | negative => exact absurd (le_of_lt (infinity_lt finite unpack)) longer

/-- The longer of two lengths cannot be played just if the declared one cannot, and the measured one
does not mend it. -/
theorem unplayable_greater_iff (finite : audio.isFinite) :
    Unplayable (greater declared audio) ↔
      Unplayable declared ∧ (audio < 0.0 ∨ 0.0 < declared) := by
  by_cases number : declared.isNaN = true
  · have infinite : ¬ declared.isFinite := by
      intro declaredFinite
      rw [not_isNaN_of_isFinite declaredFinite] at number
      cases number
    have unordered : ¬ 0.0 < declared := by
      intro above
      rw [(isNaN_of_le (le_of_lt above)).2] at number
      cases number
    rw [greater, if_pos number, unplayable_iff_of_isFinite finite, or_iff_left unordered]
    exact (and_iff_right (.inr infinite)).symm
  · have number : declared.isNaN = false := Bool.eq_false_iff.2 number
    rw [greater, number, if_neg Bool.false_ne_true]
    by_cases longer : declared ≤ audio
    · rw [if_pos longer, unplayable_iff_of_isFinite finite]
      constructor
      · intro below
        exact ⟨unplayable_of_le longer below, .inl below⟩
      · rintro ⟨unplayable, below | above⟩
        · exact below
        · -- Between zero and a finite length there is none without a plan.
          have declaredFinite := isFinite_of_le isFinite_zero finite number (le_of_lt above) longer
          have length : IsLength declared := ⟨declaredFinite, le_of_lt above⟩
          exact absurd unplayable length.playable
    · rw [if_neg longer]
      refine ⟨fun unplayable => ⟨unplayable, ?_⟩, And.left⟩
      exact below_or_above number finite longer unplayable

/-- A measured narration mends a scene just if it is finite and not below zero, and the declared
length is no infinity above zero. -/
theorem unplayable_effectiveDuration_iff (s : Scene) (narration : Option Float) :
    Unplayable (s.effectiveDuration narration) ↔ Unplayable s.duration ∧
      ∀ audio, narration = some audio → audio.isFinite → audio < 0.0 ∨ 0.0 < s.duration := by
  cases narration with
  | none => exact (and_iff_left fun audio measured => nomatch measured).symm
  | some audio =>
    change Unplayable (if audio.isFinite then greater s.duration audio else s.duration) ↔ _
    by_cases finite : audio.isFinite
    · rw [if_pos finite, unplayable_greater_iff finite]
      refine and_congr_right fun _ => ⟨?_, fun mended => mended audio rfl finite⟩
      rintro mended other measured -
      cases measured
      exact mended
    · rw [if_neg finite]
      refine (and_iff_left ?_).symm
      rintro other measured otherFinite
      cases measured
      exact absurd otherFinite finite

/-- The failure for a length that no plan is made for. -/
def refusedLength (secs : Float) : Failure :=
  .validation ("sample duration must be finite and >= 0, got " ++ messageNumber secs)

/-- There is no plan for a length that is below zero or not finite. -/
theorem FramePlan.ofDuration_of_unplayable (unplayable : Unplayable secs) (rate : Rate) :
    FramePlan.ofDuration rate secs = .error (refusedLength secs) := by
  rw [ofDuration, if_pos]
  · rfl
  · rcases unplayable with below | infinite
    · simp [below]
    · simp [infinite]

namespace Session

variable {s : Session} {index i j : Nat} {scene : Scene}

/-- How long a scene plays in the session. -/
def lengthAt (s : Session) (index : Nat) (scene : Scene) : Float :=
  scene.effectiveDuration (s.options.narrationOf index)

theorem scene_eq_ok (there : s.program.scenes[index]? = some scene) :
    s.program.scene index = .ok scene := by
  rw [Program.scene, there]

theorem exists_plan_of_playable (there : s.program.scenes[index]? = some scene)
    (playable : ¬ Unplayable (s.lengthAt index scene)) : ∃ plan, s.plan index = .ok plan := by
  rw [plan, scene_eq_ok there]
  exact ⟨_, FramePlan.ofDuration_of_isLength (isLength_of_playable playable) s.options.rate⟩

theorem sceneCourse_of_missing (missing : s.program.scenes.length ≤ index) :
    s.sceneCourse index = ⟨[], .error (.noScene index s.program.scenes.length)⟩ := by
  rw [sceneCourse, Program.scene, List.getElem?_eq_none missing]

/-- Nothing is delivered for a scene without a plan. -/
theorem sceneCourse_of_unplayable (there : s.program.scenes[index]? = some scene)
    (unplayable : Unplayable (s.lengthAt index scene)) :
    s.sceneCourse index = ⟨[], .error (refusedLength (s.lengthAt index scene))⟩ := by
  have refused : s.plan index = .error (refusedLength (s.lengthAt index scene)) := by
    rw [plan, scene_eq_ok there]
    exact FramePlan.ofDuration_of_unplayable unplayable s.options.rate
  rw [sceneCourse, scene_eq_ok there, refused]

/-- The scene has no plan, and all before it have one. -/
structure FirstUnplayable (s : Session) (j : Nat) (scene : Scene) : Prop where
  there : s.program.scenes[j]? = some scene
  unplayable : Unplayable (s.lengthAt j scene)
  before : ∀ i < j, ∀ other, s.program.scenes[i]? = some other → ¬ Unplayable (s.lengthAt i other)

namespace FirstUnplayable

theorem inside (first : s.FirstUnplayable j scene) : j < s.program.scenes.length :=
  (List.getElem?_eq_some_iff.1 first.there).1

theorem planned (first : s.FirstUnplayable j scene) (earlier : i < j) :
    ∃ other plan, s.program.scene i = .ok other ∧ s.plan i = .ok plan := by
  have inside : i < s.program.scenes.length := Nat.lt_trans earlier first.inside
  have there : s.program.scenes[i]? = some s.program.scenes[i] := List.getElem?_eq_getElem inside
  obtain ⟨plan, planned⟩ := exists_plan_of_playable there (first.before i earlier _ there)
  exact ⟨_, plan, scene_eq_ok there, planned⟩

variable {m : Type → Type} [Monad m] [LawfulMonad m]

/-- The run is over where the scene would begin. -/
theorem sampleAll_eq (first : s.FirstUnplayable j scene)
    (room : ∀ i < j, ∀ plan, s.plan i = .ok plan → plan.Listable) (act : Delivery → m Unit) :
    (s.sampleAll (steady act)).run = (do
      (List.range j).forM fun i => discard (s.sampleScene (steady act) i).run
      return .error (refusedLength (s.lengthAt j scene))) := by
  have course := sceneCourse_of_unplayable first.there first.unplayable
  have before : ∀ i < j, ∃ stats, (s.sceneCourse i).outcome = .ok stats := by
    intro i earlier
    obtain ⟨other, plan, found, planned⟩ := first.planned earlier
    have listable := room i earlier plan planned
    exact ⟨_, congrArg Course.outcome (sceneCourse_eq found planned listable)⟩
  have nothing : discard (s.sampleScene (steady act) j).run = pure () := by
    simp [discard_sampleScene, course]
  rw [sampleAll_of_failing first.inside (congrArg Course.outcome course) before]
  simp [List.range_succ, nothing]

end FirstUnplayable

variable {m : Type → Type} [Monad m] [LawfulMonad m]

/-- A course without deliveries leaves any sink alone. -/
theorem run_of_refused {e : Failure}
    (refused : s.sceneCourse index = ⟨[], .error e⟩) (sink : Sink m) :
    (s.sampleScene sink index).run = pure (.error e) := by
  rw [sampleScene_eq_follow, refused, Course.follow_error]
  simp

/-- A scene that is not there, one without a plan, and all scenes if one of them has no plan: of
these the scenes before it are delivered as they are one by one, unless the run breaks off in one of
them. -/
theorem sample_unplayable (s : Session) (m : Type → Type) [Monad m] [LawfulMonad m] :
    (∀ index, s.program.scenes.length ≤ index → ∀ sink : Sink m,
      (s.sampleScene sink index).run = pure (.error (.evaluation
        s!"scene index {index} is out of range (program has {s.program.scenes.length} scenes)"))) ∧
    (∀ index scene, s.program.scenes[index]? = some scene → Unplayable (s.lengthAt index scene) →
      ∀ sink : Sink m, (s.sampleScene sink index).run = pure (.error (.validation
        ("sample duration must be finite and >= 0, got " ++
          messageNumber (s.lengthAt index scene))))) ∧
    ∀ j scene, s.FirstUnplayable j scene → ∀ act : Delivery → m Unit,
      ((∀ i < j, ∀ plan, s.plan i = .ok plan → plan.Listable) →
        (∀ i < j, ∃ other plan, s.program.scene i = .ok other ∧ s.plan i = .ok plan ∧
          (s.sampleScene (steady act) i).run = (do
            (s.sceneDeliveries i other plan).forM act
            return .ok (statsAfter other plan plan.frameCount.toNat))) ∧
        (s.sampleAll (steady act)).run = (do
          (List.range j).forM fun i => discard (s.sampleScene (steady act) i).run
          return .error (.validation ("sample duration must be finite and >= 0, got " ++
            messageNumber (s.lengthAt j scene))))) ∧
      ∀ i < j, s.FirstOverlong i →
        (∃ other plan, s.program.scene i = .ok other ∧ s.plan i = .ok plan ∧
          (s.sampleScene (steady act) i).run = (do
            act (.header (s.header i other plan))
            return .error .overflow)) ∧
        (s.sampleAll (steady act)).run = (do
          (List.range (i + 1)).forM fun k => discard (s.sampleScene (steady act) k).run
          return .error .overflow) := by
  refine ⟨fun index missing => run_of_refused (sceneCourse_of_missing missing),
    fun index scene there unplayable => run_of_refused (sceneCourse_of_unplayable there unplayable),
    fun j scene first act => ⟨fun room => ⟨fun i earlier => ?_, first.sampleAll_eq room act⟩,
      fun i earlier overlong => ⟨?_, ?_⟩⟩⟩
  · obtain ⟨other, plan, found, planned⟩ := first.planned earlier
    have listable := room i earlier plan planned
    exact ⟨other, plan, found, planned, sampleScene_listable found planned listable act⟩
  · obtain ⟨plan, planned, tooLong⟩ := overlong.overlong
    obtain ⟨other, found⟩ := exists_scene_of_plan planned
    exact ⟨other, plan, found, planned, sampleScene_overlong found planned tooLong act⟩
  · exact sampleAll_of_failing overlong.inside overlong.sceneCourse_outcome
      (fun k before => overlong.sceneCourse_before before) act

/-- The narration of the first scene mends its length, and that of the third does not. -/
def uneven : Session where
  program := ⟨⟨2, 1⟩, [⟨"a", -1.0, some "n", [], []⟩, ⟨"b", 0.1, none, [], []⟩,
    ⟨"c", 1.0 / 0.0, some "n", [], []⟩, ⟨"d", 1.0, none, [], []⟩]⟩
  options := { chunkSize := 0, narration := [(0, 0.2), (2, 3.0), (3, -1.0 / 0.0)] }

theorem uneven_first : uneven.FirstUnplayable 2 ⟨"c", 1.0 / 0.0, some "n", [], []⟩ where
  there := rfl
  unplayable := by decide
  before := by
    intro i earlier other there
    match i, earlier with
    | 0, _ =>
      cases there
      decide
    | 1, _ =>
      cases there
      decide

theorem uneven_listable : ∀ i < 2, ∀ plan, uneven.plan i = .ok plan → plan.Listable := by
  have few : ∀ i < 2, (uneven.plan i).toOption.all (decide ·.Listable) := by decide +kernel
  intro i earlier plan planned
  simpa [planned, Except.toOption] using few i earlier

/-- If the first scene cannot be listed, its header is all that is delivered. -/
theorem sampleAll_overlong {plan : FramePlan} (found : s.program.scene 0 = .ok scene)
    (planned : s.plan 0 = .ok plan) (overlong : ¬ plan.Listable) (act : Delivery → m Unit) :
    (s.sampleAll (steady act)).run = (do
      act (.header (s.header 0 scene plan))
      return .error .overflow) := by
  have first : s.FirstOverlong 0 :=
    ⟨⟨plan, planned, overlong⟩, fun i earlier => absurd earlier (Nat.not_lt_zero i)⟩
  rw [sampleAll_of_failing first.inside first.sceneCourse_outcome
    fun i earlier => first.sceneCourse_before earlier]
  simp [discard_sampleScene, sceneCourse_overlong found planned overlong]

/-- The narration of the first scene would never end, and the second one cannot be played. -/
def spoiled : Session where
  program := ⟨⟨2, 1⟩, [⟨"s", 1.0, none, [], []⟩, ⟨"b", -1.0, none, [], []⟩]⟩
  options := { narration := [(0, 1e300)] }

theorem spoiled_plan : spoiled.plan 0 = .ok immensePlan :=
  (plan_eq rfl).trans (ofScene_immense rfl)

theorem spoiled_first : spoiled.FirstUnplayable 1 ⟨"b", -1.0, none, [], []⟩ where
  there := rfl
  unplayable := by decide
  before := by
    intro i earlier other there
    obtain rfl : i = 0 := Nat.lt_one_iff.1 earlier
    cases there
    intro unplayable
    have planned := @ofScene_immense ⟨"s", 1.0, none, [], []⟩ rfl
    cases planned.symm.trans (FramePlan.ofDuration_of_unplayable unplayable ⟨30, 1⟩)

theorem spoiled_overlong : spoiled.FirstOverlong 0 :=
  ⟨⟨immensePlan, spoiled_plan, immense_overlong⟩,
    fun i earlier => absurd earlier (Nat.not_lt_zero i)⟩

theorem uneven_unplayable :
    (∃ detail, (uneven.sampleScene (steady record) 4).run = pure (.error (.evaluation detail))) ∧
      (∃ detail, (uneven.sampleScene (steady record) 2).run = pure (.error (.validation detail))) ∧
      (∃ detail, (uneven.sampleAll (steady record)).run = (do
        (List.range 2).forM fun i => discard (uneven.sampleScene (steady record) i).run
        return .error (.validation detail))) ∧
      (spoiled.sampleAll (steady record)).run = (do
        (List.range 1).forM fun i => discard (spoiled.sampleScene (steady record) i).run
        return .error .overflow) := by
  obtain ⟨missing, alone, all⟩ := sample_unplayable uneven (StateM (List Delivery))
  obtain ⟨-, -, breaks⟩ := sample_unplayable spoiled (StateM (List Delivery))
  exact ⟨⟨_, missing 4 (by decide) _⟩, ⟨_, alone 2 _ rfl uneven_first.unplayable _⟩,
    ⟨_, ((all 2 _ uneven_first record).1 uneven_listable).2⟩,
    ((breaks 1 _ spoiled_first record).2 0 Nat.one_pos spoiled_overlong).2⟩

/-- The second scene is the first that cannot be played, but it is the first scene that the run
breaks off in: of that one there is a header and no frame. -/
theorem spoiled_breaks_off :
    spoiled.FirstUnplayable 1 ⟨"b", -1.0, none, [], []⟩ ∧
      (spoiled.sampleAll (steady record)).run.run [] =
        (.error .overflow, [.header (spoiled.header 0 ⟨"s", 1.0, none, [], []⟩ immensePlan)]) := by
  refine ⟨spoiled_first, ?_⟩
  rw [sampleAll_overlong rfl spoiled_plan immense_overlong]
  rfl

end Session
end Storyboard
