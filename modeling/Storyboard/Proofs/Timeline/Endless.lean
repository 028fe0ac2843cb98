import Storyboard.Proofs.Timeline.Finished

/-!
# Times that are not finite

A time that is no number, or minus infinity, is compared with starts and ends in vain: nothing has
begun. At plus infinity every fade is finished, even one that ends there itself. Main statement:
what a scene shows at such times (`statesAt_not_finite`).
-/

namespace Storyboard

open Double Float.Model

variable {f : Fade} {start t : Float} {s : Scene}

/-- Nothing finite is at most an instant that is not finite and not above zero. -/
theorem not_le_endless (endless : ¬ t.isFinite) (nonpos : ¬ 0.0 < t) {x : Float} (hx : x.isFinite) :
    ¬ x ≤ t := by
  intro le
  obtain ⟨s, unpack⟩ := exists_infinity (isNaN_of_le le).2 endless
  cases s with
  | positive => exact nonpos (lt_infinity isFinite_zero unpack)
  | negative => exact not_le_of_lt (infinity_lt hx unpack) le

/-- Here `x` may be an end, and so infinite itself. -/
theorem not_lt_endless (endless : ¬ t.isFinite) (nonpos : ¬ 0.0 < t) {x : Float} : ¬ x < t := by
  intro less
  obtain ⟨s, unpack⟩ := exists_infinity (isNaN_of_le (le_of_lt less)).2 endless
  cases s with
  | positive => exact nonpos (lt_infinity isFinite_zero unpack)
  | negative => exact not_lt_infinity unpack less

/-- Before all time, and at no time, no fade has begun. -/
theorem Scene.untouched_endless (finite : s.FiniteTimes) (endless : ¬ t.isFinite)
    (nonpos : ¬ 0.0 < t) : s.Untouched t := by
  intro e listed f command
  have early := not_le_endless endless nonpos (finite.time e listed)
  exact f.opacityAt?_eq_none early (not_lt_endless endless nonpos)

/-- An instant above zero that is not finite is the infinity. -/
theorem unpack_of_pos (endless : ¬ t.isFinite) (pos : 0.0 < t) :
    t.toModel.unpack = .infinity .positive := by
  obtain ⟨s, unpack⟩ := exists_infinity (isNaN_of_le (le_of_lt pos)).2 endless
  cases s with
  | positive => exact unpack
  | negative => exact absurd pos (not_lt_infinity unpack)

/-- The end may be infinite itself. Then the elapsed time is, too, and so above the length. -/
theorem Fade.opacityAt?_infinity (hs : start.isFinite) (hd : f.duration.isFinite)
    (infinite : t.toModel.unpack = .infinity .positive) :
    f.opacityAt? start t = some f.direction.terminal := by
  have begun := le_of_lt (lt_infinity hs infinite)
  by_cases positive : 0.0 < f.duration
  · have lasting : f.Lasting start := ⟨hs, hd, positive⟩
    rcases lasting.opacityAt?_cases begun with ⟨-, given⟩ | ⟨-, given⟩
    · have elapsed : f.duration ≤ t - start :=
        le_infinity (not_isNaN_of_isFinite hd) (unpack_sub_infinity infinite hs)
      rw [given, (lasting.opacity_eq_terminal_iff begun).2 elapsed]
    · exact given
  · -- A length that is not positive puts the end before the start.
    have length := le_of_not_lt inUnit_zero.number (not_isNaN_of_isFinite hd) positive
    have ends : start + f.duration ≤ start := by
      have nonpos := (le_iff_valueOf hd isFinite_zero).1 length
      rw [valueOf_zero] at nonpos
      apply (isRounded_add hs hd).le (isRounded_valueOf hs)
      linarith
    exact f.opacityAt?_eq_terminal begun (lt_of_le_of_lt ends (lt_infinity hs infinite))

/-- After all time every fade has ended. -/
theorem Scene.settled_infinity (finite : s.FiniteTimes)
    (infinite : t.toModel.unpack = .infinity .positive) : s.Settled t := by
  intro e listed f command
  exact f.opacityAt?_infinity (finite.time e listed) (finite.duration e listed f command) infinite

/-- At a time that is not finite, all elements are as at first, unless it is plus infinity: then
they are as all fades leave them. -/
theorem statesAt_not_finite (finite : s.FiniteTimes) (endless : ¬ t.isFinite) :
    (¬ 0.0 < t → s.statesAt t = s.elements.map Element.initialState) ∧
      (0.0 < t → s.statesAt t = statesFrom s.settledOpacity s.elements) := by
  constructor
  · intro nonpos
    exact Scene.statesAt_untouched (Scene.untouched_endless finite endless nonpos)
  · intro pos
    have infinite := unpack_of_pos endless pos
    exact Scene.statesAt_settled (Scene.settled_infinity finite infinite)

/-- A circle that is hidden at once, and one that is hidden in the end. -/
def hidden : Scene :=
  ⟨"s", 2.0, none, [⟨"c", ⟨0.0, 0.0⟩, .circle 1.0⟩, ⟨"d", ⟨0.0, 0.0⟩, .circle 1.0⟩],
    [⟨0.0, [.fade ⟨"c", .fadeOut, 0.0⟩]⟩, ⟨1e308, [.fade ⟨"d", .fadeOut, 1e308⟩]⟩]⟩

theorem hidden_times :
    (∀ e ∈ hidden.timeline, e.time.isFinite) ∧
      (∀ fade ∈ fadesOf hidden.timeline, fade.2.duration.isFinite) ∧
      ¬ ∀ state ∈ hidden.statesAt (1.0 / 0.0), state.opacity = 1.0 := by
  decide +kernel

theorem hidden_finiteTimes : hidden.FiniteTimes := by
  obtain ⟨times, durations, -⟩ := hidden_times
  exact ⟨times, (forall_fadesOf (P := fun _ f => f.duration.isFinite)).1 durations⟩

theorem hidden_not_finite :
    hidden.FiniteTimes ∧
      hidden.statesAt (0.0 / 0.0) = hidden.elements.map Element.initialState ∧
      hidden.statesAt (-1.0 / 0.0) = hidden.elements.map Element.initialState ∧
      hidden.statesAt (1.0 / 0.0) = statesFrom hidden.settledOpacity hidden.elements :=
  ⟨hidden_finiteTimes,
    (statesAt_not_finite hidden_finiteTimes (by decide)).1 (by decide),
    (statesAt_not_finite hidden_finiteTimes (by decide)).1 (by decide),
    (statesAt_not_finite hidden_finiteTimes (by decide)).2 (by decide)⟩

/-- What was hidden is not visible again at infinity. -/
theorem hidden_at_infinity :
    ¬ ∀ (s : Scene) (t : Float), s.FiniteTimes → ¬ t.isFinite →
      ∀ state ∈ s.statesAt t, state.opacity = 1.0 := by
  intro always
  obtain ⟨-, -, invisible⟩ := hidden_times
  exact invisible (always hidden (1.0 / 0.0) hidden_finiteTimes (by decide))

end Storyboard
