import Storyboard.Proofs.Timeline.Progress

/-!
# Fades that are finished

After its end a fade gives its terminal opacity. At the end itself the elapsed time is divided by
the length once more, and the end has been rounded. Main statement: a fade is finished just if its
end has passed or the elapsed time comes up to its length (`fade_finished_iff`). At an end that is
rounded down it may be left unfinished (`brief_unfinished`).
-/

namespace Storyboard

open Double

variable {f : Fade} {d : Direction} {start t x : Float}

theorem one_le_clampUnit_iff : 1.0 ≤ clampUnit x ↔ 1.0 ≤ x := by
  constructor
  · intro one_le
    by_cases below : x < 0.0
    · rw [clampUnit_of_neg below] at one_le
      exact absurd one_le (by decide)
    by_cases above : 1.0 < x
    · exact le_of_lt above
    unfold clampUnit at one_le
    rwa [if_neg below, if_neg above] at one_le
  · intro one_le
    rw [← clampUnit_of_inUnit inUnit_one]
    exact clampUnit_mono one_le

/-- No progress below 1 is rounded to the terminal opacity. -/
theorem Direction.opacity_eq_terminal_iff (unit : InUnit x) :
    d.opacity x = d.terminal ↔ 1.0 ≤ x := by
  constructor
  · intro same
    by_contra less
    have below := le_belowOne unit.number less
    cases d with
    | fadeIn =>
      rw [show x = 1.0 from same] at below
      exact absurd below (by decide)
    | fadeOut =>
      have rest := sub_anti unit.isFinite isFinite_belowOne isFinite_one below
      rw [show 1.0 - x = 0.0 from same] at rest
      exact absurd rest (by decide)
  · intro one_le
    rw [eq_one one_le unit.le_one]
    cases d with
    | fadeIn => rfl
    | fadeOut => rfl

namespace Fade.Lasting

/-- The quotient reaches 1 just if the elapsed time reaches the length, as a division of doubles by
a larger one stays below 1. -/
theorem one_le_progress_iff (lasting : f.Lasting start) (begun : start ≤ t) :
    1.0 ≤ f.progress start t ↔ f.duration ≤ t - start := by
  have elapsed := isNaN_sub (isNaN_of_le begun).2 lasting.begins
  rw [Fade.progress, one_le_clampUnit_iff]
  exact one_le_div_iff elapsed lasting.finite lasting.value_pos

/-- Opacity is terminal just if the elapsed time, as it is rounded, has reached the length. -/
theorem opacity_eq_terminal_iff (lasting : f.Lasting start) (begun : start ≤ t) :
    f.direction.opacity (f.progress start t) = f.direction.terminal ↔ f.duration ≤ t - start := by
  rw [Direction.opacity_eq_terminal_iff (lasting.inUnit_progress begun)]
  exact lasting.one_le_progress_iff begun

end Fade.Lasting

/-- From its end on, a fade gives its terminal opacity just if the end has passed or the elapsed
time comes up to the length. -/
theorem fade_finished_iff (lasting : f.Lasting start) (ended : start + f.duration ≤ t) :
    ∃ x, f.opacityAt? start t = some x ∧
      (x = f.direction.terminal ↔ start + f.duration < t ∨ f.duration ≤ t - start) := by
  have begun := le_trans (start_le_end lasting.begins lasting.isLength) ended
  rcases lasting.opacityAt?_cases begun with ⟨running, given⟩ | ⟨passed, given⟩
  · refine ⟨_, given, ?_⟩
    have not_passed : ¬ start + f.duration < t := fun passed => not_le_of_lt passed running
    rw [lasting.opacity_eq_terminal_iff begun, or_iff_right not_passed]
  · exact ⟨_, given, iff_of_true rfl (.inl passed)⟩

/-- Its sum with a start of a fifth of a second is rounded down. -/
def brief : Fade := ⟨"c", .fadeIn, 0.5⟩

theorem brief_finished :
    brief.Lasting 0.2 ∧ (∃ x, brief.opacityAt? 0.2 0.7 = some x ∧ x ≠ 1.0) ∧
      brief.opacityAt? 0.2 0.75 = some 1.0 := by
  have lasting : brief.Lasting 0.2 := ⟨by decide, by decide, by decide⟩
  obtain ⟨x, at_end, unfinished⟩ := fade_finished_iff lasting (t := 0.7) (by decide)
  obtain ⟨y, later, finished⟩ := fade_finished_iff lasting (t := 0.75) (by decide)
  refine ⟨lasting, ⟨x, at_end, fun terminal => ?_⟩, ?_⟩
  · exact absurd (unfinished.1 terminal) (by decide)
  · rw [later, finished.2 (.inl (by decide))]
    rfl

/-- A fade of half a second from a fifth of a second on, at its end. -/
theorem brief_unfinished :
    ¬ ∀ (f : Fade) (start t : Float), f.Lasting start → 0.0 ≤ start → t.isFinite →
      start + f.duration ≤ t → f.opacityAt? start t = some f.direction.terminal := by
  intro always
  have lasting : brief.Lasting 0.2 := ⟨by decide, by decide, by decide⟩
  have terminal := always brief 0.2 0.7 lasting (by decide) (by decide)
    (by decide)
  revert terminal
  decide

end Storyboard
