import Storyboard.Proofs.Double.Monotone
import Storyboard.Proofs.Timeline.Outside

namespace Storyboard

open Double Float.Model

variable {f : Fade} {d : Direction} {start t u x y : Float}

theorem clampUnit_of_neg (below : x < 0.0) : clampUnit x = 0.0 := by
  have not_above : ¬ (1.0 : Float) < 0.0 := by decide
  unfold clampUnit
  rw [if_pos below, if_neg not_above]

theorem clampUnit_of_inUnit (unit : InUnit x) : clampUnit x = x := by
  unfold clampUnit
  rw [if_neg fun below => not_le_of_lt below unit.nonneg,
    if_neg fun above => not_le_of_lt above unit.le_one]

theorem clampUnit_of_one_lt (above : 1.0 < x) : clampUnit x = 1.0 := by
  have nonneg : 0.0 ≤ x := le_trans inUnit_one.nonneg (le_of_lt above)
  unfold clampUnit
  rw [if_neg fun below => not_le_of_lt below nonneg, if_pos above]

theorem clampUnit_mono (le : x ≤ y) : clampUnit x ≤ clampUnit y := by
  obtain ⟨hx, hy⟩ := isNaN_of_le le
  by_cases below : x < 0.0
  · rw [clampUnit_of_neg below]
    exact (inUnit_clampUnit hy).nonneg
  by_cases above : 1.0 < y
  · rw [clampUnit_of_one_lt above]
    exact (inUnit_clampUnit hx).le_one
  have nonneg := le_of_not_lt hx inUnit_zero.number below
  have le_one := le_of_not_lt inUnit_one.number hy above
  rw [clampUnit_of_inUnit ⟨hx, nonneg, le_trans le le_one⟩,
    clampUnit_of_inUnit ⟨hy, le_trans nonneg le, le_one⟩]
  exact le

namespace Fade

/-- The fade takes time, from a finite start on. -/
structure Lasting (f : Fade) (start : Float) : Prop where
  begins : start.isFinite
  finite : f.duration.isFinite
  positive : 0.0 < f.duration

/-- How far a fade has come. -/
def progress (f : Fade) (start t : Float) : Float :=
  clampUnit ((t - start) / f.duration)

namespace Lasting

theorem isLength (lasting : f.Lasting start) : IsLength f.duration :=
  ⟨lasting.finite, le_of_lt lasting.positive⟩

theorem value_pos (lasting : f.Lasting start) : 0 < valueOf f.duration := by
  by_contra none
  refine not_le_of_lt lasting.positive ((le_iff_valueOf lasting.finite isFinite_zero).2 ?_)
  rw [valueOf_zero]
  exact not_lt.1 none

theorem not_instant (lasting : f.Lasting start) : ¬ (f.duration == 0.0) = true := by
  have pos := lasting.value_pos
  change ¬ UnpackedFloat.beq f.duration.toModel.unpack (.zero .positive) = true
  unfold valueOf at pos
  generalize f.duration.toModel.unpack = v at pos
  cases v with
  | finite s m e _ => cases s <;> exact Bool.false_ne_true
  | _ => exact absurd pos (lt_irrefl 0)

theorem inUnit_progress (lasting : f.Lasting start) (begun : start ≤ t) :
    InUnit (f.progress start t) :=
  f.inUnit_progress lasting.begins lasting.finite (Bool.not_eq_true _ ▸ lasting.not_instant) begun

/-- While time goes on a fade does not go back: subtraction and division keep the order when they
round. -/
theorem progress_mono (lasting : f.Lasting start) (later : t ≤ u) :
    f.progress start t ≤ f.progress start u :=
  clampUnit_mono (div_mono (sub_mono later lasting.begins) lasting.finite lasting.value_pos)

end Lasting
end Fade

namespace Direction

/-- The opacity of a fade that has come so far. -/
def opacity : Direction → Float → Float
  | .fadeIn, progress => progress
  | .fadeOut, progress => 1.0 - progress

/-- Going from `x` to `y` is not going back. -/
def Onward : Direction → Float → Float → Prop
  | .fadeIn, x, y => x ≤ y
  | .fadeOut, x, y => y ≤ x

theorem inUnit_opacity (unit : InUnit x) : InUnit (d.opacity x) := by
  cases d with
  | fadeIn => exact unit
  | fadeOut => exact unit.complement

/-- A fade in rises with its progress, a fade out falls. -/
theorem opacity_onward (hx : InUnit x) (hy : InUnit y) (le : x ≤ y) :
    d.Onward (d.opacity x) (d.opacity y) := by
  cases d with
  | fadeIn => exact le
  | fadeOut => exact sub_anti hx.isFinite hy.isFinite isFinite_one le

theorem onward_terminal (unit : InUnit x) : d.Onward x d.terminal := by
  cases d with
  | fadeIn => exact unit.le_one
  | fadeOut => exact unit.nonneg

end Direction

namespace Fade.Lasting

/-- While a fade lasts, its opacity is the elapsed time divided by the length, rounded twice and
then clamped. -/
theorem opacityAt?_during (lasting : f.Lasting start) (begun : start ≤ t)
    (running : t ≤ start + f.duration) :
    f.opacityAt? start t = some (f.direction.opacity (f.progress start t)) := by
  rw [Fade.opacityAt?, if_neg lasting.not_instant, if_pos ⟨begun, running⟩]
  cases f.direction <;> rfl

/-- Once begun, a fade is under way or over; its end may be infinite. -/
theorem opacityAt?_cases (lasting : f.Lasting start) (begun : start ≤ t) :
    t ≤ start + f.duration ∧
        f.opacityAt? start t = some (f.direction.opacity (f.progress start t)) ∨
      start + f.duration < t ∧ f.opacityAt? start t = some f.direction.terminal := by
  by_cases passed : start + f.duration < t
  · exact .inr ⟨passed, f.opacityAt?_after lasting.begins lasting.isLength passed⟩
  · have ends := (isRounded_add lasting.begins lasting.finite).isNaN
    have running := le_of_not_lt ends (isNaN_of_le begun).2 passed
    exact .inl ⟨running, lasting.opacityAt?_during begun running⟩

end Fade.Lasting

/-- From its start on, a fade gives an opacity at every time, and it never goes back. -/
theorem fade_never_back (lasting : f.Lasting start) (begun : start ≤ t) (later : t ≤ u) :
    ∃ x y, f.opacityAt? start t = some x ∧ f.opacityAt? start u = some y ∧
      f.direction.Onward x y := by
  have begun' := le_trans begun later
  have first := lasting.inUnit_progress begun
  have second := lasting.inUnit_progress begun'
  rcases lasting.opacityAt?_cases begun with ⟨running, at_t⟩ | ⟨passed, at_t⟩
  · rcases lasting.opacityAt?_cases begun' with ⟨-, at_u⟩ | ⟨-, at_u⟩
    · exact ⟨_, _, at_t, at_u, Direction.opacity_onward first second (lasting.progress_mono later)⟩
    · exact ⟨_, _, at_t, at_u, Direction.onward_terminal (Direction.inUnit_opacity first)⟩
  · have at_u := f.opacityAt?_after lasting.begins lasting.isLength (lt_of_lt_of_le passed later)
    exact ⟨_, _, at_t, at_u, Direction.onward_terminal f.direction.inUnit_terminal⟩

/-- Its end is too large for a double, so it is under way at any time. -/
def unending : Fade := ⟨"c", .fadeOut, 1e308⟩

theorem unending_never_back :
    unending.Lasting 1e308 ∧ ∃ x y, unending.opacityAt? 1e308 1.2e308 = some x ∧
      unending.opacityAt? 1e308 (1.0 / 0.0) = some y ∧ y ≤ x := by
  have lasting : unending.Lasting 1e308 :=
    ⟨by decide +kernel, by decide +kernel, by decide +kernel⟩
  exact ⟨lasting, fade_never_back lasting (by decide +kernel) (by decide +kernel)⟩

end Storyboard
