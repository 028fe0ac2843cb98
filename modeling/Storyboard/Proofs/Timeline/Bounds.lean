import Storyboard.Proofs.Double.Arithmetic
import Storyboard.Proofs.Timeline.LastFade

/-!
# Opacity stays between 0 and 1

A fade divides the time since its start by its length. The length may be negative or tiny, and both
the difference and the quotient may overflow. Main statement: with finite times and lengths every
opacity is a number from 0 to 1, at any time at all (`opacity_inUnit`).
-/

namespace Storyboard

open Double

/-- A number from 0 to 1; a negative zero is one too. -/
structure InUnit (x : Float) : Prop where
  number : x.isNaN = false
  nonneg : 0.0 ≤ x
  le_one : x ≤ 1.0

/-- Times and lengths are finite. They may be negative. -/
structure Scene.FiniteTimes (s : Scene) : Prop where
  time : ∀ e ∈ s.timeline, e.time.isFinite
  duration : ∀ e ∈ s.timeline, ∀ f, .fade f ∈ e.commands → f.duration.isFinite

theorem inUnit_zero : InUnit 0.0 :=
  ⟨rfl, by decide, by decide⟩

theorem inUnit_one : InUnit 1.0 :=
  ⟨rfl, by decide, by decide⟩

theorem Direction.inUnit_terminal (d : Direction) : InUnit d.terminal := by
  cases d with
  | fadeIn => exact inUnit_one
  | fadeOut => exact inUnit_zero

variable {x start t : Float}

theorem inUnit_clampUnit (number : x.isNaN = false) : InUnit (clampUnit x) := by
  unfold clampUnit
  by_cases below : x < 0.0
  · rw [if_pos below]
    exact inUnit_zero
  · rw [if_neg below]
    have nonneg := le_of_not_lt number inUnit_zero.number below
    by_cases above : 1.0 < x
    · rw [if_pos above]
      exact inUnit_one
    · rw [if_neg above]
      exact ⟨number, nonneg, le_of_not_lt inUnit_one.number number above⟩

theorem InUnit.isFinite (unit : InUnit x) : x.isFinite :=
  isFinite_of_le isFinite_zero isFinite_one unit.number unit.nonneg unit.le_one

/-- What is left of 1 is rounded, and both ends of the interval are doubles. -/
theorem InUnit.complement (unit : InUnit x) : InUnit (1.0 - x) := by
  have finite := unit.isFinite
  have nonneg : 0 ≤ valueOf x := (le_iff_valueOf isFinite_zero finite).1 unit.nonneg
  have le_one := (le_iff_valueOf finite isFinite_one).1 unit.le_one
  have rounded := isRounded_sub isFinite_one finite
  rw [valueOf_one] at rounded le_one
  refine ⟨rounded.isNaN, ?_, ?_⟩
  · apply (isRounded_valueOf isFinite_zero).le rounded
    rw [valueOf_zero]
    linarith
  · apply rounded.le (isRounded_valueOf isFinite_one)
    rw [valueOf_one]
    linarith

namespace Fade

variable {f : Fade}

/-- The quotient is a number, since only a time that is one is compared with the start. -/
theorem inUnit_progress (hs : start.isFinite) (hd : f.duration.isFinite)
    (long : (f.duration == 0.0) = false) (begun : start ≤ t) :
    InUnit (clampUnit ((t - start) / f.duration)) := by
  have elapsed := isNaN_sub (isNaN_of_le begun).2 hs
  exact inUnit_clampUnit (isNaN_div elapsed hd (valueOf_ne_zero hd long))

/-- Whatever a fade says about an instant is an opacity. -/
theorem inUnit_opacityAt? (hs : start.isFinite) (hd : f.duration.isFinite)
    (given : f.opacityAt? start t = some x) : InUnit x := by
  rw [opacityAt?] at given
  cases long : f.duration == 0.0 with
  | true =>
    rw [long, if_pos rfl] at given
    split at given
    · cases given
      exact f.direction.inUnit_terminal
    · cases given
  | false =>
    rw [long, if_neg Bool.false_ne_true] at given
    split at given
    · rename_i during
      have progress := inUnit_progress hs hd long during.1
      cases hdir : f.direction with
      | fadeIn =>
        rw [hdir] at given
        cases given
        exact progress
      | fadeOut =>
        rw [hdir] at given
        cases given
        exact progress.complement
    · split at given
      · cases given
        exact f.direction.inUnit_terminal
      · cases given

end Fade

/-- An element that no fade reaches keeps opacity 1, which is an opacity too. -/
theorem inUnit_lastOpacity {s : Scene} (finite : s.FiniteTimes) (id : String) (t : Float) :
    InUnit (s.lastOpacity id t) := by
  rw [Scene.lastOpacity]
  cases last : (opacitiesOf id t (fadesOf s.timeline)).getLast? with
  | none => exact inUnit_one
  | some x =>
    obtain ⟨start, f, listed, -, given⟩ := mem_opacitiesOf.1 (List.mem_of_getLast? last)
    obtain ⟨e, at_start, command, rfl⟩ := mem_fadesOf.1 listed
    exact f.inUnit_opacityAt? (finite.time e at_start) (finite.duration e at_start f command) given

theorem inUnit_statesFrom {opacity : String → Float} (units : ∀ id, InUnit (opacity id))
    (elements : List Element) : ∀ state ∈ statesFrom opacity elements, InUnit state.opacity := by
  induction elements with
  | nil =>
    intro state none
    cases none
  | cons e rest ih =>
    intro state mem
    rcases List.mem_cons.1 mem with rfl | later
    · dsimp only
      split
      · exact inUnit_one
      · exact units e.id
    · exact ih state later

/-- Whatever the time, opacities are numbers from 0 to 1. -/
theorem opacity_inUnit {s : Scene} (finite : s.FiniteTimes) (t : Float) :
    ∀ state ∈ s.statesAt t, InUnit state.opacity := by
  rw [statesAt_eq_statesFrom]
  exact inUnit_statesFrom (inUnit_lastOpacity finite · t) s.elements

/-- A fade of negative length, and one that ends at infinity. -/
def strained : Scene :=
  ⟨"s", 2.0, none, [⟨"c", ⟨0.0, 0.0⟩, .circle 1.0⟩],
    [⟨1.0, [.fade ⟨"c", .fadeIn, -1e-300⟩]⟩, ⟨1e308, [.fade ⟨"c", .fadeOut, 1e308⟩]⟩]⟩

/-- The first length is lost in rounding, so its fade is reached at its start. -/
theorem strained_inUnit :
    strained.FiniteTimes ∧ (∀ state ∈ strained.statesAt 1.0, InUnit state.opacity) ∧
      ∀ state ∈ strained.statesAt (0.0 / 0.0), InUnit state.opacity := by
  have finite : strained.FiniteTimes := by
    refine ⟨by decide +kernel, ?_⟩
    exact (forall_fadesOf (P := fun _ f => f.duration.isFinite)).1 (by decide +kernel)
  exact ⟨finite, opacity_inUnit finite 1.0, opacity_inUnit finite (0.0 / 0.0)⟩

end Storyboard
