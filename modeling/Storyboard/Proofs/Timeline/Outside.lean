import Storyboard.Proofs.Script.Sound
import Storyboard.Proofs.Timeline.Bounds

/-!
# Outside all fades

With finite times and lengths that are not negative, no fade says anything before the first event,
and after the last end every fade gives its terminal opacity. So a scene stands still before
(`statesAt_before`) and after (`statesAt_after`).
-/

namespace Storyboard

open Double

variable {start t u : Float} {id : String}

/-- Times and lengths are finite, and no length is negative. -/
structure Scene.Timed (s : Scene) : Prop where
  time : ∀ e ∈ s.timeline, e.time.isFinite
  duration : ∀ e ∈ s.timeline, ∀ f, .fade f ∈ e.commands → IsLength f.duration

/-- The time is below those of all events. -/
def Scene.BeforeFades (s : Scene) (t : Float) : Prop :=
  ∀ e ∈ s.timeline, t < e.time

/-- The time is above the ends of all fades. -/
def Scene.AfterFades (s : Scene) (t : Float) : Prop :=
  ∀ e ∈ s.timeline, ∀ f, .fade f ∈ e.commands → e.time + f.duration < t

/-- The last declared fade of the elements named `id`. -/
def Scene.lastFade? (s : Scene) (id : String) : Option Fade :=
  (((fadesOf s.timeline).map (·.2)).filter (·.target = id)).getLast?

/-- The opacity of the elements named `id` once all fades are over. -/
def Scene.settledOpacity (s : Scene) (id : String) : Float :=
  match s.lastFade? id with
  | some f => f.direction.terminal
  | none => 1.0

/-- A fade does not end before it starts; its end may be infinite. -/
theorem start_le_end (hs : start.isFinite) {d : Float} (length : IsLength d) : start ≤ start + d := by
  have nonneg := (le_iff_valueOf isFinite_zero length.finite).1 length.nonneg
  rw [valueOf_zero] at nonneg
  apply (isRounded_valueOf hs).le (isRounded_add hs length.finite)
  linarith

namespace Fade

variable {f : Fade}

theorem opacityAt?_eq_none (early : ¬ start ≤ t) (late : ¬ start + f.duration < t) :
    f.opacityAt? start t = none := by
  rw [opacityAt?]
  by_cases instant : (f.duration == 0.0) = true
  · rw [if_pos instant, if_neg early]
  · rw [if_neg instant, if_neg fun during => early during.1, if_neg late]

theorem opacityAt?_eq_terminal (begun : start ≤ t) (passed : start + f.duration < t) :
    f.opacityAt? start t = some f.direction.terminal := by
  rw [opacityAt?]
  by_cases instant : (f.duration == 0.0) = true
  · rw [if_pos instant, if_pos begun]
  · rw [if_neg instant, if_neg fun during => not_le_of_lt passed during.2, if_pos passed]

theorem opacityAt?_before (hs : start.isFinite) (length : IsLength f.duration)
    (before : t < start) : f.opacityAt? start t = none := by
  have early : ¬ start ≤ t := not_le_of_lt before
  -- Its end is not before its start.
  exact opacityAt?_eq_none early fun passed =>
    early (le_trans (start_le_end hs length) (le_of_lt passed))

/-- After its end a fade says its terminal opacity. -/
theorem opacityAt?_after (hs : start.isFinite) (length : IsLength f.duration)
    (after : start + f.duration < t) : f.opacityAt? start t = some f.direction.terminal :=
  opacityAt?_eq_terminal (le_trans (start_le_end hs length) (le_of_lt after)) after

end Fade

namespace Scene

variable {s : Scene}

/-- No fade says anything about the time. -/
def Untouched (s : Scene) (t : Float) : Prop :=
  ∀ e ∈ s.timeline, ∀ f, .fade f ∈ e.commands → f.opacityAt? e.time t = none

/-- Every fade has come to its terminal opacity. -/
def Settled (s : Scene) (t : Float) : Prop :=
  ∀ e ∈ s.timeline, ∀ f, .fade f ∈ e.commands →
    f.opacityAt? e.time t = some f.direction.terminal

/-- An element that no fade has reached yet is opaque. -/
theorem lastOpacity_untouched (untouched : s.Untouched t) : s.lastOpacity id t = 1.0 := by
  have none_given : opacitiesOf id t (fadesOf s.timeline) = [] := by
    apply List.eq_nil_iff_forall_not_mem.2
    intro x mem
    obtain ⟨start, f, listed, -, given⟩ := mem_opacitiesOf.1 mem
    obtain ⟨e, at_start, command, rfl⟩ := mem_fadesOf.1 listed
    rw [untouched e at_start f command] at given
    cases given
  rw [lastOpacity, none_given]
  rfl

/-- Once all fades are over, each of an id says its terminal opacity. -/
theorem opacitiesOf_settled (settled : s.Settled t) :
    opacitiesOf id t (fadesOf s.timeline) =
      (((fadesOf s.timeline).map (·.2)).filter (·.target = id)).map (·.direction.terminal) := by
  have decided : ∀ fade ∈ fadesOf s.timeline,
      fade.2.opacityAt? fade.1 t = some fade.2.direction.terminal := by
    rintro ⟨start, f⟩ mem
    obtain ⟨e, listed, command, rfl⟩ := mem_fadesOf.1 mem
    exact settled e listed f command
  rw [opacitiesOf]
  generalize fadesOf s.timeline = fades at decided
  induction fades with
  | nil => rfl
  | cons fade fades ih =>
    have rest := ih fun fade mem => decided fade (List.mem_cons_of_mem _ mem)
    have first := decided fade List.mem_cons_self
    by_cases same : fade.2.target = id
    · simp [same, first, rest]
    · simp [same, rest]

theorem lastOpacity_settled (settled : s.Settled t) : s.lastOpacity id t = s.settledOpacity id := by
  rw [lastOpacity, opacitiesOf_settled settled, List.getLast?_map, settledOpacity, lastFade?]
  cases (((fadesOf s.timeline).map (·.2)).filter (·.target = id)).getLast? <;> rfl

theorem statesAt_untouched (untouched : s.Untouched t) :
    s.statesAt t = s.elements.map Element.initialState := by
  rw [statesAt_eq_statesFrom, initial_eq_statesFrom]
  exact statesFrom_congr fun e _ => lastOpacity_untouched untouched

theorem statesAt_settled (settled : s.Settled t) :
    s.statesAt t = statesFrom s.settledOpacity s.elements := by
  rw [statesAt_eq_statesFrom]
  exact statesFrom_congr fun e _ => lastOpacity_settled settled

/-- Before its first event a scene shows its elements as they are declared. -/
theorem statesAt_before (timed : s.Timed) (before : s.BeforeFades t) :
    s.statesAt t = s.elements.map Element.initialState :=
  statesAt_untouched fun e listed f command =>
    f.opacityAt?_before (timed.time e listed) (timed.duration e listed f command) (before e listed)

/-- After the last end of a fade a scene shows terminal opacities. -/
theorem statesAt_after (timed : s.Timed) (after : s.AfterFades t) :
    s.statesAt t = statesFrom s.settledOpacity s.elements :=
  statesAt_settled fun e listed f command =>
    f.opacityAt?_after (timed.time e listed) (timed.duration e listed f command)
      (after e listed f command)

/-- Two times on the same side of all fades. -/
def SameSide (s : Scene) (t u : Float) : Prop :=
  s.BeforeFades t ∧ s.BeforeFades u ∨ s.AfterFades t ∧ s.AfterFades u

theorem statesAt_same (timed : s.Timed) (same : s.SameSide t u) : s.statesAt t = s.statesAt u := by
  rcases same with ⟨first, second⟩ | ⟨first, second⟩
  · rw [statesAt_before timed first, statesAt_before timed second]
  · rw [statesAt_after timed first, statesAt_after timed second]

end Scene
end Storyboard
