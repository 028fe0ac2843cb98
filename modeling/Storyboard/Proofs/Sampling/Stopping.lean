import Storyboard.Proofs.Sampling.Steady
import Storyboard.Sampling.Refusal

namespace Storyboard

/-- Keeps what it is handed, and answers by all it has been handed, the new delivery included. -/
def wary (answer : List Delivery → Option Failure) : Sink (StateM (List Delivery)) := fun d => do
  steady record d
  match answer (← getThe (List Delivery)) with
  | some e => throw e
  | none => return ()

/-- The result of a run on a sink that keeps its deliveries, and the deliveries in order. -/
def logged {α : Type} (run : ExceptT Failure (StateM (List Delivery)) α) :
    Except Failure α × List Delivery :=
  run.run.run []

variable {answer : List Delivery → Option Failure} {before deliveries : List Delivery} {e : Failure}

theorem forM_record : (forM deliveries record).run before = ((), before ++ deliveries) := by
  induction deliveries generalizing before with
  | nil =>
    rw [List.append_nil]
    rfl
  | cons d deliveries ih =>
    rw [List.forM_cons]
    change (forM deliveries record).run (before ++ [d]) = _
    rw [ih, List.append_assoc, List.singleton_append]

theorem run_wary (d : Delivery) :
    (wary answer d).run.run before =
      ((match answer (before ++ [d]) with
        | some e => .error e
        | none => .ok ()), before ++ [d]) := by
  change (match answer (before ++ [d]) with
    | some e => throw e
    | none => return () : ExceptT Failure (StateM (List Delivery)) Unit).run.run (before ++ [d]) = _
  cases answer (before ++ [d]) <;> rfl

/-- A delivery that is refused is the last one. -/
theorem forM_wary_cons (d : Delivery) :
    (forM (d :: deliveries) (wary answer)).run.run before =
      match answer (before ++ [d]) with
      | some e => (.error e, before ++ [d])
      | none => (forM deliveries (wary answer)).run.run (before ++ [d]) := by
  rw [List.forM_cons, ExceptT.run_bind, StateT.run_bind, run_wary]
  cases answer (before ++ [d]) <;> rfl

theorem forM_wary_accepts
    (accepts : ∀ j < deliveries.length, answer (before ++ deliveries.take (j + 1)) = none) :
    (forM deliveries (wary answer)).run.run before = (.ok (), before ++ deliveries) := by
  induction deliveries generalizing before with
  | nil =>
    rw [List.append_nil]
    rfl
  | cons d deliveries ih =>
    have first : answer (before ++ [d]) = none := accepts 0 (Nat.succ_pos _)
    rw [forM_wary_cons, first]
    simp only
    rw [ih, List.append_assoc, List.singleton_append]
    intro j inside
    have := accepts (j + 1) (Nat.succ_lt_succ inside)
    simpa using this

theorem forM_wary_refuses {k : Nat} (inside : k < deliveries.length)
    (accepts : ∀ j < k, answer (before ++ deliveries.take (j + 1)) = none)
    (refuses : answer (before ++ deliveries.take (k + 1)) = some e) :
    (forM deliveries (wary answer)).run.run before =
      (.error e, before ++ deliveries.take (k + 1)) := by
  induction deliveries generalizing before k with
  | nil => cases inside
  | cons d deliveries ih =>
    rw [forM_wary_cons]
    cases k with
    | zero =>
      have first : answer (before ++ [d]) = some e := refuses
      rw [first]
      rfl
    | succ k =>
      have first : answer (before ++ [d]) = none := accepts 0 (Nat.succ_pos _)
      rw [first]
      simp only
      rw [ih (k := k)]
      · simp
      · exact Nat.lt_of_succ_lt_succ inside
      · intro j below
        simpa using accepts (j + 1) (Nat.succ_lt_succ below)
      · simpa using refuses

theorem logged_follow_record (c : Course) :
    logged (c.follow (steady record)) = (c.outcome, c.deliveries) := by
  rw [logged, Course.follow_steady, StateT.run_bind, forM_record]
  rfl

theorem run_follow {σ : Type} (c : Course) (sink : Sink (StateM σ)) (start : σ) :
    (c.follow sink).run.run start =
      match (forM c.deliveries sink).run.run start with
      | (.ok _, last) => (c.outcome, last)
      | (.error e, last) => (.error e, last) := by
  obtain ⟨deliveries, outcome⟩ := c
  rw [Course.follow, ExceptT.run_bind, StateT.run_bind, List.forM_eq_forM]
  cases (forM deliveries sink).run.run start with
  | mk result last => cases result <;> cases outcome <;> rfl

theorem follow_stops (c : Course) {k : Nat}
    (accepts : ∀ j < k, j < c.deliveries.length → answer (c.deliveries.take (j + 1)) = none)
    (refuses : k < c.deliveries.length → answer (c.deliveries.take (k + 1)) = some e) :
    logged (c.follow (wary answer)) =
      if k < c.deliveries.length then (.error e, c.deliveries.take (k + 1))
      else (c.outcome, c.deliveries) := by
  rw [logged, run_follow]
  by_cases inside : k < c.deliveries.length
  · have run : (forM c.deliveries (wary answer)).run.run [] =
        (.error e, c.deliveries.take (k + 1)) :=
      forM_wary_refuses inside (fun j below => accepts j below (Nat.lt_trans below inside))
        (refuses inside)
    rw [run, if_pos inside]
  · have run : (forM c.deliveries (wary answer)).run.run [] = (.ok (), c.deliveries) :=
      forM_wary_accepts fun j below =>
        accepts j (Nat.lt_of_lt_of_le below (Nat.le_of_not_lt inside)) below
    rw [run, if_neg inside]

/-- `never` is the run on a sink that never fails. A sink that accepts the first `k` of its
deliveries and refuses the next sees that one last. -/
theorem sample_stops (s : Session) (target : Option Nat) (answer : List Delivery → Option Failure)
    (k : Nat) (e : Failure) {outcome : Except Failure Stats} {deliveries : List Delivery}
    (never : logged (s.sample (steady record) target) = (outcome, deliveries))
    (accepts : ∀ j < k, j < deliveries.length → answer (deliveries.take (j + 1)) = none)
    (refuses : k < deliveries.length → answer (deliveries.take (k + 1)) = some e) :
    logged (s.sample (wary answer) target) =
      if k < deliveries.length then (.error e, deliveries.take (k + 1))
      else (outcome, deliveries) := by
  rw [Session.sample_eq_follow, logged_follow_record] at never
  cases never
  rw [Session.sample_eq_follow]
  exact follow_stops (s.course target) accepts refuses

/-- Refuses the delivery number `k`, counted from 0, and no other. -/
def refusesAt (k : Nat) (e : Failure) (given : List Delivery) : Option Failure :=
  if given.length = k + 1 then some e else none

theorem refusesAt_before {k j : Nat} (deliveries : List Delivery) (below : j < k) :
    refusesAt k e (deliveries.take (j + 1)) = none := by
  rw [refusesAt, if_neg]
  rw [List.length_take]
  omega

theorem refusesAt_take {k : Nat} (inside : k < deliveries.length) :
    refusesAt k e (deliveries.take (k + 1)) = some e := by
  rw [refusesAt, if_pos]
  rw [List.length_take]
  omega

theorem short_stops :
    let run := logged (Session.short.sample (steady record) none)
    logged (Session.short.sample (wary (refusesAt 2 (.transfer "full"))) none) =
      (.error (.transfer "full"), run.2.take 3) := by
  have never : logged (Session.short.sample (steady record) none) =
      ((Session.short.course none).outcome, (Session.short.course none).deliveries) := by
    rw [Session.sample_eq_follow, logged_follow_record]
  have long : (Session.short.course none).deliveries.length = 5 := by
    rw [Session.course_none Session.short_plan fun _ _ => Session.short_listable]
    rfl
  rw [sample_stops Session.short none _ 2 (.transfer "full") never, never]
  · exact if_pos (by omega)
  · exact fun j below _ => refusesAt_before _ below
  · exact refusesAt_take

namespace Refusal

/-- The refusal of the delivery number `k`, after these deliveries. -/
def after (k : Nat) (e : Failure) (given : List Delivery) : Refusal :=
  ⟨given.reverse, some k, e⟩

theorem run_sink (k : Nat) (e : Failure) (d : Delivery) (given : List Delivery) :
    (sink d).run.run (after k e given) =
      ((match refusesAt k e (given ++ [d]) with
        | some e => .error e
        | none => .ok ()), after k e (given ++ [d])) := by
  have next : after k e (given ++ [d]) = ⟨d :: given.reverse, some k, e⟩ := by
    rw [after, List.reverse_append]
    rfl
  change (if some k = some given.reverse.length then throw e else pure () :
    ExceptT Failure (StateM Refusal) Unit).run.run ⟨d :: given.reverse, some k, e⟩ = _
  rw [next, refusesAt]
  by_cases last : k = given.length
  · subst last
    rw [if_pos (by rw [List.length_reverse]), if_pos (by rw [List.length_append]; rfl)]
    rfl
  · have other : ¬ some k = some given.reverse.length := by simpa using last
    have longer : ¬ (given ++ [d]).length = k + 1 := by simpa using Ne.symm last
    rw [if_neg other, if_neg longer]
    rfl

theorem forM_sink (k : Nat) (e : Failure) (deliveries given : List Delivery) :
    (forM deliveries sink).run.run (after k e given) =
      ((forM deliveries (wary (refusesAt k e))).run.run given).map id (after k e) := by
  induction deliveries generalizing given with
  | nil => rfl
  | cons d deliveries ih =>
    rw [forM_wary_cons, List.forM_cons, ExceptT.run_bind, StateT.run_bind, run_sink]
    cases refusesAt k e (given ++ [d]) with
    | some e => rfl
    | none => exact ih (given ++ [d])

/-- The sink sees the start of the run on a sink that never fails, and the run ends with its failure
if it gets that far. -/
theorem sample_sink (s : Session) (target : Option Nat) (k : Nat) (e : Failure) :
    let c := s.course target
    (s.sample sink target).run.run (after k e []) =
      if k < c.deliveries.length then (.error e, after k e (c.deliveries.take (k + 1)))
      else (c.outcome, after k e c.deliveries) := by
  intro c
  have stops : logged (c.follow (wary (refusesAt k e))) = _ :=
    follow_stops c (fun j below _ => refusesAt_before _ below) refusesAt_take
  have same : (c.follow sink).run.run (after k e []) =
      (logged (c.follow (wary (refusesAt k e)))).map id (after k e) := by
    rw [logged, run_follow, run_follow, forM_sink]
    cases (forM c.deliveries (wary (refusesAt k e))).run.run [] with
    | mk result given => cases result <;> rfl
  rw [Session.sample_eq_follow, same, stops, apply_ite (Prod.map id (after k e))]
  rfl

end Refusal
end Storyboard
