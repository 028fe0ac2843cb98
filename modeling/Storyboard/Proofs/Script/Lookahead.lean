import Storyboard.Proofs.Script.Reading

/-!
# One token of lookahead

No reader looks further than the first token that it does not take, and that is the token which a
mismatch stands at. Main statement: so does the reader of whole scripts
(`program_looksOneAhead`).
-/

namespace Storyboard.Script.Reader

variable {α β : Type} {ts mid rest : List Token}

section Steps

variable {r : Reader α} {f : α → Reader β} {a : α} {m : Mismatch}

theorem bind_of_ok (read : r ts = .ok (a, mid)) : (r >>= f) ts = f a mid := by
  change (r ts >>= fun p => f p.1 p.2) = _
  rw [read]
  rfl

theorem bind_of_error (failed : r ts = .error m) : (r >>= f) ts = .error m := by
  change (r ts >>= fun p => f p.1 p.2) = _
  rw [failed]
  rfl

theorem take_of_error {construct : String} {judge : Token → Verdict α}
    (failed : take construct judge ts = .error m) : m.left = ts.length := by
  cases ts with
  | nil =>
    cases failed
    rfl
  | cons t ts =>
    simp only [take] at failed
    split at failed
    · cases failed
    · cases failed
      rfl
    · cases failed
      rfl

variable {item : Reader α} {progress : Progresses item} {stop : Option Token → Bool} {close : Mark}

theorem repeatUntil_of_stop (stops : stop ts.head? = true) :
    repeatUntil stop item progress ts = .ok ([], ts) := by
  rw [repeatUntil, if_pos stops]

theorem repeatUntil_of_error (goes : stop ts.head? = false) (failed : item ts = .error m) :
    repeatUntil stop item progress ts = .error m := by
  rw [repeatUntil, if_neg (Bool.eq_false_iff.1 goes)]
  split
  · rename_i m' read
    cases failed.symm.trans read
    rfl
  · rename_i read
    cases failed.symm.trans read

theorem repeatUntil_of_ok (goes : stop ts.head? = false) (read : item ts = .ok (a, mid)) :
    repeatUntil stop item progress ts =
      (repeatUntil stop item progress mid).map fun (as, rest) => (a :: as, rest) := by
  rw [repeatUntil, if_neg (Bool.eq_false_iff.1 goes)]
  split
  · rename_i failed
    cases read.symm.trans failed
  · rename_i read'
    cases read.symm.trans read'
    rfl

theorem separated_of_close (closes : ts.head? = some (.mark close)) :
    separated close item progress ts = .ok ([], ts) := by
  rw [separated, if_pos closes]

theorem separated_of_error (goes : ts.head? ≠ some (.mark close)) (failed : item ts = .error m) :
    separated close item progress ts = .error m := by
  rw [separated, if_neg goes]
  split
  · rename_i m' read
    cases failed.symm.trans read
    rfl
  · rename_i read
    cases failed.symm.trans read
  · rename_i read
    cases failed.symm.trans read

theorem separated_of_comma (goes : ts.head? ≠ some (.mark close))
    (read : item ts = .ok (a, .mark .comma :: rest)) :
    separated close item progress ts =
      (separated close item progress rest).map fun (as, rest) => (a :: as, rest) := by
  rw [separated, if_neg goes]
  split
  · rename_i failed
    cases read.symm.trans failed
  · rename_i read'
    cases read.symm.trans read'
    rfl
  · rename_i other read'
    cases read.symm.trans read'
    exact absurd rfl (other _)

theorem separated_of_last (goes : ts.head? ≠ some (.mark close)) (read : item ts = .ok (a, rest))
    (other : rest.head? ≠ some (.mark .comma)) :
    separated close item progress ts = .ok ([a], rest) := by
  rw [separated, if_neg goes]
  split
  · rename_i failed
    cases read.symm.trans failed
  · rename_i read'
    cases read.symm.trans read'
    exact absurd rfl other
  · rename_i read'
    cases read.symm.trans read'
    rfl

end Steps

/-- What a reader gives that stops with `rest` left. -/
def stopAt (rest : List Token) : Except Cause α → Except Mismatch (α × List Token)
  | .ok a => .ok (a, rest)
  | .error cause => .error ⟨cause, rest.length⟩

/-- How the reader stops depends on nothing after the next token. -/
def LooksOneAhead (r : Reader α) : Prop :=
  ∀ ts, ∃ used rest outcome, ts = used ++ rest ∧
    ∀ rest', rest'.head? = rest.head? → r (used ++ rest') = stopAt rest' outcome

theorem head?_append_congr {used rest rest' : List Token} (same : rest'.head? = rest.head?) :
    (used ++ rest').head? = (used ++ rest).head? := by
  rw [List.head?_append, List.head?_append, same]

theorem pure_looksOneAhead (a : α) : LooksOneAhead (pure a : Reader α) :=
  fun ts => ⟨[], ts, .ok a, rfl, fun _ _ => rfl⟩

theorem take_looksOneAhead (construct : String) (judge : Token → Verdict α) :
    LooksOneAhead (take construct judge) := by
  intro ts
  cases ts with
  | nil =>
    refine ⟨[], [], .error (.expected construct none), rfl, ?_⟩
    intro rest' same
    rw [List.head?_eq_none_iff.1 same]
    rfl
  | cons t ts =>
    cases verdict : judge t with
    | accept a =>
      refine ⟨[t], ts, .ok a, rfl, ?_⟩
      intro rest' _
      simp only [List.singleton_append, take, verdict, stopAt]
    | refuse cause =>
      refine ⟨[], t :: ts, .error cause, rfl, ?_⟩
      intro rest' same
      obtain ⟨later, rfl⟩ := List.head?_eq_some_iff.1 same
      simp only [List.nil_append, take, verdict, stopAt, List.length_cons]
    | unexpected =>
      refine ⟨[], t :: ts, .error (.expected construct (some t)), rfl, ?_⟩
      intro rest' same
      obtain ⟨later, rfl⟩ := List.head?_eq_some_iff.1 same
      simp only [List.nil_append, take, verdict, stopAt, List.length_cons]

theorem skipComma_looksOneAhead : LooksOneAhead skipComma := by
  intro ts
  by_cases comma : ts.head? = some (.mark .comma)
  · obtain ⟨later, rfl⟩ := List.head?_eq_some_iff.1 comma
    exact ⟨[.mark .comma], later, .ok (), rfl, fun _ _ => rfl⟩
  · refine ⟨[], ts, .ok (), rfl, ?_⟩
    intro rest' same
    rw [← same] at comma
    exact skipComma_eq_ok.2 ⟨false, rfl, fun _ => comma⟩

theorem LooksOneAhead.bind {r : Reader α} {f : α → Reader β} (hr : LooksOneAhead r)
    (hf : ∀ a, LooksOneAhead (f a)) : LooksOneAhead (r >>= f) := by
  intro ts
  obtain ⟨used, mid, first, rfl, reads⟩ := hr ts
  cases first with
  | error cause =>
    refine ⟨used, mid, .error cause, rfl, ?_⟩
    intro rest' same
    exact bind_of_error (reads rest' same)
  | ok a =>
    obtain ⟨more, rest, outcome, rfl, ends⟩ := hf a mid
    refine ⟨used ++ more, rest, outcome, (List.append_assoc ..).symm, ?_⟩
    intro rest' same
    rw [List.append_assoc, bind_of_ok (reads _ (head?_append_congr same))]
    exact ends rest' same

/-- A loop decides by the next token whether it goes on. -/
theorem repeatUntil_looksOneAhead (stop : Option Token → Bool) {item : Reader α}
    (progress : Progresses item) (looks : LooksOneAhead item) :
    LooksOneAhead (repeatUntil stop item progress) := by
  intro ts
  fun_induction repeatUntil stop item progress ts with
  | case1 ts stops =>
    refine ⟨[], ts, .ok [], rfl, ?_⟩
    intro rest' same
    exact repeatUntil_of_stop (by rw [List.nil_append, same, stops])
  | case2 ts goes m read =>
    obtain ⟨used, rest, outcome, rfl, reads⟩ := looks ts
    cases outcome with
    | ok a => cases read.symm.trans (reads rest rfl)
    | error cause =>
      refine ⟨used, rest, .error cause, rfl, ?_⟩
      intro rest' same
      rw [← head?_append_congr same, Bool.not_eq_true] at goes
      exact repeatUntil_of_error goes (reads rest' same)
  | case3 ts goes a mid read ih =>
    obtain ⟨used, _, outcome, rfl, reads⟩ := looks ts
    cases outcome with
    | error cause => cases read.symm.trans (reads _ rfl)
    | ok b =>
      cases read.symm.trans (reads _ rfl)
      obtain ⟨more, rest, outcome, rfl, ends⟩ := ih
      refine ⟨used ++ more, rest, outcome.map (a :: ·), (List.append_assoc ..).symm, ?_⟩
      intro rest' same
      have same' : (more ++ rest').head? = (more ++ rest).head? := head?_append_congr same
      rw [← head?_append_congr same', Bool.not_eq_true] at goes
      rw [List.append_assoc, repeatUntil_of_ok goes (reads _ same'), ends rest' same]
      cases outcome <;> rfl

theorem separated_looksOneAhead (close : Mark) {item : Reader α} (progress : Progresses item)
    (looks : LooksOneAhead item) : LooksOneAhead (separated close item progress) := by
  intro ts
  fun_induction separated close item progress ts with
  | case1 ts closes =>
    refine ⟨[], ts, .ok [], rfl, ?_⟩
    intro rest' same
    exact separated_of_close (by rw [List.nil_append, same, closes])
  | case2 ts goes m read =>
    obtain ⟨used, rest, outcome, rfl, reads⟩ := looks ts
    cases outcome with
    | ok a => cases read.symm.trans (reads rest rfl)
    | error cause =>
      refine ⟨used, rest, .error cause, rfl, ?_⟩
      intro rest' same
      rw [← head?_append_congr same] at goes
      exact separated_of_error goes (reads rest' same)
  | case3 ts goes a mid read ih =>
    obtain ⟨used, _, outcome, rfl, reads⟩ := looks ts
    cases outcome with
    | error cause => cases read.symm.trans (reads _ rfl)
    | ok b =>
      cases read.symm.trans (reads _ rfl)
      obtain ⟨more, rest, outcome, rfl, ends⟩ := ih
      refine ⟨used ++ .mark .comma :: more, rest, outcome.map (a :: ·), ?_, fun rest' same => ?_⟩
      · rw [List.append_assoc, List.cons_append]
      · have read' : item (used ++ (.mark .comma :: (more ++ rest'))) =
            .ok (a, .mark .comma :: (more ++ rest')) := reads _ rfl
        have next : (used ++ (.mark .comma :: (more ++ rest'))).head? ≠ some (.mark close) :=
          fun closes => goes ((head?_append_congr (by rfl)).symm.trans closes)
        rw [List.append_assoc, List.cons_append, separated_of_comma next read', ends rest' same]
        cases outcome <;> rfl
  | case4 ts goes a mid other read =>
    obtain ⟨used, _, outcome, rfl, reads⟩ := looks ts
    cases outcome with
    | error cause => cases read.symm.trans (reads _ rfl)
    | ok b =>
      cases read.symm.trans (reads _ rfl)
      refine ⟨used, _, .ok [a], rfl, ?_⟩
      intro rest' same
      rw [← head?_append_congr same] at goes
      refine separated_of_last goes (reads rest' same) fun comma => ?_
      obtain ⟨later, eq⟩ := List.head?_eq_some_iff.1 (same.symm.trans comma)
      exact other later eq

theorem point_looksOneAhead : LooksOneAhead point :=
  (take_looksOneAhead _ _).bind fun _ => (take_looksOneAhead _ _).bind fun _ =>
    (take_looksOneAhead _ _).bind fun _ => (take_looksOneAhead _ _).bind fun _ =>
      (take_looksOneAhead _ _).bind fun _ => pure_looksOneAhead _

theorem argument_looksOneAhead (s : Shape) : LooksOneAhead (argument s) := by
  refine (take_looksOneAhead _ _).bind fun name => (take_looksOneAhead _ _).bind fun _ => ?_
  cases name with
  | id => exact (take_looksOneAhead _ _).bind fun _ => pure_looksOneAhead _
  | anchor => exact point_looksOneAhead.bind fun _ => pure_looksOneAhead _
  | content => exact (take_looksOneAhead _ _).bind fun _ => pure_looksOneAhead _
  | radius => exact (take_looksOneAhead _ _).bind fun _ => pure_looksOneAhead _

theorem element_looksOneAhead : LooksOneAhead element :=
  (take_looksOneAhead _ _).bind fun s => (take_looksOneAhead _ _).bind fun _ =>
    (separated_looksOneAhead _ _ (argument_looksOneAhead s)).bind fun _ => take_looksOneAhead _ _

theorem fade_looksOneAhead : LooksOneAhead fade :=
  (take_looksOneAhead _ _).bind fun _ => (take_looksOneAhead _ _).bind fun _ =>
    (take_looksOneAhead _ _).bind fun _ => (take_looksOneAhead _ _).bind fun _ =>
      (take_looksOneAhead _ _).bind fun _ => (take_looksOneAhead _ _).bind fun _ =>
        (take_looksOneAhead _ _).bind fun _ => (take_looksOneAhead _ _).bind fun _ =>
          (take_looksOneAhead _ _).bind fun _ => skipComma_looksOneAhead.bind fun _ =>
            (take_looksOneAhead _ _).bind fun _ => pure_looksOneAhead _

theorem command_looksOneAhead : LooksOneAhead command :=
  fade_looksOneAhead.bind fun _ => skipComma_looksOneAhead.bind fun _ => pure_looksOneAhead _

theorem block_looksOneAhead (what : String) {item : Reader α} (progress : Progresses item)
    (looks : LooksOneAhead item) : LooksOneAhead (block what item progress) :=
  (take_looksOneAhead _ _).bind fun _ => (repeatUntil_looksOneAhead _ _ looks).bind fun _ =>
    (take_looksOneAhead _ _).bind fun _ => pure_looksOneAhead _

theorem event_looksOneAhead : LooksOneAhead event :=
  (take_looksOneAhead _ _).bind fun _ => (take_looksOneAhead _ _).bind fun _ =>
    (block_looksOneAhead _ _ command_looksOneAhead).bind fun _ =>
      skipComma_looksOneAhead.bind fun _ => pure_looksOneAhead _

theorem visual_looksOneAhead : LooksOneAhead visual :=
  element_looksOneAhead.bind fun _ => skipComma_looksOneAhead.bind fun _ => pure_looksOneAhead _

theorem videoProperty_looksOneAhead : LooksOneAhead videoProperty :=
  (take_looksOneAhead _ _).bind fun _ => (take_looksOneAhead _ _).bind fun _ =>
    (take_looksOneAhead _ _).bind fun _ => (take_looksOneAhead _ _).bind fun _ =>
      (take_looksOneAhead _ _).bind fun _ => (take_looksOneAhead _ _).bind fun _ =>
        (take_looksOneAhead _ _).bind fun _ => pure_looksOneAhead _

theorem video_looksOneAhead : LooksOneAhead video :=
  (take_looksOneAhead _ _).bind fun _ => (take_looksOneAhead _ _).bind fun _ =>
    (repeatUntil_looksOneAhead _ _ videoProperty_looksOneAhead).bind fun _ =>
      take_looksOneAhead _ _

theorem sceneProperty_looksOneAhead : LooksOneAhead sceneProperty := by
  refine (take_looksOneAhead _ _).bind fun w => (take_looksOneAhead _ _).bind fun _ => ?_
  cases w with
  | duration => exact (take_looksOneAhead _ _).bind fun _ => pure_looksOneAhead _
  | narration => exact (take_looksOneAhead _ _).bind fun _ => pure_looksOneAhead _
  | visuals =>
    exact (block_looksOneAhead _ _ visual_looksOneAhead).bind fun _ => pure_looksOneAhead _
  | timeline =>
    exact (block_looksOneAhead _ _ event_looksOneAhead).bind fun _ => pure_looksOneAhead _

theorem scene_looksOneAhead : LooksOneAhead scene :=
  (take_looksOneAhead _ _).bind fun _ => (take_looksOneAhead _ _).bind fun _ =>
    (take_looksOneAhead _ _).bind fun _ =>
      (repeatUntil_looksOneAhead _ _ sceneProperty_looksOneAhead).bind fun _ =>
        take_looksOneAhead _ _

/-- No reader of scripts looks further than the next token. -/
theorem program_looksOneAhead : LooksOneAhead program := by
  refine video_looksOneAhead.bind fun canvas =>
    (repeatUntil_looksOneAhead _ _ scene_looksOneAhead).bind fun scenes => ?_
  cases scenes with
  | nil => exact (take_looksOneAhead _ _).bind fun _ => pure_looksOneAhead _
  | cons => exact pure_looksOneAhead _

end Storyboard.Script.Reader
