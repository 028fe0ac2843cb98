import Storyboard.Proofs.Sampling.Stopping
import Storyboard.Proofs.Sampling.Pouring

namespace Storyboard

section Sinks

variable {σ : Type} {sink : Sink (StateM σ)} {start next : σ} {d : Delivery}
  {before after : List Delivery} {e : Failure}

theorem run_cons_ok (first : (sink d).run.run start = (.ok (), next)) :
    (forM (d :: after) sink).run.run start = (forM after sink).run.run next := by
  rw [List.forM_cons, ExceptT.run_bind, StateT.run_bind, first]
  rfl

theorem run_cons_error (first : (sink d).run.run start = (.error e, next)) :
    (forM (d :: after) sink).run.run start = (.error e, next) := by
  rw [List.forM_cons, ExceptT.run_bind, StateT.run_bind, first]
  rfl

theorem run_append_ok (first : (forM before sink).run.run start = (.ok (), next)) :
    (forM (before ++ after) sink).run.run start = (forM after sink).run.run next := by
  induction before generalizing start with
  | nil =>
    cases first
    rfl
  | cons d before ih =>
    rw [List.cons_append]
    cases one : (sink d).run.run start with
    | mk result last =>
      cases result with
      | ok =>
        rw [run_cons_ok one] at first ⊢
        exact ih first
      | error e =>
        rw [run_cons_error one] at first
        cases first

end Sinks

/-- The bytes of a line: the object and a newline. -/
def lineBytes (v : Json) : ByteArray :=
  v.compact.toUTF8 ++ "\n".toUTF8

/-- The bytes of some lines. -/
def textOf (lines : List Json) : ByteArray :=
  joined (lines.map lineBytes)

/-- The lines of the headers and frames among some deliveries. -/
def linesOf (deliveries : List Delivery) : List Json :=
  deliveries.filterMap Delivery.line?

theorem textOf_append (before after : List Json) :
    textOf (before ++ after) = textOf before ++ textOf after := by
  rw [textOf, List.map_append, joined_append]
  rfl

theorem textOf_cons (v : Json) (lines : List Json) :
    textOf (v :: lines) = lineBytes v ++ textOf lines := rfl

theorem linesOf_append (before after : List Delivery) :
    linesOf (before ++ after) = linesOf before ++ linesOf after :=
  List.filterMap_append

theorem linesOf_cons_some {d : Delivery} {v : Json} (line : d.line? = some v)
    (rest : List Delivery) : linesOf (d :: rest) = v :: linesOf rest :=
  List.filterMap_cons_some line

theorem linesOf_cons_none {d : Delivery} (line : d.line? = none) (rest : List Delivery) :
    linesOf (d :: rest) = linesOf rest :=
  List.filterMap_cons_none line

/-- A run into a tank: how it ends, and the tank after it. -/
def poured {α : Type} (run : ExceptT Failure (StateM Tank) α) (t : Tank) :
    Except Failure α × Tank :=
  run.run.run t

namespace Tank

variable {t : Tank} {v : Json} {deliveries : List Delivery}

theorem run_attempt {t next : Tank} {action : ExceptT String (StateM Tank) Unit}
    {result : Except String Unit} (cause : String → Failure)
    (run : action.run.run t = (result, next)) :
    (Writer.attempt cause action).run.run t = (result.mapError cause, next) := by
  change (Except.mapError cause <$> action.run).run t = _
  rw [StateT.run_map, run]
  rfl

/-- What has a line is written as that line. -/
theorem run_line {d : Delivery} (line : d.line? = some v) (t : Tank) :
    (writer.lines d).run.run t = (writer.writeLine v).run.run t := by
  rw [Writer.lines, line]

/-- A line that fits is written. -/
theorem run_writeLine (fits : t.Fits (lineBytes v).size) :
    (writer.writeLine v).run.run t = (.ok (), t.pour (lineBytes v)) := by
  rw [lineBytes, ByteArray.size_append, ← fits_pour] at fits
  rw [Writer.writeLine, ExceptT.run_bind, StateT.run_bind,
    run_attempt .serialization (run_write_fits fits.2)]
  change (Writer.attempt .transfer (writer.write "\n".toUTF8)).run.run
    (t.pour v.compact.toUTF8) = _
  rw [run_attempt .transfer (run_write_fits fits.1), lineBytes, pour_append]
  rfl

/-- The room ends within the object of the line. -/
theorem run_writeLine_object (full : ¬ t.Fits v.compact.toUTF8.size) :
    (writer.writeLine v).run.run t =
      (.error (.serialization "writer is full"), t.pour (lineBytes v)) := by
  rw [Writer.writeLine, ExceptT.run_bind, StateT.run_bind,
    run_attempt .serialization (run_write_full full), lineBytes, pour_append, pour_full full]
  rfl

/-- The room ends between the object of the line and its newline. -/
theorem run_writeLine_end (fits : t.Fits v.compact.toUTF8.size)
    (full : ¬ t.Fits (lineBytes v).size) :
    (writer.writeLine v).run.run t =
      (.error (.transfer "writer is full"), t.pour (lineBytes v)) := by
  have last : ¬ (t.pour v.compact.toUTF8).Fits "\n".toUTF8.size := by
    intro newline
    apply full
    rw [lineBytes, ByteArray.size_append]
    exact fits_pour.1 ⟨newline, fits⟩
  rw [Writer.writeLine, ExceptT.run_bind, StateT.run_bind,
    run_attempt .serialization (run_write_fits fits)]
  change (Writer.attempt .transfer (writer.write "\n".toUTF8)).run.run
    (t.pour v.compact.toUTF8) = _
  rw [run_attempt .transfer (run_write_full last), lineBytes, pour_append]
  rfl

/-- The end of a scene writes nothing. -/
theorem run_sceneEnd (t : Tank) :
    (writer.lines .sceneEnd).run.run t =
      ((if t.flushFails then .error (.transfer "flush failed") else .ok ()), t) := by
  have flush : writer.flush.run.run t =
      ((if t.flushFails then .error "flush failed" else .ok ()), t) := by
    change (if t.flushFails then throw "flush failed" else pure () :
      ExceptT String (StateM Tank) Unit).run.run t = _
    split <;> rfl
  change (Writer.attempt .transfer writer.flush).run.run t = _
  rw [run_attempt .transfer flush]
  split <;> rfl

/-- Lines that fit are written, one after the other. -/
theorem run_lines (flushes : t.flushFails = true → .sceneEnd ∉ deliveries)
    (fits : t.Fits (textOf (linesOf deliveries)).size) :
    (forM deliveries writer.lines).run.run t = (.ok (), t.pour (textOf (linesOf deliveries))) := by
  induction deliveries generalizing t with
  | nil => exact congrArg _ (pour_empty t).symm
  | cons d deliveries ih =>
    have rest : t.flushFails = true → .sceneEnd ∉ deliveries := fun fails listed =>
      flushes fails (List.mem_cons_of_mem d listed)
    cases line : d.line? with
    | none =>
      have ends : d = .sceneEnd := by cases d <;> first | rfl | cases line
      subst ends
      have steady : t.flushFails = false := by
        rw [Bool.eq_false_iff]
        exact fun fails => flushes fails List.mem_cons_self
      have one := run_sceneEnd t
      rw [steady] at one
      rw [linesOf_cons_none line] at fits ⊢
      rw [run_cons_ok one]
      exact ih rest fits
    | some v =>
      rw [linesOf_cons_some line, textOf_cons] at fits ⊢
      rw [ByteArray.size_append, ← fits_pour] at fits
      have one := run_line line t
      rw [run_writeLine fits.2] at one
      rw [run_cons_ok one, ih (t := t.pour (lineBytes v)) rest fits.1, pour_append]

/-- Every line is the line of one delivery, and the lines around it those of the deliveries around
that one. -/
theorem exists_delivery {before after : List Json}
    (lines : linesOf deliveries = before ++ v :: after) :
    ∃ first d last, deliveries = first ++ d :: last ∧ linesOf first = before ∧
      d.line? = some v ∧ linesOf last = after := by
  obtain ⟨first, rest, rfl, here, there⟩ := List.filterMap_eq_append_iff.1 lines
  obtain ⟨skipped, d, last, rfl, none, line, tail⟩ := List.filterMap_eq_cons_iff.1 there
  refine ⟨first ++ skipped, d, last, by simp, ?_, line, tail⟩
  have empty : linesOf skipped = [] := List.filterMap_eq_nil_iff.2 none
  rw [linesOf_append, empty, List.append_nil]
  exact here

/-- A run ends within the first line that does not fit. What would have come after it is nothing to
the tank, which is full. -/
theorem run_lines_refused {before after : List Json} {e : Failure}
    (flushes : t.flushFails = false) (lines : linesOf deliveries = before ++ v :: after)
    (fits : t.Fits (textOf before).size) (full : ¬ t.Fits (textOf before ++ lineBytes v).size)
    (refused : (writer.writeLine v).run.run (t.pour (textOf before)) =
      (.error e, (t.pour (textOf before)).pour (lineBytes v))) :
    (forM deliveries writer.lines).run.run t =
      (.error e, t.pour (textOf (linesOf deliveries))) := by
  obtain ⟨first, d, last, rfl, here, line, -⟩ := exists_delivery lines
  have start : (forM first writer.lines).run.run t = (.ok (), t.pour (textOf before)) := by
    rw [← here]
    apply run_lines (fun fails => by rw [flushes] at fails; cases fails)
    rwa [here]
  have one := run_line line (t.pour (textOf before))
  rw [refused] at one
  rw [run_append_ok start, run_cons_error one, lines, textOf_append, textOf_cons,
    ← ByteArray.append_assoc, pour_append t (textOf before ++ lineBytes v), pour_full full,
    pour_append]

/-- In a tank that is too small the run stops within the first line that does not fit: here inside
its object. -/
theorem run_lines_object {before after : List Json} (flushes : t.flushFails = false)
    (lines : linesOf deliveries = before ++ v :: after) (fits : t.Fits (textOf before).size)
    (full : ¬ t.Fits ((textOf before).size + v.compact.toUTF8.size)) :
    (forM deliveries writer.lines).run.run t =
      (.error (.serialization "writer is full"), t.pour (textOf (linesOf deliveries))) := by
  apply run_lines_refused flushes lines fits
  · intro all
    rw [ByteArray.size_append, lineBytes, ByteArray.size_append, ← Nat.add_assoc] at all
    exact full (all.le (Nat.le_add_right _ _))
  · apply run_writeLine_object
    intro object
    exact full (fits_pour.1 ⟨object, fits⟩)

/-- Here the object fits, and the end of its line does not. -/
theorem run_lines_end {before after : List Json} (flushes : t.flushFails = false)
    (lines : linesOf deliveries = before ++ v :: after)
    (fits : t.Fits ((textOf before).size + v.compact.toUTF8.size))
    (full : ¬ t.Fits (textOf before ++ lineBytes v).size) :
    (forM deliveries writer.lines).run.run t =
      (.error (.transfer "writer is full"), t.pour (textOf (linesOf deliveries))) := by
  rw [← fits_pour] at fits
  apply run_lines_refused flushes lines fits.2 full
  apply run_writeLine_end fits.1
  intro all
  apply full
  rw [ByteArray.size_append]
  exact fits_pour.1 ⟨all, fits.2⟩

end Tank
end Storyboard
