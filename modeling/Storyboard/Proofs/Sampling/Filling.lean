import Storyboard.Proofs.Sampling.Written

/-!
# Runs into a writer that fills up

Main statement: a writer with room for `r` bytes gets the first `r` bytes of what an unlimited writer
gets. If that is not all, the run fails within the object of a line or at its end, as byte `r` stands
in the one or is the other. A flush that fails ends the run after the first scene
(`Session.sample_filling`).
-/

namespace Storyboard

/-- Byte `r` of the text of the lines lies inside the object of a line. -/
def InObject (lines : List Json) (r : Nat) : Prop :=
  ∃ before v after, lines = before ++ v :: after ∧ (textOf before).size ≤ r ∧
    r < (textOf before).size + v.compact.toUTF8.size

/-- Byte `r` of the text of the lines is the newline that ends a line. -/
def AtLineEnd (lines : List Json) (r : Nat) : Prop :=
  ∃ before v after, lines = before ++ v :: after ∧
    r = (textOf before).size + v.compact.toUTF8.size

variable {lines : List Json} {r : Nat}

theorem size_lineBytes (v : Json) : (lineBytes v).size = v.compact.toUTF8.size + 1 :=
  ByteArray.size_append

theorem InObject.cons (v : Json) (inside : InObject lines r) :
    InObject (v :: lines) ((lineBytes v).size + r) := by
  obtain ⟨before, w, after, rfl, lower, upper⟩ := inside
  refine ⟨v :: before, w, after, rfl, ?_, ?_⟩
  all_goals
    rw [textOf_cons, ByteArray.size_append]
    omega

theorem AtLineEnd.cons (v : Json) (ends : AtLineEnd lines r) :
    AtLineEnd (v :: lines) ((lineBytes v).size + r) := by
  obtain ⟨before, w, after, rfl, rfl⟩ := ends
  refine ⟨v :: before, w, after, rfl, ?_⟩
  rw [textOf_cons, ByteArray.size_append, Nat.add_assoc]

/-- A tank that is too small for some lines ends inside an object or right before the end of a
line. -/
theorem inObject_or_atLineEnd (inside : r < (textOf lines).size) :
    InObject lines r ∨ AtLineEnd lines r := by
  induction lines generalizing r with
  | nil => exact absurd inside (Nat.not_lt_zero r)
  | cons v lines ih =>
    have none : (textOf []).size = 0 := rfl
    by_cases first : r < (lineBytes v).size
    · rw [size_lineBytes] at first
      by_cases object : r < v.compact.toUTF8.size
      · exact .inl ⟨[], v, lines, rfl, by omega, by omega⟩
      · exact .inr ⟨[], v, lines, rfl, by omega⟩
    · obtain ⟨k, rfl⟩ : ∃ k, r = (lineBytes v).size + k := ⟨r - (lineBytes v).size, by omega⟩
      rw [textOf_cons, ByteArray.size_append] at inside
      rcases ih (show k < (textOf lines).size by omega) with object | ends
      · exact .inl (object.cons v)
      · exact .inr (ends.cons v)

namespace Tank

variable {deliveries : List Delivery}

/-- An empty tank with room for `r` bytes. -/
def ofRoom (r : Nat) : Tank :=
  ⟨.empty, some r, false⟩

theorem fits_ofRoom {n : Nat} : (ofRoom r).Fits n ↔ n ≤ r := by
  simp [Fits, ofRoom]

theorem written_pour_ofRoom (r : Nat) (bytes : ByteArray) :
    ((ofRoom r).pour bytes).written = bytes.extract 0 (min r bytes.size) :=
  ByteArray.empty_append

theorem pour_unlimited (flushFails : Bool) (bytes : ByteArray) :
    pour ⟨.empty, none, flushFails⟩ bytes = ⟨bytes, none, flushFails⟩ := by
  simp only [pour, taken, ByteArray.extract_zero_size, ByteArray.empty_append, Option.map_none]

/-- Lines that fit are all written. -/
theorem run_ofRoom_enough (enough : (textOf (linesOf deliveries)).size ≤ r) :
    (forM deliveries writer.lines).run.run (ofRoom r) =
      (.ok (), (ofRoom r).pour (textOf (linesOf deliveries))) :=
  run_lines (by rintro ⟨⟩) (fits_ofRoom.2 enough)

/-- A tank that ends inside an object makes the object fail. -/
theorem run_ofRoom_object (inside : InObject (linesOf deliveries) r) :
    (forM deliveries writer.lines).run.run (ofRoom r) =
      (.error (.serialization "writer is full"),
        (ofRoom r).pour (textOf (linesOf deliveries))) := by
  obtain ⟨before, v, after, lines, lower, upper⟩ := inside
  apply run_lines_object rfl lines (fits_ofRoom.2 lower)
  rw [fits_ofRoom]
  omega

/-- A tank that ends right before the end of a line makes that end fail. -/
theorem run_ofRoom_end (ends : AtLineEnd (linesOf deliveries) r) :
    (forM deliveries writer.lines).run.run (ofRoom r) =
      (.error (.transfer "writer is full"), (ofRoom r).pour (textOf (linesOf deliveries))) := by
  obtain ⟨before, v, after, lines, last⟩ := ends
  apply run_lines_end rfl lines (fits_ofRoom.2 (Nat.le_of_eq last.symm))
  rw [fits_ofRoom, ByteArray.size_append, size_lineBytes]
  omega

/-- In any case what fits of the text is written. -/
theorem run_ofRoom_state (deliveries : List Delivery) (r : Nat) :
    ((forM deliveries writer.lines).run.run (ofRoom r)).2 =
      (ofRoom r).pour (textOf (linesOf deliveries)) := by
  by_cases enough : (textOf (linesOf deliveries)).size ≤ r
  · rw [run_ofRoom_enough enough]
  · rcases inObject_or_atLineEnd (Nat.lt_of_not_le enough) with object | ends
    · rw [run_ofRoom_object object]
    · rw [run_ofRoom_end ends]

/-- A flush that fails ends the run. -/
theorem run_flush {first last : List Delivery} (within : .sceneEnd ∉ first) :
    (forM (first ++ .sceneEnd :: last) writer.lines).run.run ⟨.empty, none, true⟩ =
      (.error (.transfer "flush failed"), ⟨textOf (linesOf first), none, true⟩) := by
  have start := run_lines (t := ⟨.empty, none, true⟩) (fun _ => within) (fits_of_unlimited rfl _)
  rw [pour_unlimited] at start
  rw [run_append_ok start, run_cons_error (run_sceneEnd ⟨_, none, true⟩)]

theorem run_unlimited (deliveries : List Delivery) :
    (forM deliveries writer.lines).run.run ⟨.empty, none, false⟩ =
      (.ok (), ⟨textOf (linesOf deliveries), none, false⟩) := by
  have fits : Fits ⟨.empty, none, false⟩ (textOf (linesOf deliveries)).size :=
    fits_of_unlimited rfl _
  rw [run_lines (by rintro ⟨⟩) fits, pour_unlimited]

end Tank

namespace Session

variable {s : Session} {stats : Stats} {target : Option Nat} {index : Nat}

/-- The deliveries of a scene end with the scene. -/
theorem sceneCourse_ends (ok : (s.sceneCourse index).outcome = .ok stats) :
    ∃ first, (s.sceneCourse index).deliveries = first ++ [.sceneEnd] ∧ .sceneEnd ∉ first := by
  unfold sceneCourse at ok ⊢
  split at ok
  · rename_i scene plan found planned
    by_cases room : plan.Listable
    · refine ⟨.header (s.header index scene plan) ::
        s.frameDeliveries index scene plan plan.frameCount.toNat, ?_, ?_⟩
      · simp [room, sceneDeliveries]
      · simp [frameDeliveries]
    · simp [room] at ok
  · cases ok
  · cases ok

/-- What comes first in a course stays first. -/
theorem foldl_andThen_ok {courses : Nat → Course} {indices : List Nat} {c : Course}
    (ok : (indices.foldl (fun c index => c.andThen (courses index)) c).outcome = .ok stats) :
    (∃ before, c.outcome = .ok before) ∧
      ∃ rest, (indices.foldl (fun c index => c.andThen (courses index)) c).deliveries =
        c.deliveries ++ rest := by
  induction indices generalizing c with
  | nil => exact ⟨⟨stats, ok⟩, [], (List.append_nil _).symm⟩
  | cons index indices ih =>
    obtain ⟨⟨both, outcome⟩, rest, deliveries⟩ := ih ok
    obtain ⟨before, result⟩ := c
    cases result with
    | error e => cases outcome
    | ok stats =>
      refine ⟨⟨stats, rfl⟩, (courses index).deliveries ++ rest, ?_⟩
      rw [List.foldl_cons, deliveries]
      exact List.append_assoc _ _ _

/-- A run that succeeds starts with its first scene, if there is one. -/
theorem course_starts (ok : (s.course target).outcome = .ok stats)
    (nonempty : target ≠ none ∨ s.program.scenes ≠ []) :
    ∃ first rest, (s.sceneCourse (target.getD 0)).deliveries = first ++ [.sceneEnd] ∧
      .sceneEnd ∉ first ∧ (s.course target).deliveries = first ++ .sceneEnd :: rest := by
  cases target with
  | some index =>
    obtain ⟨first, deliveries, within⟩ := sceneCourse_ends ok
    exact ⟨first, [], deliveries, within, deliveries⟩
  | none =>
    have some_scene : s.program.scenes.length ≠ 0 := by
      rcases nonempty with absurd_target | nonempty
      · exact absurd rfl absurd_target
      · rwa [Ne, List.length_eq_zero_iff]
    obtain ⟨n, length⟩ := Nat.exists_eq_succ_of_ne_zero some_scene
    have indices : List.range s.program.scenes.length = 0 :: (List.range n).map Nat.succ := by
      rw [length, List.range_succ_eq_map]
    rw [course, indices, List.foldl_cons] at ok ⊢
    obtain ⟨⟨before, outcome⟩, rest, deliveries⟩ := foldl_andThen_ok ok
    have first_ok : ∃ stats, (s.sceneCourse 0).outcome = .ok stats := by
      cases result : (s.sceneCourse 0).outcome with
      | ok stats => exact ⟨stats, rfl⟩
      | error e =>
        rw [Course.andThen, Course.none, result] at outcome
        cases outcome
    obtain ⟨_, first_ok⟩ := first_ok
    obtain ⟨first, own, within⟩ := sceneCourse_ends first_ok
    refine ⟨first, rest, own, within, ?_⟩
    rw [deliveries]
    change (s.sceneCourse 0).deliveries ++ rest = _
    rw [own, List.append_assoc, List.singleton_append]

/-- `T` is what an unlimited writer gets of a run that succeeds. However the encoder cuts its lines
into pieces, a writer with room for `r` bytes gets the first `r` bytes of it; the run succeeds if
that is all, and else fails where it stops. With a flush that fails, the writer gets the lines of the
first scene. -/
theorem sample_filling (s : Session) (target : Option Nat) {cut : ByteArray → List ByteArray}
    (whole : ∀ bytes, joined (cut bytes) = bytes) {stats : Stats} {T : Tank}
    (unlimited : poured (s.sample (Tank.writer.inPieces cut).lines target) ⟨.empty, none, false⟩ =
      (.ok stats, T)) :
    let lines := linesOf (logged (s.sample (steady record) target)).2
    let first := linesOf (logged (s.sample (steady record) (some (target.getD 0)))).2
    T.written = textOf lines ∧
    (∀ r,
      let run := poured (s.sample (Tank.writer.inPieces cut).lines target) ⟨.empty, some r, false⟩
      run.2.written = T.written.extract 0 (min r T.written.size) ∧
      (T.written.size ≤ r → run.1 = .ok stats) ∧
      (InObject lines r → run.1 = .error (.serialization "writer is full")) ∧
      (AtLineEnd lines r → run.1 = .error (.transfer "writer is full")) ∧
      (r < T.written.size → InObject lines r ∨ AtLineEnd lines r)) ∧
    (target ≠ none ∨ s.program.scenes ≠ [] →
      poured (s.sample (Tank.writer.inPieces cut).lines target) ⟨.empty, none, true⟩ =
        (.error (.transfer "flush failed"), ⟨textOf first, none, true⟩)) := by
  rw [Tank.inPieces_writer whole] at unlimited ⊢
  simp only [sample_eq_follow, logged_follow_record, poured, run_follow] at unlimited ⊢
  rw [Tank.run_unlimited] at unlimited
  obtain ⟨outcome, rfl⟩ := Prod.mk.inj unlimited
  refine ⟨rfl, fun r => ⟨?_, ?_, ?_, ?_, inObject_or_atLineEnd⟩, fun nonempty => ?_⟩
  · have state := Tank.run_ofRoom_state (s.course target).deliveries r
    have written := Tank.written_pour_ofRoom r (textOf (linesOf (s.course target).deliveries))
    rw [← state, Tank.ofRoom] at written
    rw [← written]
    split <;> rename_i run <;> rw [run]
  · intro enough
    have run := Tank.run_ofRoom_enough enough
    rw [Tank.ofRoom] at run
    rw [run]
    exact outcome
  · intro object
    have run := Tank.run_ofRoom_object object
    rw [Tank.ofRoom] at run
    rw [run]
  · intro ends
    have run := Tank.run_ofRoom_end ends
    rw [Tank.ofRoom] at run
    rw [run]
  · obtain ⟨first, rest, own, within, deliveries⟩ := course_starts outcome nonempty
    have lines : linesOf (first ++ [.sceneEnd]) = linesOf first := by
      rw [linesOf_append]
      exact List.append_nil _
    rw [deliveries, Tank.run_flush within]
    change _ = (_, Tank.mk (textOf (linesOf (s.sceneCourse (target.getD 0)).deliveries)) none true)
    rw [own, lines]

/-- The bytes in two halves. -/
def halves (bytes : ByteArray) : List ByteArray :=
  [bytes.extract 0 (bytes.size / 2), bytes.extract (bytes.size / 2) bytes.size]

theorem joined_halves (bytes : ByteArray) : joined (halves bytes) = bytes := by
  have half : bytes.size / 2 ≤ bytes.size := Nat.div_le_self _ _
  rw [halves, joined_cons, joined_cons]
  change _ ++ (_ ++ ByteArray.empty) = _
  rw [ByteArray.append_empty,
    ← ByteArray.extract_eq_extract_append_extract _ (Nat.zero_le _) half,
    ByteArray.extract_zero_size]

theorem poured_unlimited (s : Session) (target : Option Nat) :
    poured (s.sample Tank.writer.lines target) ⟨.empty, none, false⟩ =
      ((s.course target).outcome, ⟨textOf (linesOf (s.course target).deliveries), none, false⟩) := by
  rw [poured, sample_eq_follow, run_follow, Tank.run_unlimited]

theorem inObject_zero {h : Header} {deliveries : List Delivery} :
    InObject (linesOf (.header h :: deliveries)) 0 := by
  refine ⟨[], .ofTagged "scene" h.fields, _, linesOf_cons_some rfl deliveries, Nat.zero_le _, ?_⟩
  have nonempty : (Json.ofTagged "scene" h.fields).compact ≠ "" := by
    intro empty
    have text := congrArg String.toList empty
    rw [Json.compact, String.toList_ofList] at text
    cases text
  have size : (Json.ofTagged "scene" h.fields).compact.toUTF8.size ≠ 0 :=
    mt String.utf8ByteSize_eq_zero_iff.1 nonempty
  omega

theorem short_fills :
    ∃ stats T,
      poured (short.sample (Tank.writer.inPieces halves).lines none) ⟨.empty, none, false⟩ =
        (.ok stats, T) ∧
      (poured (short.sample (Tank.writer.inPieces halves).lines none)
        ⟨.empty, some 0, false⟩).1 = .error (.serialization "writer is full") ∧
      (poured (short.sample (Tank.writer.inPieces halves).lines none)
        ⟨.empty, none, true⟩).1 = .error (.transfer "flush failed") := by
  have course := course_none short_plan fun _ _ => short_listable
  have unlimited := poured_unlimited short none
  rw [← Tank.inPieces_writer joined_halves, course] at unlimited
  have filling := sample_filling short none joined_halves unlimited
  have within : InObject (linesOf (logged (short.sample (steady record) none)).2) 0 := by
    rw [sample_eq_follow, logged_follow_record, course]
    exact inObject_zero
  refine ⟨_, _, unlimited, (filling.2.1 0).2.2.1 within, ?_⟩
  rw [filling.2.2 (.inr (List.cons_ne_nil _ _))]

end Session
end Storyboard
