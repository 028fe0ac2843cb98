import Storyboard.Proofs.CommandLine.Quiet
import Storyboard.Proofs.Sampling.Unplayable
import Storyboard.Proofs.Sampling.Written

namespace Storyboard

section Ready

variable {m : Type → Type} [Monad m]

/-- A writer that never refuses. -/
def Writer.ready (write : ByteArray → m Unit) : Writer m where
  write bytes := ExceptT.lift (write bytes)
  flush := pure ()

/-- Writes the line of a delivery. -/
def writing (write : ByteArray → m Unit) (d : Delivery) : m Unit :=
  match d.line? with
  | some v => do
    write v.compact.toUTF8
    write "\n".toUTF8
  | none => pure ()

/-- A writer that never fails makes a sink that never fails. -/
theorem Writer.lines_ready [LawfulMonad m] (write : ByteArray → m Unit) :
    (Writer.ready write).lines = steady (writing write) := by
  funext d
  apply ExceptT.ext
  unfold Writer.lines steady writing
  cases d.line? with
  | none => simp [ready, attempt, Except.mapError]
  | some v => simp [ready, writeLine, attempt, Except.mapError]

end Ready

namespace Session

variable {s : Session}

/-- A run over the target breaks off in scene `j`, whose frames cannot be listed. -/
inductive BreaksOff (s : Session) : Option Nat → Nat → Prop where
  | one {j : Nat} {plan : FramePlan} (planned : s.plan j = .ok plan) (overlong : ¬ plan.Listable) :
    BreaksOff s (some j) j
  | all {j : Nat} (first : s.FirstOverlong j) : BreaksOff s none j

/-- Such a run ends in a crash, with whatever was delivered before. -/
theorem BreaksOff.outcome {target : Option Nat} {j : Nat} (breaks : s.BreaksOff target j) :
    (s.course target).outcome = .error .overflow := by
  cases breaks with
  | one planned overlong =>
    obtain ⟨scene, found⟩ := exists_scene_of_plan planned
    exact congrArg Course.outcome (sceneCourse_overlong found planned overlong)
  | all first => exact first.course_outcome

/-- No frame comes before the break unless there is a scene before it. -/
theorem BreaksOff.deliveries {target : Option Nat} {j : Nat} (breaks : s.BreaksOff target j)
    (alone : target ≠ none ∨ j = 0) : ∃ h, (s.course target).deliveries = [.header h] := by
  cases breaks with
  | one planned overlong =>
    obtain ⟨scene, found⟩ := exists_scene_of_plan planned
    exact ⟨_, congrArg Course.deliveries (sceneCourse_overlong found planned overlong)⟩
  | all first =>
    obtain rfl : j = 0 := alone.resolve_left (fun some_target => some_target rfl)
    obtain ⟨plan, planned, overlong⟩ := first.overlong
    obtain ⟨scene, found⟩ := exists_scene_of_plan planned
    rw [course_of_failing first.inside first.sceneCourse_outcome
      fun i earlier => first.sceneCourse_before earlier]
    exact ⟨s.header 0 scene plan, by simp [sceneCourse_overlong found planned overlong]⟩

/-- With every scene planned, a run ends well unless its scene is not there or it breaks off. -/
theorem course_of_sound (sound : s.program.Sound) (target : Option Nat) :
    (∃ index, target = some index ∧ s.program.scenes.length ≤ index) ∨
      (∃ j, s.BreaksOff target j) ∨ ∃ stats, (s.course target).outcome = .ok stats := by
  have planned : ∀ index < s.program.scenes.length, ∃ plan, s.plan index = .ok plan :=
    fun _ inside => exists_plan sound inside
  cases target with
  | none =>
    by_cases listable : ∀ index plan, s.plan index = .ok plan → plan.Listable
    · exact .inr (.inr (exists_stats_course planned listable))
    · obtain ⟨j, first⟩ := exists_firstOverlong planned listable
      exact .inr (.inl ⟨j, .all first⟩)
  | some index =>
    by_cases inside : index < s.program.scenes.length
    · obtain ⟨plan, planned⟩ := planned index inside
      by_cases room : plan.Listable
      · obtain ⟨scene, found⟩ := exists_scene_of_plan planned
        exact .inr (.inr ⟨_, congrArg Course.outcome (sceneCourse_eq found planned room)⟩)
      · exact .inr (.inl ⟨index, .one planned room⟩)
    · exact .inl ⟨index, rfl, Nat.le_of_not_lt inside⟩

/-- On a writer that never refuses, a run ends as its course does. -/
theorem run_sample_ready {σ : Type} (s : Session) (write : ByteArray → StateM σ Unit)
    (target : Option Nat) (r : σ) :
    (s.sample (Writer.ready write).lines target).run.run r =
      ((s.course target).outcome,
        ((forM (s.course target).deliveries (writing write)).run r).2) := by
  rw [Writer.lines_ready, sample_eq_follow, Course.follow_steady]
  rfl

end Session

namespace CommandLine

namespace Room

/-- Of two rooms, the later one has an empty file at the place that the path leads to when its
directories are made. The other files and the output are the same. -/
structure Emptied (path : String) (place : Place) (before after : Room) : Prop where
  created : ∃ d : Disk, d.file? = before.disk.file? ∧ d.create path = .ok (place, after.disk)
  empty : after.disk.file? place = some .empty
  others : ∀ other, other ≠ place → after.disk.file? other = before.disk.file? other
  out : after.out = before.out

theorem Emptied.told {path : String} {place : Place} {before after : Room}
    (emptied : Emptied path place before after) (err : String) :
    Emptied path place before { after with err } :=
  ⟨emptied.created, emptied.empty, emptied.others, emptied.out⟩

/-- Of two rooms, the later one has a file that was made for the path, with these bytes in it. The
other files and the output are the same. -/
structure Filled (path : String) (place : Place) (bytes : ByteArray) (before after : Room) :
    Prop where
  made : ∃ emptied, Emptied path place before emptied
  content : after.disk.file? place = some bytes
  others : ∀ other, other ≠ place → after.disk.file? other = before.disk.file? other
  out : after.out = before.out

theorem Filled.told {path : String} {place : Place} {bytes : ByteArray} {before after : Room}
    (filled : Filled path place bytes before after) (err : String) :
    Filled path place bytes before { after with err } :=
  ⟨filled.made, filled.content, filled.others, filled.out⟩

/-- The file is made and there is a writer for it, or no file is touched. -/
def Made (path : String) (before after : Room) : Except Trouble (Writer (StateM Room)) → Prop
  | .error _ => before.Alike after
  | .ok w => ∃ place, w = fileWriter place ∧ Emptied path place before after

variable {workers : Workers} {path : String} {r last : Room}
  {result : Except Trouble (Writer (StateM Room))}

/-- Whatever the quiet steps before it do, the file is made or nothing is. -/
theorem run_createFile_after (workers : Workers) {x : ExceptT Trouble (StateM Room) PUnit}
    (quiet : Quiet x) {context : String}
    (ran : (x >>= fun _ => during context ((host workers).createFile path)).run.run r =
      (result, last)) :
    Made path r last result := by
  rcases run_bind_cases ran with ⟨t, rfl, failed⟩ | ⟨_, next, made, ran⟩
  · exact quiet.alike failed
  have same := quiet.alike made
  rw [during, run_adapt, run_createFile] at ran
  cases creates : next.disk.create path with
  | error fault =>
    rw [creates] at ran
    cases ran
    exact same
  | ok both =>
    obtain ⟨place, disk⟩ := both
    rw [creates] at ran
    cases ran
    obtain ⟨empty, others⟩ := Disk.create_eq_ok creates
    refine ⟨place, rfl, ⟨next.disk, same.files, creates⟩, empty, fun other apart => ?_, same.out⟩
    rw [others other apart, same.files]

/-- A path that is given is made a file, or nothing is changed. -/
theorem run_target (ran : ((host workers).target (some path)).run.run r = (result, last)) :
    Made path r last result := by
  rw [Host.target] at ran
  dsimp only at ran
  cases parent : Path.parent? path with
  | none =>
    rw [parent] at ran
    exact run_createFile_after workers (.pure ⟨⟩) ran
  | some dir =>
    rw [parent] at ran
    exact run_createFile_after workers ((quiet_makeDirectories dir).adapt _) ran

end Room

theorem ofArguments_sample (arguments : List String) :
    Request.ofArguments ("sample" :: arguments) = Verb.sample.read arguments := rfl

/-- Arguments after the command name ask for a sampling run. -/
theorem exists_sampleRequest {arguments : List String} {request : Request}
    (read : Request.ofArguments ("sample" :: arguments) = .ok request) :
    ∃ script s, request = .sample script s := by
  rw [ofArguments_sample] at read
  obtain ⟨draft, -, read⟩ := exists_of_bind_eq_ok read
  unfold Verb.request? at read
  cases script : draft.script with
  | none =>
    rw [script] at read
    cases read
  | some script =>
    rw [script] at read
    cases read
    exact ⟨_, _, rfl⟩

section Written

variable {write : ByteArray → StateM Room Unit} {holds : ByteArray → Room → Prop}

/-- What a room holds, in terms of bytes, grows with every write. -/
def Appends (write : ByteArray → StateM Room Unit) (holds : ByteArray → Room → Prop) : Prop :=
  ∀ before bytes r, holds before r → holds (before ++ bytes) ((write bytes).run r).2

/-- A delivery adds its line to what was written. -/
theorem Appends.delivery (appends : Appends write holds) {before : ByteArray} {r : Room}
    (start : holds before r) (d : Delivery) :
    holds (before ++ textOf (linesOf [d])) ((writing write d).run r).2 := by
  cases line : d.line? with
  | none =>
    have nothing : textOf (linesOf [d]) = .empty := by rw [linesOf_cons_none line]; rfl
    rw [nothing, ByteArray.append_empty, writing, line]
    exact start
  | some v =>
    have text : textOf (linesOf [d]) = v.compact.toUTF8 ++ "\n".toUTF8 := by
      rw [linesOf_cons_some line]
      exact ByteArray.append_empty
    rw [text, writing, line, ← ByteArray.append_assoc]
    exact appends _ _ _ (appends _ _ _ start)

/-- The lines of some deliveries, one after the other. -/
theorem Appends.deliveries (appends : Appends write holds) {before : ByteArray} {r : Room}
    (start : holds before r) (deliveries : List Delivery) :
    holds (before ++ textOf (linesOf deliveries)) ((forM deliveries (writing write)).run r).2 := by
  induction deliveries generalizing before r with
  | nil =>
    change holds (before ++ .empty) r
    rwa [ByteArray.append_empty]
  | cons d deliveries ih =>
    have text : linesOf (d :: deliveries) = linesOf [d] ++ linesOf deliveries := linesOf_append [d] _
    rw [List.forM_cons, text, textOf_append, ← ByteArray.append_assoc]
    exact ih (appends.delivery start d)

end Written

namespace Room

/-- The later room has these bytes more, where the frames are to go. -/
def Received (out : Option String) (bytes : ByteArray) (before after : Room) : Prop :=
  match out with
  | some path => ∃ place, before.Filled path place bytes after
  | none => after.disk.file? = before.disk.file? ∧ after.out = before.out ++ bytes

theorem Received.told {out : Option String} {bytes : ByteArray} {before after : Room}
    (received : Received out bytes before after) (err : String) :
    Received out bytes before { after with err } := by
  cases out with
  | none => exact received
  | some path =>
    obtain ⟨place, filled⟩ := received
    exact ⟨place, filled.told err⟩

theorem filled_appends (path : String) (place : Place) (before : Room) :
    Appends (fun bytes => modifyThe Room fun r => { r with disk := r.disk.append place bytes })
      fun bytes after => before.Filled path place bytes after := by
  intro bytes more r filled
  obtain ⟨content, others⟩ := Disk.file?_append filled.content more
  exact ⟨filled.made, content,
    fun other apart => (others other apart).trans (filled.others other apart), filled.out⟩

theorem out_appends (before : Room) :
    Appends (fun bytes => modifyThe Room fun r => { r with out := r.out ++ bytes })
      fun bytes after => after.disk.file? = before.disk.file? ∧ after.out = before.out ++ bytes := by
  rintro bytes more r ⟨files, out⟩
  refine ⟨files, ?_⟩
  change r.out ++ more = before.out ++ (bytes ++ more)
  rw [out, ByteArray.append_assoc]

/-- Where the frames go there is a writer that never refuses, and nothing is written yet. -/
theorem target_ready {workers : Workers} {out : Option String} {w : Writer (StateM Room)}
    {r made : Room} (ran : ((host workers).target out).run.run r = (.ok w, made)) :
    ∃ write holds, w = .ready write ∧ Appends write holds ∧ holds .empty made ∧
      ∀ bytes last, holds bytes last → r.Received out bytes last := by
  cases out with
  | none =>
    cases ran
    exact ⟨_, _, rfl, out_appends r, ⟨rfl, ByteArray.append_empty.symm⟩,
      fun _ _ received => received⟩
  | some path =>
    obtain ⟨place, rfl, emptied⟩ := run_target ran
    exact ⟨_, _, rfl, filled_appends path place r,
      ⟨⟨made, emptied⟩, emptied.empty, emptied.others, emptied.out⟩,
      fun _ _ filled => ⟨place, filled⟩⟩

end Room

/-- The session that a request asks for. -/
def SampleRequest.session (s : SampleRequest) (workers : Workers) (program : Program) :
    Except Failure Session := do
  let rate ← Rate.checked s.num s.den
  Session.create workers program
    { rate, parallel := s.parallel, threads := s.threads, chunkSize := s.chunkSize,
      narration := s.narration }

/-- Hands the frames to a writer and tells how many there were. -/
def deliver (h : Host (StateM Room)) (session : Session) (s : SampleRequest)
    (w : Writer (StateM Room)) : Action (StateM Room) := do
  let stats ← orFail (session.sample w.lines s.scene)
  w.flush.adapt .failure
  lift (h.err s!"sampled {stats.total} frame(s), {stats.still} static\n")
  match s.out with
  | some path => lift (h.err s!"wrote {path}\n")
  | none => pure ()
  return 0

section Deliver

variable {workers : Workers} {session : Session} {s : SampleRequest} {r last made : Room}
  {result : Except Trouble UInt32} {script : String} {path : String} {j : Nat}

/-- The script is loaded and the session opened before the target is touched; all else happens after
it. -/
theorem sample_eq_deliver (script : String) (s : SampleRequest) :
    (Room.host workers).sample script s = (do
      let program ← (Room.host workers).load script false
      let session ← orFail (MonadExcept.ofExcept (s.session workers program))
      let w ← (Room.host workers).target s.out
      deliver (Room.host workers) session s w) := by
  rw [Host.sample]
  congr 1
  funext program
  unfold SampleRequest.session
  cases Rate.checked s.num s.den <;> rfl

/-- A scene that is not there is refused on any writer, before anything is written. -/
theorem run_deliver_missing {index : Nat} (scene : s.scene = some index)
    (missing : session.program.scenes.length ≤ index) (w : Writer (StateM Room)) (r : Room) :
    (deliver (Room.host workers) session s w).run.run r =
      (.error (.failure (Failure.noScene index session.program.scenes.length).message), r) := by
  have refused := Session.run_of_refused (Session.sceneCourse_of_missing missing) w.lines
  have sampled : (orFail (session.sample w.lines s.scene)).run.run r =
      (.error (.failure (Failure.noScene index session.program.scenes.length).message), r) := by
    rw [orFail, run_adapt, scene, Session.sample, refused]
    rfl
  rw [deliver, run_bind, sampled]

/-- A run that breaks off has written the lines of what came before. -/
theorem run_deliver_breaks (workers : Workers) {write : ByteArray → StateM Room Unit}
    {holds : ByteArray → Room → Prop} (appends : Appends write holds) (start : holds .empty r)
    (breaks : session.BreaksOff s.scene j) :
    ∃ last, (deliver (Room.host workers) session s (.ready write)).run.run r =
        (.error (.ofFailure .overflow), last) ∧
      holds (textOf (linesOf (session.course s.scene).deliveries)) last := by
  have written := appends.deliveries start (session.course s.scene).deliveries
  rw [ByteArray.empty_append] at written
  refine ⟨_, ?_, written⟩
  rw [deliver, run_bind, orFail, run_adapt, Session.run_sample_ready, breaks.outcome]
  rfl

/-- On a writer that never refuses, the frames of an accepted script are all handed over, or the
scene is not there, or the run breaks off. -/
theorem run_deliver_cases (sound : session.program.Sound) (write : ByteArray → StateM Room Unit)
    (ran : (deliver (Room.host workers) session s (.ready write)).run.run r = (result, last)) :
    result = .ok 0 ∨
      (∃ index, s.scene = some index ∧ session.program.scenes.length ≤ index) ∨
      ∃ j, session.BreaksOff s.scene j := by
  rcases Session.course_of_sound sound s.scene with missing | breaks | ⟨stats, ends⟩
  · exact .inr (.inl missing)
  · exact .inr (.inr breaks)
  · left
    rw [deliver, run_bind, orFail, run_adapt, Session.run_sample_ready, ends] at ran
    cases out : s.out with
    | none =>
      rw [out] at ran
      cases ran
      rfl
    | some path =>
      rw [out] at ran
      cases ran
      rfl

theorem program_of_create {program : Program} {options : Session.Options}
    (created : Session.create workers program options = .ok session) :
    session.program = program := by
  unfold Session.create at created
  by_cases unfit : options.rate.num = 0 ∨ options.rate.den = 0
  · rw [if_pos unfit] at created
    cases created
  rw [if_neg unfit] at created
  by_cases parallel : options.parallel
  · rw [if_pos parallel] at created
    cases started : workers.start options.threads <;> rw [started] at created <;> cases created
    rfl
  · rw [if_neg parallel] at created
    cases created
    rfl

theorem program_of_session {program : Program}
    (accepted : s.session workers program = .ok session) : session.program = program := by
  obtain ⟨rate, -, created⟩ := exists_of_bind_eq_ok accepted
  exact program_of_create created

/-- The request is in order but for the scene: it asks for one that is not in the script. -/
structure Astray (workers : Workers) (d : Disk) (script : String) (s : SampleRequest)
    (path : String) : Prop where
  out : s.out = some path
  astray : ∃ program session index, d.Holds script program ∧
    s.session workers program = .ok session ∧ s.scene = some index ∧
    program.scenes.length ≤ index

/-- The request is in order, but the run breaks off in scene `j`. -/
structure Overlong (workers : Workers) (d : Disk) (script : String) (s : SampleRequest)
    (session : Session) (j : Nat) : Prop where
  holds : d.Holds script session.program
  accepted : s.session workers session.program = .ok session
  breaks : session.BreaksOff s.scene j

/-- What the run hands over before it ends. -/
def handedOver (session : Session) (s : SampleRequest) : List Delivery :=
  (logged (session.sample (steady record) s.scene)).2

theorem handedOver_eq : handedOver session s = (session.course s.scene).deliveries := by
  rw [handedOver, Session.sample_eq_follow, logged_follow_record]

/-- The request is carried out up to where the frames are to go, and no file is touched yet. -/
theorem run_sample_start (ran : ((Room.host workers).act (.sample script s)).run.run r =
      (result, last)) :
    (∃ t, result = .error t ∧ r.Alike last) ∨
      ∃ session, r.disk.Holds script session.program ∧
        s.session workers session.program = .ok session ∧
        ((Room.host workers).target s.out >>= deliver (Room.host workers) session s).run.run r =
          (result, last) := by
  rw [Host.act, sample_eq_deliver] at ran
  rcases run_bind_cases ran with ⟨t, rfl, unread⟩ | ⟨program, next, loaded, judged⟩
  · exact .inl ⟨t, rfl, (Room.quiet_load script).alike unread⟩
  obtain ⟨rfl, holds⟩ := Room.run_load_eq_ok.1 loaded
  rcases run_bind_cases judged with ⟨t, rfl, refused⟩ | ⟨session, next', accepted, aimed⟩
  · exact .inl ⟨t, rfl, (quiet_orFail (s.session workers program)).alike refused⟩
  obtain ⟨rfl, created⟩ := run_orFail_eq_ok.1 accepted
  obtain rfl := program_of_session created
  exact .inr ⟨session, holds, created, aimed⟩

/-- If the script is accepted, only the target and what follows it are left to run. -/
theorem run_sample_eq (holds : r.disk.Holds script session.program)
    (accepted : s.session workers session.program = .ok session) :
    ((Room.host workers).act (.sample script s)).run.run r =
      ((Room.host workers).target s.out >>= deliver (Room.host workers) session s).run.run r := by
  rw [Host.act, sample_eq_deliver, run_bind, Room.run_load_eq_ok.2 ⟨rfl, holds⟩]
  dsimp only
  rw [run_bind, run_orFail_eq_ok.2 ⟨rfl, accepted⟩]

/-- A scene that is not there is noticed only after the target was made. -/
theorem run_sample_astray {w : Writer (StateM Room)} (astray : Astray workers r.disk script s path)
    (makes : ((Room.host workers).target (some path)).run.run r = (.ok w, made)) :
    ∃ message,
      ((Room.host workers).act (.sample script s)).run.run r =
        (.error (.failure message), made) := by
  obtain ⟨out, program, session, index, holds, created, scene, missing⟩ := astray
  obtain rfl := program_of_session created
  rw [run_sample_eq holds created, run_bind, out, makes]
  exact ⟨_, run_deliver_missing scene missing w made⟩

/-- A run that breaks off leaves in the target the lines before it did. -/
theorem run_sample_overlong {w : Writer (StateM Room)}
    (overlong : Overlong workers r.disk script s session j)
    (makes : ((Room.host workers).target s.out).run.run r = (.ok w, made)) :
    ∃ last, ((Room.host workers).act (.sample script s)).run.run r =
        (.error (.ofFailure .overflow), last) ∧
      r.Received s.out (textOf (linesOf (handedOver session s))) last := by
  obtain ⟨write, holds, rfl, appends, start, received⟩ := Room.target_ready makes
  obtain ⟨last, delivered, written⟩ :=
    run_deliver_breaks workers appends start overlong.breaks
  rw [run_sample_eq overlong.holds overlong.accepted, run_bind, makes, handedOver_eq]
  exact ⟨last, delivered, received _ _ written⟩

/-- All that is refused before the file is made leaves the files as they are. -/
theorem run_sample (ran : ((Room.host workers).act (.sample script s)).run.run r =
      (result, last)) :
    result = .ok 0 ∨ ∃ t, result = .error t ∧
      (r.Alike last ∨ (∃ path place, Astray workers r.disk script s path ∧
          r.Emptied path place last) ∨
        ∃ session j, Overlong workers r.disk script s session j ∧
          r.Received s.out (textOf (linesOf (handedOver session s))) last) := by
  have whole := ran
  rcases run_sample_start ran with ⟨t, rfl, same⟩ | ⟨session, holds, accepted, aimed⟩
  · exact .inr ⟨t, rfl, .inl same⟩
  have sound : session.program.Sound := by
    obtain ⟨text, -, parsed⟩ := holds
    exact Script.sound_of_parse parsed
  rcases run_bind_cases aimed with ⟨t, rfl, unmade⟩ | ⟨w, made, makes, delivered⟩
  · cases out : s.out with
    | none =>
      rw [out] at unmade
      cases unmade
    | some path =>
      rw [out] at unmade
      exact .inr ⟨t, rfl, .inl (Room.run_target unmade)⟩
  obtain ⟨write, -, rfl, -⟩ := Room.target_ready makes
  rcases run_deliver_cases sound write delivered with fine | ⟨index, scene, missing⟩ | ⟨j, breaks⟩
  · exact .inl fine
  · rw [run_deliver_missing scene missing] at delivered
    cases delivered
    refine .inr ⟨_, rfl, ?_⟩
    cases out : s.out with
    | none =>
      rw [out] at makes
      obtain rfl := congrArg Prod.snd makes
      exact .inl (.refl _)
    | some path =>
      rw [out] at makes
      obtain ⟨place, -, emptied⟩ := Room.run_target makes
      exact .inr (.inl ⟨path, place,
        ⟨out, session.program, session, index, holds, accepted, scene, missing⟩, emptied⟩)
  · have overlong : Overlong workers r.disk script s session j := ⟨holds, accepted, breaks⟩
    obtain ⟨broken, acted, received⟩ := run_sample_overlong overlong makes
    cases whole.symm.trans acted
    exact .inr ⟨_, rfl, .inr (.inr ⟨session, j, overlong, received⟩)⟩

end Deliver

section Run

variable {workers : Workers} {arguments : List String} {r after : Room} {code : UInt32}

theorem run_misread {e : UsageError} (read : Request.ofArguments arguments = .error e) :
    ((Room.host workers).run arguments).run r = (2, { r with err := r.err ++ e.message }) := by
  rw [Host.run, read]
  rfl

theorem run_read {request : Request} (read : Request.ofArguments arguments = .ok request) :
    ((Room.host workers).run arguments).run r =
      match ((Room.host workers).act request).run.run r with
      | (.ok code, next) => (code, next)
      | (.error t, next) => (t.code, { next with err := next.err ++ t.report }) := by
  rw [Host.run, read]
  dsimp only
  rw [StateT.run_bind]
  change (match ((Room.host workers).act request).run.run r with | (result, next) => _) = _
  rcases ((Room.host workers).act request).run.run r with ⟨_ | _, _⟩ <;> rfl

/-- A run that fails leaves every file as it is, but for two cases. If only the scene is missing, it
has made the file for the frames, or emptied the one that was there. If the frames of a scene cannot
be listed, the file or the output has got the lines of what was handed over before, which is no frame
if no scene stands before that one. -/
theorem failed_sample (ran : ((Room.host workers).run ("sample" :: arguments)).run r =
      (code, after)) :
    (code ≠ 0 → r.Alike after ∨ ∃ script s,
      Request.ofArguments ("sample" :: arguments) = .ok (.sample script s) ∧
        ((∃ path place, Astray workers r.disk script s path ∧ r.Emptied path place after) ∨
          ∃ session j, Overlong workers r.disk script s session j ∧
            r.Received s.out (textOf (linesOf (handedOver session s))) after)) ∧
    ∀ script s, Request.ofArguments ("sample" :: arguments) = .ok (.sample script s) →
      (∀ path w made, Astray workers r.disk script s path →
        ((Room.host workers).target (some path)).run.run r = (.ok w, made) →
        code = 1 ∧ ∃ place, r.Emptied path place after) ∧
      ∀ session j w made, Overlong workers r.disk script s session j →
        ((Room.host workers).target s.out).run.run r = (.ok w, made) →
        code = 101 ∧ r.Received s.out (textOf (linesOf (handedOver session s))) after ∧
          (s.scene ≠ none ∨ j = 0 → ∃ h, handedOver session s = [.header h]) := by
  refine ⟨fun failed => ?_, fun script s read => ⟨?_, ?_⟩⟩
  · cases read : Request.ofArguments ("sample" :: arguments) with
    | error e =>
      rw [run_misread read] at ran
      cases ran
      exact .inl ((Room.Alike.refl r).told _)
    | ok request =>
      obtain ⟨script, s, rfl⟩ := exists_sampleRequest read
      rcases acted : ((Room.host workers).act (.sample script s)).run.run r with ⟨result, next⟩
      rw [run_read read, acted] at ran
      rcases run_sample acted with rfl | ⟨t, rfl, same | ⟨path, place, astray, emptied⟩ |
        ⟨session, j, overlong, received⟩⟩
      · cases ran
        exact absurd rfl failed
      · cases ran
        exact .inl (same.told _)
      · cases ran
        exact .inr ⟨script, s, rfl, .inl ⟨path, place, astray, emptied.told _⟩⟩
      · cases ran
        exact .inr ⟨script, s, rfl, .inr ⟨session, j, overlong, received.told _⟩⟩
  · intro path w made astray makes
    obtain ⟨message, acted⟩ := run_sample_astray astray makes
    obtain ⟨place, -, emptied⟩ := Room.run_target makes
    rw [run_read read, acted] at ran
    cases ran
    exact ⟨rfl, place, emptied.told _⟩
  · intro session j w made overlong makes
    obtain ⟨last, acted, received⟩ := run_sample_overlong overlong makes
    rw [run_read read, acted] at ran
    obtain ⟨rfl, rfl⟩ := Prod.mk.inj ran
    refine ⟨rfl, received.told _, fun alone => ?_⟩
    rw [handedOver_eq]
    exact overlong.breaks.deliveries alone

/-- The script, and the frames of an earlier run. -/
def desk : Room where
  disk := {
    home := ["home"]
    nodes := [(["home", "s.vid"], .file Session.plain.toUTF8),
      (["home", "old"], .file "kept\n".toUTF8)] }

def misplaced (path : String) : List String :=
  ["s.vid", "--scene", "7", "--out", path]

/-- The request of `misplaced`. -/
def misplacedRequest (path : String) : SampleRequest :=
  ⟨30, 1, some 7, [], false, none, 64, some path⟩

theorem desk_astray (path : String) :
    Astray workers desk.disk "s.vid" (misplacedRequest path) path where
  out := rfl
  astray := ⟨Session.plainProgram, _, 7, ⟨Session.plain, rfl, Session.plain_parsed⟩, rfl, rfl,
    by decide⟩

def strained : List String :=
  ["s.vid", "--narration", "0=1e300", "--out", "old"]

/-- The request of `strained`. -/
def strainedRequest : SampleRequest :=
  ⟨30, 1, none, [(0, 1e300)], false, none, 64, some "old"⟩

theorem strained_read :
    Request.ofArguments ("sample" :: strained) = .ok (.sample "s.vid" strainedRequest) :=
  eq_ok_of_toOption (by decide +kernel)

theorem desk_overlong :
    Overlong workers desk.disk "s.vid" strainedRequest Session.strainedSession 0 where
  holds := ⟨Session.plain, rfl, Session.plain_parsed⟩
  accepted := rfl
  breaks := .all Session.strained_first

/-- A scene that is not there empties a file, arguments that make no request do not, and the file is
left with the line of the header if the frames of the scene cannot be listed. -/
theorem desk_failed :
    (∃ place, desk.Emptied "old" place
      (((Room.host fun _ => .ok ()).run ("sample" :: misplaced "old")).run desk).2) ∧
    desk.Alike (((Room.host fun _ => .ok ()).run ["sample", "--out", "old"]).run desk).2 ∧
    ∃ h after, ((Room.host fun _ => .ok ()).run ("sample" :: strained)).run desk = (101, after) ∧
      desk.Received (some "old") (textOf (linesOf [.header h])) after := by
  refine ⟨?_, ?_, ?_⟩
  · rcases ran : ((Room.host fun _ => .ok ()).run ("sample" :: misplaced "old")).run desk with
      ⟨code, after⟩
    exact (((failed_sample ran).2 _ _ rfl).1 _ _ _ (desk_astray "old") rfl).2
  · have unread : Request.ofArguments ["sample", "--out", "old"] = .error .missingArguments := rfl
    rcases (failed_sample (@run_misread (fun _ => .ok ()) _ _ _ unread)).1 (by decide) with
      same | ⟨_, _, read, -⟩
    · rw [run_misread unread]
      exact same
    · cases unread.symm.trans read
  · rcases ran : ((Room.host fun _ => .ok ()).run ("sample" :: strained)).run desk with
      ⟨code, after⟩
    obtain ⟨rfl, received, alone⟩ :=
      ((failed_sample ran).2 _ _ strained_read).2 _ _ _ _ desk_overlong rfl
    obtain ⟨h, only⟩ := alone (.inr rfl)
    rw [only] at received
    exact ⟨h, after, rfl, received⟩

/-- The run ends with a failure and without a frame, and a file is there that was not. -/
theorem misplaced_makes_file :
    ∃ after, ((Room.host fun _ => .ok ()).run ("sample" :: misplaced "new")).run desk =
        (1, after) ∧
      after.out = desk.out ∧ desk.disk.file? ["home", "new"] = none ∧
      after.disk.file? ["home", "new"] = some .empty := by
  obtain ⟨message, acted⟩ := run_sample_astray (desk_astray "new") rfl
  have read : Request.ofArguments ("sample" :: misplaced "new") =
      .ok (.sample "s.vid" (misplacedRequest "new")) := rfl
  have ran := @run_read (fun _ => .ok ()) _ desk _ read
  rw [acted] at ran
  exact ⟨_, ran, rfl, rfl, rfl⟩

end Run

end CommandLine
end Storyboard
