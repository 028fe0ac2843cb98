import Storyboard.Proofs.Script.Cursor
import Storyboard.Proofs.Script.Offending

namespace Storyboard.Script

namespace Reader

/-- An event without the comma that may follow it. -/
def trigger : Reader Event := do
  keyword "at" "time trigger (`at <time>s \x7b ... \x7d`) or `\x7d`"
  let time ← duration "trigger time such as `1s`" "trigger time"
  let commands ← block "trigger body" command command_progresses
  return ⟨time, commands⟩

theorem trigger_progresses : Progresses trigger :=
  (keyword_progresses _ _).andThen fun _ => (duration_progresses _ _).andThen fun _ =>
    (block_progresses _ _ _).bind fun _ => pure_shrinks _

theorem event_eq : event = do
    let e ← trigger
    skipComma
    return e := by
  simp only [event, trigger, bind_assoc, pure_bind]

end Reader

namespace Recipe

open Reader (Progresses)

def point : Recipe Reader.point :=
  (take _ _).andThen fun _ => (take _ _).andThen fun _ => (take _ _).andThen fun _ =>
    (take _ _).andThen fun _ => (take _ _).andThen fun _ => done _

def argumentValue : (name : ArgumentName) → Recipe (Reader.argumentValue name)
  | .id => (take _ _).andThen fun _ => done _
  | .anchor => point.andThen fun _ => done _
  | .content => (take _ _).andThen fun _ => done _
  | .radius => (take _ _).andThen fun _ => done _

def argument (shape : Shape) : Recipe (Reader.argument shape) :=
  .production .argument (Reader.argument_progresses shape)
    ((take _ _).andThen fun name => (take _ _).andThen fun _ => argumentValue name)

def element : Recipe Reader.element :=
  .production .element Reader.element_progresses
    ((take _ _).andThen fun shape => (take _ _).andThen fun _ =>
      (list _ _ (argument shape)).andThen fun _ => take _ _)

def fade : Recipe Reader.fade :=
  .production .command Reader.fade_progresses
    ((take _ _).andThen fun _ => (take _ _).andThen fun _ => (take _ _).andThen fun _ =>
      (take _ _).andThen fun _ => (take _ _).andThen fun _ => (take _ _).andThen fun _ =>
        (take _ _).andThen fun _ => (take _ _).andThen fun _ => (take _ _).andThen fun _ =>
          comma.andThen fun _ => (take _ _).andThen fun _ => done _)

def command : Recipe Reader.command :=
  fade.andThen fun _ => comma.andThen fun _ => done _

def block {α : Type} {item : Reader α} (what : String) (progress : Progresses item)
    (body : Recipe item) : Recipe (Reader.block what item progress) :=
  (take _ _).andThen fun _ => (loop _ _ body).andThen fun _ => (take _ _).andThen fun _ => done _

def trigger : Recipe Reader.trigger :=
  .production .event Reader.trigger_progresses
    ((take _ _).andThen fun _ => (take _ _).andThen fun _ =>
      (block _ _ command).andThen fun _ => done _)

def event : Recipe Reader.event :=
  same Reader.event_eq (trigger.andThen fun _ => comma.andThen fun _ => done _)

def visual : Recipe Reader.visual :=
  element.andThen fun _ => comma.andThen fun _ => done _

def dimensions : Recipe Reader.dimensions :=
  (take _ _).andThen fun _ => (take _ _).andThen fun _ => (take _ _).andThen fun _ =>
    (take _ _).andThen fun _ => (take _ _).andThen fun _ => done _

def videoProperty : Recipe Reader.videoProperty :=
  production .videoProperty Reader.videoProperty_progresses
    ((take _ _).andThen fun _ => (take _ _).andThen fun _ => dimensions)

def video : Recipe Reader.video :=
  production .video Reader.video_progresses
    ((take _ _).andThen fun _ => (take _ _).andThen fun _ =>
      (loop _ _ videoProperty).andThen fun _ => take _ _)

def sceneValue : (w : Reader.SceneWord) → Recipe (Reader.sceneValue w)
  | .duration => (take _ _).andThen fun _ => done _
  | .narration => (take _ _).andThen fun _ => done _
  | .visuals => (block _ _ visual).andThen fun _ => done _
  | .timeline => (block _ _ event).andThen fun _ => done _

def sceneProperty : Recipe Reader.sceneProperty :=
  production .sceneProperty Reader.sceneProperty_progresses
    ((take _ _).andThen fun w => (take _ _).andThen fun _ => sceneValue w)

def scene : Recipe Reader.scene :=
  production .scene Reader.scene_progresses
    ((take _ _).andThen fun _ => (take _ _).andThen fun _ => (take _ _).andThen fun _ =>
      (loop _ _ sceneProperty).andThen fun _ => take _ _)

def program : Recipe Reader.program :=
  video.andThen fun _ => (loop _ _ scene).andThen fun scenes =>
    match scenes with
    | [] => (take _ _).andThen fun _ => done _
    | _ :: _ => done _

end Recipe

/-- The recipe of each construct. -/
inductive Construct : {α : Type} → {r : Reader α} → Production → Recipe r → Prop where
  | video : Construct .video Recipe.video
  | videoProperty : Construct .videoProperty Recipe.videoProperty
  | scene : Construct .scene Recipe.scene
  | sceneProperty : Construct .sceneProperty Recipe.sceneProperty
  | element : Construct .element Recipe.element
  | argument (shape : Shape) : Construct .argument (Recipe.argument shape)
  | event : Construct .event Recipe.trigger
  | command : Construct .command Recipe.fade

section Construct

variable {α : Type} {r : Reader α} {recipe : Recipe r} {p : Production} {a : α}
  {row : List (Option Token)} {tokens : List Token} {limit start stop : Nat}

theorem Construct.eq_production (construct : Construct p recipe) :
    ∃ progress body, recipe = .production p progress body := by
  cases construct <;> exact ⟨_, _, rfl⟩

theorem Run.recorded {w : Run α}
    (ends : (w.andThen fun a stop => ⟨[.passed p start stop], .value a stop⟩).ending =
      .value a stop) :
    .passed p start stop ∈
      (w.andThen fun a stop => ⟨[.passed p start stop], .value a stop⟩).acts := by
  obtain ⟨acts, ending⟩ := w
  cases ending with
  | value b pos =>
    cases ends
    simp [andThen]
  | mismatch | astray | cutOff => cases ends

/-- A construct that has been read is on record, and it has brought the cursor forward. -/
theorem Construct.passed (construct : Construct p recipe)
    (enough : (ended tokens).length ≤ limit) (inside : start < (ended tokens).length)
    (ends : (recipe.run (ended tokens) limit start).ending = .value a stop) :
    .passed p start stop ∈ (recipe.run (ended tokens) limit start).acts ∧
      start < stop ∧ stop < (ended tokens).length := by
  have follows := recipe.run_follows enough (Nat.lt_succ_iff.1 (length_ended tokens ▸ inside))
  obtain ⟨progress, body, rfl⟩ := construct.eq_production
  have recorded := Run.recorded ends
  exact ⟨recorded, follows.within _ recorded⟩

end Construct

namespace Reader

variable {α : Type} {ts rest : List Token}

theorem repeatUntil_stops {stop : Option Token → Bool} {item : Reader α}
    {progress : Progresses item} {as : List α}
    (read : repeatUntil stop item progress ts = .ok (as, rest)) : stop rest.head? = true := by
  fun_induction repeatUntil stop item progress ts generalizing as with
  | case1 ts stops =>
    cases read
    exact stops
  | case2 => cases read
  | case3 ts goes a mid first ih =>
    cases step : repeatUntil stop item progress mid with
    | error m =>
      rw [step] at read
      cases read
    | ok p =>
      rw [step] at read
      cases read
      exact ih step

/-- A whole script leaves nothing. -/
theorem program_leaves {p : Program} (read : program ts = .ok (p, rest)) : rest = [] := by
  simp only [program, bind_eq_ok] at read
  obtain ⟨canvas, _, -, scenes, left, loop, last⟩ := read
  have nothing : left = [] :=
    List.head?_eq_none_iff.1 (Option.isNone_iff_eq_none.1 (repeatUntil_stops loop))
  cases scenes with
  | nil =>
    rw [nothing] at last
    cases last
  | cons scene scenes =>
    obtain ⟨-, rfl⟩ := pure_eq_ok.1 last
    exact nothing

end Reader

variable {source : String} {s : Scanned}

/-- What the end of a run over the tokens says about the text. -/
theorem Ends.parsed {ending : Ending Program} (scans : scanText source.toList = .ok s)
    (ends : Ends s.tokens (Reader.program s.tokens) ending) :
    (∃ p pos, ending = .value p pos ∧ s.kinds[pos]? = some none ∧ parse source = .ok p) ∨
      ∃ cause pos kind span, ending = .mismatch cause pos ∧ s.stops[pos]? = some (kind, span) ∧
        parse source = .error (.ofSpan source.toList span cause.message) := by
  cases read : Reader.program s.tokens with
  | ok result =>
    rw [read] at ends
    cases ends with
    | @value p pos inside =>
      have atEnd : s.kinds[pos]? = some none := by
        change (ended s.tokens)[pos]? = some none
        rw [getElem?_ended inside, Reader.program_leaves read, List.head?_nil]
      have parsed : readProgram s.tokens = .ok p := by
        rw [readProgram, read]
        rfl
      exact .inl ⟨p, pos, rfl, atEnd, (parse_eq_readProgram scans).2 parsed⟩
  | error m =>
    rw [read] at ends
    cases ends with
    | @mismatch cause pos inside =>
      have here := Scanned.stops_eq (List.take_append_drop pos s.tokens).symm
      rw [List.length_take_of_le inside, List.length_drop] at here
      have refused : readProgram s.tokens = .error ⟨cause, s.tokens.length - pos⟩ := by
        rw [readProgram, read]
        rfl
      exact .inr ⟨cause, pos, _, _, rfl, here, (parse_eq_error scans).2 ⟨_, refused, rfl⟩⟩

/-- Of every text that scans, the tokens are read to an end with no more rounds in any loop than
there are tokens, the end of the script among them. The cursor is always in the row, and the end is
never taken. Each construct that is read, from wherever the cursor is, goes on record and brings the
cursor forward. A program is read up to the end, and a syntax error stands where the run ends. -/
theorem parse_halts (scans : scanText source.toList = .ok s) {limit : Nat}
    (enough : s.kinds.length ≤ limit) :
    (∀ act ∈ (Recipe.program.run s.kinds limit 0).acts, act.Within s.kinds) ∧
    (∀ {α : Type} {p : Production} {r : Reader α} {recipe : Recipe r}, Construct p recipe →
      ∀ start < s.kinds.length, ∀ a stop, (recipe.run s.kinds limit start).ending = .value a stop →
        .passed p start stop ∈ (recipe.run s.kinds limit start).acts ∧
          start < stop ∧ stop < s.kinds.length) ∧
    ((∃ p pos, (Recipe.program.run s.kinds limit 0).ending = .value p pos ∧
        s.kinds[pos]? = some none ∧ parse source = .ok p) ∨
      ∃ cause pos kind span, (Recipe.program.run s.kinds limit 0).ending = .mismatch cause pos ∧
        s.stops[pos]? = some (kind, span) ∧
        parse source = .error (.ofSpan source.toList span cause.message)) := by
  have follows : Follows s.tokens (Reader.program s.tokens)
      (Recipe.program.run s.kinds limit 0) :=
    Recipe.program.run_follows enough (Nat.zero_le _)
  refine ⟨follows.within, ?_, follows.ends.parsed scans⟩
  intro α p r recipe construct start inside a stop ends
  exact construct.passed enough inside ends

/-- A script that ends within its video block. -/
def truncated : String :=
  "video\x7bdimensions:(2,1)"

/-- One property is read, and then the end is blamed for not being another one. -/
theorem truncated_halts :
    ∃ s cause pos kind span, scanText truncated.toList = .ok s ∧
      (∀ act ∈ (Recipe.program.run s.kinds s.kinds.length 0).acts, act.Within s.kinds) ∧
      (Recipe.program.run s.kinds s.kinds.length 0).acts.filter (· matches .passed ..) =
        [.passed .videoProperty 2 9] ∧
      (Recipe.program.run s.kinds s.kinds.length 0).ending = .mismatch cause pos ∧
      s.stops[pos]? = some (kind, span) ∧
      parse truncated = .error (.ofSpan truncated.toList span cause.message) := by
  have scanned : (scanText truncated.toList).isOk := by decide +kernel
  have refused : (parse truncated).isOk = false := by decide +kernel
  have recorded : (scanText truncated.toList).toOption.map (fun s =>
      (Recipe.program.run s.kinds s.kinds.length 0).acts.filter (· matches .passed ..)) =
        some [.passed .videoProperty 2 9] := by
    decide +kernel
  cases scans : scanText truncated.toList with
  | error e =>
    rw [scans] at scanned
    cases scanned
  | ok s =>
    rw [scans] at recorded
    obtain ⟨within, -, ⟨p, pos, -, -, parsed⟩ | ⟨cause, pos, kind, span, ends, here, failed⟩⟩ :=
      parse_halts scans (Nat.le_refl s.kinds.length)
    · rw [parsed] at refused
      cases refused
    · exact ⟨s, cause, pos, kind, span, rfl, within, Option.some.inj recorded, ends, here, failed⟩

end Storyboard.Script
