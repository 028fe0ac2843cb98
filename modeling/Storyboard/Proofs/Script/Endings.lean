import Storyboard.Proofs.Script.Completion
import Storyboard.Proofs.Script.Scenes

/-!
# Every beginning of a script has an ending

Each reader of scripts can be brought to an end, since some token is accepted wherever one is asked
for and whatever is missing can still be written before the bracket. Main statement: so can the
reader of whole scripts (`program_completes`).
-/

namespace Storyboard.Script

/-- The argument that is given. -/
def Argument.name : Argument → ArgumentName
  | .id _ => .id
  | .anchor _ => .anchor
  | .content _ => .content
  | .radius _ => .radius

namespace ElementDraft

/-- The argument was given. -/
def has (d : ElementDraft) : ArgumentName → Bool
  | .id => d.id.isSome
  | .anchor => d.anchor.isSome
  | .content => d.content.isSome
  | .radius => d.radius.isSome

theorem has_put (d : ElementDraft) (arg : Argument) (a : ArgumentName) :
    (d.put arg).has a = (decide (arg.name = a) || d.has a) := by
  cases arg <;> cases a <;> rfl

theorem has_foldl (args : List Argument) (d : ElementDraft) (a : ArgumentName) :
    (args.foldl put d).has a = (args.any (fun arg => arg.name = a) || d.has a) := by
  induction args generalizing d with
  | nil => rfl
  | cons arg args ih =>
    rw [List.foldl_cons, ih, has_put, List.any_cons, Bool.or_left_comm, Bool.or_assoc]

/-- No more is asked for than the arguments of the shape. -/
theorem exists_finish {d : ElementDraft} {s : Shape} (all : ∀ a ∈ s.arguments, d.has a) :
    ∃ e, d.finish s = .ok e := by
  obtain ⟨id, anchor, content, radius⟩ := d
  cases s with
  | text =>
    obtain ⟨name, rfl⟩ := Option.isSome_iff_exists.1 (all .id (by decide))
    obtain ⟨p, rfl⟩ := Option.isSome_iff_exists.1 (all .anchor (by decide))
    obtain ⟨body, rfl⟩ := Option.isSome_iff_exists.1 (all .content (by decide))
    exact ⟨_, rfl⟩
  | circle =>
    obtain ⟨name, rfl⟩ := Option.isSome_iff_exists.1 (all .id (by decide))
    obtain ⟨p, rfl⟩ := Option.isSome_iff_exists.1 (all .anchor (by decide))
    obtain ⟨r, rfl⟩ := Option.isSome_iff_exists.1 (all .radius (by decide))
    exact ⟨_, rfl⟩

end ElementDraft

namespace Reader

variable {ts rest : List Token}

/-- The text is a word, as the scanner takes it. -/
def isWord (name : String) : Bool :=
  match name.toList with
  | [] => false
  | c :: cs => isWordStart c && cs.all isWordPart

theorem word_spelled {name : String} (word : isWord name) : (Token.word name).Spelled := by
  unfold isWord at word
  cases chars : name.toList with
  | nil =>
    rw [chars] at word
    cases word
  | cons c cs =>
    rw [chars, Bool.and_eq_true, List.all_eq_true] at word
    have same : String.ofList (c :: cs) = name := by rw [← chars, String.ofList_toList]
    rw [← same]
    exact ⟨c :: cs, .word word.1 word.2⟩

theorem text_spelled : (Token.text "").Spelled :=
  ⟨_, .text List.not_mem_nil⟩

def oneNumeral : Numeral := ⟨false, ['1'], []⟩

def one : Float := oneNumeral.value

theorem one_wellFormed : oneNumeral.WellFormed :=
  ⟨List.cons_ne_nil _ _, by simp [oneNumeral], List.forall_mem_nil _⟩

/-- What is asked of a number anywhere in a script. -/
theorem one_fits : one.isFinite ∧ ¬ one < 0.0 ∧ ¬ one ≤ 0.0 ∧
    ¬ 18446744073709551616.0 < one ∧ one.toUInt64.toNat = 1 := by
  decide +kernel

theorem one_isFinite : one.isFinite :=
  one_fits.1

theorem one_not_negative : ¬ one < 0.0 :=
  one_fits.2.1

theorem number_spelled : (Token.number one true).Spelled :=
  ⟨_, .number one_wellFormed one_isFinite (by decide)⟩

theorem duration_spelled : (Token.duration one).Spelled :=
  ⟨_, .duration one_wellFormed one_isFinite⟩

theorem text_completes (construct : String) : Completes (text construct) whatever :=
  take_completes text_spelled rfl

theorem number_completes (construct : String) : Completes (number construct) whatever :=
  take_completes number_spelled rfl

theorem duration_completes (construct what : String) :
    Completes (duration construct what) whatever :=
  take_completes duration_spelled (if_neg one_not_negative)

theorem radius_completes : Completes radius whatever := by
  obtain ⟨-, -, positive, -⟩ := one_fits
  exact take_completes number_spelled (if_neg positive)

theorem shape_completes : Completes shape whatever :=
  take_completes (t := .word "text") (word_spelled (by decide)) rfl

theorem argumentName_completes (s : Shape) : Completes (argumentName s) whatever := by
  have spelled : (Token.word "id").Spelled := word_spelled (by decide)
  cases s with
  | text => exact take_completes spelled (a := .id) rfl
  | circle => exact take_completes spelled (a := .id) rfl

theorem direction_completes : Completes direction whatever :=
  take_completes (t := .word "in") (word_spelled (by decide)) rfl

theorem size_completes (axis : Axis) : Completes (size axis) whatever := by
  obtain ⟨-, -, -, small, pixels⟩ := one_fits
  have accepts : pixelSize axis one = .accept 1 := by
    simp only [pixelSize, if_neg small, pixels]
    rfl
  exact take_completes number_spelled accepts

theorem sceneWord_completes : Completes sceneWord whatever :=
  take_completes (t := .word "duration") (word_spelled (by decide)) (a := .duration) rfl

theorem keyword_completes {name : String} (construct : String)
    (spelled : (Token.word name).Spelled) : Completes (keyword name construct) whatever :=
  take_completes spelled (if_pos rfl)

theorem colonAfter_completes (name : String) : Completes (colonAfter name) whatever :=
  mark_completes _ _

theorem point_completes : Completes point whatever :=
  (mark_completes _ _).andThen fun _ => (number_completes _).andThen fun _ =>
    (mark_completes _ _).andThen fun _ => (number_completes _).andThen fun _ =>
      (mark_completes _ _).andThen fun _ => pure_completes _ _

theorem argumentValue_completes (a : ArgumentName) : Completes (argumentValue a) whatever := by
  cases a with
  | id => exact (text_completes _).andThen fun _ => pure_completes _ _
  | anchor => exact point_completes.andThen fun _ => pure_completes _ _
  | content => exact (text_completes _).andThen fun _ => pure_completes _ _
  | radius => exact radius_completes.andThen fun _ => pure_completes _ _

theorem argument_completes (s : Shape) : Completes (argument s) whatever :=
  (argumentName_completes s).andThen fun _ => (colonAfter_completes _).andThen fun _ =>
    argumentValue_completes _

theorem argument_wordFirst (s : Shape) : WordFirst (argument s) :=
  WordFirst.bind fun _ _ _ read => ⟨_, congrArg List.head? (argumentName_eq_ok.1 read).1⟩

theorem name_of_argumentValue {a : ArgumentName} {arg : Argument}
    (read : argumentValue a ts = .ok (arg, rest)) : arg.name = a := by
  cases a with
  | id | anchor | content | radius =>
    obtain ⟨_, _, -, given⟩ := bind_eq_ok.1 read
    obtain ⟨rfl, -⟩ := pure_eq_ok.1 given
    rfl

/-- Every argument of a shape can be given, with a comma after it. -/
theorem exists_argument {s : Shape} {a : ArgumentName} (listed : a ∈ s.arguments) :
    ∃ added arg, CommaTakes (argument s) added arg ∧ AllSpelled added ∧ arg.name = a := by
  obtain ⟨value, arg, spelled, takes⟩ := (argumentValue_completes a).start
  have name : (Token.word a.word).Spelled := by
    cases a <;> exact word_spelled (by decide)
  refine ⟨.word a.word :: .mark .colon :: value ++ [.mark .comma], arg, ⟨_, rfl, ?_⟩, ?_, ?_⟩
  · intro rest _
    simp only [argument, bind_eq_ok, argumentName_eq_ok, colonAfter_eq_ok]
    exact ⟨a, _, ⟨rfl, listed⟩, (), _, rfl, takes rest trivial⟩
  · have given : AllSpelled (.word a.word :: .mark .colon :: value) :=
      .cons name (.cons (mark_spelled .colon) spelled)
    exact given.append (.mark .comma)
  · exact name_of_argumentValue (takes [] trivial)

/-- Arguments that are still missing can be written down, in any order. -/
theorem exists_arguments {s : Shape} {names : List ArgumentName}
    (listed : ∀ a ∈ names, a ∈ s.arguments) : ∃ added args,
      Row (CommaTakes (argument s)) added args ∧ AllSpelled added ∧
        args.map Argument.name = names := by
  induction names with
  | nil => exact ⟨[], [], .nil, .nil, rfl⟩
  | cons a names ih =>
    obtain ⟨head, tail⟩ := List.forall_mem_cons.1 listed
    obtain ⟨own, arg, takes, spelled, named⟩ := exists_argument head
    obtain ⟨added, args, row, spelled', named'⟩ := ih tail
    refine ⟨own ++ added, arg :: args, .cons takes row, spelled.append spelled', ?_⟩
    rw [List.map_cons, named, named']

/-- Whatever was given, the missing arguments can be added. -/
theorem element_finishes (s : Shape) (given : List Argument) : ∃ added args e,
    Row (CommaTakes (argument s)) added args ∧ AllSpelled added ∧
      (ElementDraft.ofArguments (given ++ args)).finish s = .ok e := by
  obtain ⟨added, args, row, spelled, names⟩ := exists_arguments fun a (listed : a ∈ s.arguments) =>
    listed
  have all : ∀ a ∈ s.arguments, (ElementDraft.ofArguments (given ++ args)).has a := by
    intro a listed
    rw [← names] at listed
    obtain ⟨arg, inside, named⟩ := List.mem_map.1 listed
    rw [ElementDraft.ofArguments, List.foldl_append, ElementDraft.has_foldl, Bool.or_eq_true,
      List.any_eq_true]
    exact .inl ⟨arg, inside, decide_eq_true named⟩
  obtain ⟨e, finished⟩ := ElementDraft.exists_finish all
  exact ⟨added, args, e, row, spelled, finished⟩

/-- Where an element fails, tokens can be put that finish it. -/
theorem element_completes : Completes element whatever :=
  shape_completes.andThen fun s => (mark_completes _ _).andThen fun _ =>
    separated_completes (argument_wordFirst s) (argument_completes s) (element_finishes s)

theorem element_wordFirst : WordFirst element :=
  WordFirst.bind fun _ _ _ read => ⟨_, congrArg List.head? (shape_eq_ok.1 read)⟩

theorem repeats_item {α : Type} {item : Reader α} (words : WordFirst item)
    (completes : Completes item noComma) : Repeats atCloseBrace item noComma where
  words := words
  goes _ := rfl
  next w := by simp [noComma]
  ends next stops := by
    have close : next = some (.mark .closeBrace) := of_decide_eq_true stops
    simp [noComma, close]
  completes := completes

theorem repeats_whatever {α : Type} {stop : Option Token → Bool} {item : Reader α}
    (words : WordFirst item) (goes : ∀ w, stop (some (.word w)) = false)
    (completes : Completes item whatever) : Repeats stop item whatever :=
  ⟨words, goes, fun _ => trivial, fun _ _ => trivial, completes⟩

theorem keyword_wordFirst (name construct : String) : WordFirst (keyword name construct) :=
  fun _ _ _ read => ⟨_, congrArg List.head? (keyword_eq_ok.1 read)⟩

theorem fade_completes : Completes fade whatever := by
  refine (keyword_completes _ (word_spelled (by decide))).andThen fun _ =>
    (mark_completes _ _).andThen fun _ => (text_completes _).andThen fun _ =>
    (mark_completes _ _).andThen fun _ => direction_completes.andThen fun _ =>
    (mark_completes _ _).andThen fun _ =>
    (keyword_completes _ (word_spelled (by decide))).andThen fun _ =>
    (colonAfter_completes _).andThen fun _ => (duration_completes _ _).andThen fun _ =>
    skipComma_completes.bind (fun _ => (mark_completes _ _).andThen fun _ => pure_completes _ _) ?_
  -- The optional comma is followed by a bracket.
  intro _ ts f rest read _
  obtain ⟨_, mid, closed, -⟩ := bind_eq_ok.1 read
  rw [mark_eq_ok.1 closed]
  simp [noComma]

theorem command_completes : Completes command noComma :=
  fade_completes.andComma

theorem commands_repeat : Repeats atCloseBrace command noComma :=
  repeats_item (WordFirst.bind (WordFirst.bind (keyword_wordFirst _ _))) command_completes

theorem event_completes : Completes event noComma :=
  (keyword_completes _ (word_spelled (by decide))).andThen fun _ =>
    (duration_completes _ _).andThen fun _ => (block_completes commands_repeat).andComma

theorem events_repeat : Repeats atCloseBrace event noComma :=
  repeats_item (WordFirst.bind (keyword_wordFirst _ _)) event_completes

theorem visuals_repeat : Repeats atCloseBrace visual noComma :=
  repeats_item (WordFirst.bind element_wordFirst) element_completes.andComma

theorem sceneValue_completes (w : SceneWord) : Completes (sceneValue w) whatever := by
  cases w with
  | duration => exact (duration_completes _ _).andThen fun _ => pure_completes _ _
  | narration => exact (text_completes _).andThen fun _ => pure_completes _ _
  | visuals => exact (block_completes visuals_repeat).andThen fun _ => pure_completes _ _
  | timeline => exact (block_completes events_repeat).andThen fun _ => pure_completes _ _

theorem sceneProperty_completes : Completes sceneProperty whatever :=
  sceneWord_completes.andThen fun _ => (colonAfter_completes _).andThen fun _ =>
    sceneValue_completes _

theorem properties_repeat : Repeats atCloseBrace sceneProperty whatever :=
  repeats_whatever
    (WordFirst.bind fun _ _ _ read => ⟨_, congrArg List.head? (sceneWord_eq_ok.1 read)⟩)
    (fun _ => rfl) sceneProperty_completes

/-- A duration makes the scene whole. -/
theorem scene_finishes (title : String) (given : List SceneProperty) : ∃ added props s,
    Row (Takes sceneProperty whatever) added props ∧ AllSpelled added ∧
      (SceneDraft.ofProperties (given ++ props)).finish title = .ok s := by
  have takes : Takes sceneProperty whatever [.word "duration", .mark .colon, .duration one]
      (.duration one) := by
    intro rest _
    simp only [sceneProperty, bind_eq_ok, sceneWord_eq_ok, colonAfter_eq_ok]
    refine ⟨.duration, _, rfl, (), _, rfl, ?_⟩
    simp only [sceneValue, bind_eq_ok, duration_eq_ok, pure_eq_ok]
    exact ⟨one, _, ⟨rfl, one_not_negative⟩, rfl, rfl⟩
  have spelled : AllSpelled [.word "duration", .mark .colon, .duration one] :=
    .cons (word_spelled (by decide)) (.cons (mark_spelled _) (.cons duration_spelled .nil))
  have finished :
      ∃ s, (SceneDraft.ofProperties (given ++ [.duration one])).finish title = .ok s := by
    rw [SceneDraft.ofProperties, List.foldl_append]
    exact ⟨_, rfl⟩
  obtain ⟨s, finished⟩ := finished
  exact ⟨_, [.duration one], s, .single takes, spelled, finished⟩

theorem scene_completes : Completes scene whatever :=
  (keyword_completes _ (word_spelled (by decide))).andThen fun _ =>
    (text_completes _).andThen fun title => (mark_completes _ _).andThen fun _ =>
      properties_repeat.then_completes (close_concludes (scene_finishes title))

theorem dimensions_completes : Completes dimensions whatever :=
  (mark_completes _ _).andThen fun _ => (size_completes _).andThen fun _ =>
    (mark_completes _ _).andThen fun _ => (size_completes _).andThen fun _ =>
      (mark_completes _ _).andThen fun _ => pure_completes _ _

theorem videoProperty_completes : Completes videoProperty whatever := by
  have spelled : (Token.word "dimensions").Spelled := word_spelled (by decide)
  refine Completes.andThen (take_completes spelled (a := ()) ?_) fun _ =>
    (colonAfter_completes _).andThen fun _ => dimensions_completes
  exact if_pos rfl

theorem videoProperties_repeat : Repeats atCloseBrace videoProperty whatever := by
  refine repeats_whatever (WordFirst.bind ?_) (fun _ => rfl) videoProperty_completes
  intro ts a rest read
  obtain ⟨t, accepts, rfl⟩ := take_eq_ok.1 read
  cases t with
  | word w => exact ⟨w, rfl⟩
  | number | duration | text | mark => cases accepts

/-- Any dimensions make the video block whole. -/
theorem video_finishes (given : List Canvas) : ∃ added sizes c,
    Row (Takes videoProperty whatever) added sizes ∧ AllSpelled added ∧
      lastCanvas (given ++ sizes) = .ok c := by
  obtain ⟨added, c, spelled, takes⟩ := videoProperty_completes.start
  exact ⟨added, [c], c, .single takes, spelled, lastCanvas_eq_ok.2 List.getLast?_concat⟩

theorem video_completes : Completes video whatever :=
  (keyword_completes _ (word_spelled (by decide))).andThen fun _ =>
    (mark_completes _ _).andThen fun _ =>
      videoProperties_repeat.then_completes (close_concludes video_finishes)

theorem scenes_repeat : Repeats Option.isNone scene whatever :=
  repeats_whatever (WordFirst.bind (keyword_wordFirst _ _)) (fun _ => rfl) scene_completes

/-- Without a scene whatever comes next is refused. -/
theorem not_ok_of_no_scene {canvas : Canvas} {p : Program} :
    (do take "at least one `scene` block" fun _ => (.unexpected : Verdict Unit)
        return (⟨canvas, []⟩ : Program) : Reader Program) ts ≠ .ok (p, rest) := by
  intro read
  obtain ⟨_, _, none, -⟩ := bind_eq_ok.1 read
  obtain ⟨_, accepts, -⟩ := take_eq_ok.1 none
  cases accepts

/-- After the scenes nothing may follow, and without one another scene is missing. -/
theorem scenes_conclude (canvas : Canvas) : Concludes Option.isNone scene whatever
    (fun scenes => do
      if scenes.isEmpty then
        take "at least one `scene` block" fun _ => .unexpected
      return (⟨canvas, scenes⟩ : Program))
    (fun next => next.isNone) := by
  constructor
  · intro scenes ts m failed
    cases scenes with
    | nil =>
      rcases bind_eq_error failed with failed | ⟨_, _, -, failed⟩
      · exact take_of_error failed
      · cases failed
    | cons s scenes => cases failed
  · intro scenes ts p rest read
    cases scenes with
    | nil => exact absurd read not_ok_of_no_scene
    | cons s scenes =>
      obtain ⟨rfl, rfl⟩ := pure_eq_ok.1 read
      exact ⟨[], rfl, fun _ _ => rfl⟩
  · intro scenes ts p rest read ended
    cases scenes with
    | nil => exact absurd read not_ok_of_no_scene
    | cons s scenes =>
      obtain ⟨rfl, rfl⟩ := pure_eq_ok.1 read
      exact ended
  · intro scenes
    obtain ⟨added, s, spelled, takes⟩ := scene_completes.start
    refine ⟨added, [s], [], ⟨canvas, scenes ++ [s]⟩, .single takes, ?_, ?_, spelled.append .nil⟩
    · intro rest _
      cases scenes <;> rfl
    · intro none
      obtain ⟨w, first⟩ := scenes_repeat.words _ _ _ (takes [] trivial)
      rw [none] at first
      cases first

/-- A script that was cut off can be finished. -/
theorem program_completes : Completes program (fun next => next.isNone) :=
  video_completes.andThen fun canvas => scenes_repeat.then_completes (scenes_conclude canvas)

end Reader
end Storyboard.Script
